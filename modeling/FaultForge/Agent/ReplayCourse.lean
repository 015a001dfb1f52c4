import FaultForge.Agent.Replay

/-!
# The replay of one entry (supervisor.rs:749-898)

`replay_entry` drives the machine with queues of its own. `replayPerformed` lists the effects that its loop performs,
each with the answer it got; `Runs` follows the loop segment by segment: one effect, one event, one attempt of a
command, both attempts of a recovery command (`Runs.command`). Put together they say what every replay does
(`replay_entry_recovers`).
-/
namespace FaultForge.Agent

/-! ## What the loop performs -/

section
variable (X : Ext) (timeoutSecs : UInt64) (entry : JournalEntry)

/-- The effects of the loop with their answers, turn by turn as `replayLoop`. -/
def replayPerformed (env : Nat → Answer) : Nat → Replay → List (Effect × Answer)
  | 0, _ => []
  | fuel + 1, r =>
    match replayTurn X timeoutSecs entry (env fuel) r with
    | none => []
    | some r' => (r.effects.head?.map fun effect => (effect, env fuel)).toList ++ replayPerformed env fuel r'

/-- The invocation that gets this answer succeeds. -/
def Succeeds (command : PluginCommand) (answer : Answer) : Prop :=
  (replayInvoke X timeoutSecs entry command answer).1 = .commandFinished command .success

/-- One command of a recovery: tried once, or once more after a failure. The flag says whether it succeeded. -/
inductive Tried (command : PluginCommand) : List (Effect × Answer) → Bool → Prop
  | first (a : Answer) : Succeeds X timeoutSecs entry command a → Tried command [(.invoke command .runtime, a)] true
  | second (a b : Answer) : ¬ Succeeds X timeoutSecs entry command a → Succeeds X timeoutSecs entry command b →
      Tried command [(.invoke command .runtime, a), (.invoke command .runtime, b)] true
  | failed (a b : Answer) : ¬ Succeeds X timeoutSecs entry command a → ¬ Succeeds X timeoutSecs entry command b →
      Tried command [(.invoke command .runtime, a), (.invoke command .runtime, b)] false

/-- `abort`, and `cleanup` only once `abort` has succeeded. -/
inductive RecoveryTried : List (Effect × Answer) → Bool → Prop
  | aborting {aborts : List (Effect × Answer)} : Tried X timeoutSecs entry .abort aborts false →
      RecoveryTried aborts false
  | cleaning {aborts cleanups : List (Effect × Answer)} {ok : Bool} : Tried X timeoutSecs entry .abort aborts true →
      Tried X timeoutSecs entry .cleanup cleanups ok → RecoveryTried (aborts ++ cleanups) ok

/-- From `r` with `fuel` turns left the loop performs `log` and comes to `r'` with `fuel'` turns left. -/
structure Runs (env : Nat → Answer) (fuel : Nat) (r : Replay) (log : List (Effect × Answer)) (fuel' : Nat)
    (r' : Replay) : Prop where
  loop : replayLoop X timeoutSecs entry env fuel r = replayLoop X timeoutSecs entry env fuel' r'
  performed : replayPerformed X timeoutSecs entry env fuel r =
    log ++ replayPerformed X timeoutSecs entry env fuel' r'

end

/-! ## Segments -/

section
variable {X : Ext} {timeoutSecs : UInt64} {entry : JournalEntry} {env : Nat → Answer} {fuel fuel₁ fuel₂ : Nat}
  {r r₁ r₂ : Replay}

theorem Runs.trans {log log₁ : List (Effect × Answer)} (h : Runs X timeoutSecs entry env fuel r log fuel₁ r₁)
    (h₁ : Runs X timeoutSecs entry env fuel₁ r₁ log₁ fuel₂ r₂) :
    Runs X timeoutSecs entry env fuel r (log ++ log₁) fuel₂ r₂ :=
  ⟨h.loop.trans h₁.loop, by rw [h.performed, h₁.performed, List.append_assoc]⟩

theorem Runs.effect (X : Ext) (timeoutSecs : UInt64) (entry : JournalEntry) (env : Nat → Answer) (fuel : Nat)
    {effect : Effect} {rest : List Effect} (heff : r.effects = effect :: rest) :
    Runs X timeoutSecs entry env (fuel + 1) r [(effect, env fuel)] fuel
      (replayEffect X timeoutSecs entry (env fuel) { r with effects := rest } effect) := by
  have hturn : replayTurn X timeoutSecs entry (env fuel) r =
      some (replayEffect X timeoutSecs entry (env fuel) { r with effects := rest } effect) := by
    unfold replayTurn
    rw [heff]
  constructor
  · simp only [replayLoop, hturn]
  · simp only [replayPerformed, hturn, heff, List.head?_cons, Option.map_some, Option.toList_some]

/-- The loop takes `event`. -/
def Replay.take (r : Replay) (event : Event) (queue : List Event) : Replay :=
  { r with state := (step r.state event).1, queue, effects := (step r.state event).2 }

theorem Runs.event (X : Ext) (timeoutSecs : UInt64) (entry : JournalEntry) (env : Nat → Answer) (fuel : Nat)
    {event : Event} {queue : List Event} (heff : r.effects = []) (hq : r.queue = event :: queue) :
    Runs X timeoutSecs entry env (fuel + 1) r [] fuel (r.take event queue) := by
  have hturn : replayTurn X timeoutSecs entry (env fuel) r = some (r.take event queue) := by
    unfold replayTurn
    rw [heff, hq]
    rfl
  constructor
  · simp only [replayLoop, hturn]
  · simp only [replayPerformed, hturn, heff, List.head?_nil, Option.map_none, Option.toList_none]

/-- With nothing left to do the loop ends. -/
theorem Runs.ends {log : List (Effect × Answer)} (h : Runs X timeoutSecs entry env fuel r log fuel₁ r₁)
    (heff : r₁.effects = []) (hq : r₁.queue = []) :
    replayLoop X timeoutSecs entry env fuel r = r₁ ∧ replayPerformed X timeoutSecs entry env fuel r = log := by
  have hturn : ∀ answer, replayTurn X timeoutSecs entry answer r₁ = none := by
    intro answer
    unfold replayTurn
    rw [heff, hq]
  rw [h.loop, h.performed]
  cases fuel₁ with
  | zero => exact ⟨rfl, List.append_nil log⟩
  | succ fuel₁ => simp only [replayLoop, replayPerformed, hturn, List.append_nil, and_self]

/-! ### One attempt -/

/-- Frames of telemetry, all about the entry. -/
def Telling (entry : JournalEntry) (frames : List AgentMessage) : Prop :=
  ∀ frame ∈ frames, ∃ line, frame = .faultEvent entry.instanceId line

theorem Telling.append {frames more : List AgentMessage} (h : Telling entry frames) (hmore : Telling entry more) :
    Telling entry (frames ++ more) := by
  intro frame hm
  rcases List.mem_append.1 hm with hm | hm
  · exact h frame hm
  · exact hmore frame hm

theorem replayInvoke_telling (X : Ext) (timeoutSecs : UInt64) (entry : JournalEntry) (command : PluginCommand)
    (answer : Answer) : Telling entry (replayInvoke X timeoutSecs entry command answer).2 := by
  intro frame hm
  unfold replayInvoke at hm
  split at hm
  next => cases hm
  next =>
    obtain ⟨line, -, hf⟩ := List.mem_filterMap.1 hm
    cases line with
    | raw line => exact ⟨line, (Option.some.inj hf).symm⟩
    | log msg =>
      obtain ⟨text, -, rfl⟩ := Option.map_eq_some_iff.1 hf
      exact ⟨text, rfl⟩

theorem replayInvoke_failure {command : PluginCommand} {answer : Answer}
    (h : ¬ Succeeds X timeoutSecs entry command answer) :
    (replayInvoke X timeoutSecs entry command answer).1.FailureOf command := by
  unfold Succeeds at h
  unfold replayInvoke at h ⊢
  split at h
  next => exact .rejected _
  next =>
    cases hs : answer.invocation.status with
    | code c => exact .exit _ fun hd => h (by simp [hs, invocationEvent, hd])
    | timedOut | signalled | failed => exact .invocation _

/-- The loop runs `command`, and takes what it reports. -/
def Replay.attempt (X : Ext) (timeoutSecs : UInt64) (entry : JournalEntry) (command : PluginCommand)
    (answer : Answer) (r : Replay) : Replay where
  state := (step r.state (replayInvoke X timeoutSecs entry command answer).1).1
  queue := []
  effects := (step r.state (replayInvoke X timeoutSecs entry command answer).1).2
  result := { r.result with
    frames := r.result.frames ++ (replayInvoke X timeoutSecs entry command answer).2
    invoked := (entry.instanceId, command) :: r.result.invoked }

theorem Runs.attempt (X : Ext) (timeoutSecs : UInt64) (entry : JournalEntry) (env : Nat → Answer) (fuel : Nat)
    {command : PluginCommand} {phase : Phase} (heff : r.effects = [.invoke command phase]) (hq : r.queue = []) :
    Runs X timeoutSecs entry env (fuel + 2) r [(.invoke command phase, env (fuel + 1))] fuel
      (r.attempt X timeoutSecs entry command (env (fuel + 1))) := by
  have hinvoke := Runs.effect X timeoutSecs entry env (fuel + 1) heff
  have hq' : (replayEffect X timeoutSecs entry (env (fuel + 1)) { r with effects := [] }
      (.invoke command phase)).queue = [(replayInvoke X timeoutSecs entry command (env (fuel + 1))).1] := by
    simp [replayEffect, hq]
  exact hinvoke.trans (Runs.event X timeoutSecs entry env fuel rfl hq')

/-! ### The attempts of one command -/

theorem stepRecovering_failure (rec : Recovery) {e : Event} (hf : e.FailureOf rec.current) :
    ∃ detail, stepRecovering rec e = recoveryFailure rec detail := by
  cases hf with
  | exit d hd => cases d <;> first | exact absurd rfl hd | exact ⟨_, if_pos rfl⟩
  | invocation reason => exact ⟨reason, if_pos rfl⟩
  | rejected reason => exact ⟨reason, if_pos rfl⟩

/-- A success does not ask whether the command was retried. -/
theorem stepRecovering_success (rec : Recovery) (retried : Bool) :
    stepRecovering { rec with retried } (.commandFinished rec.current .success) =
      stepRecovering rec (.commandFinished rec.current .success) := by
  simp only [stepRecovering, if_true]

/-- The machine as a recovery command leaves it: past it, or in quarantine. -/
def Replay.After (r : Replay) (rec : Recovery) (ok : Bool) : Prop :=
  r.queue = [] ∧
    if ok then (r.state, r.effects) = stepRecovering rec (.commandFinished rec.current .success)
    else ∃ reason, (r.state, r.effects) =
      (.error, [.markTainted reason, .removeJournal, .emitStatus .error (some reason)])

theorem Replay.attempt_succeeds {rec : Recovery} {answer : Answer} (hst : r.state = .recovering rec)
    (h : Succeeds X timeoutSecs entry rec.current answer) :
    (r.attempt X timeoutSecs entry rec.current answer).After rec true := by
  refine ⟨rfl, ?_⟩
  simp only [Replay.attempt, show (replayInvoke X timeoutSecs entry rec.current answer).1 = _ from h, hst]
  rfl

theorem Replay.attempt_fails {rec : Recovery} {answer : Answer} (hst : r.state = .recovering rec)
    (h : ¬ Succeeds X timeoutSecs entry rec.current answer) :
    ∃ detail, ((r.attempt X timeoutSecs entry rec.current answer).state,
      (r.attempt X timeoutSecs entry rec.current answer).effects) = recoveryFailure rec detail := by
  obtain ⟨detail, hfail⟩ := stepRecovering_failure rec (replayInvoke_failure h)
  refine ⟨detail, ?_⟩
  simp only [Replay.attempt, hst, ← hfail]
  rfl

/-- What `n` invocations of `command` leave in the result. -/
def Replayed.invoking (result : Replayed) (entry : JournalEntry) (command : PluginCommand) (n : Nat)
    (frames : List AgentMessage) : Replayed :=
  { result with
    frames := result.frames ++ frames
    invoked := List.replicate n (entry.instanceId, command) ++ result.invoked }

/-- **One recovery command**, from its first invocation on. -/
theorem Runs.command (X : Ext) (timeoutSecs : UInt64) (entry : JournalEntry) (env : Nat → Answer) (fuel : Nat)
    {rec : Recovery} (hst : r.state = .recovering rec) (hfresh : rec.retried = false)
    (heff : r.effects = [.invoke rec.current .runtime]) (hq : r.queue = []) :
    ∃ log ok fuel' r' frames, fuel ≤ fuel' ∧ Runs X timeoutSecs entry env (fuel + 4) r log fuel' r' ∧
      Tried X timeoutSecs entry rec.current log ok ∧ r'.After rec ok ∧ Telling entry frames ∧
      r'.result = r.result.invoking entry rec.current log.length frames := by
  have hfirst := Runs.attempt X timeoutSecs entry env (fuel + 2) heff hq
  generalize env (fuel + 2 + 1) = a at hfirst
  have htell := replayInvoke_telling X timeoutSecs entry rec.current a
  by_cases ha : Succeeds X timeoutSecs entry rec.current a
  · refine ⟨_, true, _, _, _, by omega, hfirst, .first a ha, ?_, htell, rfl⟩
    exact Replay.attempt_succeeds hst ha
  · -- the first attempt fails, and is repeated
    obtain ⟨detail, hfail⟩ := Replay.attempt_fails hst ha
    rw [recoveryFailure, if_neg (by simp [hfresh])] at hfail
    obtain ⟨hst', heff'⟩ := Prod.mk.inj hfail
    have hsecond := Runs.attempt X timeoutSecs entry env fuel heff' rfl
    generalize env (fuel + 1) = b at hsecond
    have htells := htell.append (replayInvoke_telling X timeoutSecs entry rec.current b)
    have hresult : ((r.attempt X timeoutSecs entry rec.current a).attempt X timeoutSecs entry rec.current b).result =
        r.result.invoking entry rec.current 2 ((replayInvoke X timeoutSecs entry rec.current a).2 ++
          (replayInvoke X timeoutSecs entry rec.current b).2) := by
      simp [Replay.attempt, Replayed.invoking, List.replicate]
    have hrun := hfirst.trans hsecond
    generalize r.attempt X timeoutSecs entry rec.current a = r₁ at hst' hrun hresult
    by_cases hb : Succeeds X timeoutSecs entry rec.current b
    · refine ⟨_, true, _, _, _, Nat.le_refl _, hrun, .second a b ha hb, ?_, htells, hresult⟩
      have hafter := Replay.attempt_succeeds hst' hb
      unfold Replay.After at hafter ⊢
      rwa [stepRecovering_success rec true] at hafter
    · refine ⟨_, false, _, _, _, Nat.le_refl _, hrun, .failed a b ha hb, ⟨rfl, ?_⟩, htells, hresult⟩
      obtain ⟨detail', hfail'⟩ := Replay.attempt_fails hst' hb
      exact ⟨_, hfail'⟩

/-! ### The end of a recovery -/

/-- What `Journal::remove` leaves of the journal, when it returns `error`. -/
def JournalEntry.removed (entry : JournalEntry) (error : Option String)
    (journal : AList fun _ : String => JournalEntry) : AList fun _ : String => JournalEntry :=
  if error = none then journal.erase entry.instanceId else journal

def JournalEntry.status (entry : JournalEntry) (state : InstanceState) (reason : Option String) (now : Int) :
    AgentMessage :=
  statusFrame entry.instanceId state reason entry.pluginDigest now

theorem Replayed.mark_congr {a b : Replayed} (h : a.taint = b.taint) (record : TaintRecord) (error : Option String) :
    (a.mark record error).taint = (b.mark record error).taint := by
  cases hb : b.taint <;> cases error <;> simp [Replayed.mark, h, hb]

theorem Runs.close {state : InstanceState} {reason : Option String}
    (heff : r.effects = [.removeJournal, .emitStatus state reason]) :
    Runs X timeoutSecs entry env (fuel + 2) r
      [(.removeJournal, env (fuel + 1)), (.emitStatus state reason, env fuel)] fuel
      { r with
        effects := []
        result := { r.result with
          journal := entry.removed (env (fuel + 1)).error r.result.journal
          frames := r.result.frames ++ [entry.status state reason (env fuel).now] } } := by
  have hremove := Runs.effect X timeoutSecs entry env (fuel + 1) heff
  have heff' : (replayEffect X timeoutSecs entry (env (fuel + 1)) { r with effects := [.emitStatus state reason] }
      .removeJournal).effects = [.emitStatus state reason] := by
    simp only [replayEffect]
    split <;> rfl
  have hemit := hremove.trans (Runs.effect X timeoutSecs entry env fuel heff')
  cases herror : (env (fuel + 1)).error <;>
    simpa [replayEffect, herror, JournalEntry.removed, JournalEntry.status] using hemit

theorem Runs.quarantine {reason : String}
    (heff : r.effects = [.markTainted reason, .removeJournal, .emitStatus .error (some reason)]) :
    Runs X timeoutSecs entry env (fuel + 3) r
      [(.markTainted reason, env (fuel + 2)), (.removeJournal, env (fuel + 1)),
        (.emitStatus .error (some reason), env fuel)] fuel
      { r with
        effects := []
        result := { r.result with
          journal := entry.removed (env (fuel + 1)).error r.result.journal
          taint := (r.result.mark ⟨reason, (env (fuel + 2)).now, entry.instanceId⟩ (env (fuel + 2)).error).taint
          frames := r.result.frames ++
            [taintStatusFrame (((r.result.mark ⟨reason, (env (fuel + 2)).now, entry.instanceId⟩
                (env (fuel + 2)).error).taint).or (some ⟨reason, (env (fuel + 2)).now, entry.instanceId⟩))
              (env (fuel + 2)).now,
              entry.status .error (some reason) (env fuel).now] } } := by
  have hmark := Runs.effect X timeoutSecs entry env (fuel + 2) heff
  have hclose := hmark.trans (Runs.close rfl)
  cases ht : r.result.taint <;> cases herror : (env (fuel + 2)).error <;>
    simpa [replayEffect, Replayed.mark, ht, herror] using hclose

end

/-! ## The whole replay -/

section
variable (X : Ext) (timeoutSecs : UInt64) (entry : JournalEntry) (now : Int) (env : Nat → Answer) (result : Replayed)

def REPLAY_REASON : String := "recovered after agent restart"

/-- Where the replay of an entry starts. -/
def replayStart : Replay where
  state := (State.replayRecovery (replayOutcome now entry) REPLAY_REASON).1
  queue := []
  effects := (State.replayRecovery (replayOutcome now entry) REPLAY_REASON).2
  result := result

def replayEntryPerformed : List (Effect × Answer) :=
  replayPerformed X timeoutSecs entry env REPLAY_TURNS (replayStart entry now result)

/-- The commands invoked, as `Replayed.invoked` records them. -/
def invokedIn (performed : List (Effect × Answer)) : List (String × PluginCommand) :=
  performed.filterMap fun
    | (.invoke command _, _) => some (entry.instanceId, command)
    | _ => none

theorem replayEntry_eq : replayEntry X timeoutSecs entry now env result =
    replayLoop X timeoutSecs entry env REPLAY_TURNS (replayStart entry now result) := rfl

/-- What the replay of an entry amounts to: the `attempts` made, whether they recovered the host (`ok`), and what was
performed, left on disk and reported around them. -/
structure EntryReplayed (attempts : List (Effect × Answer)) (ok : Bool) (final : Replay) : Prop where
  tried : RecoveryTried X timeoutSecs entry attempts ok
  finished : final.effects = [] ∧ final.queue = []
  state : final.state = if ok then (replayOutcome now entry).state else .error
  invoked : final.result.invoked = (invokedIn entry attempts).reverse ++ result.invoked
  reported : ∃ first mark remove last reason telemetry, Telling entry telemetry ∧
    replayEntryPerformed X timeoutSecs entry now env result =
      (.emitStatus .recovering (some REPLAY_REASON), first) :: attempts ++
        (if ok then [] else [(.markTainted reason, mark)]) ++
        [(.removeJournal, remove), (.emitStatus final.state.instanceState (some reason), last)] ∧
    final.result.journal = entry.removed remove.error result.journal ∧
    final.result.taint = (if ok then result.taint
      else (result.mark ⟨reason, mark.now, entry.instanceId⟩ mark.error).taint) ∧
    final.result.frames = result.frames ++ entry.status .recovering (some REPLAY_REASON) first.now :: telemetry ++
      (if ok then [] else [taintStatusFrame (((result.mark ⟨reason, mark.now, entry.instanceId⟩ mark.error).taint).or
        (some ⟨reason, mark.now, entry.instanceId⟩)) mark.now]) ++
      [entry.status final.state.instanceState (some reason) last.now]

/-- The loop, with the recovery commands behind it. -/
structure Reached (attempts : List (Effect × Answer)) (first : Answer) (telemetry : List AgentMessage) (fuel : Nat)
    (r : Replay) : Prop where
  runs : Runs X timeoutSecs entry env REPLAY_TURNS (replayStart entry now result)
    ((.emitStatus .recovering (some REPLAY_REASON), first) :: attempts) fuel r
  queue : r.queue = []
  telling : Telling entry telemetry
  result : r.result = { result with
    frames := result.frames ++ entry.status .recovering (some REPLAY_REASON) first.now :: telemetry
    invoked := (invokedIn entry attempts).reverse ++ result.invoked }

variable {X timeoutSecs entry now env result}

theorem Tried.invoked {command : PluginCommand} {log : List (Effect × Answer)} {ok : Bool}
    (h : Tried X timeoutSecs entry command log ok) :
    invokedIn entry log = List.replicate log.length (entry.instanceId, command) := by
  cases h <;> rfl

theorem Tried.length_le {command : PluginCommand} {log : List (Effect × Answer)} {ok : Bool}
    (h : Tried X timeoutSecs entry command log ok) : 1 ≤ log.length ∧ log.length ≤ 2 := by
  cases h <;> simp

/-- A command more. -/
theorem Reached.command {attempts log : List (Effect × Answer)} {first : Answer} {telemetry frames : List AgentMessage}
    {command : PluginCommand} {ok : Bool} {fuel fuel' : Nat} {r r' : Replay}
    (h : Reached X timeoutSecs entry now env result attempts first telemetry fuel r)
    (hrun : Runs X timeoutSecs entry env fuel r log fuel' r') (hq : r'.queue = [])
    (htried : Tried X timeoutSecs entry command log ok) (htell : Telling entry frames)
    (hresult : r'.result = r.result.invoking entry command log.length frames) :
    Reached X timeoutSecs entry now env result (attempts ++ log) first (telemetry ++ frames) fuel' r' where
  runs := h.runs.trans hrun
  queue := hq
  telling := h.telling.append htell
  result := by
    have hsplit : invokedIn entry (attempts ++ log) = invokedIn entry attempts ++ invokedIn entry log :=
      List.filterMap_append
    rw [hresult, h.result, hsplit, htried.invoked]
    simp [Replayed.invoking]

/-- The recovery ends as it was heading to. -/
theorem Reached.recovered {attempts : List (Effect × Answer)} {first : Answer} {telemetry : List AgentMessage}
    {fuel : Nat} {r : Replay}
    (h : Reached X timeoutSecs entry now env result attempts first telemetry (fuel + 2) r)
    (htried : RecoveryTried X timeoutSecs entry attempts true)
    (hr : (r.state, r.effects) = ((replayOutcome now entry).state,
      [.removeJournal, .emitStatus (replayOutcome now entry).terminalState (some REPLAY_REASON)])) :
    EntryReplayed X timeoutSecs entry now env result attempts true
      (replayEntry X timeoutSecs entry now env result) := by
  obtain ⟨hst, heff⟩ := Prod.mk.inj hr
  obtain ⟨hloop, hperformed⟩ := (h.runs.trans (Runs.close heff)).ends rfl h.queue
  have hstate : (replayOutcome now entry).terminalState = (replayOutcome now entry).state.instanceState := by
    cases replayOutcome now entry <;> rfl
  rw [replayEntry_eq, hloop]
  refine ⟨htried, ⟨rfl, h.queue⟩, hst, by simp only [h.result], ?_⟩
  refine ⟨first, first, env (fuel + 1), env fuel, REPLAY_REASON, telemetry, h.telling, ?_, ?_, ?_, ?_⟩
  · rw [replayEntryPerformed, hperformed]
    simp [hst, hstate]
  · simp only [h.result]
  · simp only [h.result, if_true]
  · simp [h.result, hst, hstate]

/-- A recovery command failed twice. -/
theorem Reached.failed {attempts : List (Effect × Answer)} {first : Answer} {telemetry : List AgentMessage}
    {fuel : Nat} {r : Replay} {reason : String}
    (h : Reached X timeoutSecs entry now env result attempts first telemetry (fuel + 3) r)
    (htried : RecoveryTried X timeoutSecs entry attempts false)
    (hr : (r.state, r.effects) =
      (.error, [.markTainted reason, .removeJournal, .emitStatus .error (some reason)])) :
    EntryReplayed X timeoutSecs entry now env result attempts false
      (replayEntry X timeoutSecs entry now env result) := by
  obtain ⟨hst, heff⟩ := Prod.mk.inj hr
  obtain ⟨hloop, hperformed⟩ := (h.runs.trans (Runs.quarantine heff)).ends rfl h.queue
  have hmark := Replayed.mark_congr (show r.result.taint = result.taint by rw [h.result])
  rw [replayEntry_eq, hloop]
  refine ⟨htried, ⟨rfl, h.queue⟩, hst, by simp only [h.result], ?_⟩
  refine ⟨first, env (fuel + 2), env (fuel + 1), env fuel, reason, telemetry, h.telling, ?_, ?_, ?_, ?_⟩
  · rw [replayEntryPerformed, hperformed]
    simp [hst, State.instanceState]
  · simp only [h.result]
  · simp [hmark]
  · have hframes : r.result.frames =
        result.frames ++ entry.status .recovering (some REPLAY_REASON) first.now :: telemetry := by rw [h.result]
    simp [hmark, hframes, hst, State.instanceState]

/-- After the first status, the commands of the recovery one by one. -/
theorem replayEntry_course (X : Ext) (timeoutSecs : UInt64) (entry : JournalEntry) (now : Int)
    (env : Nat → Answer) (result : Replayed) :
    ∃ attempts ok, EntryReplayed X timeoutSecs entry now env result attempts ok
      (replayEntry X timeoutSecs entry now env result) := by
  have hemit := Runs.effect X timeoutSecs entry env 15 (r := replayStart entry now result) rfl
  have hopen : Reached X timeoutSecs entry now env result [] (env 15) [] 15 _ :=
    ⟨hemit, rfl, by simp [Telling], rfl⟩
  have hstate : (replayEffect X timeoutSecs entry (env 15) { replayStart entry now result with
      effects := [.invoke .abort .runtime] } (.emitStatus .recovering (some REPLAY_REASON))).state =
      .recovering ⟨.abort, [.cleanup], replayOutcome now entry, false, some REPLAY_REASON⟩ := rfl
  obtain ⟨aborts, ok, fuel, r, frames, hfuel, hrun, htried, ⟨hq, hafter⟩, htell, hresult⟩ :=
    Runs.command X timeoutSecs entry env 11 hstate rfl rfl rfl
  have haborted := hopen.command hrun hq htried htell hresult
  cases ok with
  | false =>
    obtain ⟨reason, hr⟩ := hafter
    obtain ⟨fuel, rfl⟩ : ∃ k, fuel = k + 3 := ⟨fuel - 3, by omega⟩
    exact ⟨aborts, false, haborted.failed (.aborting htried) hr⟩
  | true =>
    obtain ⟨hst, heff⟩ := Prod.mk.inj hafter
    obtain ⟨fuel, rfl⟩ : ∃ k, fuel = k + 4 := ⟨fuel - 4, by omega⟩
    obtain ⟨cleanups, ok, fuel', r', frames', hfuel', hrun', htried', ⟨hq', hafter'⟩, htell', hresult'⟩ :=
      Runs.command X timeoutSecs entry env fuel hst rfl heff hq
    have hcleaned := haborted.command hrun' hq' htried' htell' hresult'
    obtain ⟨fuel', rfl⟩ : ∃ k, fuel' = k + 3 := ⟨fuel' - 3, by omega⟩
    cases ok with
    | false =>
      obtain ⟨reason, hr⟩ := hafter'
      exact ⟨aborts ++ cleanups, false, hcleaned.failed (.cleaning htried htried') hr⟩
    | true => exact ⟨aborts ++ cleanups, true, hcleaned.recovered (.cleaning htried htried') hafter'⟩

/-- **The replay of one entry**, whatever its invocations answer: `abort` once or twice, and only if it succeeded
`cleanup` once or twice; then the quarantine if a command failed twice, the removal of the entry and the last status. -/
theorem replay_entry_recovers (X : Ext) (timeoutSecs : UInt64) (entry : JournalEntry) (now : Int)
    (env : Nat → Answer) (result : Replayed) :
    ∃ attempts ok, EntryReplayed X timeoutSecs entry now env result attempts ok
      (replayEntry X timeoutSecs entry now env result) :=
  replayEntry_course X timeoutSecs entry now env result

end

end FaultForge.Agent
