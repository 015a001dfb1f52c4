import FaultForge.Agent.Runtime

/-!
# Restart replay (supervisor.rs:691-898)

Before the first session every journaled instance is driven through `abort` and `cleanup` by the same machine, without
a task and without interruption. The answers of the environment are an oracle, one `Answer` for each turn of the loop.

| here | there |
| --- | --- |
| `replayInvoke` | `replay_invoke` supervisor.rs:828 |
| `replayEffect`, `replayTurn`, `replayEntry` | `replay_entry` supervisor.rs:749 |
| `replayJournal` | `replay_journal` supervisor.rs:702 |

The loop has no bound in the source. `replayEntry_finished` shows that `REPLAY_TURNS` turns are always enough, so the
bound used here is never what ends it.
-/
namespace FaultForge.Agent

/-! ## One entry -/

/-- What the environment answers in one turn: the clock, `resolve_verified`, `runner::invoke`, a file operation. -/
structure Answer where
  now : Int
  resolved : Except String VerifiedPlugin
  invocation : Invocation
  error : Option String

/-- What replay reads and leaves behind; `invoked` is for the statements only, newest first. -/
structure Replayed where
  journal : AList fun _ : String => JournalEntry
  taint : Option TaintRecord
  frames : List AgentMessage
  invoked : List (String × PluginCommand)

structure Replay where
  state : State
  queue : List Event
  effects : List Effect
  result : Replayed

/-- The digest gate of `replay_invoke`, with its own text for a digest that does not parse. -/
def replayGate (pluginDigest : String) (resolved : Except String VerifiedPlugin) : Except String VerifiedPlugin :=
  match Digest.parse pluginDigest with
  | .error e => .error s!"journaled digest invalid: {e.toString}"
  | .ok _ => resolved

def replayInvoke (X : Ext) (timeoutSecs : UInt64) (entry : JournalEntry) (command : PluginCommand) (answer : Answer) :
    Event × List AgentMessage :=
  match replayGate entry.pluginDigest answer.resolved with
  | .error reason => (.invokeRejected command reason, [])
  | .ok _ =>
    (invocationEvent X timeoutSecs command answer.invocation.status,
     (telemetry answer.invocation).filterMap fun line => line.frame X entry.instanceId answer.now)

/-- `Taint::mark`, as `Ctx.mark`. -/
def Replayed.mark (r : Replayed) (record : TaintRecord) (error : Option String) : Replayed :=
  match r.taint, error with
  | none, none => { r with taint := some record }
  | _, _ => r

def replayEffect (X : Ext) (timeoutSecs : UInt64) (entry : JournalEntry) (answer : Answer) (r : Replay) :
    Effect → Replay
  | .emitStatus state reason =>
    let frame := statusFrame entry.instanceId state reason entry.pluginDigest answer.now
    { r with result := { r.result with frames := r.result.frames ++ [frame] } }
  | .invoke command _ =>
    let (event, frames) := replayInvoke X timeoutSecs entry command answer
    { r with
      queue := r.queue ++ [event]
      result := { r.result with
        frames := r.result.frames ++ frames, invoked := (entry.instanceId, command) :: r.result.invoked } }
  | .removeJournal =>
    match answer.error with
    | none => { r with result := { r.result with journal := r.result.journal.erase entry.instanceId } }
    | some _ => r
  | .markTainted reason =>
    let record : TaintRecord := ⟨reason, answer.now, entry.instanceId⟩
    let result := r.result.mark record answer.error
    { r with result := { result with
        frames := result.frames ++ [taintStatusFrame (result.taint.or (some record)) answer.now] } }
  -- The entry already exists.
  | .writeJournal => r

/-- One effect, or one event when no effect is left; `none` ends the loop. The source's second `break` (a terminal
state with nothing queued) only leaves one turn earlier. -/
def replayTurn (X : Ext) (timeoutSecs : UInt64) (entry : JournalEntry) (answer : Answer) (r : Replay) :
    Option Replay :=
  match r.effects with
  | effect :: rest => some (replayEffect X timeoutSecs entry answer { r with effects := rest } effect)
  | [] =>
    match r.queue with
    | [] => none
    | event :: queue =>
      let (state, effects) := step r.state event
      some { r with state, queue, effects }

def replayLoop (X : Ext) (timeoutSecs : UInt64) (entry : JournalEntry) (env : Nat → Answer) : Nat → Replay → Replay
  | 0, r => r
  | fuel + 1, r =>
    match replayTurn X timeoutSecs entry (env fuel) r with
    | none => r
    | some r => replayLoop X timeoutSecs entry env fuel r

def REPLAY_TURNS : Nat := 16

/-- The outcome reported for a journaled instance: past the dead-man it is an error. -/
def replayOutcome (now : Int) (entry : JournalEntry) : Outcome :=
  if now.tdiv 1000 < entry.deadlineUnix then .aborted else .error

def replayEntry (X : Ext) (timeoutSecs : UInt64) (entry : JournalEntry) (now : Int) (env : Nat → Answer)
    (result : Replayed) : Replay :=
  let (state, effects) := State.replayRecovery (replayOutcome now entry) "recovered after agent restart"
  replayLoop X timeoutSecs entry env REPLAY_TURNS { state, queue := [], effects, result }

/-! ## The whole journal -/

/-- The entries in order; one that cannot be read taints the host. -/
def replayEntries (X : Ext) (timeoutSecs : UInt64) (now : Int) :
    List (Except String JournalEntry) → (Nat → Nat → Answer) → Replayed → Replayed
  | [], _, r => r
  | .ok entry :: rest, env, r =>
    replayEntries X timeoutSecs now rest (fun i => env (i + 1)) (replayEntry X timeoutSecs entry now (env 0) r).result
  | .error e :: rest, env, r =>
    let record : TaintRecord := ⟨s!"unreadable journal entry at startup: {e}", now, ""⟩
    let r := r.mark record (env 0 0).error
    replayEntries X timeoutSecs now rest (fun i => env (i + 1))
      { r with frames := r.frames ++ [taintStatusFrame (r.taint.or (some record)) now] }

/-- `entries` is what `Journal::list` returns. -/
def replayJournal (X : Ext) (timeoutSecs : UInt64) (now : Int)
    (entries : Except String (List (Except String JournalEntry))) (env : Nat → Nat → Answer)
    (journal : AList fun _ : String => JournalEntry) (taint : Option TaintRecord) : Replayed :=
  match entries with
  | .error _ => ⟨journal, taint, [], []⟩
  | .ok entries => replayEntries X timeoutSecs now entries env ⟨journal, taint, [], []⟩

/-! ## What a step of a recovery can do, on any event -/

inductive RecoveryStep (rec : Recovery) : State × List Effect → Prop
  | recorded (outcome : Outcome) : RecoveryStep rec (.recovering { rec with outcome }, [])
  | recovered : rec.remaining = [] →
      RecoveryStep rec (rec.outcome.state, [.removeJournal, .emitStatus rec.outcome.terminalState rec.reason])
  | next {command : PluginCommand} {rest : List PluginCommand} : rec.remaining = command :: rest →
      RecoveryStep rec (.recovering { rec with current := command, remaining := rest, retried := false },
        [.invoke command .runtime])
  | retry : rec.retried = false →
      RecoveryStep rec (.recovering { rec with retried := true }, [.invoke rec.current .runtime])
  | failed (reason : String) :
      RecoveryStep rec (.error, [.markTainted reason, .removeJournal, .emitStatus .error (some reason)])

theorem recoveryFailure_cases (rec : Recovery) (detail : String) : RecoveryStep rec (recoveryFailure rec detail) := by
  unfold recoveryFailure
  by_cases hr : rec.retried = true
  · rw [if_pos hr]
    exact .failed _
  · rw [if_neg hr]
    exact .retry (by simpa using hr)

theorem answered_cases (rec : Recovery) (command : PluginCommand) {answered : State × List Effect}
    (h : RecoveryStep rec answered) :
    RecoveryStep rec (if command = rec.current then answered else (.recovering rec, [])) := by
  by_cases hc : command = rec.current
  · rw [if_pos hc]
    exact h
  · rw [if_neg hc]
    exact .recorded rec.outcome

theorem stepRecovering_cases (rec : Recovery) (event : Event) : RecoveryStep rec (stepRecovering rec event) := by
  cases event with
  | stopRequested cause => cases cause <;> exact .recorded _
  | setupOk | setupFailed | journalWritten | journalWriteFailed => exact .recorded rec.outcome
  | invocationFailed c reason => exact answered_cases rec c (recoveryFailure_cases rec reason)
  | invokeRejected c reason => exact answered_cases rec c (recoveryFailure_cases rec reason)
  | commandFinished c d =>
    cases d with
    | success =>
      refine answered_cases rec c ?_
      split
      next hr => exact .recovered hr
      next hr => exact .next hr
    | preflightFailed | injectFailed | recoveryFailed | unexpected =>
      exact answered_cases rec c (recoveryFailure_cases rec _)

/-! ## The loop ends by itself, and invokes only `abort` and `cleanup` -/

/-- Turns that a recovery can still cause: at most one retry of the current command, two turns for each command that
remains, six for the effects of the last step. -/
def State.turns : State → Nat
  | .recovering rec => 6 + 4 * rec.remaining.length + if rec.retried then 0 else 2
  | _ => 0

def Recovers (command : PluginCommand) : Prop := command = .abort ∨ command = .cleanup

/-- Replay starts in a recovery and stays in it until it is over. -/
def State.Replaying : State → Prop
  | .recovering rec => rec.Shape
  | s => s.isTerminal

theorem Recovery.Shape.recovers {rec : Recovery} (h : rec.Shape) : Recovers rec.current := by
  rcases h with ⟨h, -⟩ | ⟨h, -⟩
  · exact .inl h
  · exact .inr h

theorem Outcome.state_replaying (o : Outcome) : o.state.Replaying ∧ o.state.turns = 0 := by
  cases o <;> exact ⟨rfl, rfl⟩

/-- A step of a replay, whatever the event is: it pays for its effects and asks for no other command. -/
theorem State.Replaying.step {s : State} (hs : s.Replaying) (event : Event) :
    (Agent.step s event).1.Replaying ∧
    2 * (Agent.step s event).2.length + (Agent.step s event).1.turns ≤ s.turns ∧
    ∀ command phase, .invoke command phase ∈ (Agent.step s event).2 → Recovers command := by
  cases s with
  | done | aborted | error => exact ⟨rfl, Nat.le_refl _, by simp [Agent.step]⟩
  | recovering rec =>
    have hshape : rec.Shape := hs
    simp only [Agent.step]
    cases hstep : stepRecovering rec event with | mk s' effects
    have h := stepRecovering_cases rec event
    rw [hstep] at h
    cases h with
    | recorded o => exact ⟨hshape, by simp [State.turns], by simp⟩
    | recovered hr =>
      obtain ⟨hrep, hturns⟩ := rec.outcome.state_replaying
      refine ⟨hrep, ?_, by simp⟩
      rw [hturns]
      simp only [State.turns, List.length_cons, List.length_nil]
      omega
    | @next command rest hr =>
      obtain ⟨rfl, rfl⟩ : command = .cleanup ∧ rest = [] := by
        rcases hshape with ⟨-, hrem⟩ | ⟨-, hrem⟩
        · simpa [hrem, eq_comm] using hr
        · simp [hrem] at hr
      refine ⟨.inr ⟨rfl, rfl⟩, ?_, by simp [Recovers]⟩
      simp only [State.turns, hr, List.length_cons, List.length_nil, Bool.false_eq_true, if_false]
      omega
    | retry hr =>
      refine ⟨hshape, ?_, fun command phase hm => ?_⟩
      · simp only [State.turns, hr, List.length_cons, List.length_nil, Bool.false_eq_true, if_false, if_true]
        omega
      · obtain ⟨rfl, -⟩ : command = rec.current ∧ phase = .runtime := by simpa using hm
        exact hshape.recovers
    | failed reason =>
      refine ⟨rfl, ?_, by simp⟩
      simp only [State.turns, List.length_cons, List.length_nil]
      omega
  | _ => cases hs

/-- What holds before every turn. -/
structure Replay.Inv (r : Replay) : Prop where
  replaying : r.state.Replaying
  effects : ∀ command phase, .invoke command phase ∈ r.effects → Recovers command
  invoked : ∀ id command, (id, command) ∈ r.result.invoked → Recovers command

/-- The turns left, at most. -/
def Replay.fuel (r : Replay) : Nat := 2 * r.effects.length + r.queue.length + r.state.turns

section
variable {X : Ext} {timeoutSecs : UInt64} {entry : JournalEntry} {answer : Answer} {r r' : Replay}

theorem Replayed.mark_invoked (r : Replayed) (record : TaintRecord) (error : Option String) :
    (r.mark record error).invoked = r.invoked := by
  unfold Replayed.mark; split <;> rfl

/-- An effect of a replay leaves the state and the other effects alone; an invocation queues its result. -/
theorem replayEffect_cases (X : Ext) (timeoutSecs : UInt64) (entry : JournalEntry) (answer : Answer) (r : Replay)
    (effect : Effect) {r' : Replay} (h : replayEffect X timeoutSecs entry answer r effect = r') :
    r'.state = r.state ∧ r'.effects = r.effects ∧ r'.queue.length ≤ r.queue.length + 1 ∧
      (r'.result.invoked = r.result.invoked ∨
        ∃ command phase, effect = .invoke command phase ∧
          r'.result.invoked = (entry.instanceId, command) :: r.result.invoked) := by
  subst h
  cases effect with
  | emitStatus | writeJournal => exact ⟨rfl, rfl, Nat.le_succ _, .inl rfl⟩
  | invoke command phase => exact ⟨rfl, rfl, by simp [replayEffect], .inr ⟨command, phase, rfl, rfl⟩⟩
  | markTainted reason => exact ⟨rfl, rfl, Nat.le_succ _, .inl (Replayed.mark_invoked _ _ _)⟩
  | removeJournal =>
    simp only [replayEffect]
    split <;> exact ⟨rfl, rfl, Nat.le_succ _, .inl rfl⟩

theorem Replay.Inv.turn (hr : r.Inv) (h : replayTurn X timeoutSecs entry answer r = some r') :
    r'.Inv ∧ r'.fuel < r.fuel := by
  unfold replayTurn at h
  split at h
  next effect rest heff =>
    obtain ⟨hst, he, hq, hinv⟩ := replayEffect_cases X timeoutSecs entry answer _ effect (Option.some.inj h)
    refine ⟨⟨?_, ?_, ?_⟩, ?_⟩
    · rw [hst]
      exact hr.replaying
    · rw [he]
      exact fun command phase hm => hr.effects command phase (heff ▸ List.mem_cons_of_mem _ hm)
    · intro id command hm
      rcases hinv with hinv | ⟨c, phase, rfl, hinv⟩
      · exact hr.invoked id command (hinv ▸ hm)
      · rw [hinv] at hm
        rcases List.mem_cons.1 hm with hm | hm
        · obtain ⟨-, rfl⟩ := Prod.mk.inj hm
          exact hr.effects _ phase (heff ▸ List.mem_cons_self)
        · exact hr.invoked id command hm
    · have hlen : r.effects.length = rest.length + 1 := by rw [heff]; rfl
      simp only [Replay.fuel, hst, he] at hq ⊢
      omega
  next heff =>
    split at h
    next => cases h
    next event queue hq =>
      simp only [Option.some.injEq] at h
      subst h
      obtain ⟨hrep, hturns, hcmd⟩ := hr.replaying.step event
      refine ⟨⟨hrep, hcmd, hr.invoked⟩, ?_⟩
      simp only [Replay.fuel, heff, hq, List.length_cons, List.length_nil]
      omega

/-- Enough fuel runs the loop to its end. -/
theorem replayLoop_ends {env : Nat → Answer} {fuel : Nat} (hr : r.Inv) (hf : r.fuel ≤ fuel) :
    (replayLoop X timeoutSecs entry env fuel r).Inv ∧
      (replayLoop X timeoutSecs entry env fuel r).effects = [] ∧
      (replayLoop X timeoutSecs entry env fuel r).queue = [] := by
  induction fuel generalizing r with
  | zero =>
    have hz : 2 * r.effects.length + r.queue.length + r.state.turns ≤ 0 := hf
    have heff : r.effects = [] := List.eq_nil_of_length_eq_zero (by omega)
    have hq : r.queue = [] := List.eq_nil_of_length_eq_zero (by omega)
    exact ⟨hr, heff, hq⟩
  | succ fuel ih =>
    simp only [replayLoop]
    cases h : replayTurn X timeoutSecs entry (env fuel) r with
    | none =>
      refine ⟨hr, ?_⟩
      unfold replayTurn at h
      split at h
      next => cases h
      next heff =>
        split at h
        next hq => exact ⟨heff, hq⟩
        next => cases h
    | some r' =>
      obtain ⟨hr', hlt⟩ := hr.turn h
      exact ih hr' (by omega)

/-- **Replay of an entry ends**: no effect and no event is left when the loop stops. -/
theorem replayEntry_finished (X : Ext) (timeoutSecs : UInt64) (entry : JournalEntry) (now : Int)
    (env : Nat → Answer) (result : Replayed) (hi : ∀ id command, (id, command) ∈ result.invoked → Recovers command) :
    (replayEntry X timeoutSecs entry now env result).Inv ∧
      (replayEntry X timeoutSecs entry now env result).effects = [] ∧
      (replayEntry X timeoutSecs entry now env result).queue = [] := by
  refine replayLoop_ends ⟨.inl ⟨rfl, rfl⟩, fun command phase hm => ?_, hi⟩ (Nat.le_refl _)
  obtain ⟨rfl, -⟩ : command = .abort ∧ phase = .runtime := by simpa [State.replayRecovery] using hm
  exact .inl rfl

end

theorem replayEntries_recovers {X : Ext} {timeoutSecs : UInt64} {now : Int}
    {entries : List (Except String JournalEntry)} {env : Nat → Nat → Answer} {r : Replayed}
    (hr : ∀ id command, (id, command) ∈ r.invoked → Recovers command) :
    ∀ id command, (id, command) ∈ (replayEntries X timeoutSecs now entries env r).invoked → Recovers command := by
  induction entries generalizing env r with
  | nil => exact hr
  | cons entry rest ih =>
    cases entry with
    | ok entry => exact ih (replayEntry_finished X timeoutSecs entry now (env 0) r hr).1.invoked
    | error e =>
      refine ih fun id command hm => hr id command ?_
      simpa only [Replayed.mark_invoked] using hm

/-- **Replay performs `abort` and `cleanup` only.** -/
theorem replayJournal_recovers (X : Ext) (timeoutSecs : UInt64) (now : Int)
    (entries : Except String (List (Except String JournalEntry))) (env : Nat → Nat → Answer)
    (journal : AList fun _ : String => JournalEntry) (taint : Option TaintRecord) :
    ∀ id command, (id, command) ∈ (replayJournal X timeoutSecs now entries env journal taint).invoked →
      Recovers command := by
  unfold replayJournal
  cases entries with
  | error e => simp
  | ok entries => exact replayEntries_recovers (by simp)

end FaultForge.Agent
