import FaultForge.Agent.Transitions
import FaultForge.Lib.Lts

/-!
# Runs of the machine

A configuration is the machine's state, the request that is outstanding, and the trace of the steps taken
(newest first). A stop request may come at any time; a result event must answer the outstanding request.
`terminal_after_inject` is the safety law of the lifecycle: after `inject` was invoked the machine becomes terminal
only with the host unaffected, recovered, or flagged, and `abort` goes before `cleanup` unless the recovery was
an orderly end of the duration.
-/
namespace FaultForge.Agent

open Lts

/-- One step taken: the state before, the event, the state after, and the effects. -/
structure Tick where
  pre : State
  event : Event
  post : State
  effects : List Effect
deriving DecidableEq, Repr

structure Config where
  state : State
  outstanding : Option Awaited
  /-- Steps taken, newest first. -/
  trace : List Tick
deriving DecidableEq, Repr

/-- The machine in `PENDING`; the setup check is already running when the shell enters its loop. -/
def Config.start : Config := ⟨.pending, some .setup, []⟩

def machineLts : System Config Event where
  init c := c = .start
  step c e :=
    if e.answers = none ∨ e.answers = c.outstanding then
      let (state, effects) := step c.state e
      let pending := if e.answers = none then c.outstanding else none
      some ⟨state, asked effects pending, ⟨c.state, e, state, effects⟩ :: c.trace⟩
    else none

/-! ## What the trace says -/

def Injected (trace : List Tick) : Prop := ∃ t ∈ trace, ∃ phase, .invoke .inject phase ∈ t.effects

def Tick.Invokes (t : Tick) (command : PluginCommand) : Prop := ∃ phase, .invoke command phase ∈ t.effects

def Tick.EntersTerminal (t : Tick) : Prop := t.pre.isTerminal = false ∧ t.post.isTerminal

/-- `inject` exited 20, or was rejected before its process started. -/
def Tick.HostUnaffected (t : Tick) : Prop :=
  (t.event = .commandFinished .inject .injectFailed ∨ ∃ reason, t.event = .invokeRejected .inject reason) ∧
    t.post = .aborted

/-- `cleanup` succeeded and no recovery command was left. -/
def Tick.Recovered (t : Tick) : Prop :=
  ∃ rec, t.pre = .recovering rec ∧ rec.remaining = [] ∧ t.event = .commandFinished .cleanup .success

/-- The newest result event of a trace. -/
def lastAnswer (trace : List Tick) : Option Event :=
  (trace.map Tick.event).find? (·.answers.isSome)

/-- `ERROR` together with the taint, after one recovery command failed twice in a row. -/
def Tick.Flagged (t : Tick) (before : List Tick) : Prop :=
  t.post = .error ∧ (∃ reason, .markTainted reason ∈ t.effects) ∧
    ∃ command, (command = .abort ∨ command = .cleanup) ∧ t.event.FailureOf command ∧
      ∃ e, lastAnswer before = some e ∧ e.FailureOf command

/-- The cause for which a step enters recovery, `none` when it does not. -/
def Tick.recoveryCause (t : Tick) : Option StopCause :=
  match t.pre, t.event with
  | .active, .stopRequested cause => some cause
  | .injecting stop, .commandFinished .inject .success => stop
  | .injecting _, .commandFinished .inject .injectFailed => none
  | .injecting _, .commandFinished .inject _ => some .deadman
  | .injecting _, .invocationFailed .inject _ => some .deadman
  | _, _ => none

/-- `abort` succeeds in `after` before `cleanup` is first invoked there (`after` is newest first). -/
def AbortFirst (after : List Tick) : Prop :=
  ∀ newer t older, after = newer ++ t :: older → t.Invokes .cleanup →
    ∃ u ∈ t :: older, u.event = .commandFinished .abort .success

/-! ## One step -/

theorem machineLts_step {c c' : Config} {e : Event} (h : machineLts.step c e = some c') :
    (e.answers = none ∨ e.answers = c.outstanding) ∧ c'.state = (step c.state e).1 ∧
      c'.outstanding = asked (step c.state e).2 (if e.answers = none then c.outstanding else none) ∧
      c'.trace = ⟨c.state, e, (step c.state e).1, (step c.state e).2⟩ :: c.trace := by
  simp only [machineLts] at h
  split at h
  case isTrue ha =>
    obtain rfl := Option.some.inj h
    exact ⟨ha, rfl, rfl, rfl⟩
  case isFalse => cases h

/-- A live state waits for exactly the outstanding request, and a recovery has its shape. -/
structure Config.Inv (c : Config) : Prop where
  awaits : c.state.isTerminal = false → c.state.awaits = c.outstanding
  shape : c.state.Shape
  /-- A command being retried has just failed. -/
  retried : ∀ rec, c.state = .recovering rec → rec.retried = true →
    ∃ e, lastAnswer c.trace = some e ∧ e.FailureOf rec.current

theorem Config.Inv.trans {c c' : Config} {e : Event} (hi : c.Inv) (h : machineLts.step c e = some c') :
    Trans c.state e (step c.state e).1 (step c.state e).2 := by
  obtain ⟨ha, -⟩ := machineLts_step h
  apply step_trans
  cases ht : c.state.isTerminal with
  | true => exact .inr (.inr rfl)
  | false => rw [hi.awaits ht]; exact ha.imp_right .inl

@[simp] theorem lastAnswer_cons (t : Tick) (trace : List Tick) :
    lastAnswer (t :: trace) = if t.event.answers.isSome then some t.event else lastAnswer trace := by
  simp only [lastAnswer, List.map_cons, List.find?_cons]
  cases t.event.answers <;> rfl

/-- Only a retry leaves a recovery with `retried` set, or a stop request in one that had it set. -/
theorem Trans.retried {s s' : State} {e : Event} {effects : List Effect} (h : Trans s e s' effects)
    {rec : Recovery} (hs : s' = .recovering rec) (hr : rec.retried = true) :
    e.FailureOf rec.current ∨
      e.answers = none ∧ ∃ r, s = .recovering r ∧ r.retried = true ∧ r.current = rec.current := by
  cases h with
  | recoveryRetry r hf _ => obtain rfl := State.recovering.inj hs; exact .inl hf
  | stopRecovery r cause => obtain rfl := State.recovering.inj hs; exact .inr ⟨rfl, r, rfl, hr, rfl⟩
  | absorbed e ht => simp [hs, State.isTerminal] at ht
  | recoveryNext r next rest _ => obtain rfl := State.recovering.inj hs; simp at hr
  | injectedStopped cause | stopActive cause | injectAmbiguous _ _ _ =>
    obtain rfl := State.recovering.inj hs; simp at hr
  | recovered r _ => cases ho : r.outcome <;> simp [ho, Outcome.state] at hs
  | stopPreflight which => cases which <;> simp [rebuildPreflight] at hs
  | _ => simp at hs

theorem Config.Inv.step {c c' : Config} {e : Event} (hi : c.Inv) (h : machineLts.step c e = some c') : c'.Inv := by
  have ht := hi.trans h
  obtain ⟨ha, hstate, hout, htrace⟩ := machineLts_step h
  refine ⟨fun hlive => ?_, hstate ▸ ht.shape hi.shape, fun rec hrec hr => ?_⟩
  · have hpre : c.state.isTerminal = false := by
      refine Bool.eq_false_iff.2 fun hterm => ?_
      rw [hstate, (ht.of_terminal hterm).1, hterm] at hlive
      cases hlive
    rw [hstate] at hlive ⊢
    rw [hout, ht.awaits (by rw [hi.awaits hpre]; exact ha) hlive, hi.awaits hpre]
  · rw [htrace, lastAnswer_cons]
    rcases ht.retried (hstate ▸ hrec) hr with hf | ⟨hn, r, hpre, hr', hcur⟩
    · exact ⟨e, by simp [hf.answers], hf⟩
    · simpa [hn, hcur] using hi.retried r hpre hr'

theorem reach_inv {c : Config} (h : Reach machineLts c) : c.Inv := by
  refine h.inv (fun c hc => ?_) (fun c e c' hi hs => hi.step hs)
  obtain rfl : c = .start := hc
  exact ⟨fun _ => rfl, trivial, fun rec hrec => by simp [Config.start] at hrec⟩

/-- A step of the trace was taken from a reachable configuration whose trace is what lies before it. -/
theorem reach_split {c : Config} (h : Reach machineLts c) :
    ∀ {newer : List Tick} {t : Tick} {older : List Tick}, c.trace = newer ++ t :: older →
      ∃ c₀ c₁, Reach machineLts c₀ ∧ c₀.trace = older ∧ machineLts.step c₀ t.event = some c₁ ∧
        t.pre = c₀.state ∧ Trans t.pre t.event t.post t.effects := by
  induction h with
  | init hc =>
    intro newer t older htr
    rw [show _ = Config.start from hc] at htr
    simp [Config.start] at htr
  | @step c c' e hr hs ih =>
    intro newer t older htr
    have ht := (reach_inv hr).trans hs
    rw [(machineLts_step hs).2.2.2] at htr
    cases newer with
    | nil =>
      obtain ⟨rfl, rfl⟩ := List.cons.inj htr
      exact ⟨c, c', hr, rfl, hs, rfl, ht⟩
    | cons n newer => exact ih (List.cons.inj htr).2

/-! ## After `inject` -/

def State.afterInject : State → Bool
  | .injecting _ | .active | .recovering _ | .done | .aborted | .error => true
  | .pending | .preflightInstall _ | .preflightRuntime _ | .writingJournal _ => false

section
variable {s s' : State} {e : Event} {effects : List Effect}

theorem Trans.afterInject (h : Trans s e s' effects) (hs : s.afterInject) : s'.afterInject := by
  cases h with
  | absorbed => exact hs
  | stopPreflight which => cases which <;> simp [rebuildPreflight, State.afterInject] at hs
  | recovered rec _ => cases rec.outcome <;> rfl
  | _ => first | rfl | simp [State.afterInject] at hs

theorem reach_afterInject {c : Config} (h : Reach machineLts c) (hi : Injected c.trace) :
    c.state.afterInject := by
  induction h with
  | init hc => rw [show _ = Config.start from hc] at hi; simp [Injected, Config.start] at hi
  | @step c c' e hr hs ih =>
    have ht := (reach_inv hr).trans hs
    obtain ⟨-, hstate, -, htrace⟩ := machineLts_step hs
    rw [hstate]
    rw [htrace] at hi
    obtain ⟨t, hmem, phase, hinv⟩ := hi
    rcases List.mem_cons.1 hmem with rfl | hmem
    · rw [(ht.invoke_inject (reach_inv hr).shape hinv).2.2]; rfl
    · exact ht.afterInject (ih ⟨t, hmem, phase, hinv⟩)

/-- After `inject`, the machine becomes terminal by one of three transitions. -/
theorem Trans.terminal_cases (h : Trans s e s' effects) (hs : s.afterInject) (hlive : s.isTerminal = false)
    (hterm : s'.isTerminal) :
    ((e = .commandFinished .inject .injectFailed ∨ ∃ r, e = .invokeRejected .inject r) ∧ s' = .aborted) ∨
    (∃ rec, s = .recovering rec ∧ rec.remaining = [] ∧ e = .commandFinished rec.current .success) ∨
    (∃ rec reason, s = .recovering rec ∧ rec.retried = true ∧ e.FailureOf rec.current ∧ s' = .error ∧
      effects = [.markTainted reason, .removeJournal, .emitStatus .error (some reason)]) := by
  cases h with
  | absorbed e ht => simp [ht] at hlive
  | injectUnaffected stop reason he => exact .inl ⟨he, rfl⟩
  | recovered rec hr => exact .inr (.inl ⟨rec, rfl, hr, rfl⟩)
  | recoveryFailed rec reason hf hr => exact .inr (.inr ⟨rec, reason, rfl, hr, hf, rfl, rfl⟩)
  | stopPreflight which | preflightStopped which | preflightFailed which =>
    cases which <;> simp [rebuildPreflight, State.afterInject] at hs
  | setupOk | setupFailed | stopPending | installOk | runtimeOk | stopJournal | journalStopped | journalFailed
  | inject => simp [State.afterInject] at hs
  | stopInject | injected | injectedStopped | injectAmbiguous | stopActive | stopRecovery | recoveryNext
  | recoveryRetry => simp [State.isTerminal, startRecovery] at hterm

end

/-! ## Entering and running a recovery -/

def State.isRecovering : State → Bool
  | .recovering _ => true
  | _ => false

def Tick.EntersRecovery (t : Tick) : Prop := t.pre.isRecovering = false ∧ t.post.isRecovering

section
variable {s s' : State} {e : Event} {effects : List Effect}

/-- Recovery is entered through `start_recovery`, with the step's cause. -/
theorem Trans.enter_recovery (h : Trans s e s' effects) (hs : s.isRecovering = false) (hs' : s'.isRecovering) :
    ∃ cause reason, (⟨s, e, s', effects⟩ : Tick).recoveryCause = some cause ∧
      (s = .active ∨ ∃ stop, s = .injecting stop) ∧ (s', effects) = startRecovery cause reason := by
  cases h with
  | injectedStopped cause => exact ⟨cause, none, rfl, .inr ⟨_, rfl⟩, rfl⟩
  | stopActive cause => exact ⟨cause, none, rfl, .inl rfl, rfl⟩
  | injectAmbiguous stop reason he =>
    refine ⟨.deadman, some reason, ?_, .inr ⟨_, rfl⟩, rfl⟩
    rcases he with ⟨d, rfl, h1, h2⟩ | ⟨r, rfl⟩
    · cases d <;> simp_all [Tick.recoveryCause]
    · rfl
  | absorbed e ht => simp [hs] at hs'
  | recovered rec _ => cases ho : rec.outcome <;> simp [ho, Outcome.state, State.isRecovering] at hs'
  | stopPreflight which => cases which <;> simp [rebuildPreflight, State.isRecovering] at hs'
  | stopRecovery | recoveryNext | recoveryRetry | recoveryFailed => simp [State.isRecovering] at hs
  | _ => simp [State.isRecovering] at hs'

/-- `cleanup` is invoked only on the way into or inside a recovery. -/
theorem Trans.invoke_cleanup (h : Trans s e s' effects) {phase : Phase} (hi : .invoke .cleanup phase ∈ effects) :
    s'.isRecovering := by
  cases h <;> simp_all [State.isRecovering, startRecovery]

/-- A step in a recovery: a stop is noted, the recovery ends, advances, or retries. -/
theorem Trans.recovering_cases (h : Trans s e s' effects) {rec : Recovery} (hs : s = .recovering rec) :
    (∃ cause, e = .stopRequested cause ∧
      s' = .recovering { rec with outcome := if cause = .deadman then .error else rec.outcome } ∧ effects = []) ∨
    (s'.isTerminal ∧ ∀ effect ∈ effects, effect.asks = none) ∨
    (∃ next rest, e = .commandFinished rec.current .success ∧ rec.remaining = next :: rest ∧
      s' = .recovering { rec with current := next, remaining := rest, retried := false } ∧
      effects = [.invoke next .runtime]) ∨
    (e.FailureOf rec.current ∧ s' = .recovering { rec with retried := true } ∧
      effects = [.invoke rec.current .runtime]) := by
  cases h with
  | stopRecovery r cause => obtain rfl := State.recovering.inj hs; exact .inl ⟨cause, rfl, rfl, rfl⟩
  | recovered r _ => exact .inr (.inl ⟨r.outcome.state_isTerminal, by simp [Effect.asks]⟩)
  | recoveryFailed r reason _ _ => exact .inr (.inl ⟨rfl, by simp [Effect.asks]⟩)
  | recoveryNext r next rest hr =>
    obtain rfl := State.recovering.inj hs; exact .inr (.inr (.inl ⟨next, rest, rfl, hr, rfl, rfl⟩))
  | recoveryRetry r hf _ => obtain rfl := State.recovering.inj hs; exact .inr (.inr (.inr ⟨hf, rfl, rfl⟩))
  | absorbed e ht => simp [hs, State.isTerminal] at ht
  | stopPreflight which | preflightStopped which | preflightFailed which =>
    cases which <;> simp [rebuildPreflight] at hs
  | _ => cases hs

theorem Trans.recovering_or_terminal (h : Trans s e s' effects) (hs : s.isRecovering ∨ s.isTerminal) :
    s'.isRecovering ∨ s'.isTerminal := by
  cases h with
  | absorbed => exact hs
  | recovered rec _ => exact .inr rec.outcome.state_isTerminal
  | stopPreflight which => cases which <;> simp [rebuildPreflight, State.isRecovering, State.isTerminal] at hs
  | _ => first | exact .inl rfl | exact .inr rfl | simp [State.isRecovering, State.isTerminal] at hs

end

theorem AbortFirst.nil : AbortFirst [] := by
  intro newer t older h
  simp at h

theorem AbortFirst.cons {t : Tick} {after : List Tick} (h : AbortFirst after)
    (ht : t.Invokes .cleanup → ∃ u ∈ t :: after, u.event = .commandFinished .abort .success) :
    AbortFirst (t :: after) := by
  intro newer u older hs hu
  cases newer with
  | nil => obtain ⟨rfl, rfl⟩ := List.cons.inj hs; exact ht hu
  | cons n newer => exact h newer u older (List.cons.inj hs).2 hu

/-- Until `cleanup` is first invoked in a trace, no recovery has been entered. -/
theorem reach_cleanup_invoked {c : Config} (h : Reach machineLts c) {t : Tick} (ht : t ∈ c.trace)
    (hc : t.Invokes .cleanup) : c.state.isRecovering ∨ c.state.isTerminal := by
  induction h with
  | init hi => rw [show _ = Config.start from hi] at ht; simp [Config.start] at ht
  | @step c c' e hr hs ih =>
    have htr := (reach_inv hr).trans hs
    obtain ⟨-, hstate, -, htrace⟩ := machineLts_step hs
    rw [hstate]
    rw [htrace] at ht
    rcases List.mem_cons.1 ht with rfl | ht
    · obtain ⟨phase, hp⟩ := hc
      exact .inl (htr.invoke_cleanup hp)
    · exact htr.recovering_or_terminal (ih ht)

/-- What holds after a recovery was entered at `abort`: `abort` is still running, or it has succeeded, or the
machine is terminal; and `cleanup` was not invoked before `abort` succeeded. -/
def AbortPhase (c : Config) (after : List Tick) : Prop :=
  AbortFirst after ∧
    ((∃ u ∈ after, u.event = .commandFinished .abort .success) ∨ c.state.isTerminal ∨
      ∃ rec, c.state = .recovering rec ∧ rec.current = .abort)

theorem AbortPhase.step {c c' : Config} {e : Event} {after : List Tick} (hinv : c.Inv)
    (hs : machineLts.step c e = some c') (h : AbortPhase c after) :
    AbortPhase c' (⟨c.state, e, (Agent.step c.state e).1, (Agent.step c.state e).2⟩ :: after) := by
  have ht := hinv.trans hs
  obtain ⟨-, hstate, -, -⟩ := machineLts_step hs
  unfold AbortPhase
  rw [hstate]
  obtain ⟨hfirst, ⟨u, hu, hsucc⟩ | hterm | ⟨rec, hrec, hcur⟩⟩ := h
  · have hmem := List.mem_cons_of_mem ⟨c.state, e, (Agent.step c.state e).1, (Agent.step c.state e).2⟩ hu
    exact ⟨hfirst.cons fun _ => ⟨u, hmem, hsucc⟩, .inl ⟨u, hmem, hsucc⟩⟩
  · obtain ⟨hsame, hnone⟩ := ht.of_terminal hterm
    refine ⟨hfirst.cons fun hinv => ?_, .inr (.inl (by rw [hsame]; exact hterm))⟩
    obtain ⟨phase, hp⟩ := hinv
    simp [hnone] at hp
  · generalize (Agent.step c.state e).1 = s', (Agent.step c.state e).2 = effects at ht
    rcases ht.recovering_cases hrec with ⟨cause, rfl, rfl, rfl⟩ | ⟨hterm, hnone⟩ | ⟨next, rest, rfl, -, -, -⟩ |
      ⟨hf, rfl, rfl⟩
    · refine ⟨hfirst.cons fun hinv => ?_, .inr (.inr ⟨_, rfl, hcur⟩)⟩
      obtain ⟨_, hp⟩ := hinv
      simp at hp
    · refine ⟨hfirst.cons fun hinv => ?_, .inr (.inl hterm)⟩
      obtain ⟨phase, hp⟩ := hinv
      simpa [Effect.asks] using hnone _ hp
    · rw [hcur]
      exact ⟨hfirst.cons fun _ => ⟨_, List.mem_cons_self, rfl⟩, .inl ⟨_, List.mem_cons_self, rfl⟩⟩
    · refine ⟨hfirst.cons fun hinv => ?_, .inr (.inr ⟨_, rfl, hcur⟩)⟩
      obtain ⟨_, hp⟩ := hinv
      simp [hcur] at hp

theorem reach_abortPhase {c : Config} (h : Reach machineLts c) {t : Tick} {older : List Tick}
    (hent : t.EntersRecovery) (hcause : t.recoveryCause ≠ some .durationElapsed) :
    ∀ newer, c.trace = newer ++ t :: older → AbortPhase c newer := by
  induction h with
  | init hi => intro newer htr; rw [show _ = Config.start from hi] at htr; simp [Config.start] at htr
  | @step c c' e hr hs ih =>
    intro newer htr
    have ht := (reach_inv hr).trans hs
    obtain ⟨-, hstate, -, htrace⟩ := machineLts_step hs
    rw [htrace] at htr
    cases newer with
    | nil =>
      obtain ⟨rfl, -⟩ := List.cons.inj htr
      obtain ⟨cause, reason, hc, -, hpost⟩ := ht.enter_recovery hent.1 hent.2
      rw [hc] at hcause
      refine ⟨.nil, .inr (.inr ⟨_, hstate.trans (congrArg Prod.fst hpost), ?_⟩)⟩
      cases cause <;> simp_all
    | cons n newer =>
      obtain ⟨rfl, htail⟩ := List.cons.inj htr
      exact (ih newer htail).step (reach_inv hr) hs

/-! ## The law -/

theorem reach_terminal {c : Config} (h : Reach machineLts c) {newer : List Tick} {t : Tick} {older : List Tick}
    (htr : c.trace = newer ++ t :: older) (hi : Injected older) (ht : t.EntersTerminal) :
    t.HostUnaffected ∨ t.Recovered ∨ t.Flagged older := by
  obtain ⟨c₀, c₁, hr, rfl, hs, hpre, htrans⟩ := reach_split h htr
  have hinv := reach_inv hr
  have hafter : t.pre.afterInject := hpre ▸ reach_afterInject hr hi
  rcases htrans.terminal_cases hafter ht.1 ht.2 with
    hun | ⟨rec, hrec, hrem, he⟩ | ⟨rec, reason, hrec, hret, hf, hpost, hm⟩
  · exact .inl hun
  · refine .inr (.inl ⟨rec, hrec, hrem, ?_⟩)
    have hshape : rec.Shape := by simpa [← hpre, hrec, State.Shape] using hinv.shape
    rcases hshape with ⟨-, hrem'⟩ | ⟨hcur, -⟩
    · simp [hrem] at hrem'
    · rwa [hcur] at he
  · have hshape : rec.Shape := by simpa [← hpre, hrec, State.Shape] using hinv.shape
    obtain ⟨e', hlast, hf'⟩ := hinv.retried rec (hpre ▸ hrec) hret
    refine .inr (.inr ⟨hpost, ⟨reason, by simp [hm]⟩, rec.current, ?_, hf, e', hlast, hf'⟩)
    exact hshape.imp And.left And.left

theorem reach_abort_first {c : Config} (h : Reach machineLts c) {newer : List Tick} {t : Tick} {older : List Tick}
    (htr : c.trace = newer ++ t :: older) (hent : t.EntersRecovery)
    (hcause : t.recoveryCause ≠ some .durationElapsed) :
    t.Invokes .abort ∧ (∀ u ∈ t :: older, ¬ u.Invokes .cleanup) ∧ AbortFirst newer := by
  obtain ⟨c₀, c₁, hr, rfl, hs, hpre, htrans⟩ := reach_split h htr
  obtain ⟨cause, reason, hc, hfrom, hpost⟩ := htrans.enter_recovery hent.1 hent.2
  have hc' : t.recoveryCause = some cause := hc
  rw [hc'] at hcause
  have heff : t.effects = (startRecovery cause reason).2 := congrArg Prod.snd hpost
  refine ⟨⟨.runtime, ?_⟩, fun u hu hcl => ?_, (reach_abortPhase h hent (hc' ▸ hcause) newer htr).1⟩
  · cases cause <;> simp_all [startRecovery, StopCause.recoverySteps]
  · rcases List.mem_cons.1 hu with rfl | hu
    · obtain ⟨phase, hp⟩ := hcl
      cases cause <;> simp_all [startRecovery, StopCause.recoverySteps]
    · have hrt := reach_cleanup_invoked hr hu hcl
      rw [← hpre] at hrt
      rcases hfrom with hs | ⟨stop, hs⟩ <;> simp [hs, State.isRecovering, State.isTerminal] at hrt

/-- **After `inject` no run ends with an unrecovered, unflagged host**, and outside an orderly end of the duration
`abort` is invoked and succeeds before `cleanup` is first invoked. -/
theorem terminal_after_inject {c : Config} (h : Reach machineLts c) :
    (∀ newer t older, c.trace = newer ++ t :: older → Injected older → t.EntersTerminal →
      t.HostUnaffected ∨ t.Recovered ∨ t.Flagged older) ∧
    (∀ newer t older, c.trace = newer ++ t :: older → t.EntersRecovery →
      t.recoveryCause ≠ some .durationElapsed →
      t.Invokes .abort ∧ (∀ u ∈ t :: older, ¬ u.Invokes .cleanup) ∧ AbortFirst newer) :=
  ⟨fun _ _ _ htr hi ht => reach_terminal h htr hi ht, fun _ _ _ htr hent hc => reach_abort_first h htr hent hc⟩

/-- Injected, halted by the operator, then `cleanup` fails twice. -/
def haltedRun : List Event :=
  [.setupOk, .commandFinished .preflight .success, .commandFinished .preflight .success, .journalWritten,
   .commandFinished .inject .success, .stopRequested .operatorAbort, .commandFinished .abort .success,
   .commandFinished .cleanup .recoveryFailed, .invocationFailed .cleanup "terminated by signal"]

def haltedConfig : Config := (run machineLts .start haltedRun).getD .start

/-- The last step of the run enters `ERROR`; the fourth from the end enters recovery. -/
theorem terminal_after_inject_halted :
    (∃ t, haltedConfig.trace = [] ++ t :: haltedConfig.trace.drop 1 ∧
      (t.HostUnaffected ∨ t.Recovered ∨ t.Flagged (haltedConfig.trace.drop 1))) ∧
    (∃ t, haltedConfig.trace = haltedConfig.trace.take 3 ++ t :: haltedConfig.trace.drop 4 ∧
      t.Invokes .abort ∧ (∀ u ∈ t :: haltedConfig.trace.drop 4, ¬ u.Invokes .cleanup) ∧
      AbortFirst (haltedConfig.trace.take 3)) := by
  have hrun : run machineLts .start haltedRun = some haltedConfig := by decide
  have hr : Reach machineLts haltedConfig := Reach.run (.init rfl) hrun
  have hinj : Injected (haltedConfig.trace.drop 1) :=
    ⟨⟨.writingJournal none, .journalWritten, .injecting none, [.emitStatus .injecting none, .invoke .inject .runtime]⟩,
      by decide, .runtime, by decide⟩
  obtain ⟨h1, h2⟩ := terminal_after_inject hr
  exact ⟨⟨haltedConfig.trace.get ⟨0, by decide⟩, rfl, h1 [] _ _ rfl hinj ⟨by decide, by decide⟩⟩,
    ⟨haltedConfig.trace.get ⟨3, by decide⟩, rfl,
      h2 (haltedConfig.trace.take 3) _ _ rfl ⟨by decide, by decide⟩ (by decide)⟩⟩

end FaultForge.Agent
