import FaultForge.Agent.Machine

/-!
# What one step of the machine can do

The shell feeds the machine two kinds of events: stop requests, at any time, and the result of whatever the
machine last asked for (the setup check, a journal write, a plugin command). `State.awaits` says what a state
is waiting for and `Event.answers` what an event is the result of. On events that fit, `Trans` lists every
transition of `step` with its effects (`step_trans`); the invariants of the later modules are case analyses of
`Trans` and never unfold `step`.
-/
namespace FaultForge.Agent

/-! ## Requests and answers -/

/-- What the machine can be waiting for. -/
inductive Awaited
  | setup
  | journal
  | command (c : PluginCommand)
deriving DecidableEq, Repr

/-- What an effect asks the shell for. -/
def Effect.asks : Effect → Option Awaited
  | .invoke command _ => some (.command command)
  | .writeJournal => some .journal
  | .emitStatus .. | .removeJournal | .markTainted _ => none

/-- What an event is the result of; `none` for a stop request. -/
def Event.answers : Event → Option Awaited
  | .setupOk | .setupFailed _ => some .setup
  | .journalWritten | .journalWriteFailed _ => some .journal
  | .commandFinished command _ | .invocationFailed command _ | .invokeRejected command _ => some (.command command)
  | .stopRequested _ => none

def State.awaits : State → Option Awaited
  | .pending => some .setup
  | .preflightInstall _ | .preflightRuntime _ => some (.command .preflight)
  | .writingJournal _ => some .journal
  | .injecting _ => some (.command .inject)
  | .recovering rec => some (.command rec.current)
  | .active | .done | .aborted | .error => none

/-- The request a list of effects leaves outstanding: the last one made, `o` if none is made. -/
def asked (effects : List Effect) (o : Option Awaited) : Option Awaited :=
  effects.foldl (fun o effect => effect.asks.or o) o

@[simp] theorem asked_nil (o : Option Awaited) : asked [] o = o := rfl

@[simp] theorem asked_cons (effect : Effect) (effects : List Effect) (o : Option Awaited) :
    asked (effect :: effects) o = asked effects (effect.asks.or o) := rfl

/-- The event reports that `command` did not succeed: a non-zero exit, no exit, or no process at all. -/
inductive Event.FailureOf (command : PluginCommand) : Event → Prop
  | exit (d : Disposition) : d ≠ .success → FailureOf command (.commandFinished command d)
  | invocation (reason : String) : FailureOf command (.invocationFailed command reason)
  | rejected (reason : String) : FailureOf command (.invokeRejected command reason)

theorem Event.FailureOf.answers {command : PluginCommand} {e : Event} (h : e.FailureOf command) :
    e.answers = some (.command command) := by
  cases h <;> rfl

theorem Event.FailureOf.ne_success {command c : PluginCommand} {e : Event} (h : e.FailureOf command) :
    e ≠ .commandFinished c .success := by
  rintro rfl
  cases h with
  | exit d hd => exact hd rfl

/-! ## The transitions -/

/-- Every transition of `step` on a stop request or on the awaited result. -/
inductive Trans : State → Event → State → List Effect → Prop
  | absorbed {s : State} (e : Event) : s.isTerminal → Trans s e s []
  | setupOk : Trans .pending .setupOk (.preflightInstall none)
      [.emitStatus .preflight none, .invoke .preflight .install]
  | setupFailed (reason : String) : Trans .pending (.setupFailed reason) .aborted
      [.emitStatus .aborted (some reason)]
  | stopPending (cause : StopCause) : Trans .pending (.stopRequested cause) .aborted
      [.emitStatus .aborted (some s!"{cause.reason}; never started")]
  | stopPreflight (which : Phase) (stop : Option StopCause) (cause : StopCause) :
      Trans (rebuildPreflight which stop) (.stopRequested cause) (rebuildPreflight which (stop.or (some cause))) []
  | preflightStopped (which : Phase) (cause : StopCause) :
      Trans (rebuildPreflight which (some cause)) (.commandFinished .preflight .success) .aborted
        [.emitStatus .aborted (some s!"{cause.reason}; never injected")]
  | preflightFailed (which : Phase) (stop : Option StopCause) {e : Event} (reason : String) :
      e.FailureOf .preflight →
      Trans (rebuildPreflight which stop) e .aborted [.emitStatus .aborted (some reason)]
  | installOk : Trans (.preflightInstall none) (.commandFinished .preflight .success) (.preflightRuntime none)
      [.invoke .preflight .runtime]
  | runtimeOk : Trans (.preflightRuntime none) (.commandFinished .preflight .success) (.writingJournal none)
      [.writeJournal]
  | stopJournal (stop : Option StopCause) (cause : StopCause) :
      Trans (.writingJournal stop) (.stopRequested cause) (.writingJournal (stop.or (some cause))) []
  | journalStopped (cause : StopCause) : Trans (.writingJournal (some cause)) .journalWritten .aborted
      [.removeJournal, .emitStatus .aborted (some s!"{cause.reason}; never injected")]
  | journalFailed (stop : Option StopCause) (reason : String) :
      Trans (.writingJournal stop) (.journalWriteFailed reason) .aborted
        [.emitStatus .aborted (some s!"journal write failed; refusing to inject: {reason}")]
  | inject : Trans (.writingJournal none) .journalWritten (.injecting none)
      [.emitStatus .injecting none, .invoke .inject .runtime]
  | stopInject (stop : Option StopCause) (cause : StopCause) :
      Trans (.injecting stop) (.stopRequested cause) (.injecting (stop.or (some cause))) []
  | injected : Trans (.injecting none) (.commandFinished .inject .success) .active [.emitStatus .active none]
  | injectedStopped (cause : StopCause) :
      Trans (.injecting (some cause)) (.commandFinished .inject .success)
        (startRecovery cause none).1 (startRecovery cause none).2
  | injectUnaffected (stop : Option StopCause) {e : Event} (reason : String) :
      (e = .commandFinished .inject .injectFailed ∨ ∃ r, e = .invokeRejected .inject r) →
      Trans (.injecting stop) e .aborted [.removeJournal, .emitStatus .aborted (some reason)]
  | injectAmbiguous (stop : Option StopCause) {e : Event} (reason : String) :
      ((∃ d, e = .commandFinished .inject d ∧ d ≠ .success ∧ d ≠ .injectFailed) ∨
        ∃ r, e = .invocationFailed .inject r) →
      Trans (.injecting stop) e (startRecovery .deadman (some reason)).1 (startRecovery .deadman (some reason)).2
  | stopActive (cause : StopCause) : Trans .active (.stopRequested cause)
      (startRecovery cause none).1 (startRecovery cause none).2
  | stopRecovery (rec : Recovery) (cause : StopCause) : Trans (.recovering rec) (.stopRequested cause)
      (.recovering { rec with outcome := if cause = .deadman then .error else rec.outcome }) []
  | recovered (rec : Recovery) : rec.remaining = [] →
      Trans (.recovering rec) (.commandFinished rec.current .success) rec.outcome.state
        [.removeJournal, .emitStatus rec.outcome.terminalState rec.reason]
  | recoveryNext (rec : Recovery) (next : PluginCommand) (rest : List PluginCommand) :
      rec.remaining = next :: rest →
      Trans (.recovering rec) (.commandFinished rec.current .success)
        (.recovering { rec with current := next, remaining := rest, retried := false }) [.invoke next .runtime]
  | recoveryRetry (rec : Recovery) {e : Event} : e.FailureOf rec.current → rec.retried = false →
      Trans (.recovering rec) e (.recovering { rec with retried := true }) [.invoke rec.current .runtime]
  | recoveryFailed (rec : Recovery) {e : Event} (reason : String) : e.FailureOf rec.current → rec.retried = true →
      Trans (.recovering rec) e .error [.markTainted reason, .removeJournal, .emitStatus .error (some reason)]

theorem Outcome.state_isTerminal (o : Outcome) : o.state.isTerminal := by
  cases o <;> rfl

theorem rebuildPreflight_awaits (which : Phase) (stop : Option StopCause) :
    (rebuildPreflight which stop).awaits = some (.command .preflight) := by
  cases which <;> rfl

/-! ### One lemma for each state function -/

variable {e : Event} {stop : Option StopCause}

theorem stepPreflight_trans (which : Phase)
    (h : e.answers = none ∨ e.answers = some (.command .preflight)) :
    Trans (rebuildPreflight which stop) e (stepPreflight which stop e).1 (stepPreflight which stop e).2 := by
  cases e with
  | stopRequested cause => exact .stopPreflight which stop cause
  | commandFinished c d =>
    obtain rfl : c = .preflight := by simpa [Event.answers] using h
    cases d with
    | success =>
      cases stop with
      | some cause => exact .preflightStopped which cause
      | none => cases which with
        | install => exact .installOk
        | runtime => exact .runtimeOk
    | preflightFailed | injectFailed | recoveryFailed | unexpected =>
      exact .preflightFailed which stop _ (.exit _ (by simp))
  | invocationFailed c reason =>
    obtain rfl : c = .preflight := by simpa [Event.answers] using h
    exact .preflightFailed which stop _ (.invocation _)
  | invokeRejected c reason =>
    obtain rfl : c = .preflight := by simpa [Event.answers] using h
    exact .preflightFailed which stop _ (.rejected _)
  | setupOk | setupFailed | journalWritten | journalWriteFailed => simp [Event.answers] at h

theorem stepPending_trans (h : e.answers = none ∨ e.answers = some .setup) :
    Trans .pending e (stepPending e).1 (stepPending e).2 := by
  cases e with
  | setupOk => exact .setupOk
  | setupFailed reason => exact .setupFailed reason
  | stopRequested cause => exact .stopPending cause
  | journalWritten | journalWriteFailed | commandFinished | invocationFailed | invokeRejected =>
    simp [Event.answers] at h

theorem stepWritingJournal_trans (h : e.answers = none ∨ e.answers = some .journal) :
    Trans (.writingJournal stop) e (stepWritingJournal stop e).1 (stepWritingJournal stop e).2 := by
  cases e with
  | stopRequested cause => exact .stopJournal stop cause
  | journalWritten =>
    cases stop with
    | some cause => exact .journalStopped cause
    | none => exact .inject
  | journalWriteFailed reason => exact .journalFailed stop reason
  | setupOk | setupFailed | commandFinished | invocationFailed | invokeRejected => simp [Event.answers] at h

theorem stepInjecting_trans (h : e.answers = none ∨ e.answers = some (.command .inject)) :
    Trans (.injecting stop) e (stepInjecting stop e).1 (stepInjecting stop e).2 := by
  cases e with
  | stopRequested cause => exact .stopInject stop cause
  | commandFinished c d =>
    obtain rfl : c = .inject := by simpa [Event.answers] using h
    cases d with
    | success =>
      cases stop with
      | some cause => exact .injectedStopped cause
      | none => exact .injected
    | injectFailed => exact .injectUnaffected stop _ (.inl rfl)
    | preflightFailed | recoveryFailed | unexpected =>
      exact .injectAmbiguous stop _ (.inl ⟨_, rfl, by simp, by simp⟩)
  | invocationFailed c reason =>
    obtain rfl : c = .inject := by simpa [Event.answers] using h
    exact .injectAmbiguous stop _ (.inr ⟨_, rfl⟩)
  | invokeRejected c reason =>
    obtain rfl : c = .inject := by simpa [Event.answers] using h
    exact .injectUnaffected stop _ (.inr ⟨_, rfl⟩)
  | setupOk | setupFailed | journalWritten | journalWriteFailed => simp [Event.answers] at h

theorem recoveryFailure_trans (rec : Recovery) (detail : String) (hf : e.FailureOf rec.current) :
    Trans (.recovering rec) e (recoveryFailure rec detail).1 (recoveryFailure rec detail).2 := by
  unfold recoveryFailure
  split
  case isTrue hr => exact .recoveryFailed rec _ hf hr
  case isFalse hr => exact .recoveryRetry rec hf (by simpa using hr)

theorem stepRecovering_trans (rec : Recovery)
    (h : e.answers = none ∨ e.answers = some (.command rec.current)) :
    Trans (.recovering rec) e (stepRecovering rec e).1 (stepRecovering rec e).2 := by
  cases e with
  | stopRequested cause =>
    have := Trans.stopRecovery rec cause
    cases cause <;> exact this
  | commandFinished c d =>
    obtain rfl : c = rec.current := by simpa [Event.answers] using h
    cases d with
    | success =>
      simp only [stepRecovering, if_true]
      split
      next hr => exact .recovered rec hr
      next next rest hr => exact .recoveryNext rec next rest hr
    | preflightFailed | injectFailed | recoveryFailed | unexpected =>
      simp only [stepRecovering, if_true]
      exact recoveryFailure_trans rec _ (.exit _ (by simp))
  | invocationFailed c reason =>
    obtain rfl : c = rec.current := by simpa [Event.answers] using h
    simp only [stepRecovering, if_true]
    exact recoveryFailure_trans rec _ (.invocation _)
  | invokeRejected c reason =>
    obtain rfl : c = rec.current := by simpa [Event.answers] using h
    simp only [stepRecovering, if_true]
    exact recoveryFailure_trans rec _ (.rejected _)
  | setupOk | setupFailed | journalWritten | journalWriteFailed => simp [Event.answers] at h

/-- **The inversion lemma of the machine.** A stop request or the awaited result makes one of the listed
transitions; a terminal state absorbs everything. -/
theorem step_trans (s : State) (e : Event)
    (h : e.answers = none ∨ e.answers = s.awaits ∨ s.isTerminal) : Trans s e (step s e).1 (step s e).2 := by
  cases s with
  | pending => exact stepPending_trans (by simpa [State.awaits, State.isTerminal] using h)
  | preflightInstall stop => exact stepPreflight_trans .install (by simpa [State.awaits, State.isTerminal] using h)
  | preflightRuntime stop => exact stepPreflight_trans .runtime (by simpa [State.awaits, State.isTerminal] using h)
  | writingJournal stop => exact stepWritingJournal_trans (by simpa [State.awaits, State.isTerminal] using h)
  | injecting stop => exact stepInjecting_trans (by simpa [State.awaits, State.isTerminal] using h)
  | recovering rec => exact stepRecovering_trans rec (by simpa [State.awaits, State.isTerminal] using h)
  | active =>
    cases e with
    | stopRequested cause => exact .stopActive cause
    | _ => simp [Event.answers, State.awaits, State.isTerminal] at h
  | done | aborted | error => exact .absorbed e rfl

/-! ## Consequences -/

section
variable {s s' : State} {effects : List Effect}

/-- What the effects ask for is what the new state waits for. -/
theorem Trans.awaits (h : Trans s e s' effects) (ha : e.answers = none ∨ e.answers = s.awaits)
    (hs : s'.isTerminal = false) :
    s'.awaits = asked effects (if e.answers = none then s.awaits else none) := by
  cases h with
  | absorbed e ht => simp [ht] at hs
  | recovered rec _ => simp [Outcome.state_isTerminal] at hs
  | injectAmbiguous stop reason he => rcases he with ⟨d, rfl, -⟩ | ⟨r, rfl⟩ <;> rfl
  | recoveryRetry rec hf _ => simp [State.awaits, Effect.asks]
  | stopPreflight which stop cause => simp [rebuildPreflight_awaits, Event.answers]
  | setupOk | setupFailed | stopPending | preflightStopped | preflightFailed | installOk | runtimeOk | stopJournal
  | journalStopped | journalFailed | inject | stopInject | injected | injectedStopped | injectUnaffected | stopActive
  | stopRecovery | recoveryNext | recoveryFailed =>
    first | rfl | simp [State.isTerminal] at hs

/-- A plugin command is asked for only by a step into a state that is not terminal. -/
theorem Trans.no_ask_of_terminal (h : Trans s e s' effects) (hs : s'.isTerminal) :
    ∀ effect ∈ effects, effect.asks = none := by
  cases h <;> simp_all [State.isTerminal, Effect.asks, startRecovery]

theorem Trans.of_terminal (h : Trans s e s' effects) (hs : s.isTerminal) : s' = s ∧ effects = [] := by
  cases h with
  | absorbed e _ => exact ⟨rfl, rfl⟩
  | stopPreflight which | preflightStopped which | preflightFailed which =>
    cases which <;> simp [rebuildPreflight, State.isTerminal] at hs
  | _ => simp [State.isTerminal] at hs

/-! ### The shape of a recovery -/

/-- `abort` with `cleanup` still to come, or `cleanup` with nothing left. -/
def Recovery.Shape (rec : Recovery) : Prop :=
  rec.current = .abort ∧ rec.remaining = [.cleanup] ∨ rec.current = .cleanup ∧ rec.remaining = []

def State.Shape : State → Prop
  | .recovering rec => rec.Shape
  | _ => True

theorem startRecovery_shape (cause : StopCause) (reason : Option String) : (startRecovery cause reason).1.Shape := by
  cases cause <;> simp [startRecovery, StopCause.recoverySteps, State.Shape, Recovery.Shape]

/-- Recoveries start as `abort` then `cleanup` or as `cleanup` alone, and only ever advance. -/
theorem Trans.shape (h : Trans s e s' effects) (hs : s.Shape) : s'.Shape := by
  cases h with
  | injectedStopped cause | stopActive cause => exact startRecovery_shape cause none
  | injectAmbiguous stop reason _ => exact startRecovery_shape .deadman (some reason)
  | recoveryNext rec next rest hr =>
    rcases hs with ⟨-, hrem⟩ | ⟨-, hrem⟩
    · obtain ⟨rfl, rfl⟩ : next = .cleanup ∧ rest = [] := by simpa [hrem, eq_comm] using hr
      exact .inr ⟨rfl, rfl⟩
    · simp [hrem] at hr
  | recovered rec _ => cases rec.outcome <;> trivial
  | stopPreflight which stop cause => cases which <;> trivial
  | absorbed | stopRecovery | recoveryRetry => exact hs
  | setupOk | setupFailed | stopPending | preflightStopped | preflightFailed | installOk | runtimeOk | stopJournal
  | journalStopped | journalFailed | inject | stopInject | injected | injectUnaffected | recoveryFailed => trivial

theorem Recovery.Shape.ne_inject {rec : Recovery} (h : rec.Shape) : rec.current ≠ .inject := by
  rcases h with ⟨h, -⟩ | ⟨h, -⟩ <;> simp [h]

/-- `inject` is invoked by one transition only: the journal entry is written and no stop is recorded. -/
theorem Trans.invoke_inject (h : Trans s e s' effects) (hs : s.Shape) {phase : Phase}
    (hi : .invoke .inject phase ∈ effects) : s = .writingJournal none ∧ e = .journalWritten ∧ s' = .injecting none := by
  cases h with
  | inject => exact ⟨rfl, rfl, rfl⟩
  | injectedStopped cause | stopActive cause => cases cause <;> simp [startRecovery, StopCause.recoverySteps] at hi
  | recoveryRetry rec _ _ => simp [hs.ne_inject.symm] at hi
  | recoveryNext rec next rest hr =>
    obtain ⟨rfl, -⟩ : .inject = next ∧ phase = .runtime := by simpa using hi
    rcases hs with ⟨-, hrem⟩ | ⟨-, hrem⟩ <;> simp [hrem] at hr
  | absorbed | setupOk | setupFailed | stopPending | stopPreflight | preflightStopped | preflightFailed | installOk
  | runtimeOk | stopJournal | journalStopped | journalFailed | stopInject | injected | injectUnaffected
  | injectAmbiguous | stopRecovery | recovered | recoveryFailed => simp [startRecovery, StopCause.recoverySteps] at hi

end

end FaultForge.Agent
