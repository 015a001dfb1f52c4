import FaultForge.Agent.AnyEvents
import FaultForge.Agent.Announce

/-!
# Where the dead-man dominates (machine.rs:61-80, 364-418, 521-543)

"A malfunction; dominates the other outcomes", says `Outcome::Error`, and `step_recovering` escalates to it when the
dead-man passes. `step_injecting` keeps the first stop it is told of, whatever comes after, so there a dead-man behind
another cause is dropped (`Tick.DropsDeadman`). The runs here are those of `feed`: any events in any order.

| here | there |
| --- | --- |
| `Tick.HearsDeadman` | `StopRequested { Deadman }` in `INJECTING`, `ACTIVE`, `RECOVERING` |
| `Tick.DropsDeadman` | `stop.or(Some(cause))` in `step_injecting`, with a cause recorded |
| `Tick.Doubtful` | the arms of `step_injecting` that start a recovery for `Deadman` |
| `Tick.FailsAgain` | `rec.retried` in `recovery_failure` |

* `deadman_dominates` — a run that hears the dead-man and recovers ends in `ERROR` exactly when it dropped not all it
  heard, or `inject` was doubtful, or a recovery command failed twice.
* `deadman_dropped` — an operator abort in front of it, both during `inject`: the run ends in `ABORTED`.
-/
namespace FaultForge.Agent

/-! ## What a run consumes -/

def State.exposed : State → Bool
  | .injecting _ | .active | .recovering _ => true
  | _ => false

/-- The dead-man is consumed while the fault is, or may be, injected. -/
def Tick.HearsDeadman (t : Tick) : Prop := t.event = .stopRequested .deadman ∧ t.pre.exposed

/-- `INJECTING` has already recorded another cause, and keeps it. -/
def Tick.DropsDeadman (t : Tick) : Prop := ∃ cause, t.pre = .injecting (some cause) ∧ cause ≠ .deadman

/-- `inject` is reported to have ended in a way that leaves the host unknown. -/
def Tick.Doubtful (t : Tick) : Prop :=
  ∃ stop, t.pre = .injecting stop ∧
    ((∃ command reason, t.event = .invocationFailed command reason) ∨
      ∃ d, t.event = .commandFinished .inject d ∧ d ≠ .success ∧ d ≠ .injectFailed)

/-- A recovery command that was retried fails. -/
def Tick.FailsAgain (t : Tick) : Prop :=
  ∃ rec, t.pre = .recovering rec ∧ rec.retried = true ∧ t.event.FailureOf rec.current

def Tick.EndsRecovery (t : Tick) : Prop := t.pre.isRecovering ∧ t.post.isTerminal

/-- The step settles that the run, if it recovers, ends in `ERROR`. -/
def Tick.Dooms (t : Tick) : Prop := (t.HearsDeadman ∧ ¬ t.DropsDeadman) ∨ t.Doubtful ∨ t.FailsAgain

/-! ## One step -/

/-- A recovery from here ends in `ERROR`. -/
def State.Doomed : State → Prop
  | .injecting stop => stop = some .deadman
  | .recovering rec => rec.outcome = .error
  | .error => True
  | _ => False

theorem startRecovery_doomed (cause : StopCause) (reason : Option String) :
    (startRecovery cause reason).1.Doomed ↔ cause = .deadman := by
  cases cause <;> simp [startRecovery, State.Doomed, StopCause.outcome]

theorem startRecovery_ne_aborted (cause : StopCause) (reason : Option String) :
    (startRecovery cause reason).1 ≠ .aborted := by
  simp [startRecovery]

theorem rebuildPreflight_not_doomed (which : Phase) (stop : Option StopCause) :
    ¬ (rebuildPreflight which stop).Doomed := by
  cases which <;> exact id

section
variable {s : State} {e : Event}

theorem not_dooms_of_unexposed (hs : s.exposed = false) {post : State} {effects : List Effect} :
    ¬ (⟨s, e, post, effects⟩ : Tick).Dooms := by
  rintro (⟨⟨-, hpre⟩, -⟩ | ⟨stop, hpre, -⟩ | ⟨rec, hpre, -⟩)
  · simp [hs] at hpre
  · simp only at hpre
    simp [hpre, State.exposed] at hs
  · simp only at hpre
    simp [hpre, State.exposed] at hs

theorem stepPreflight_not_doomed (which : Phase) (stop : Option StopCause) (e : Event) :
    ¬ (stepPreflight which stop e).1.Doomed := by
  unfold stepPreflight
  split
  · exact rebuildPreflight_not_doomed which _
  · split
    · exact id
    · cases which <;> exact id
  · exact id
  · exact id
  · exact id
  · exact rebuildPreflight_not_doomed which _

theorem stepWritingJournal_not_doomed (stop : Option StopCause) (e : Event) :
    ¬ (stepWritingJournal stop e).1.Doomed := by
  cases e with
  | journalWritten => cases stop <;> simp [stepWritingJournal, State.Doomed]
  | _ => exact id

theorem stepPending_not_doomed (e : Event) : ¬ (stepPending e).1.Doomed := by
  cases e <;> exact id

/-! ### In the three states that hear the dead-man -/

theorem dooms_injecting {stop : Option StopCause} {post : State} {effects : List Effect} :
    (⟨.injecting stop, e, post, effects⟩ : Tick).Dooms ↔
      (e = .stopRequested .deadman ∧ stop.or (some .deadman) = some .deadman) ∨
      (∃ command reason, e = .invocationFailed command reason) ∨
      ∃ d, e = .commandFinished .inject d ∧ d ≠ .success ∧ d ≠ .injectFailed := by
  constructor
  · rintro (⟨⟨he, -⟩, hkeep⟩ | ⟨_, -, hdoubt⟩ | ⟨rec, hrec, -⟩)
    · refine .inl ⟨he, ?_⟩
      cases stop with
      | none => rfl
      | some cause => exact congrArg some (not_not.1 fun hc => hkeep ⟨cause, rfl, hc⟩)
    · exact .inr hdoubt
    · cases hrec
  · rintro (⟨he, hstop⟩ | hdoubt)
    · refine .inl ⟨⟨he, rfl⟩, ?_⟩
      rintro ⟨cause, hpre, hc⟩
      obtain rfl := State.injecting.inj hpre
      exact hc (Option.some.inj hstop)
    · exact .inr (.inl ⟨stop, rfl, hdoubt⟩)

theorem dooms_active {post : State} {effects : List Effect} :
    (⟨.active, e, post, effects⟩ : Tick).Dooms ↔ e = .stopRequested .deadman := by
  constructor
  · rintro (⟨⟨he, -⟩, -⟩ | ⟨stop, hpre, -⟩ | ⟨rec, hpre, -⟩)
    · exact he
    · cases hpre
    · cases hpre
  · intro he
    refine .inl ⟨⟨he, rfl⟩, ?_⟩
    rintro ⟨cause, hpre, -⟩
    cases hpre

theorem dooms_recovering {rec : Recovery} {post : State} {effects : List Effect} :
    (⟨.recovering rec, e, post, effects⟩ : Tick).Dooms ↔
      e = .stopRequested .deadman ∨ (rec.retried = true ∧ e.FailureOf rec.current) := by
  constructor
  · rintro (⟨⟨he, -⟩, -⟩ | ⟨stop, hpre, -⟩ | ⟨rec', hpre, hf⟩)
    · exact .inl he
    · cases hpre
    · obtain rfl := State.recovering.inj hpre
      exact .inr hf
  · rintro (he | hf)
    · refine .inl ⟨⟨he, rfl⟩, ?_⟩
      rintro ⟨cause, hpre, -⟩
      cases hpre
    · exact .inr (.inr ⟨rec, rfl, hf⟩)

theorem stepInjecting_doomed (stop : Option StopCause) (e : Event) {effects : List Effect} :
    (stepInjecting stop e).1.Doomed ↔ (stop = some .deadman ∧ (stepInjecting stop e).1 ≠ .aborted) ∨
      (⟨.injecting stop, e, (stepInjecting stop e).1, effects⟩ : Tick).Dooms := by
  rw [dooms_injecting]
  cases e with
  | stopRequested cause => cases stop <;> simp [stepInjecting, State.Doomed]
  | commandFinished command d =>
    cases command with
    | inject =>
      cases d with
      | success =>
        cases stop with
        | none => simp [stepInjecting, State.Doomed]
        | some cause => simp [stepInjecting, startRecovery_doomed, startRecovery_ne_aborted]
      | injectFailed => simp [stepInjecting, State.Doomed]
      | preflightFailed | recoveryFailed | unexpected => simp [stepInjecting, startRecovery_doomed]
    | preflight | report | abort | cleanup => simp [stepInjecting, State.Doomed]
  | invocationFailed command reason => simp [stepInjecting, startRecovery_doomed]
  | invokeRejected command reason => simp [stepInjecting, State.Doomed]
  | setupOk | setupFailed | journalWritten | journalWriteFailed => simp [stepInjecting, State.Doomed]

theorem recoveryFailure_doomed (rec : Recovery) (detail : String) :
    (recoveryFailure rec detail).1.Doomed ↔ rec.outcome = .error ∨ rec.retried = true := by
  unfold recoveryFailure
  split
  · simp [State.Doomed, *]
  · simp [State.Doomed, *]

theorem recoveryFailure_ne_aborted (rec : Recovery) (detail : String) : (recoveryFailure rec detail).1 ≠ .aborted := by
  unfold recoveryFailure
  split <;> simp

/-- A report of the command that runs, when it did not succeed. -/
theorem recoveryFailure_dooms (rec : Recovery) (detail : String) {effects : List Effect}
    (hf : e.FailureOf rec.current) : (recoveryFailure rec detail).1.Doomed ↔
      (rec.outcome = .error ∧ (recoveryFailure rec detail).1 ≠ .aborted) ∨
        (⟨.recovering rec, e, (recoveryFailure rec detail).1, effects⟩ : Tick).Dooms := by
  have hstop : e ≠ .stopRequested .deadman := fun he => by simpa [he, Event.answers] using hf.answers
  rw [recoveryFailure_doomed, dooms_recovering]
  simp [recoveryFailure_ne_aborted, hf, hstop]

/-- An event that leaves the recovery as it was. -/
theorem stay_dooms (rec : Recovery) {effects : List Effect} (hstop : e ≠ .stopRequested .deadman)
    (hf : ¬ e.FailureOf rec.current) : (State.recovering rec).Doomed ↔
      (rec.outcome = .error ∧ State.recovering rec ≠ .aborted) ∨
        (⟨.recovering rec, e, .recovering rec, effects⟩ : Tick).Dooms := by
  rw [dooms_recovering]
  simp [State.Doomed, hstop, hf]

theorem stepRecovering_doomed (rec : Recovery) (e : Event) {effects : List Effect} :
    (stepRecovering rec e).1.Doomed ↔ (rec.outcome = .error ∧ (stepRecovering rec e).1 ≠ .aborted) ∨
      (⟨.recovering rec, e, (stepRecovering rec e).1, effects⟩ : Tick).Dooms := by
  by_cases hstop : e = .stopRequested .deadman
  · subst hstop
    rw [dooms_recovering]
    simp [stepRecovering, State.Doomed]
  · by_cases hfit : e.answers = some (.command rec.current)
    · cases e with
      | commandFinished command d =>
        obtain rfl : command = rec.current := by simpa [Event.answers] using hfit
        cases d with
        | success =>
          have hf : ¬ (Event.commandFinished rec.current .success).FailureOf rec.current := fun hf => hf.ne_success rfl
          rw [dooms_recovering]
          simp only [stepRecovering, if_true]
          split
          · cases ho : rec.outcome <;> simp [Outcome.state, State.Doomed, hf]
          · simp [State.Doomed, hf]
        | preflightFailed | injectFailed | recoveryFailed | unexpected =>
          simp only [stepRecovering, if_true]
          exact recoveryFailure_dooms rec _ (.exit _ (by simp))
      | invocationFailed command reason =>
        obtain rfl : command = rec.current := by simpa [Event.answers] using hfit
        simp only [stepRecovering, if_true]
        exact recoveryFailure_dooms rec _ (.invocation _)
      | invokeRejected command reason =>
        obtain rfl : command = rec.current := by simpa [Event.answers] using hfit
        simp only [stepRecovering, if_true]
        exact recoveryFailure_dooms rec _ (.rejected _)
      | setupOk | setupFailed | journalWritten | journalWriteFailed | stopRequested => simp [Event.answers] at hfit
    · have hf : ¬ e.FailureOf rec.current := fun hf => hfit hf.answers
      by_cases hresult : e.answers = none
      · cases e with
        | stopRequested cause => cases cause <;> first | exact absurd rfl hstop | exact stay_dooms rec hstop hf
        | _ => simp [Event.answers] at hresult
      · rw [stepRecovering_stray rec hresult hfit]
        exact stay_dooms rec hstop hf

end

/-- Where the dead-man is not heard, nothing is settled. -/
theorem unexposed_doomed {s post : State} {e : Event} {effects : List Effect} (hs : s.exposed = false)
    (hpre : ¬ s.Doomed) (hpost : ¬ post.Doomed) :
    post.Doomed ↔ (s.Doomed ∧ post ≠ .aborted) ∨ (⟨s, e, post, effects⟩ : Tick).Dooms := by
  refine iff_of_false hpost ?_
  rintro (⟨h, -⟩ | h)
  · exact hpre h
  · exact not_dooms_of_unexposed hs h

/-- **What dooms a run.** After a step a recovery will end in `ERROR` if that was settled before and the run has not
been called off, or if the step settles it. -/
theorem step_doomed (s : State) (e : Event) :
    (step s e).1.Doomed ↔ (s.Doomed ∧ (step s e).1 ≠ .aborted) ∨
      (⟨s, e, (step s e).1, (step s e).2⟩ : Tick).Dooms := by
  cases s with
  | injecting stop => exact stepInjecting_doomed stop e
  | recovering rec => exact stepRecovering_doomed rec e
  | active =>
    rw [dooms_active]
    cases e with
    | stopRequested cause =>
      have hstep : (step .active (.stopRequested cause)).1 = (startRecovery cause none).1 := rfl
      rw [hstep, startRecovery_doomed]
      simp [State.Doomed]
    | _ => simp [step, State.Doomed]
  | pending => exact unexposed_doomed rfl id (stepPending_not_doomed e)
  | preflightInstall stop => exact unexposed_doomed rfl id (stepPreflight_not_doomed .install stop e)
  | preflightRuntime stop => exact unexposed_doomed rfl id (stepPreflight_not_doomed .runtime stop e)
  | writingJournal stop => exact unexposed_doomed rfl id (stepWritingJournal_not_doomed stop e)
  | done | aborted => exact unexposed_doomed rfl id id
  | error => exact iff_of_true trivial (.inl ⟨trivial, by simp [step]⟩)

/-! ## A run -/

theorem terminal_doomed {s : State} (h : s.isTerminal) : s.Doomed ↔ s = .error := by
  cases s <;> simp_all [State.isTerminal, State.Doomed]

theorem step_terminal {s : State} (h : s.isTerminal) (e : Event) : step s e = (s, []) := by
  cases s <;> first | rfl | cases h

/-- A recovery that heads for `ERROR` does not end in `ABORTED`. -/
theorem doomed_not_aborted {s : State} {e : Event} (hs : s.isRecovering) (hd : s.Doomed) : (step s e).1 ≠ .aborted := by
  cases s with
  | recovering rec =>
    intro hpost
    have hpost : (stepRecovering rec e).1 = .aborted := hpost
    cases hstep : stepRecovering rec e with | mk s' effects
    have h := stepRecovering_cases rec e
    rw [hstep] at h hpost
    cases h with
    | recovered => simp [show rec.outcome = .error from hd, Outcome.state] at hpost
    | recorded | next | retry | failed => cases hpost
  | _ => cases hs

theorem feed_terminal {s : State} (h : s.isTerminal) {events : List Event} {t : Tick} (ht : t ∈ feed s events) :
    t.pre = s := by
  induction events with
  | nil => cases ht
  | cons e events ih =>
    rcases List.mem_cons.1 ht with rfl | ht
    · rfl
    · rw [step_terminal h] at ht
      exact ih ht

/-- The run of a recovery that ends: in `ERROR`, exactly when that is settled before or during the run. -/
theorem ends_error_iff {s : State} {events : List Event} (hends : ∃ t ∈ feed s events, t.EndsRecovery) :
    s.after events = .error ↔ s.Doomed ∨ ∃ t ∈ feed s events, t.Dooms := by
  induction events generalizing s with
  | nil =>
    obtain ⟨t, ht, -⟩ := hends
    cases ht
  | cons e events ih =>
    have hafter : s.after (e :: events) = (step s e).1.after events := rfl
    have hfeed : feed s (e :: events) = ⟨s, e, (step s e).1, (step s e).2⟩ :: feed (step s e).1 events := rfl
    rw [hafter, hfeed, List.exists_mem_cons_iff, ← or_assoc]
    cases hterm : (step s e).1.isTerminal with
    | true =>
      -- the run ends here, and in recovery, so a doomed run ends in `ERROR`
      have hrec : s.isRecovering := by
        obtain ⟨t, ht, hend⟩ := hends
        rcases List.mem_cons.1 ht with rfl | ht
        · exact hend.1
        · have hpre := hend.1
          rw [feed_terminal hterm ht] at hpre
          cases hpost : (step s e).1 <;> simp [hpost, State.isTerminal, State.isRecovering] at hterm hpre
      have hquiet : ¬ ∃ t ∈ feed (step s e).1 events, t.Dooms := by
        rintro ⟨t, ht, hdooms⟩
        refine not_dooms_of_unexposed ?_ hdooms
        rw [feed_terminal hterm ht]
        cases hpost : (step s e).1 <;> simp_all [State.isTerminal, State.exposed]
      rw [after_terminal hterm, ← terminal_doomed hterm, step_doomed]
      simp only [hquiet, or_false]
      exact or_congr_left (and_iff_left_of_imp fun hd => doomed_not_aborted hrec hd)
    | false =>
      have htail : ∃ t ∈ feed (step s e).1 events, t.EndsRecovery := by
        obtain ⟨t, ht, hend⟩ := hends
        rcases List.mem_cons.1 ht with rfl | ht
        · exact absurd hend.2 (by simp [hterm])
        · exact ⟨t, ht, hend⟩
      have hlive : (step s e).1 ≠ .aborted := fun h => by simp [h, State.isTerminal] at hterm
      rw [ih htail, step_doomed]
      simp [hlive]

/-- **Where the dead-man dominates**: a run from `PENDING` that ends by recovery ends in `ERROR` exactly when a dead-man
it heard was not dropped, or `inject` was doubtful, or a recovery command failed twice. -/
theorem deadman_dominates (events : List Event) (hends : ∃ t ∈ feed .pending events, t.EndsRecovery) :
    State.pending.after events = .error ↔
      ∃ t ∈ feed .pending events, (t.HearsDeadman ∧ ¬ t.DropsDeadman) ∨ t.Doubtful ∨ t.FailsAgain := by
  rw [ends_error_iff hends]
  exact or_iff_right id

/-- To `INJECTING`, where two stops arrive; then `inject`, `abort` and `cleanup` succeed. -/
def stoppedTwice (first second : StopCause) : List Event :=
  [.setupOk, .commandFinished .preflight .success, .commandFinished .preflight .success, .journalWritten,
   .stopRequested first, .stopRequested second, .commandFinished .inject .success,
   .commandFinished .abort .success, .commandFinished .cleanup .success]

/-- The last step of such a run. -/
def lastTick (outcome : Outcome) (reason : String) : Tick where
  pre := .recovering ⟨.cleanup, [], outcome, false, some reason⟩
  event := .commandFinished .cleanup .success
  post := outcome.state
  effects := [.removeJournal, .emitStatus outcome.terminalState (some reason)]

/-- The dead-man first, then the operator. -/
theorem deadman_dominates_first :
    State.pending.after (stoppedTwice .deadman .operatorAbort) = .error ↔
      ∃ t ∈ feed .pending (stoppedTwice .deadman .operatorAbort),
        (t.HearsDeadman ∧ ¬ t.DropsDeadman) ∨ t.Doubtful ∨ t.FailsAgain :=
  deadman_dominates _ ⟨lastTick .error StopCause.deadman.reason, by decide, rfl, rfl⟩

/-- The operator first: the dead-man that follows during `inject` is dropped. -/
theorem deadman_dropped :
    (∃ t ∈ feed .pending (stoppedTwice .operatorAbort .deadman), t.HearsDeadman) ∧
      (∃ t ∈ feed .pending (stoppedTwice .operatorAbort .deadman), t.EndsRecovery) ∧
      State.pending.after (stoppedTwice .operatorAbort .deadman) = .aborted :=
  ⟨⟨⟨.injecting (some .operatorAbort), .stopRequested .deadman, .injecting (some .operatorAbort), []⟩,
      by decide, rfl, rfl⟩,
    ⟨lastTick .aborted StopCause.operatorAbort.reason, by decide, rfl, rfl⟩, by decide⟩

end FaultForge.Agent
