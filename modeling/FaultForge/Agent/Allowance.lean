import FaultForge.Agent.Dominates
import FaultForge.Agent.History
import FaultForge.Agent.ReplayCourse

/-!
# What a run may ask for (machine.rs:364-449, supervisor.rs:428-538, 585-670, 749-825)

Every state of the machine has a budget of requests that it can still cause (`State.left`), and a transition pays for
what it asks for (`Trans.spends`). So the requests of a run are bounded by the budget of `PENDING` (`reach_budget`),
and by `history_refines` so is what the task of an instance performs. A recovery command is repeated once, and the
permission comes back only with the next command (`Tick.RetriesOnce`).

* `runs_bounded` — for the tasks of `run_instance` under any interleaving, and for the loop of `replay_entry`.
-/
namespace FaultForge.Agent

open Lts

/-! ## Budgets -/

/-- How often a command is invoked in a run, at most. -/
def allowance : PluginCommand → Nat
  | .preflight | .abort | .cleanup => 2
  | .inject => 1
  | .report => 0

def Effect.invokes (command : PluginCommand) : Effect → Bool
  | .invoke c _ => c = command
  | _ => false

def Effect.writes : Effect → Bool
  | .writeJournal => true
  | _ => false

def Effect.marks : Effect → Bool
  | .markTainted _ => true
  | _ => false

/-- Invocations of `command` that a state can still cause. -/
def State.left (command : PluginCommand) : State → Nat
  | .pending => allowance command
  | .preflightInstall _ => if command = .preflight then 1 else allowance command
  | .preflightRuntime _ | .writingJournal _ => if command = .preflight then 0 else allowance command
  | .injecting _ | .active => if command = .abort ∨ command = .cleanup then 2 else 0
  | .recovering rec =>
    (if rec.current = command ∧ rec.retried = false then 1 else 0) + 2 * rec.remaining.count command
  | .done | .aborted | .error => 0

/-- Journal writes that a state can still cause. -/
def State.writesLeft : State → Nat
  | .pending | .preflightInstall _ | .preflightRuntime _ => 1
  | _ => 0

/-- Taint records that a state can still cause. -/
def State.marksLeft (s : State) : Nat := if s.isTerminal then 0 else 1

section
variable {s s' : State} {e : Event} {effects : List Effect}

theorem startRecovery_spends (cause : StopCause) (reason : Option String) (command : PluginCommand) :
    (startRecovery cause reason).2.countP (Effect.invokes command) + (startRecovery cause reason).1.left command ≤
      if command = .abort ∨ command = .cleanup then 2 else 0 := by
  cases cause <;> cases command <;>
    simp [startRecovery, StopCause.recoverySteps, State.left, Effect.invokes]

/-- A transition pays for the commands that it invokes. -/
theorem Trans.spends (h : Trans s e s' effects) (command : PluginCommand) :
    effects.countP (Effect.invokes command) + s'.left command ≤ s.left command := by
  cases h with
  | absorbed | stopJournal | stopInject | stopRecovery => simp [State.left]
  | stopPreflight which => cases which <;> simp [rebuildPreflight, State.left]
  | setupOk | installOk | runtimeOk | inject | injected =>
    cases command <;> simp [State.left, Effect.invokes, allowance]
  | injectedStopped cause | stopActive cause | injectAmbiguous => exact startRecovery_spends _ _ command
  | recoveryNext rec next rest hrem =>
    by_cases hc : next = command
    · simp [State.left, Effect.invokes, hrem, hc]
      omega
    · simp [State.left, Effect.invokes, hrem, hc]
  | recoveryRetry rec _ hr =>
    by_cases hc : rec.current = command
    · simp [State.left, Effect.invokes, hr, hc]
    · simp [State.left, Effect.invokes, hc]
  | recovered rec => cases ho : rec.outcome <;> simp [State.left, Effect.invokes, Outcome.state]
  | setupFailed | stopPending | preflightStopped | preflightFailed | journalStopped | journalFailed | injectUnaffected
  | recoveryFailed => simp [State.left, Effect.invokes]

theorem Trans.spends_write (h : Trans s e s' effects) :
    effects.countP Effect.writes + s'.writesLeft ≤ s.writesLeft := by
  cases h with
  | stopPreflight which => cases which <;> simp [rebuildPreflight, State.writesLeft]
  | injectedStopped cause | stopActive cause | injectAmbiguous =>
    simp [startRecovery, State.writesLeft, Effect.writes]
  | recovered rec => cases ho : rec.outcome <;> simp [State.writesLeft, Effect.writes, Outcome.state]
  | _ => simp [State.writesLeft, Effect.writes]

theorem Trans.spends_mark (h : Trans s e s' effects) : effects.countP Effect.marks + s'.marksLeft ≤ s.marksLeft := by
  cases h with
  | stopPreflight which | preflightStopped which | preflightFailed which =>
    cases which <;> simp [rebuildPreflight, State.marksLeft, State.isTerminal, Effect.marks]
  | injectedStopped cause | stopActive cause | injectAmbiguous =>
    simp [startRecovery, State.marksLeft, State.isTerminal, Effect.marks]
  | recovered rec => cases ho : rec.outcome <;> simp [State.marksLeft, State.isTerminal, Effect.marks, Outcome.state]
  | recoveryFailed => exact Nat.le_refl 1
  | _ => simp [State.marksLeft, State.isTerminal, Effect.marks]

end

/-- The requests of a run stay within the budget of its start. -/
theorem reach_budget (p : Effect → Bool) (left : State → Nat)
    (hspends : ∀ {s s' : State} {e : Event} {effects : List Effect},
      Trans s e s' effects → effects.countP p + left s' ≤ left s)
    {c : Config} (h : Reach machineLts c) : (emitted c.trace).countP p + left c.state ≤ left .pending := by
  induction h with
  | init hc =>
    obtain rfl : _ = Config.start := hc
    simp [Config.start, emitted]
  | @step c c' e hr hs ih =>
    have hstep := hspends ((reach_inv hr).trans hs)
    obtain ⟨-, hstate, -, htrace⟩ := machineLts_step hs
    rw [htrace, emitted_cons, List.countP_append, hstate]
    show (emitted c.trace).countP p + (step c.state e).2.countP p + _ ≤ _
    omega

/-! ## Retries -/

/-- In a recovery the current command is invoked once more at most, and another one only after it has succeeded. -/
def Tick.RetriesOnce (t : Tick) : Prop :=
  ∀ rec rec', t.pre = .recovering rec → t.post = .recovering rec' →
    (rec'.current = rec.current ∧ rec'.remaining = rec.remaining ∧ (rec.retried = true → rec'.retried = true) ∧
      ∀ command, t.Invokes command → rec.retried = false ∧ rec'.retried = true) ∨
    (rec.remaining = rec'.current :: rec'.remaining ∧ t.event = .commandFinished rec.current .success)

theorem Trans.retries_once {t : Tick} (h : Trans t.pre t.event t.post t.effects) : t.RetriesOnce := by
  obtain ⟨s, e, s', effects⟩ := t
  rintro rec rec' rfl rfl
  dsimp only at h
  generalize hs : State.recovering rec = s at h
  generalize hs' : State.recovering rec' = s' at h
  cases h with
  | absorbed e ht => simp [← hs, State.isTerminal] at ht
  | stopRecovery r cause =>
    obtain rfl := State.recovering.inj hs
    obtain rfl := State.recovering.inj hs'
    exact .inl ⟨rfl, rfl, id, by simp [Tick.Invokes]⟩
  | recoveryNext r next rest hrem =>
    obtain rfl := State.recovering.inj hs
    obtain rfl := State.recovering.inj hs'
    exact .inr ⟨hrem, rfl⟩
  | recoveryRetry r _ hr =>
    obtain rfl := State.recovering.inj hs
    obtain rfl := State.recovering.inj hs'
    exact .inl ⟨rfl, rfl, fun _ => rfl, fun command _ => ⟨hr, rfl⟩⟩
  | recovered r => cases ho : r.outcome <;> simp [ho, Outcome.state] at hs'
  | stopPreflight which | preflightStopped which | preflightFailed which => cases which <;> cases hs
  | recoveryFailed => cases hs'
  | _ => cases hs

/-- The host is tainted exactly where the retry of a command fails. -/
theorem Trans.marks_iff {t : Tick} (h : Trans t.pre t.event t.post t.effects) :
    (∃ reason, .markTainted reason ∈ t.effects) ↔ t.FailsAgain := by
  obtain ⟨s, e, s', effects⟩ := t
  dsimp only at h ⊢
  cases h with
  | recoveryFailed rec reason hf hr => exact ⟨fun _ => ⟨rec, rfl, hr, hf⟩, fun _ => ⟨reason, by simp⟩⟩
  | recoveryRetry rec _ hr =>
    refine ⟨by simp, ?_⟩
    rintro ⟨rec', hpre, hr', -⟩
    obtain rfl := State.recovering.inj hpre
    rw [show rec.retried = true from hr'] at hr
    cases hr
  | recovered rec | recoveryNext rec =>
    refine ⟨by simp, ?_⟩
    rintro ⟨rec', -, -, hf⟩
    exact absurd rfl hf.ne_success
  | stopRecovery rec cause =>
    refine ⟨by simp, ?_⟩
    rintro ⟨rec', -, -, hf⟩
    cases hf
  | absorbed e ht =>
    refine ⟨by simp, ?_⟩
    rintro ⟨rec, hpre, -⟩
    simp [show s = .recovering rec from hpre, State.isTerminal] at ht
  | stopPreflight which | preflightStopped which | preflightFailed which =>
    cases which <;> simp [rebuildPreflight, Tick.FailsAgain]
  | injectedStopped | stopActive | injectAmbiguous => simp [startRecovery, Tick.FailsAgain]
  | _ => simp [Tick.FailsAgain]

/-! ## Whole runs -/

/-- What holds of an instance and its history: the loop never finds itself with nothing to wait for, the requests are
bounded, a recovery command is repeated once, and the second failure taints the host. -/
structure Allowed (w : Watched Instance History) : Prop where
  unwedged : w.state.task.pc = .loop → w.state.task.effects = [] → w.state.task.queue = [] →
    w.state.task.state.isTerminal ∨ w.state.task.state = .active
  invokes : ∀ command, w.seen.performed.countP (Effect.invokes command) ≤ allowance command
  writes : w.seen.performed.countP Effect.writes ≤ 1
  marks : (emitted w.seen.ticks).countP Effect.marks ≤ 1
  retries : ∀ t ∈ w.seen.ticks, t.RetriesOnce
  taints : ∀ t ∈ w.seen.ticks, (∃ reason, .markTainted reason ∈ t.effects) ↔ t.FailsAgain

theorem reach_allowed {X : Ext} {w : Watched Instance History} (h : Reach (historyLts X) w) : Allowed w := by
  have hshape := (reach_accounted h.unwatched).1
  obtain ⟨⟨outstanding, hrun⟩, heffects⟩ := history_refines h
  have htrans : ∀ t ∈ w.seen.ticks, Trans t.pre t.event t.post t.effects := by
    intro t ht
    obtain ⟨newer, older, hsplit⟩ := List.append_of_mem ht
    obtain ⟨c₀, c₁, -, -, -, -, h'⟩ := reach_split hrun hsplit
    exact h'
  have hperformed : ∀ p : Effect → Bool, w.seen.performed.countP p ≤ (emitted w.seen.ticks).countP p := by
    intro p
    rw [← heffects, List.countP_append]
    exact Nat.le_add_right _ _
  constructor
  · intro hpc heff hq
    by_cases hend : w.state.task.state.isTerminal
    · exact .inl hend
    · exact .inr (hshape.unwedged hpc heff hq (by simpa using hend))
  · intro command
    have hbudget := reach_budget (Effect.invokes command) (State.left command) (fun h => h.spends command) hrun
    exact (hperformed _).trans ((Nat.le_add_right _ _).trans hbudget)
  · have hbudget := reach_budget Effect.writes State.writesLeft Trans.spends_write hrun
    exact (hperformed _).trans ((Nat.le_add_right _ _).trans hbudget)
  · have hbudget := reach_budget Effect.marks State.marksLeft Trans.spends_mark hrun
    exact (Nat.le_add_right _ _).trans hbudget
  · exact fun t ht => (htrans t ht).retries_once
  · exact fun t ht => (htrans t ht).marks_iff

/-- The replay has ended by itself, after four invocations at most. -/
structure ReplayAllowed (result : Replayed) (final : Replay) : Prop where
  finished : final.effects = [] ∧ final.queue = []
  terminal : final.state.isTerminal
  invoked : ∃ invoked, invoked.length ≤ 4 ∧ final.result.invoked = invoked ++ result.invoked

theorem RecoveryTried.length_le {X : Ext} {timeoutSecs : UInt64} {entry : JournalEntry}
    {attempts : List (Effect × Answer)} {ok : Bool} (h : RecoveryTried X timeoutSecs entry attempts ok) :
    attempts.length ≤ 4 := by
  cases h with
  | aborting habort => exact habort.length_le.2.trans (by decide)
  | cleaning habort hclean =>
    rw [List.length_append]
    exact Nat.add_le_add habort.length_le.2 hclean.length_le.2

theorem replay_allowed (X : Ext) (timeoutSecs : UInt64) (entry : JournalEntry) (now : Int) (env : Nat → Answer)
    (result : Replayed) : ReplayAllowed result (replayEntry X timeoutSecs entry now env result) := by
  obtain ⟨attempts, ok, h⟩ := replayEntry_course X timeoutSecs entry now env result
  refine ⟨h.finished, ?_, (invokedIn entry attempts).reverse, ?_, h.invoked⟩
  · rw [h.state]
    cases ok
    · rfl
    · exact (replayOutcome now entry).state_isTerminal
  · rw [List.length_reverse]
    exact (List.length_filterMap_le _ _).trans h.tried.length_le

/-- **Runs are bounded and never wedge**, in `run_instance` whatever the plugins, the stops and the surroundings do, and
in `replay_entry` whatever the invocations answer. -/
theorem runs_bounded (X : Ext) :
    (∀ w, Reach (historyLts X) w → Allowed w) ∧
    (∀ timeoutSecs entry now env result, ReplayAllowed result (replayEntry X timeoutSecs entry now env result)) :=
  ⟨fun _ h => reach_allowed h, replay_allowed X⟩

/-- An `inject` that exits 20 has used the whole allowance of `preflight` and `inject`. -/
theorem runs_bounded_failed : ∃ w, Reach (historyLts plainExt) w ∧
    w.seen.performed.countP (Effect.invokes .inject) = 1 ∧ Allowed w := by
  let p : Watched Instance History → Bool := fun w => w.seen.performed.countP (Effect.invokes .inject) == 1
  have hinit : (historyLts plainExt).init ⟨sampleInstance, ⟨[], []⟩⟩ := ⟨⟨sampleRun, rfl, rfl, rfl, rfl⟩, rfl⟩
  obtain ⟨w, hw, hp⟩ := reach_of_run p hinit ((injectChoices ++ failedChoices).map .task) (by decide)
  exact ⟨w, hw, by simpa [p] using hp, (runs_bounded plainExt).1 w hw⟩

end FaultForge.Agent
