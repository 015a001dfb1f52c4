import FaultForge.Agent.Heeded
import FaultForge.Agent.Silence

/-!
# What the dead-man bounds (supervisor.rs:427-489, 506-541, 543-670; machine.rs:474-609)

`run_instance` fixes `deadline_unix` before its first await, and `wait_for_stop` alone compares it with the clock: in
`ACTIVE`, after `inject` has succeeded. Every await before that takes the time it takes, and the stop channel is read as
`inject` runs or the fault is active whatever the clock says. So `inject` can be spawned after the deadline, and a stop
placed after it can still decide the outcome (`deadman_missed`). **`deadman_bounds`** says what holds when the steps
before `inject` leave time (`punctual`) and a stop or a timer is taken only for a cause that came due before the
deadline.

| here | what it says |
| --- | --- |
| `Instance.dueNow`, `DeadmanLog` | the causes that come due by the dead-man, and a spawn at or after it |
| `Task.Calm` | nothing but the dead-man has stopped the instance |
| `Task.Timed` | the timer of the `select!` is set for what `next_stop` picked |
| `TaskStep.calm`, `Punctual.step` | a step of the task, of the instance |
-/
namespace FaultForge.Agent

open Lts

/-! ## The deadline and the causes before it -/

def Task.deadmanMs (t : Task) : Int := t.deadlineUnix * 1000

def Task.durationEndMs (t : Task) : Int := t.activeSinceMs.getD t.startMs + t.run.durationSecs.toNat * 1000

/-- The duration has ended or the master has been lost for the threshold, by now and no later than the dead-man. -/
def Instance.dueNow (c : Instance) : Bool :=
  let bound := min c.ctx.now c.task.deadmanMs
  decide (c.task.pc ≠ .start) &&
    (c.task.activeSinceMs.isSome && decide (c.task.durationEndMs ≤ bound) ||
      (clock c.ctx c.task).lossMs.any fun at_ => decide (at_ ≤ bound))

/-- A stop is placed on the channel before the dead-man. -/
def stopsInTime (c : Instance) : InstanceLabel → Bool
  | .stop _ => decide (c.task.pc = .start) || decide (c.ctx.now < c.task.deadmanMs)
  | _ => false

structure DeadmanLog where
  /-- A cause other than the dead-man has come due, no later than the dead-man. -/
  due : Bool
  /-- `inject` was spawned at or after the dead-man. -/
  lateSpawn : Bool

def DeadmanLog.follow (c : Instance) (log : DeadmanLog) (label : InstanceLabel) (c' : Instance) : DeadmanLog where
  due := log.due || stopsInTime c label || c'.dueNow
  lateSpawn := log.lateSpawn ||
    decide (c.seen.count (.spawned .inject) < c'.seen.count (.spawned .inject)) && decide (c.task.deadmanMs ≤ c.ctx.now)

def deadmanLts (X : Ext) : System (Watched Instance DeadmanLog) InstanceLabel :=
  watch (instanceLts X) (fun _ => ⟨false, false⟩) DeadmanLog.follow

/-- `inject` is not spawned at or after the dead-man; an instance that injected and that no earlier cause has stopped
ends `ERROR`, unless `inject` exited 20. A rejected `inject` is never spawned. -/
def Bounded (w : Watched Instance DeadmanLog) : Prop :=
  w.seen.lateSpawn = false ∧
    (w.seen.due = false → w.state.task.state.isTerminal → .spawned .inject ∈ w.state.seen →
      .exited .inject (.code 20) ∉ w.state.seen → w.state.task.state = .error)

/-- The deadline lies after the start, the clock stays before it while `inject` is ahead, and a stop is taken off the
channel while `inject` runs or the fault is active, or a timer fires for the loss of the master, only when a cause has
come due. -/
def punctual (w : Watched Instance DeadmanLog) : InstanceLabel → Bool
  | .task choice =>
    match w.state.task.pc, choice with
    | .start, _ => decide (0 < w.state.task.run.durationSecs.toNat + w.state.task.run.graceSecs.toNat)
    | .running .inject _, .recvStop | .armed .., .recvStop | .armed _ .masterLost, .fire => w.seen.due
    | _, _ => true
  | .interfere (.tick now) =>
    decide (w.state.task.pc = .start) || !w.state.task.ahead || decide (now < w.state.task.deadmanMs)
  | _ => true

theorem Instance.dueNow_iff {c : Instance} : c.dueNow = true ↔ c.task.pc ≠ .start ∧
    ((c.task.activeSinceMs.isSome ∧ c.task.durationEndMs ≤ c.ctx.now ∧ c.task.durationEndMs ≤ c.task.deadmanMs) ∨
      ∃ at_, (clock c.ctx c.task).lossMs = some at_ ∧ at_ ≤ c.ctx.now ∧ at_ ≤ c.task.deadmanMs) := by
  simp only [Instance.dueNow, Bool.and_eq_true, decide_eq_true_eq, Bool.or_eq_true, Option.any_eq_true, Int.le_min]

/-! ## What the machine keeps -/

/-- No stop but the dead-man has reached the machine. -/
def State.Unstopped : State → Prop
  | .preflightInstall stop | .preflightRuntime stop | .writingJournal stop | .injecting stop => stop = none
  | .recovering rec => rec.outcome = .error
  | _ => True

theorem State.Unstopped.preflight {which : Phase} {stop : Option StopCause} :
    (rebuildPreflight which stop).Unstopped ↔ stop = none := by
  cases which <;> exact Iff.rfl

theorem startRecovery_deadman (reason : Option String) : (startRecovery .deadman reason).1.Unstopped := rfl

section
variable {s s' : State} {e : Event} {effects : List Effect}

/-- A result keeps it; a recovery ignores stops, and `ACTIVE` may be stopped by the dead-man. -/
theorem Trans.unstopped (h : Trans s e s' effects) (hs : s.Unstopped)
    (he : e.answers ≠ none ∨ s.isRecovering = true ∨ e = .stopRequested .deadman ∧ s = .active) : s'.Unstopped := by
  cases h with
  | absorbed e ht => exact hs
  | stopPreflight which stop cause =>
    rcases he with he | he | ⟨-, he⟩
    · exact absurd rfl he
    · cases which <;> cases he
    · cases which <;> cases he
  | stopJournal | stopInject =>
    rcases he with he | he | ⟨-, he⟩
    · exact absurd rfl he
    · cases he
    · cases he
  | injectedStopped cause => cases hs
  | injectAmbiguous stop reason _ => exact startRecovery_deadman _
  | stopActive cause =>
    rcases he with he | he | ⟨he, -⟩
    · exact absurd rfl he
    · cases he
    · obtain rfl := Event.stopRequested.inj he
      exact startRecovery_deadman none
  | stopRecovery rec cause =>
    show (if cause = .deadman then Outcome.error else rec.outcome) = .error
    split
    · rfl
    · exact hs
  | recovered rec _ =>
    cases rec.outcome <;> trivial
  | recoveryNext | recoveryRetry => exact hs
  | setupOk | installOk | runtimeOk | inject => rfl
  | _ => trivial

theorem Trans.terminal_of_recovery (h : Trans s e s' effects) (hs : s.isRecovering = true)
    (hs' : s'.isRecovering = false) : s'.isTerminal := by
  cases h with
  | absorbed e ht => exact ht
  | recovered rec _ => exact rec.outcome.state_isTerminal
  | recoveryFailed => rfl
  | stopPreflight which | preflightStopped which | preflightFailed which => cases which <;> cases hs
  | stopRecovery | recoveryNext | recoveryRetry => cases hs'
  | _ => cases hs

/-- What ends an injected instance that only the dead-man has stopped. -/
theorem Trans.ends_error (h : Trans s e s' effects) (hs : s.Unstopped) (hafter : s.afterInject)
    (hlive : s.isTerminal = false) (hterm : s'.isTerminal) :
    s' = .error ∨ e = .commandFinished .inject .injectFailed ∨ ∃ reason, e = .invokeRejected .inject reason := by
  cases h with
  | absorbed e ht => rw [hlive] at ht; cases ht
  | injectUnaffected stop reason he => exact .inr he
  | recovered rec _ =>
    left
    rw [show rec.outcome = .error from hs]
    rfl
  | recoveryFailed => exact .inl rfl
  | stopPreflight which | preflightStopped which | preflightFailed which => cases which <;> cases hafter
  | setupOk | setupFailed | stopPending | installOk | runtimeOk | stopJournal | journalStopped | journalFailed
  | inject => cases hafter
  | stopInject | injected | injectedStopped | injectAmbiguous | stopActive | stopRecovery | recoveryNext
  | recoveryRetry => cases hterm

end

/-! ## The task -/

/-- Nothing but the dead-man has stopped the instance, and nothing is about to. -/
structure Task.Calm (t : Task) : Prop where
  state : t.state.Unstopped
  /-- A recovery may have taken any stop: it ignores them. -/
  queue : t.state.isRecovering = false → ∀ e ∈ t.queue, e.answers ≠ none
  channel : t.ahead = true → t.stopRx = []

/-- When the duration ends is known in `ACTIVE`, and the timer is set for what `next_stop` picked. -/
structure Task.Timed (t : Task) : Prop where
  since : t.state = .active → t.activeSinceMs.isSome
  timer : ∀ at_ cause, t.pc = .armed at_ cause → cause ≠ .operatorAbort ∧
    (cause = .durationElapsed → at_ = t.durationEndMs ∧ at_ ≤ t.deadmanMs)

section
variable {X : Ext} {ctx ctx' : Ctx} {t t' : Task} {obs : List Obs}

theorem TaskStep.now_eq (h : TaskStep X ctx t ctx' t' obs) : ctx'.now = ctx.now := by
  cases h with
  | mark => unfold Ctx.mark; split <;> rfl
  | _ => rfl

theorem TaskStep.deadman_eq (h : TaskStep X ctx t ctx' t' obs) (hpc : t.pc ≠ .start) : t'.deadmanMs = t.deadmanMs := by
  cases h with
  | start hs => exact absurd hs hpc
  | _ => rfl

/-- The deadline is fixed first, as the start in whole seconds and the two durations. -/
theorem taskStep_start {choice : Choice} (h : taskStep X ctx t choice = some (ctx', t', obs)) (hpc : t.pc = .start) :
    t'.deadmanMs = (ctx.now.tdiv 1000 + t.run.durationSecs.toNat + t.run.graceSecs.toNat) * 1000 := by
  simp only [taskStep, hpc] at h
  cases choice with
  | go => cases h; rfl
  | _ => cases h

theorem Trans.early_back {s s' : State} {e : Event} {effects : List Effect} (h : Trans s e s' effects)
    (hs : s'.early = true) : s.early = true := by
  cases h with
  | absorbed => exact hs
  | stopPreflight which => cases which <;> rfl
  | recovered rec _ => revert hs; cases rec.outcome <;> exact fun hs => by cases hs
  | setupOk | installOk | runtimeOk | stopJournal => rfl
  | _ => cases hs

/-- A task that has passed `inject` stays past it. -/
theorem TaskStep.ahead_back (h : TaskStep X ctx t ctx' t' obs) (hs : t.Shape) (ha : t'.ahead = true) :
    t.ahead = true := by
  have idle : ∀ {t' : Task}, t'.ahead = true → t'.state = t.state → t'.effects = t.effects → t'.pc.verifying = false →
      t.ahead = true := fun ha hst he hv =>
    Task.ahead_move ha hst.symm fun hm => hm.elim (fun hne => .inl (he ▸ hne)) fun hv' => by rw [hv] at hv'; cases hv'
  cases h with
  | next hpc heff hq =>
    have hfit := (hs.inLoop hpc).fits hq
    rcases Task.ahead_iff.1 ha with he | ⟨⟨stop, hst⟩, hne | hv⟩
    · exact Task.ahead_iff.2 (.inl (hfit.early_back he))
    · rcases hfit.injecting hst with hw | ⟨-, hnil⟩
      · exact Task.ahead_iff.2 (.inl (by rw [hw]; rfl))
      · exact absurd hnil hne
    · cases hv
  | wedged hpc heff hq hterm hact => exact absurd (hs.unwedged hpc heff hq hterm) hact
  | stop cause stopRx hpc =>
    obtain ⟨hact, -, -⟩ := hs.active hpc
    rw [Task.not_ahead (by rw [consume_stopped hact]; rfl) (by rw [consume_stopped hact]; rfl)] at ha
    cases ha
  | emit hpc heff | invoke hpc heff | write hpc heff | writeFailed error hpc heff | remove hpc heff
  | removeFailed hpc heff | mark error hpc heff =>
    -- An effect is still to be performed, so only the state matters.
    exact Task.ahead_move ha rfl fun _ => .inl (by rw [heff]; simp)
  | spawn hpc | refused hpc => exact Task.ahead_move ha rfl fun _ => .inr (by rw [hpc]; rfl)
  | @send frame after _ _ => exact idle ha rfl rfl (by cases after <;> rfl)
  | stopRunning hpc _ =>
    refine idle ha rfl rfl ?_
    show t.pc.verifying = false
    rw [hpc]
    rfl
  | _ => exact idle ha rfl rfl rfl

/-- A step that keeps the state and the channel, and queues results only. -/
theorem Task.Calm.move (hc : t.Calm) (hst : t'.state = t.state) (hq : ∀ e ∈ t'.queue, e ∈ t.queue ∨ e.answers ≠ none)
    (hrx : t'.stopRx = t.stopRx) (hback : t'.ahead = true → t.ahead = true) : t'.Calm := by
  refine ⟨by rw [hst]; exact hc.state, fun hrec e he => ?_, fun ha => hrx ▸ hc.channel (hback ha)⟩
  rcases hq e he with hm | hne
  · exact hc.queue (by rw [← hst]; exact hrec) e hm
  · exact hne

theorem Task.Calm.push (hc : t.Calm) (hst : t'.state = t.state) {event : Event} (hq : t'.queue = t.queue ++ [event])
    (hne : event.answers ≠ none) (hrx : t'.stopRx = t.stopRx) (hback : t'.ahead = true → t.ahead = true) : t'.Calm := by
  refine hc.move hst (fun e he => ?_) hrx hback
  rw [hq] at he
  rcases List.mem_append.1 he with hm | hm
  · exact .inl hm
  · exact .inr (by rw [List.mem_singleton.1 hm]; exact hne)

/-- One turn of the loop. -/
theorem consume_calm {now : Int} {event : Event} {queue : List Event} (hl : t.InLoop) (hq : t.queue = event :: queue)
    (hshape : (consume now t event queue).Shape) (hback : (consume now t event queue).ahead = true → t.ahead = true)
    (hc : t.Calm) : (consume now t event queue).Calm := by
  have hfit := hl.fits hq
  have hmem : event ∈ t.queue := by rw [hq]; exact List.mem_cons_self
  refine ⟨hfit.unstopped hc.state ?_, fun hrec e he => ?_, fun ha => hc.channel (hback ha)⟩
  · cases hr : t.state.isRecovering with
    | true => exact .inr (.inl rfl)
    | false => exact .inl (hc.queue hr _ hmem)
  · cases hr : t.state.isRecovering with
    | true =>
      have hnil : queue = [] := hshape.terminal_queue (hfit.terminal_of_recovery hr hrec)
      have hin : e ∈ queue := he
      rw [hnil] at hin
      cases hin
    | false => exact hc.queue hr e (by rw [hq]; exact List.mem_cons_of_mem _ he)

/-- The channel of a running command is empty before `inject`; so a stop that is read there while `inject` does not run
comes in a recovery. -/
theorem Task.Calm.recovering_of_read {command : PluginCommand} {cause : StopCause} {stopRx : List StopCause}
    (hc : t.Calm) (hf : t.InFlight (some (.command command))) (hrx : t.stopRx = cause :: stopRx)
    (hne : command ≠ .inject) : t.state.isRecovering = true := by
  have haw := hf.1
  cases hst : t.state with
  | recovering rec => rfl
  | injecting stop => exact absurd (hf.injecting hst) hne
  | preflightInstall | preflightRuntime =>
    have hearly : t.state.early = true := by rw [hst]; rfl
    have hnone := hc.channel (Task.ahead_iff.2 (.inl hearly))
    rw [hrx] at hnone
    cases hnone
  | _ => rw [hst] at haw; cases haw

/-- **A step of the task keeps it**, when a stop that ends `ACTIVE` is the dead-man's and no stop is read while `inject`
runs. -/
theorem TaskStep.calm (h : TaskStep X ctx t ctx' t' obs) (hs : t.Shape)
    (hact : (t.pc = .waiting ∨ ∃ d c, t.pc = .armed d c) →
      t'.state = t.state ∨ t'.state = (startRecovery .deadman none).1)
    (hinj : ∀ phase, t.pc = .running .inject phase → t'.stopRx = t.stopRx) (hc : t.Calm) : t'.Calm := by
  have hback := h.ahead_back hs
  have hshape := h.shape hs
  cases h with
  | next hpc heff hq => exact consume_calm (hs.inLoop hpc) hq hshape hback hc
  | wedged hpc heff hq hterm hne => exact absurd (hs.unwedged hpc heff hq hterm) hne
  | stop cause stopRx hpc =>
    obtain ⟨hst, -, -⟩ := hs.active hpc
    refine ⟨?_, fun hr => ?_, fun ha => ?_⟩
    · rcases hact hpc with hkept | hdead
      · rw [hkept, hst]
        trivial
      · rw [hdead]
        exact startRecovery_deadman none
    · rw [consume_stopped hst] at hr
      cases hr
    · have hno := hback ha
      rw [Task.not_ahead (by rw [hst]; rfl) (by rw [hst]; rfl)] at hno
      cases hno
  | @stopRunning command phase cause stopRx hpc hrx =>
    have hf : t.InFlight (some (.command command)) := by simpa only [Task.Shape, hpc] using hs
    have hrec : t.state.isRecovering = true := by
      refine hc.recovering_of_read hf hrx ?_
      rintro rfl
      have hsame : stopRx = t.stopRx := hinj phase hpc
      rw [hrx] at hsame
      exact absurd (congrArg List.length hsame) (by simp)
    refine ⟨hc.state, fun hno => ?_, fun ha => ?_⟩
    · rw [show t.state.isRecovering = false from hno] at hrec
      cases hrec
    · have hnone := hc.channel (hback ha)
      rw [hrx] at hnone
      cases hnone
  | setupDone params hpc he =>
    refine hc.move rfl (fun e hm => .inr ?_) rfl hback
    rw [List.mem_singleton.1 hm, he]
    simp
  | write hpc heff | writeFailed error hpc heff | lost reason hpc =>
    exact hc.push rfl rfl (by simp [Event.answers]) rfl hback
  | refused hpc he =>
    obtain ⟨reason, rfl | rfl⟩ := he
    · exact hc.push rfl rfl (by simp [Event.answers]) rfl hback
    · exact hc.push rfl rfl (by simp [Event.answers]) rfl hback
  | forwarded hpc =>
    obtain ⟨-, hne, -⟩ : t.InFlight _ := by simpa only [Task.Shape, hpc] using hs
    exact hc.push rfl rfl hne rfl hback
  | _ => exact hc.move rfl (fun e he => .inl he) rfl hback

/-- `inject` is spawned by a task that was before it. -/
theorem TaskStep.spawn_ahead (h : TaskStep X ctx t ctx' t' obs) (hs : t.Shape) (hrec : t.state.Shape)
    (hm : .spawned .inject ∈ obs) : t.pc ≠ .start ∧ t.ahead = true := by
  cases h with
  | @spawn command phase hpc =>
    obtain rfl : command = .inject := by simpa using Eq.symm (Obs.spawned.inj (List.mem_singleton.1 hm))
    obtain ⟨haw, -⟩ : t.InFlight (some (.command .inject)) := by simpa only [Task.Shape, hpc] using hs
    have hinj : ∃ stop, t.state = .injecting stop := by
      cases hst : t.state with
      | injecting stop => exact ⟨stop, rfl⟩
      | recovering rec =>
        rw [hst] at haw hrec
        exact absurd (Awaited.command.inj (Option.some.inj haw)) (Recovery.Shape.ne_inject hrec)
      | _ => rw [hst] at haw; cases haw
    exact ⟨by rw [hpc]; simp, Task.ahead_iff.2 (.inr ⟨hinj, .inr (by rw [hpc]; rfl)⟩)⟩
  | _ => simp at hm

/-- An injected instance ends `ERROR`, unless `inject` exits 20. -/
def EndsError (seen : List Obs) (t : Task) : Prop :=
  t.state.isTerminal → .spawned .inject ∈ seen → .exited .inject (.code 20) ∉ seen → t.state = .error

theorem TaskStep.ends_error {seen : List Obs} {entry : Option JournalEntry} {stale : Bool}
    (h : TaskStep X ctx t ctx' t' obs) (hs : t.Shape) (hsafe : Safe seen entry true stale t) (hc : t.Calm)
    (he : EndsError seen t) : EndsError (obs ++ seen) t' := by
  intro hterm hsp h20
  have h20' : .exited .inject (.code 20) ∉ seen := fun hm => h20 (List.mem_append_right _ hm)
  cases h with
  | @next event queue hpc heff hq =>
    have hl := hs.inLoop hpc
    have hfit := hl.fits hq
    have hmem : event ∈ t.queue := by rw [hq]; exact List.mem_cons_self
    rcases hfit.ends_error hc.state (hsafe.injected hsp) (hl.live hq) hterm with herr | rfl | ⟨reason, rfl⟩
    · exact herr
    · obtain ⟨code, hcode, hex⟩ := hsafe.result _ hmem _ _ rfl
      rw [(classifyExit_injectFailed code).1 hcode] at hex
      exact absurd hex h20'
    · obtain ⟨stop, hinj⟩ := hfit.inject_rejected hsafe.recovery (hl.live hq)
      exact absurd hsp (hsafe.unstarted stop hinj (.inr (.inr ⟨reason, hmem⟩)))
  | wedged hpc heff hq hlive hact => exact absurd (hs.unwedged hpc heff hq hlive) hact
  | stop cause stopRx hpc =>
    obtain ⟨hact, -, -⟩ := hs.active hpc
    rw [consume_stopped hact] at hterm
    cases hterm
  | @spawn command phase hpc =>
    have hf : t.InFlight (some (.command command)) := by simpa only [Task.Shape, hpc] using hs
    rw [show t.state.isTerminal = false from hf.live] at hterm
    cases hterm
  | _ => exact he hterm (by simpa using hsp) h20'

/-! ### The timer -/

theorem consume_since {now : Int} {event : Event} {queue : List Event}
    (hact : (consume now t event queue).state = .active) : (consume now t event queue).activeSinceMs.isSome := by
  have hst : (step t.state event).1 = .active := hact
  show (if (step t.state event).1 = .active ∧ t.activeSinceMs = none then some now else t.activeSinceMs).isSome
  split
  · rfl
  · next hne => exact Option.isSome_iff_ne_none.2 fun hnone => hne ⟨hst, hnone⟩

/-- The timer is armed with the pick of `next_stop`. -/
theorem taskStep_arm {choice : Choice} (h : taskStep X ctx t choice = some (ctx', t', obs)) (hpc : t.pc = .waiting)
    {at_ : Int} {cause : StopCause} (ha : t'.pc = .armed at_ cause) : nextStop (clock ctx t) = (at_, cause) := by
  simp only [taskStep, hpc] at h
  cases choice with
  | go =>
    simp only [waitForStop] at h
    split at h
    next cause' _ =>
      cases h
      cases ha
    next at' cause' hw =>
      cases h
      obtain ⟨rfl, rfl⟩ := Pc.armed.inj ha
      split at hw
      · cases hw
      · exact Sum.inr.inj hw
  | _ => cases h

theorem taskStep_timed {choice : Choice} (h : taskStep X ctx t choice = some (ctx', t', obs)) (ht : t.Timed) :
    t'.Timed := by
  have hcases := taskStep_cases h
  constructor
  · intro hact
    cases hcases with
    | next | wedged | stop => exact consume_since hact
    | _ => exact ht.since hact
  · intro at_ cause ha
    cases hcases with
    | arm d c hpc =>
      obtain ⟨rfl, rfl⟩ := Pc.armed.inj ha
      have hpick := taskStep_arm h hpc ha
      rcases nextStop_cases (clock ctx t) with ⟨hp, hle, -⟩ | ⟨l, -, hp, -⟩ | ⟨hp, -⟩
      · obtain ⟨rfl, rfl⟩ := Prod.mk.inj (hp.symm.trans hpick)
        exact ⟨by simp, fun _ => ⟨rfl, hle⟩⟩
      · obtain ⟨rfl, rfl⟩ := Prod.mk.inj (hp.symm.trans hpick)
        exact ⟨by simp, fun hd => by cases hd⟩
      · obtain ⟨rfl, rfl⟩ := Prod.mk.inj (hp.symm.trans hpick)
        exact ⟨by simp, fun hd => by cases hd⟩
    | @send frame after _ _ => cases after <;> cases ha
    | stopRunning hpc _ | remove hpc _ | removeFailed hpc _ =>
      have hrun : t.pc = .armed at_ cause := ha
      rw [hpc] at hrun
      cases hrun
    | _ => cases ha

end

/-! ## The instance -/

section
variable {X : Ext} {w w' : Watched Instance DeadmanLog} {choice : Choice} {ctx' : Ctx} {t' : Task} {obs : List Obs}

theorem Interference.now_cases {own : String} {ctx ctx' : Ctx} {i : Interference} (h : i.apply own ctx = some ctx') :
    (∃ now, i = .tick now ∧ ctx'.now = now) ∨ ctx'.now = ctx.now := by
  cases i with
  | journal id entry =>
    simp only [Interference.apply] at h
    split at h
    case isTrue => cases h
    case isFalse => cases entry <;> (obtain rfl := Option.some.inj h; exact .inr rfl)
  | mark record error =>
    obtain rfl := Option.some.inj h
    right
    unfold Ctx.mark
    split <;> rfl
  | tick now => obtain rfl := Option.some.inj h; exact .inl ⟨now, rfl, rfl⟩
  | clear | out | conn => obtain rfl := Option.some.inj h; exact .inr rfl

/-- Where nothing has come due, the evaluation of `wait_for_stop` stops for the dead-man only. -/
theorem waitForStop_deadman {c : Instance} {cause : StopCause} (hnow : c.dueNow = false) (hpc : c.task.pc ≠ .start)
    (hsince : c.task.activeSinceMs.isSome) (hw : waitForStop c.ctx c.task = .inl cause) : cause = .deadman := by
  obtain ⟨rfl, hle⟩ := waitForStop_inl.1 hw
  rcases nextStop_cases (clock c.ctx c.task) with ⟨hp, hd, -⟩ | ⟨l, hl, hp, -, hm⟩ | ⟨hp, -⟩
  · rw [hp] at hle
    rw [Instance.dueNow_iff.2 ⟨hpc, .inl ⟨hsince, hle, hd⟩⟩] at hnow
    cases hnow
  · rw [hp] at hle
    rw [Instance.dueNow_iff.2 ⟨hpc, .inr ⟨l, hl, hle, hm⟩⟩] at hnow
    cases hnow
  · rw [hp]

/-- Where nothing has come due, a punctual step out of `ACTIVE` is the dead-man's. -/
theorem punctual_stop (hg : punctual w (.task choice) = true)
    (h : taskStep X w.state.ctx w.state.task choice = some (ctx', t', obs)) (hs : w.state.task.Shape)
    (ht : w.state.task.Timed) (hdue : w.seen.due = false) (hnow : w.state.dueNow = false)
    (hpc : w.state.task.pc = .waiting ∨ ∃ d c, w.state.task.pc = .armed d c) :
    t'.state = w.state.task.state ∨ t'.state = (startRecovery .deadman none).1 := by
  obtain ⟨hact, -, -⟩ := hs.active hpc
  have hsince := ht.since hact
  have hstarted : w.state.task.pc ≠ .start := by rcases hpc with hpc | ⟨d, c, hpc⟩ <;> simp [hpc]
  rcases hpc with hpc | ⟨d, c, hpc⟩
  · simp only [taskStep, hpc] at h
    cases choice with
    | go =>
      simp only at h
      split at h
      next cause hw =>
        cases h
        obtain rfl := waitForStop_deadman hnow hstarted hsince hw
        exact .inr (consume_stopped hact)
      next => cases h; exact .inl rfl
    | _ => cases h
  · obtain ⟨hne, hdur⟩ := ht.timer d c hpc
    simp only [taskStep, hpc] at h
    cases choice with
    | fire =>
      simp only at h
      split at h
      next hle =>
        cases h
        cases c with
        | durationElapsed =>
          obtain ⟨rfl, hd⟩ := hdur rfl
          rw [Instance.dueNow_iff.2 ⟨hstarted, .inl ⟨hsince, hle, hd⟩⟩] at hnow
          cases hnow
        | operatorAbort => exact absurd rfl hne
        | masterLost =>
          simp only [punctual, hpc] at hg
          rw [hdue] at hg
          cases hg
        | deadman => exact .inr (consume_stopped hact)
      next => cases h
    | changed => cases h; exact .inl rfl
    | recvStop =>
      simp only [punctual, hpc] at hg
      rw [hdue] at hg
      cases hg
    | _ => cases h

theorem punctual_running (hg : punctual w (.task choice) = true)
    (h : taskStep X w.state.ctx w.state.task choice = some (ctx', t', obs)) (hdue : w.seen.due = false) (phase : Phase)
    (hpc : w.state.task.pc = .running .inject phase) : t'.stopRx = w.state.task.stopRx := by
  simp only [taskStep, hpc] at h
  cases choice with
  | recvStop =>
    simp only [punctual, hpc] at hg
    rw [hdue] at hg
    cases hg
  | exit invocation => cases h; rfl
  | joinError msg => cases h; rfl
  | _ => cases h

/-- What holds of an instance in every run of the theorem. -/
structure Punctual (w : Watched Instance DeadmanLog) : Prop where
  timed : w.state.task.Timed
  logged : w.state.dueNow = true → w.seen.due = true
  inTime : w.state.task.pc ≠ .start → w.state.task.ahead = true → w.state.ctx.now < w.state.task.deadmanMs
  early : w.seen.lateSpawn = false
  calm : w.seen.due = false → w.state.task.Calm
  ends : w.seen.due = false → EndsError w.state.seen w.state.task

theorem Punctual.start {run : RunFault} {c : Instance} (htask : c.task = .spawn run) :
    Punctual ⟨c, ⟨false, false⟩⟩ where
  timed := by
    rw [htask]
    exact ⟨fun h => (by cases h), fun _ _ h => (by cases h)⟩
  logged h := absurd (show c.task.pc = .start by rw [htask]; rfl) (Instance.dueNow_iff.1 h).1
  inTime h := absurd (show c.task.pc = .start by rw [htask]; rfl) h
  early := rfl
  calm _ := by
    rw [htask]
    exact ⟨trivial, fun _ e he => (by cases he), fun _ => rfl⟩
  ends _ h := by
    rw [show c.task.state = .pending by rw [htask]; rfl] at h
    cases h

theorem Punctual.task (h : Punctual w) (hg : punctual w (.task choice) = true) {entry : Option JournalEntry}
    {stale : Bool} (hshape : w.state.task.Shape) (hsafe : Safe w.state.seen entry true stale w.state.task)
    (hstep : taskStep X w.state.ctx w.state.task choice = some (ctx', t', obs)) {c : Instance}
    (hc : c = { w.state with ctx := ctx', task := t', seen := obs ++ w.state.seen }) :
    Punctual ⟨c, DeadmanLog.follow w.state w.seen (.task choice) c⟩ := by
  have hcases := taskStep_cases hstep
  have hnow := hcases.now_eq
  have quiet : (DeadmanLog.follow w.state w.seen (.task choice) c).due = false → w.seen.due = false := fun hd => by
    simp only [DeadmanLog.follow, Bool.or_eq_false_iff] at hd
    exact hd.1.1
  have undue : w.seen.due = false → w.state.dueNow = false := fun hd =>
    Bool.eq_false_iff.2 fun hn => by rw [h.logged hn] at hd; cases hd
  subst hc
  refine ⟨taskStep_timed hstep h.timed, fun hd => ?_, fun _ ha => ?_, ?_, fun hd => ?_, fun hd => ?_⟩
  · simp only [DeadmanLog.follow, Bool.or_eq_true]
    exact .inr hd
  · show ctx'.now < t'.deadmanMs
    rw [hnow]
    by_cases hpc : w.state.task.pc = .start
    · rw [taskStep_start hstep hpc]
      have hsome : 0 < w.state.task.run.durationSecs.toNat + w.state.task.run.graceSecs.toNat := by
        simpa only [punctual, hpc, decide_eq_true_eq] using hg
      have hlt := Int.lt_tdiv_add_one_mul_self w.state.ctx.now (show (0 : Int) < 1000 by decide)
      omega
    · rw [hcases.deadman_eq hpc]
      exact h.inTime hpc (hcases.ahead_back hshape ha)
  · simp only [DeadmanLog.follow, h.early, Bool.false_or, Bool.and_eq_false_iff, decide_eq_false_iff_not]
    by_cases hm : .spawned .inject ∈ obs
    · obtain ⟨hpc, ha⟩ := hcases.spawn_ahead hshape hsafe.recovery hm
      have hlt := h.inTime hpc ha
      exact .inr (by omega)
    · refine .inl ?_
      rw [List.count_append, List.count_eq_zero_of_not_mem hm]
      omega
  · exact hcases.calm hshape
      (punctual_stop hg hstep hshape h.timed (quiet hd) (undue (quiet hd)))
      (punctual_running hg hstep (quiet hd)) (h.calm (quiet hd))
  · exact hcases.ends_error hshape hsafe (h.calm (quiet hd)) (h.ends (quiet hd))

/-- A step of the surroundings: the task keeps all but its channel. -/
theorem Punctual.around (h : Punctual w) {label : InstanceLabel} {c : Instance} {stopRx : List StopCause}
    (htask : c.task = { w.state.task with stopRx }) (hseen : c.seen = w.state.seen)
    (hrx : stopsInTime w.state label = false → w.state.task.ahead = true → stopRx = w.state.task.stopRx)
    (hnow : w.state.task.pc ≠ .start → w.state.task.ahead = true → c.ctx.now < w.state.task.deadmanMs) :
    Punctual ⟨c, DeadmanLog.follow w.state w.seen label c⟩ := by
  have hahead : c.task.ahead = w.state.task.ahead := by rw [htask]; rfl
  refine ⟨?_, fun hd => ?_, fun hpc ha => ?_, ?_, fun hd => ?_, fun hd => ?_⟩
  · show c.task.Timed
    rw [htask]
    exact ⟨h.timed.since, h.timed.timer⟩
  · simp only [DeadmanLog.follow, Bool.or_eq_true]
    exact .inr hd
  · show c.ctx.now < c.task.deadmanMs
    rw [htask]
    exact hnow (by rw [htask] at hpc; exact hpc) (hahead ▸ ha)
  · simp [DeadmanLog.follow, h.early, hseen]
  · simp only [DeadmanLog.follow, Bool.or_eq_false_iff] at hd
    obtain ⟨⟨hdue, hplaced⟩, -⟩ := hd
    have hc := h.calm hdue
    show c.task.Calm
    rw [htask]
    exact ⟨hc.state, hc.queue, fun ha => (hrx hplaced ha).trans (hc.channel ha)⟩
  · simp only [DeadmanLog.follow, Bool.or_eq_false_iff] at hd
    show EndsError c.seen c.task
    rw [hseen, htask]
    exact h.ends hd.1.1

theorem Punctual.step {label : InstanceLabel} (h : Punctual w)
    (hi : w.state.task.Shape ∧ Safe w.state.seen w.state.entry true w.state.stale w.state.task)
    (hg : punctual w label = true) (hstep : (deadmanLts X).step w label = some w') : Punctual w' := by
  obtain ⟨c', log'⟩ := w'
  obtain ⟨hc, hseen⟩ := watch_step_some.1 hstep
  dsimp only at hc hseen
  subst hseen
  simp only [instanceLts] at hc
  split at hc
  case isTrue => cases hc
  case isFalse =>
    cases label with
    | task choice =>
      obtain ⟨⟨ctx', t', obs⟩, ht, rfl⟩ := Option.map_eq_some_iff.1 hc
      exact h.task hg hi.1 hi.2 ht rfl
    | stop cause =>
      obtain rfl := Option.some.inj hc
      refine h.around rfl rfl (fun hlate ha => ?_) h.inTime
      -- Before `inject` the deadline has not passed, so the stop is placed in time.
      simp only [stopsInTime, Bool.or_eq_false_iff, decide_eq_false_iff_not] at hlate
      exact absurd (h.inTime hlate.1 ha) hlate.2
    | interfere i =>
      obtain ⟨ctx', hi', rfl⟩ := Option.map_eq_some_iff.1 hc
      refine h.around rfl rfl (fun _ _ => rfl) fun hpc ha => ?_
      rcases Interference.now_cases hi' with ⟨now, rfl, hnow⟩ | hnow
      · show ctx'.now < _
        rw [hnow]
        simpa [punctual, hpc, ha] using hg
      · show ctx'.now < _
        rw [hnow]
        exact h.inTime hpc ha
    | crash =>
      obtain rfl := Option.some.inj hc
      exact h.around rfl rfl (fun _ _ => rfl) h.inTime

end

/-- **What the dead-man bounds**: in every punctual run `inject` is spawned before the deadline or not at all, and an
instance that injected ends `ERROR` when no cause has come due by the deadline and `inject` has not exited 20. -/
theorem deadman_bounds {X : Ext} {w : Watched Instance DeadmanLog}
    (h : ReachIf (deadmanLts X) (fun w label => punctual w label = true) w) : Bounded w := by
  have hp : Punctual w := by
    refine ReachIf.inv (I := fun w => w.state.task.Shape ∧
      Safe w.state.seen w.state.entry true w.state.stale w.state.task) (fun w hw => reach_accounted hw.unwatched) ?_
      (fun _ _ _ hi h hg hs => h.step hi hg hs) h
    rintro ⟨c, log⟩ ⟨⟨run, htask, -⟩, hlog⟩
    obtain rfl : log = ⟨false, false⟩ := hlog
    exact Punctual.start htask
  exact ⟨hp.early, hp.ends⟩

/-! ### Sample runs: started at 1 s for 60 s with a grace of 10 s, so the dead-man is at 71 s -/

/-- Setup and the preflights take until `injectMs`. -/
def slowLabels (injectMs : Int) : List InstanceLabel :=
  [.task .go, .interfere (.tick injectMs)] ++ (injectChoices.drop 1).map .task

/-- `inject` exits 0 and the task arms its timer. -/
def armChoices : List Choice := [.exit ⟨[], "", .code 0⟩, .go, .go, .go, .go, .go, .go]

/-- A whole recovery by `abort` and `cleanup`. -/
def recoverChoices : List Choice :=
  [.go, .go] ++ invokeChoices 0 ++ [.go] ++ invokeChoices 0 ++ [.go, .io none, .go, .go, .go]

/-- The fault is active from 20 s on, so the dead-man comes before the end of the duration. -/
def deadmanLabels : List InstanceLabel :=
  slowLabels 20000 ++ armChoices.map .task ++ [.interfere (.tick 71000), .task .fire] ++ recoverChoices.map .task

theorem deadman_bounds_fired : ∃ w : Watched Instance DeadmanLog, w.state.task.deadmanMs ≤ w.state.ctx.now ∧
    w.seen.due = false ∧ w.seen.lateSpawn = false ∧ w.state.task.state = .error := by
  let p : Watched Instance DeadmanLog → Bool := fun w =>
    decide (w.state.task.deadmanMs ≤ w.state.ctx.now) && !w.seen.due && w.state.task.state.isTerminal &&
      decide (.spawned .inject ∈ w.state.seen) && decide (.exited .inject (.code 20) ∉ w.state.seen)
  obtain ⟨w, hw, hp⟩ := reachIf_of_run (L := deadmanLts plainExt) (g := punctual) (fun _ _ h => h) p
    (s := ⟨sampleInstance, false, false⟩) ⟨⟨sampleRun, rfl, rfl, rfl, rfl⟩, rfl⟩ deadmanLabels (by decide +kernel)
  simp only [p, Bool.and_eq_true, Bool.not_eq_true', decide_eq_true_eq] at hp
  obtain ⟨⟨⟨⟨hnow, hdue⟩, hterm⟩, hsp⟩, h20⟩ := hp
  obtain ⟨hearly, hend⟩ := deadman_bounds hw
  exact ⟨w, hnow, hdue, hearly, hend hdue hterm hsp h20⟩

/-- The dead-man passes while `inject` runs, and the operator aborts afterwards. -/
def lateAbortLabels : List InstanceLabel :=
  slowLabels 20000 ++ [.interfere (.tick 71000), .stop .operatorAbort] ++
    [.recvStop, .exit ⟨[], "", .code 0⟩, .go, .go, .go].map .task ++ recoverChoices.map .task

/-- `inject` is spawned after the dead-man, which passed during the preflights; and an instance that injected in time
ends `ABORTED` for an abort that was placed after the dead-man. -/
theorem deadman_missed :
    (∃ w : Watched Instance DeadmanLog, Reach (deadmanLts plainExt) w ∧ w.seen.lateSpawn = true) ∧
    (∃ w : Watched Instance DeadmanLog, Reach (deadmanLts plainExt) w ∧ w.seen.lateSpawn = false ∧
      w.state.task.state = .aborted ∧ ¬ Bounded w) := by
  have hinit : (deadmanLts plainExt).init ⟨sampleInstance, false, false⟩ := ⟨⟨sampleRun, rfl, rfl, rfl, rfl⟩, rfl⟩
  constructor
  · obtain ⟨w, hw, hp⟩ := reach_of_run (fun w => w.seen.lateSpawn) hinit (slowLabels 71000) (by decide +kernel)
    exact ⟨w, hw, hp⟩
  · let p : Watched Instance DeadmanLog → Bool := fun w =>
      !w.seen.lateSpawn && !w.seen.due && decide (w.state.task.state = .aborted) &&
        decide (.spawned .inject ∈ w.state.seen) && decide (.exited .inject (.code 20) ∉ w.state.seen)
    obtain ⟨w, hw, hp⟩ := reach_of_run p hinit lateAbortLabels (by decide +kernel)
    simp only [p, Bool.and_eq_true, Bool.not_eq_true', decide_eq_true_eq] at hp
    obtain ⟨⟨⟨⟨hearly, hdue⟩, hst⟩, hsp⟩, h20⟩ := hp
    refine ⟨w, hw, hearly, hst, fun hb => ?_⟩
    have herr := hb.2 hdue (by rw [hst]; rfl) hsp h20
    rw [hst] at herr
    cases herr

end FaultForge.Agent
