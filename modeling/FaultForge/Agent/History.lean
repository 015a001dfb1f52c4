import FaultForge.Agent.CrashSafe
import FaultForge.Agent.MachineRun

/-!
# The history of an instance (supervisor.rs:506-538, 585-670)

`historyLts` is `instanceLts` with a record of what its task hands to `machine::step` and of the effects that it
performs. The record is a run of `machineLts` (`history_refines`): the shell feeds the machine stop requests and the
answers it waits for, and performs the effects of a step, in order, before the next step.

| here | there |
| --- | --- |
| `Task.hears` | the `event` of `run_instance` supervisor.rs:625-648 |
| `Task.performs` | the calls of `apply_effect` supervisor.rs:664 |
-/
namespace FaultForge.Agent

open Lts

structure History where
  /-- The steps of the machine, newest first. -/
  ticks : List Tick
  /-- The effects performed, oldest first. -/
  performed : List Effect

/-- The event that a step of the task hands to the machine. -/
def Task.hears (ctx : Ctx) (t : Task) (choice : Choice) : Option Event :=
  match t.pc, choice with
  | .loop, .go =>
    match t.effects, t.queue with
    | [], event :: _ => some event
    | [], [] => if t.state.isTerminal ∨ t.state = .active then none else some (.stopRequested .deadman)
    | _ :: _, _ => none
  | .waiting, .go =>
    match waitForStop ctx t with
    | .inl cause => some (.stopRequested cause)
    | .inr _ => none
  | .armed _ cause, .fire => some (.stopRequested cause)
  | .armed .., .recvStop => t.stopRx.head?.map .stopRequested
  | _, _ => none

/-- The effect that a step of the task performs. -/
def Task.performs (t : Task) : List Effect := if t.pc = .loop then t.effects.take 1 else []

/-- A step of the machine. -/
def State.tick (s : State) (event : Event) : Tick := ⟨s, event, (step s event).1, (step s event).2⟩

def History.follow (c : Instance) (h : History) (label : InstanceLabel) (_ : Instance) : History :=
  match label with
  | .task choice =>
    ⟨((c.task.hears c.ctx choice).map c.task.state.tick).toList ++ h.ticks, h.performed ++ c.task.performs⟩
  | _ => h

def historyLts (X : Ext) : System (Watched Instance History) InstanceLabel :=
  watch (instanceLts X) (fun _ => ⟨[], []⟩) History.follow

/-- All that the machine has asked for, oldest first. -/
def emitted (ticks : List Tick) : List Effect := ticks.reverse.flatMap Tick.effects

theorem emitted_cons (t : Tick) (ticks : List Tick) : emitted (t :: ticks) = emitted ticks ++ t.effects := by
  simp [emitted]

/-! ## One step of the task -/

section
variable {X : Ext} {ctx ctx' : Ctx} {t t' : Task} {choice : Choice} {obs : List Obs}

/-- The step leaves the machine alone and may perform its next effect, or it is a step of the machine. -/
def Task.Follows (t t' : Task) : Option Event → Prop
  | none => t'.state = t.state ∧ t.effects = t.performs ++ t'.effects
  | some event => (t'.state, t'.effects) = step t.state event ∧ t.performs = []

theorem Task.performs_of_ne (hpc : t.pc ≠ .loop) : t.performs = [] := if_neg hpc

theorem Task.performs_cons {effect : Effect} {rest : List Effect} (hpc : t.pc = .loop)
    (heff : t.effects = effect :: rest) : t.performs = [effect] := by
  rw [Task.performs, if_pos hpc, heff]
  rfl

theorem Task.performs_idle (heff : t.effects = []) : t.performs = [] := by
  rw [Task.performs, heff]
  exact ite_self []

theorem Task.Follows.still (hpc : t.pc ≠ .loop) (hst : t'.state = t.state) (heff : t'.effects = t.effects) :
    t.Follows t' none :=
  ⟨hst, by rw [Task.performs_of_ne hpc, heff, List.nil_append]⟩

theorem perform_follows {effect : Effect} {rest : List Effect} (hpc : t.pc = .loop)
    (heff : t.effects = effect :: rest) (h : perform ctx t rest effect choice = some (ctx', t', obs)) :
    t.Follows t' none := by
  have hkept : t'.state = t.state ∧ t'.effects = rest := by
    unfold perform at h
    split at h <;> first | (cases h; exact ⟨rfl, rfl⟩) | cases h
  exact ⟨hkept.1, by rw [Task.performs_cons hpc heff, hkept.2, heff]; rfl⟩

/-- Outside the loop and `wait_for_stop` the machine is left alone. -/
theorem TaskStep.still (h : TaskStep X ctx t ctx' t' obs) (hloop : t.pc ≠ .loop)
    (hwait : ¬ (t.pc = .waiting ∨ ∃ deadlineMs cause, t.pc = .armed deadlineMs cause)) :
    t'.state = t.state ∧ t'.effects = t.effects := by
  cases h with
  | stop cause stopRx hpc => exact absurd hpc hwait
  | emit hpc | invoke hpc | write hpc | writeFailed _ hpc | remove hpc | removeFailed hpc | mark _ hpc | next hpc
  | finish hpc | activate hpc | wedged hpc => exact absurd hpc hloop
  | _ => exact ⟨rfl, rfl⟩

theorem loop_follows (hpc : t.pc = .loop) (h : taskStep X ctx t choice = some (ctx', t', obs)) :
    t.Follows t' (t.hears ctx choice) := by
  simp only [taskStep, hpc] at h
  cases heff : t.effects with
  | cons effect rest =>
    simp only [heff] at h
    have hhears : t.hears ctx choice = none := by cases choice <;> simp [Task.hears, hpc, heff]
    rw [hhears]
    exact perform_follows hpc heff h
  | nil =>
    have hidle : t.performs = [] := Task.performs_idle heff
    simp only [heff] at h
    cases choice with
    | go =>
      simp only [Task.hears, hpc, heff]
      cases hq : t.queue with
      | cons event queue =>
        simp only [hq] at h
        cases h
        exact ⟨rfl, hidle⟩
      | nil =>
        simp only [hq] at h
        by_cases hend : t.state.isTerminal
        · simp only [hend, if_true] at h
          cases h
          rw [if_pos (.inl hend)]
          exact ⟨rfl, by rw [hidle]; exact heff⟩
        · by_cases hact : t.state = .active
          · rw [if_neg hend, if_pos hact] at h
            cases h
            rw [if_pos (.inr hact)]
            exact ⟨rfl, by rw [hidle]; exact heff⟩
          · rw [if_neg hend, if_neg hact] at h
            cases h
            rw [if_neg (by simp [hend, hact])]
            exact ⟨rfl, hidle⟩
    | _ => cases h

/-- **What a step of the task does to the machine.** -/
theorem taskStep_follows (h : taskStep X ctx t choice = some (ctx', t', obs)) :
    t.Follows t' (t.hears ctx choice) := by
  cases hpc : t.pc with
  | loop => exact loop_follows hpc h
  | waiting =>
    have hidle := Task.performs_of_ne (t := t) (by simp [hpc])
    cases choice with
    | go =>
      simp only [taskStep, hpc] at h
      simp only [Task.hears, hpc]
      cases hw : waitForStop ctx t with
      | inl cause =>
        simp only [hw] at h
        cases h
        exact ⟨rfl, hidle⟩
      | inr due =>
        simp only [hw] at h
        cases h
        exact .still (by simp [hpc]) rfl rfl
    | _ => simp [taskStep, hpc] at h
  | armed deadlineMs cause =>
    have hidle := Task.performs_of_ne (t := t) (by simp [hpc])
    cases choice with
    | fire =>
      simp only [taskStep, hpc] at h
      split at h
      next =>
        cases h
        simp only [Task.hears, hpc]
        exact ⟨rfl, hidle⟩
      next => cases h
    | recvStop =>
      simp only [taskStep, hpc] at h
      cases hrx : t.stopRx with
      | nil => simp [hrx] at h
      | cons cause stopRx =>
        simp only [hrx] at h
        cases h
        simp only [Task.hears, hpc, hrx, List.head?_cons, Option.map_some]
        exact ⟨rfl, hidle⟩
    | changed =>
      simp only [taskStep, hpc] at h
      cases h
      simp only [Task.hears, hpc]
      exact .still (by simp [hpc]) rfl rfl
    | _ => simp [taskStep, hpc] at h
  | _ =>
    have hhears : t.hears ctx choice = none := by cases choice <;> simp [Task.hears, hpc]
    rw [hhears]
    obtain ⟨hst, heff⟩ := (taskStep_cases h).still (by simp [hpc]) (by simp [hpc])
    exact .still (by simp [hpc]) hst heff

/-- What the machine hears comes when nothing is left to perform, and is a stop request or the answer it waits for. -/
theorem Task.Shape.hears (hs : t.Shape) {event : Event} (h : t.hears ctx choice = some event) :
    t.effects = [] ∧ (event.answers = none ∨ event.answers = t.state.awaits ∧ t.state.isTerminal = false) := by
  unfold Task.hears at h
  split at h
  next hpc =>
    split at h
    next e queue heff hq =>
      obtain rfl := Option.some.inj h
      obtain ⟨-, ha, -⟩ := (hs.inLoop hpc).of_event hq
      refine ⟨heff, ?_⟩
      rcases ha.head with ⟨he, hne, -⟩ | ⟨he, -⟩
      · refine .inr ⟨he, Bool.eq_false_iff.2 fun hterm => ?_⟩
        exact hne (State.awaits_of_terminal hterm)
      · exact .inl he
    next heff hq =>
      split at h
      next => cases h
      next =>
        obtain rfl := Option.some.inj h
        exact ⟨heff, .inl rfl⟩
    next => cases h
  next hpc =>
    split at h
    next =>
      obtain rfl := Option.some.inj h
      exact ⟨(hs.active (.inl hpc)).2.2, .inl rfl⟩
    next => cases h
  next hpc =>
    obtain rfl := Option.some.inj h
    exact ⟨(hs.active (.inr ⟨_, _, hpc⟩)).2.2, .inl rfl⟩
  next hpc =>
    obtain ⟨cause, -, rfl⟩ := Option.map_eq_some_iff.1 h
    exact ⟨(hs.active (.inr ⟨_, _, hpc⟩)).2.2, .inl rfl⟩
  next => cases h

end

/-! ## The refinement -/

/-- The history of an instance, and where its machine and its effects are. -/
structure History.Of (t : Task) (h : History) : Prop where
  run : ∃ outstanding, Reach machineLts ⟨t.state, outstanding, h.ticks⟩
  effects : h.performed ++ t.effects = emitted h.ticks

/-- A step of the machine on an event that fits. -/
theorem machineLts_tick {s : State} {outstanding : Option Awaited} {ticks : List Tick} {event : Event}
    (h : Reach machineLts ⟨s, outstanding, ticks⟩)
    (hfit : event.answers = none ∨ event.answers = s.awaits ∧ s.isTerminal = false) :
    ∃ outstanding', Reach machineLts ⟨(step s event).1, outstanding', s.tick event :: ticks⟩ := by
  have hanswers : event.answers = none ∨ event.answers = outstanding := by
    rcases hfit with he | ⟨he, hlive⟩
    · exact .inl he
    · have hout : s.awaits = outstanding := (reach_inv h).awaits hlive
      exact .inr (he.trans hout)
  have hstep : machineLts.step ⟨s, outstanding, ticks⟩ event =
      some ⟨(step s event).1, asked (step s event).2 (if event.answers = none then outstanding else none),
        s.tick event :: ticks⟩ := if_pos hanswers
  exact ⟨_, .step h hstep⟩

theorem History.Of.task {X : Ext} {ctx ctx' : Ctx} {t t' : Task} {choice : Choice} {obs : List Obs} {h : History}
    (hr : History.Of t h) (hs : t.Shape) (hstep : taskStep X ctx t choice = some (ctx', t', obs)) :
    History.Of t' ⟨((t.hears ctx choice).map t.state.tick).toList ++ h.ticks, h.performed ++ t.performs⟩ := by
  have hfollows := taskStep_follows hstep
  obtain ⟨outstanding, hrun⟩ := hr.run
  cases he : t.hears ctx choice with
  | none =>
    rw [he] at hfollows
    obtain ⟨hst, heff⟩ := hfollows
    refine ⟨⟨outstanding, by rw [hst]; exact hrun⟩, ?_⟩
    show (h.performed ++ t.performs) ++ t'.effects = emitted h.ticks
    rw [List.append_assoc, ← heff]
    exact hr.effects
  | some event =>
    rw [he] at hfollows
    obtain ⟨hst, hidle⟩ := hfollows
    obtain ⟨heff, hfit⟩ := hs.hears he
    obtain ⟨hst, heff'⟩ := Prod.mk.inj hst
    obtain ⟨outstanding', hrun'⟩ := machineLts_tick hrun hfit
    refine ⟨⟨outstanding', by rw [hst]; exact hrun'⟩, ?_⟩
    have hbefore : h.performed = emitted h.ticks := by simpa [heff] using hr.effects
    show (h.performed ++ t.performs) ++ t'.effects = emitted (t.state.tick event :: h.ticks)
    rw [emitted_cons, hidle, List.append_nil, hbefore, heff']
    rfl

/-- **The task runs the machine**: whatever happens around it, what it has fed to the machine is a run of `machineLts`,
and it has performed what the machine asked for, but for the effects still to come. -/
theorem history_refines {X : Ext} {w : Watched Instance History} (h : Reach (historyLts X) w) :
    History.Of w.state.task w.seen := by
  refine Reach.inv_of (I := fun w => w.state.task.Shape) (P := fun w => History.Of w.state.task w.seen)
    (fun w hw => (reach_accounted hw.unwatched).1) ?_ ?_ h
  · rintro ⟨c, history⟩ ⟨⟨run, htask, -⟩, hseen⟩
    obtain rfl : history = ⟨[], []⟩ := hseen
    dsimp only
    rw [htask]
    exact ⟨⟨some .setup, .init rfl⟩, rfl⟩
  · rintro ⟨c, history⟩ label ⟨c', history'⟩ hs hr hstep
    obtain ⟨hc, hseen⟩ := watch_step_some.1 hstep
    dsimp only at hc hseen hs hr ⊢
    subst hseen
    simp only [instanceLts] at hc
    split at hc
    case isTrue => cases hc
    case isFalse =>
      cases label with
      | task choice =>
        obtain ⟨⟨ctx', t', obs⟩, ht, rfl⟩ := Option.map_eq_some_iff.1 hc
        exact hr.task hs ht
      | stop cause =>
        obtain rfl := Option.some.inj hc
        exact ⟨hr.run, hr.effects⟩
      | interfere i =>
        obtain ⟨ctx', -, rfl⟩ := Option.map_eq_some_iff.1 hc
        exact ⟨hr.run, hr.effects⟩
      | crash =>
        obtain rfl := Option.some.inj hc
        exact ⟨hr.run, hr.effects⟩

end FaultForge.Agent
