import FaultForge.Agent.Deadman
import FaultForge.Lib.I64
import FaultForge.Master.Ledger

/-!
# The deadlines of the two machines (supervisor.rs:591-642, machine.rs:611-645, experiment.rs:404-418)

The agent fixes the dead-man from its own start, cut to whole seconds; the end of the duration counts from `ACTIVE`, in
milliseconds; the master adds the longest window and a margin to its accept time. **`deadlines_line_up`**: none of these
computations overflows, the dead-man loses less than a second to the cut, the duration ends first unless `ACTIVE` was
reached more than the grace after the start, and the master waits for every dead-man.

| here | there |
| --- | --- |
| `checkedDeadlineUnix`, `checkedDeadman` | supervisor.rs:592, 601 |
| `checkedDurationEnd` | supervisor.rs:640 |
| `checkedDeadline` | experiment.rs:404 |
-/
namespace FaultForge

/-- Unix milliseconds that a clock reads. -/
def Reading (ms : Int) : Prop := 0 ≤ ms ∧ ms ≤ 2 ^ 62

end FaultForge

/-! ## The agent -/

namespace FaultForge.Agent

open Lts

/-- `deadline_unix`, with the `i64` operators checked. -/
def checkedDeadlineUnix (run : RunFault) (startMs : Int) : Option Int := do
  let startSecs ← I64.div startMs 1000
  let endSecs ← I64.add startSecs run.durationSecs.toNat
  I64.add endSecs run.graceSecs.toNat

def checkedDeadman (run : RunFault) (startMs : Int) : Option Int := do
  let deadlineUnix ← checkedDeadlineUnix run startMs
  I64.mul deadlineUnix 1000

def checkedDurationEnd (run : RunFault) (sinceMs : Int) : Option Int := do
  let durationMs ← I64.mul run.durationSecs.toNat 1000
  I64.add sinceMs durationMs

/-- Duration and grace together, in milliseconds. -/
def windowMs (run : RunFault) : Int := 1000 * (run.durationSecs.toNat + run.graceSecs.toNat)

/-- The dead-man is the one of the start that the task has read. -/
def Task.Dated (t : Task) : Prop :=
  t.pc ≠ .start → t.deadlineUnix = t.startMs.tdiv 1000 + t.run.durationSecs.toNat + t.run.graceSecs.toNat

section
variable {X : Ext} {ctx ctx' : Ctx} {t t' : Task} {obs : List Obs}

/-- After its first step a task keeps its start and its deadline. -/
theorem TaskStep.dates_eq (h : TaskStep X ctx t ctx' t' obs) (hpc : t.pc ≠ .start) :
    t'.startMs = t.startMs ∧ t'.deadlineUnix = t.deadlineUnix ∧ t'.run = t.run := by
  cases h with
  | start hs => exact absurd hs hpc
  | _ => exact ⟨rfl, rfl, rfl⟩

theorem taskStep_dated {choice : Choice} (h : taskStep X ctx t choice = some (ctx', t', obs)) (ht : t.Dated) :
    t'.Dated := by
  intro _
  by_cases hpc : t.pc = .start
  · simp only [taskStep, hpc] at h
    cases choice with
    | go => cases h; rfl
    | _ => cases h
  · obtain ⟨hstart, hdeadline, hrun⟩ := (taskStep_cases h).dates_eq hpc
    rw [hstart, hdeadline, hrun]
    exact ht hpc

theorem reach_dated {c : Instance} (h : Reach (instanceLts X) c) : c.task.Dated := by
  refine h.inv (P := fun c => c.task.Dated) ?_ ?_
  · rintro c ⟨run, htask, -⟩ hpc
    rw [htask] at hpc
    exact absurd rfl hpc
  · intro c label c' hd hs
    simp only [instanceLts] at hs
    split at hs
    · cases hs
    · cases label with
      | task choice =>
        obtain ⟨⟨ctx', t', obs⟩, ht, rfl⟩ := Option.map_eq_some_iff.1 hs
        exact taskStep_dated ht hd
      | stop cause =>
        obtain rfl := Option.some.inj hs
        exact hd
      | interfere i =>
        obtain ⟨ctx', hi, rfl⟩ := Option.map_eq_some_iff.1 hs
        exact hd
      | crash =>
        obtain rfl := Option.some.inj hs
        exact hd

/-- The cut to whole seconds takes less than a second off the dead-man. -/
theorem Task.Dated.deadman_window (h : t.Dated) (hpc : t.pc ≠ .start) (hs : Reading t.startMs) :
    t.startMs + windowMs t.run - 999 ≤ t.deadmanMs ∧ t.deadmanMs ≤ t.startMs + windowMs t.run := by
  obtain ⟨h0, -⟩ := hs
  have hcut := Int.mul_tdiv_add_tmod t.startMs 1000
  have hlow := Int.tmod_nonneg 1000 h0
  have hhigh := Int.tmod_lt_of_pos t.startMs (show (0 : Int) < 1000 by decide)
  unfold Task.deadmanMs windowMs
  rw [h hpc]
  omega

/-! ### No overflow -/

theorem Task.Dated.checked (h : t.Dated) (hpc : t.pc ≠ .start) (hs : Reading t.startMs) :
    checkedDeadlineUnix t.run t.startMs = some t.deadlineUnix ∧
      checkedDeadman t.run t.startMs = some t.deadmanMs := by
  obtain ⟨h0, h1⟩ := hs
  have hd := t.run.durationSecs.toNat_lt
  have hg := t.run.graceSecs.toNat_lt
  have hcut := Int.mul_tdiv_add_tmod t.startMs 1000
  have hlow := Int.tmod_nonneg 1000 h0
  have hpos : 0 ≤ t.startMs.tdiv 1000 := Int.tdiv_nonneg h0 (by decide)
  have hval := h hpc
  have hunix : checkedDeadlineUnix t.run t.startMs = some t.deadlineUnix := by
    have hsecs := I64.div_of_fits (by decide) (I64.fits_of_le hpos (by omega))
    have hend := I64.add_of_fits (x := t.startMs.tdiv 1000) (y := t.run.durationSecs.toNat)
      (I64.fits_of_le (by omega) (by omega))
    have hgrace := I64.add_of_fits (x := t.startMs.tdiv 1000 + t.run.durationSecs.toNat) (y := t.run.graceSecs.toNat)
      (I64.fits_of_le (by omega) (by omega))
    simp only [checkedDeadlineUnix, hsecs, hend, hgrace, hval, Option.bind_eq_bind, Option.bind_some]
  have hmul := I64.mul_of_fits (x := t.deadlineUnix) (y := 1000) (I64.fits_of_le (by omega) (by omega))
  refine ⟨hunix, ?_⟩
  simp only [checkedDeadman, hunix, hmul, Option.bind_eq_bind, Option.bind_some, Task.deadmanMs]

theorem checkedDurationEnd_some (run : RunFault) {sinceMs : Int} (h : Reading sinceMs) :
    checkedDurationEnd run sinceMs = some (sinceMs + run.durationSecs.toNat * 1000) := by
  obtain ⟨h0, h1⟩ := h
  have hd := run.durationSecs.toNat_lt
  have hmul := I64.mul_of_fits (x := run.durationSecs.toNat) (y := 1000) (I64.fits_of_le (by omega) (by omega))
  have hadd := I64.add_of_fits (x := sinceMs) (y := run.durationSecs.toNat * 1000)
    (I64.fits_of_le (by omega) (by omega))
  simp only [checkedDurationEnd, hmul, hadd, Option.bind_eq_bind, Option.bind_some]

/-! ### What `next_stop` picks -/

/-- With the master in contact the pick is between the duration and the dead-man. -/
theorem nextStop_connected (hconn : ctx.conn = .connected) :
    (nextStop (clock ctx t)).2 = if t.deadmanMs < t.durationEndMs then .deadman else .durationElapsed := by
  unfold nextStop clock
  rw [hconn]
  show (if t.deadmanMs < t.durationEndMs then _ else _ : Int × StopCause).2 = _
  split <;> rfl

theorem Task.Dated.pick (h : t.Dated) (hpc : t.pc ≠ .start) (hs : Reading t.startMs) (hconn : ctx.conn = .connected)
    {sinceMs : Int} (hsince : t.activeSinceMs = some sinceMs) :
    (sinceMs - t.startMs ≤ 1000 * t.run.graceSecs.toNat - 999 →
      (nextStop (clock ctx t)).2 = .durationElapsed) ∧
    (1000 * t.run.graceSecs.toNat < sinceMs - t.startMs → (nextStop (clock ctx t)).2 = .deadman) := by
  obtain ⟨hlow, hhigh⟩ := h.deadman_window hpc hs
  have hend : t.durationEndMs = sinceMs + t.run.durationSecs.toNat * 1000 := by
    unfold Task.durationEndMs
    rw [hsince, Option.getD_some]
  unfold windowMs at hlow hhigh
  rw [nextStop_connected hconn]
  constructor
  · intro hearly
    rw [if_neg (by omega)]
  · intro hlate
    rw [if_pos (by omega)]

end

end FaultForge.Agent

/-! ## The master -/

namespace FaultForge.Master

/-- `deadline_unix_ms`, with the `i64` operators checked. -/
def checkedDeadline (definition : ExperimentDefinition) (graceSecs : UInt32) (nowMs marginMs : Int) : Option Int := do
  let windows ← definition.actions.mapM fun a => I64.add a.durationSecs.toNat graceSecs.toNat
  let windowMs ← I64.mul (windows.max?.getD 0) 1000
  let endMs ← I64.add nowMs windowMs
  I64.add endMs marginMs

/-- The windows of a definition, as `deadline_unix_ms` takes their maximum. -/
def windows (definition : ExperimentDefinition) (graceSecs : UInt32) : List Int :=
  definition.actions.map fun a => (a.durationSecs.toNat + graceSecs.toNat : Int)

section
variable {definition : ExperimentDefinition} {graceSecs : UInt32}

theorem le_max_windows (graceSecs : UInt32) {d : ActionDefinition} (hd : d ∈ definition.actions) :
    (d.durationSecs.toNat + graceSecs.toNat : Int) ≤ ((windows definition graceSecs).max?).getD 0 := by
  have hmem : (d.durationSecs.toNat + graceSecs.toNat : Int) ∈ windows definition graceSecs :=
    List.mem_map_of_mem (f := fun a : ActionDefinition => (a.durationSecs.toNat + graceSecs.toNat : Int)) hd
  cases hmax : (windows definition graceSecs).max? with
  | none =>
    rw [List.max?_eq_none_iff] at hmax
    rw [hmax] at hmem
    cases hmem
  | some w => exact (List.max?_eq_some_iff.1 hmax).2 _ hmem

/-- A window is at most twice the largest `u32`. -/
theorem max_windows_bounds (definition : ExperimentDefinition) (graceSecs : UInt32) :
    0 ≤ ((windows definition graceSecs).max?).getD 0 ∧
    ((windows definition graceSecs).max?).getD 0 < 2 ^ 33 := by
  cases hmax : (windows definition graceSecs).max? with
  | none => decide
  | some w =>
    obtain ⟨d, -, rfl⟩ := List.mem_map.1 (List.max?_eq_some_iff.1 hmax).1
    have hd := d.durationSecs.toNat_lt
    have hg := graceSecs.toNat_lt
    simp only [Option.getD_some]
    omega

theorem checkedDeadline_some {nowMs : Int} (h : Reading nowMs) :
    checkedDeadline definition graceSecs nowMs DEADLINE_MARGIN_MS =
      some (deadlineUnixMs definition graceSecs nowMs DEADLINE_MARGIN_MS) := by
  obtain ⟨h0, h1⟩ := h
  obtain ⟨hlow, hhigh⟩ := max_windows_bounds definition graceSecs
  have hwindows : (definition.actions.mapM fun a => I64.add a.durationSecs.toNat graceSecs.toNat) =
      some (windows definition graceSecs) := by
    refine I64.mapM_some fun d _ => I64.add_of_fits (I64.fits_of_le (by omega) ?_)
    have hd := d.durationSecs.toNat_lt
    have hg := graceSecs.toNat_lt
    omega
  generalize hmax : ((windows definition graceSecs).max?).getD 0 = w at hlow hhigh
  have hmul := I64.mul_of_fits (x := w) (y := 1000) (I64.fits_of_le (by omega) (by omega))
  have hend := I64.add_of_fits (x := nowMs) (y := w * 1000) (I64.fits_of_le (by omega) (by omega))
  have hmargin := I64.add_of_fits (x := nowMs + w * 1000) (y := DEADLINE_MARGIN_MS)
    (I64.fits_of_le (by simp only [DEADLINE_MARGIN_MS]; omega) (by simp only [DEADLINE_MARGIN_MS]; omega))
  have hval : deadlineUnixMs definition graceSecs nowMs DEADLINE_MARGIN_MS = nowMs + w * 1000 + DEADLINE_MARGIN_MS := by
    rw [← hmax]
    rfl
  simp only [checkedDeadline, hwindows, hmax, hmul, hend, hmargin, hval, Option.bind_eq_bind, Option.bind_some]

/-- The frame for an instance carries the duration of an action and the grace of the record. -/
theorem runFault_window {C : Config} {e : Experiment} {i : InstanceRecord} {f : RunFault}
    (h : runFault C e i = some f) :
    ∃ d ∈ e.definition.actions, f.durationSecs = d.durationSecs ∧ f.graceSecs = e.graceSecs := by
  unfold runFault at h
  obtain ⟨d, hd, h⟩ := Option.bind_eq_some_iff.1 h
  obtain ⟨entry, -, h⟩ := Option.bind_eq_some_iff.1 h
  obtain ⟨json, -, h⟩ := Option.bind_eq_some_iff.1 h
  obtain rfl := Option.some.inj h
  exact ⟨d, List.mem_of_getElem? hd, rfl, rfl⟩

/-- The deadline of a record leaves room for the window of every instance of it. -/
theorem window_le_deadline {C : Config} {id : ExperimentId} {nowMs marginMs : Int} {i : InstanceRecord} {f : RunFault}
    (h : runFault C (mintExperiment id definition graceSecs nowMs marginMs) i = some f) :
    nowMs + Agent.windowMs f + marginMs ≤
      (mintExperiment id definition graceSecs nowMs marginMs).deadlineUnixMs := by
  obtain ⟨d, hd, hduration, hgrace⟩ := runFault_window h
  have hd' : d ∈ definition.actions := hd
  have hgrace' : f.graceSecs = graceSecs := hgrace
  have hmax := le_max_windows graceSecs hd'
  show nowMs + Agent.windowMs f + marginMs ≤ nowMs + ((windows definition graceSecs).max?).getD 0 * 1000 + marginMs
  unfold Agent.windowMs
  rw [hduration, hgrace']
  omega

end

end FaultForge.Master

/-! ## Both -/

namespace FaultForge.System

open Agent Master Lts

/-- **The deadlines line up.** For every run of an instance and every record of the master, with any durations, grace
and readings of the clocks. -/
theorem deadlines_line_up {X : Ext} {c : Instance} (h : Reach (instanceLts X) c) (hstarted : c.task.pc ≠ .start)
    (hstart : Reading c.task.startMs) (hsince : ∀ sinceMs, c.task.activeSinceMs = some sinceMs → Reading sinceMs)
    (definition : ExperimentDefinition) (graceSecs : UInt32) {acceptMs : Int} (haccept : Reading acceptMs) :
    -- No computation overflows.
    (checkedDeadlineUnix c.task.run c.task.startMs = some c.task.deadlineUnix ∧
      checkedDeadman c.task.run c.task.startMs = some c.task.deadmanMs ∧
      checkedDurationEnd c.task.run (c.task.activeSinceMs.getD c.task.startMs) = some c.task.durationEndMs ∧
      checkedDeadline definition graceSecs acceptMs DEADLINE_MARGIN_MS =
        some (deadlineUnixMs definition graceSecs acceptMs DEADLINE_MARGIN_MS)) ∧
    -- The dead-man is the whole window after the start, but for the cut to seconds.
    (c.task.startMs + windowMs c.task.run - 999 ≤ c.task.deadmanMs ∧
      c.task.deadmanMs ≤ c.task.startMs + windowMs c.task.run) ∧
    -- The duration comes first if `ACTIVE` came within the grace, the dead-man if it came later.
    (c.ctx.conn = .connected → ∀ sinceMs, c.task.activeSinceMs = some sinceMs →
      (sinceMs - c.task.startMs ≤ 1000 * c.task.run.graceSecs.toNat - 999 →
        (nextStop (clock c.ctx c.task)).2 = .durationElapsed) ∧
      (1000 * c.task.run.graceSecs.toNat < sinceMs - c.task.startMs →
        (nextStop (clock c.ctx c.task)).2 = .deadman)) ∧
    -- The master waits for the dead-man of every instance of the record that starts within the margin.
    ∀ (C : Master.Config) (id : ExperimentId) (marginMs : Int),
      ∀ i ∈ (mintExperiment id definition graceSecs acceptMs marginMs).instances,
        runFault C (mintExperiment id definition graceSecs acceptMs marginMs) i = some c.task.run →
        c.task.startMs ≤ acceptMs + marginMs →
        c.task.deadmanMs ≤ (mintExperiment id definition graceSecs acceptMs marginMs).deadlineUnixMs := by
  have hdated := reach_dated h
  obtain ⟨hunix, hdeadman⟩ := hdated.checked hstarted hstart
  have hbounds := hdated.deadman_window hstarted hstart
  have hfrom : Reading (c.task.activeSinceMs.getD c.task.startMs) := by
    cases ha : c.task.activeSinceMs with
    | none => exact hstart
    | some sinceMs => exact hsince sinceMs ha
  refine ⟨⟨hunix, hdeadman, checkedDurationEnd_some _ hfrom, checkedDeadline_some haccept⟩, hbounds,
    fun hconn sinceMs ha => hdated.pick hstarted hstart hconn ha, fun C id marginMs i _ hrun hlate => ?_⟩
  have hroom := window_le_deadline hrun
  omega

/-- Started at 1 s with a grace of 10 s and `ACTIVE` only at 20 s: the dead-man comes first. -/
theorem deadlines_line_up_late : ∃ c : Instance, c.task.activeSinceMs = some 20000 ∧
    checkedDeadman c.task.run c.task.startMs = some 71000 ∧ (nextStop (clock c.ctx c.task)).2 = .deadman := by
  let p : Instance → Bool := fun c =>
    decide (c.task.pc ≠ .start) && decide (c.task.startMs = 1000) && decide (c.task.activeSinceMs = some 20000) &&
      decide (c.task.deadmanMs = 71000) && decide (c.task.run.graceSecs = 10) && decide (c.ctx.conn = .connected)
  obtain ⟨c, hc, hp⟩ := reach_of_run (L := instanceLts plainExt) p (s := sampleInstance) ⟨sampleRun, rfl, rfl, rfl, rfl⟩
    (slowLabels 20000 ++ armChoices.map .task) (by decide +kernel)
  simp only [p, Bool.and_eq_true, decide_eq_true_eq] at hp
  obtain ⟨⟨⟨⟨⟨hpc, hstart⟩, hsince⟩, hdeadman⟩, hgrace⟩, hconn⟩ := hp
  have hread : Reading c.task.startMs := hstart ▸ ⟨by decide, by decide⟩
  have hsinceRead : ∀ sinceMs, c.task.activeSinceMs = some sinceMs → Reading sinceMs := by
    intro sinceMs hs
    obtain rfl := Option.some.inj (hsince.symm.trans hs)
    exact ⟨by decide, by decide⟩
  have haccept : Reading 500 := ⟨by decide, by decide⟩
  obtain ⟨⟨-, hchecked, -⟩, -, hpick, -⟩ := deadlines_line_up hc hpc hread hsinceRead sampleDefinition 30 haccept
  refine ⟨c, hsince, hchecked.trans (congrArg some hdeadman), (hpick hconn 20000 hsince).2 ?_⟩
  rw [hstart, hgrace]
  decide

end FaultForge.System
