import FaultForge.Master.Accepted
import FaultForge.Lib.Lts

/-!
# The experiment record (dispatch.rs: what each operation does under the store lock)

Status frames, reports, taints, operator halts and the deadline each change a record in one critical section and hand
over the instances to send `AbortFault` for. `record_inv` is the joint invariant of phase, instance states, abort
flags, taints and cause, for every record minted from an accepted definition and every sequence of operations.

| here | there |
| --- | --- |
| `fireKillSwitch`, `concludeIfDone`, `reactToUpdate` | dispatch.rs:463, 485, 451 |
| `Experiment.handleStatus` | `handle_instance_status` dispatch.rs:241; a report is a list of them (269) |
| `Experiment.handleTaint` | the body of the sweep of `handle_taint_status` dispatch.rs:296 |
| `Experiment.halt`, `Experiment.resolveDeadline` | dispatch.rs:324, 352 |
-/
namespace FaultForge.Master

open Lts

/-! ## Operations -/

/-- What is handed over for `AbortFault`: the host and the instance id. -/
abbrev Target := Hostname × String

def InstanceRecord.target (i : InstanceRecord) : Target := (i.hostname, i.instanceId)

/-- What no operation changes of an instance. -/
def InstanceRecord.key (i : InstanceRecord) : String × Hostname × Nat := (i.instanceId, i.hostname, i.actionIndex)

/-- The instances the kill-switch asks to abort. -/
def InstanceRecord.wanted (i : InstanceRecord) : Bool := !i.isTerminal && !i.abortRequested

def fireKillSwitch (e : Experiment) (cause : Cause) : Experiment × List Target :=
  if e.isConcluded then (e, [])
  else
    ({ e with
        cause := e.cause.or (some cause)
        phase := .halting
        instances := e.instances.map fun i => if i.wanted then { i with abortRequested := true } else i },
      (e.instances.filter InstanceRecord.wanted).map InstanceRecord.target)

def concludeIfDone (e : Experiment) : Experiment :=
  if e.isConcluded then e
  else
    match e.outcome with
    | none => e
    | some outcome => { e with cause := e.cause.or (e.outcomeCause outcome), phase := .concluded outcome }

def reactToUpdate (e : Experiment) : Experiment × List Target :=
  let (e, aborts) := match e.killTrigger with
    | some cause => fireKillSwitch e cause
    | none => (e, [])
  (concludeIfDone e, aborts)

/-- One `InstanceStatus`; a record that does not change is not reacted to. -/
def Experiment.handleStatus (e : Experiment) (instanceId : String) (state : InstanceState) (reason : String)
    (tsUnixMs : Int) : Experiment × List Target :=
  match e.applyStatus instanceId state reason tsUnixMs with
  | none => (e, [])
  | some e => reactToUpdate e

def Experiment.handleTaint (e : Experiment) (hostname reason : String) (tsUnixMs : Int) : Experiment × List Target :=
  if e.isConcluded || !e.targetsHost hostname then (e, [])
  else reactToUpdate (e.recordTaint hostname reason tsUnixMs)

def Experiment.halt (e : Experiment) (reason : String) (nowMs : Int) : Experiment × List Target :=
  if e.isConcluded then (e, [])
  else
    let (e, aborts) := fireKillSwitch e ⟨none, none, s!"operator halt: {reason}", nowMs⟩
    (concludeIfDone e, aborts)

def UNRESOLVED : String := "unresolved at experiment deadline"

def Experiment.unresolved (e : Experiment) : List Target :=
  (e.instances.filter fun i => !i.isTerminal).map InstanceRecord.target

def deadlineCause (nowMs : Int) (target : Target) : Cause := ⟨some target.1.val, some target.2, UNRESOLVED, nowMs⟩

def Experiment.expireAll (e : Experiment) (nowMs : Int) (targets : List Target) : Experiment :=
  targets.foldl (fun e target => (e.applyStatus target.2 .error UNRESOLVED nowMs).getD e) e

def Experiment.resolveDeadline (e : Experiment) (nowMs : Int) : Experiment × List Target :=
  if e.isConcluded then (e, [])
  else
    let e' := { e with cause := e.cause.or (e.unresolved.head?.map (deadlineCause nowMs)) }
    (concludeIfDone (e'.expireAll nowMs e.unresolved), e.unresolved)

inductive RecordOp
  | status (instanceId : String) (state : InstanceState) (reason : String) (tsUnixMs : Int)
  | taint (hostname reason : String) (tsUnixMs : Int)
  | halt (reason : String) (nowMs : Int)
  | deadline (nowMs : Int)

def Experiment.apply (e : Experiment) : RecordOp → Experiment × List Target
  | .status instanceId state reason ts => e.handleStatus instanceId state reason ts
  | .taint hostname reason ts => e.handleTaint hostname reason ts
  | .halt reason now => e.halt reason now
  | .deadline now => e.resolveDeadline now

/-- Records minted from an accepted definition, under any sequence of operations. -/
def recordLts : System Experiment RecordOp where
  init e := ∃ definition catalog facts nowMs seq graceSecs marginMs,
    GatheredFacts facts ∧ validate definition catalog facts = [] ∧
      e = mintExperiment (.mint nowMs seq) definition graceSecs nowMs marginMs
  step e op := some (e.apply op).1

/-! ## The invariant -/

def Experiment.AllTerminal (e : Experiment) : Prop := ∀ i ∈ e.instances, i.isTerminal

def Experiment.SomeLive (e : Experiment) : Prop := ∃ i ∈ e.instances, i.isTerminal = false

def Experiment.Broken (e : Experiment) : Prop := (∃ i ∈ e.instances, i.state = .error) ∨ e.taintedHosts ≠ []

def Experiment.Clean (e : Experiment) : Prop := (∀ i ∈ e.instances, i.state = .done) ∧ e.taintedHosts = []

structure Experiment.Running (e : Experiment) : Prop where
  healthy : ∀ i ∈ e.instances, i.state ≠ .error ∧ i.state ≠ .aborted
  unasked : ∀ i ∈ e.instances, i.abortRequested = false
  untainted : e.taintedHosts = []
  cause : e.cause = none
  live : e.SomeLive

structure Experiment.Halting (e : Experiment) : Prop where
  asked : ∀ i ∈ e.instances, i.isTerminal = false → i.abortRequested = true
  live : e.SomeLive
  cause : e.cause.isSome

structure Experiment.Concluded (e : Experiment) (outcome : ExperimentOutcome) : Prop where
  terminal : e.AllTerminal
  error : outcome = .error ↔ e.Broken
  completed : outcome = .completed ↔ e.Clean
  aborted : outcome = .aborted ↔ ¬ e.Broken ∧ ¬ e.Clean
  cause : outcome ≠ .completed → e.cause.isSome

/-- The joint invariant of the record. -/
def Experiment.Consistent (e : Experiment) : Prop :=
  match e.phase with
  | .running => e.Running
  | .halting => e.Halting
  | .concluded outcome => e.Concluded outcome

def Experiment.IdsDistinct (e : Experiment) : Prop := (e.instances.map InstanceRecord.instanceId).Nodup

/-! ## Conclusion -/

section
variable {e : Experiment}

theorem InstanceRecord.isTerminal_iff {i : InstanceRecord} :
    i.isTerminal = true ↔ i.state = .done ∨ i.state = .aborted ∨ i.state = .error := by
  unfold InstanceRecord.isTerminal InstanceState.isTerminal
  cases i.state <;> simp

theorem Experiment.not_allTerminal : ¬ e.AllTerminal ↔ e.SomeLive := by
  simp [Experiment.AllTerminal, Experiment.SomeLive]

theorem Experiment.outcome_none : e.outcome = none ↔ e.SomeLive := by
  unfold Experiment.outcome Experiment.SomeLive
  by_cases h : (e.instances.any fun i => !i.isTerminal) = true
  · rw [if_pos h]
    simpa using h
  · rw [if_neg h]
    have hno : ¬ ∃ i ∈ e.instances, i.isTerminal = false := by simpa using h
    simp only [hno, iff_false]
    split
    · simp
    · split <;> simp

theorem Experiment.outcome_some {outcome : ExperimentOutcome} (h : e.outcome = some outcome) :
    e.AllTerminal ∧ (outcome = .error ↔ e.Broken) ∧ (outcome = .completed ↔ e.Clean) ∧
      (outcome = .aborted ↔ ¬ e.Broken ∧ ¬ e.Clean) := by
  have hall : e.AllTerminal := by
    by_contra hn
    rw [Experiment.outcome_none.2 (Experiment.not_allTerminal.1 hn)] at h
    cases h
  refine ⟨hall, ?_⟩
  have hany : (e.instances.any fun i => !i.isTerminal) = false := by
    simpa [Experiment.AllTerminal] using hall
  have hbroken : ((e.instances.any fun i => i.state = .error) || !e.taintedHosts.isEmpty) = true ↔ e.Broken := by
    simp [Experiment.Broken]
  have hclean : ¬ e.Broken → ((e.instances.all fun i => i.state = .done) = true ↔ e.Clean) := by
    intro hb
    have ht : e.taintedHosts = [] := by
      by_contra hne
      exact hb (.inr hne)
    simp [Experiment.Clean, ht]
  have hdisj : e.Broken → ¬ e.Clean := by
    rintro (⟨i, hi, he⟩ | hne) ⟨hdone, ht⟩
    · rw [hdone i hi] at he
      cases he
    · exact hne ht
  unfold Experiment.outcome at h
  rw [hany, if_neg Bool.false_ne_true] at h
  by_cases hb : e.Broken
  · rw [if_pos (hbroken.2 hb)] at h
    obtain rfl := Option.some.inj h
    simp [hb, hdisj hb]
  · rw [if_neg fun h' => hb (hbroken.1 h')] at h
    by_cases hc : e.Clean
    · rw [if_pos ((hclean hb).2 hc)] at h
      obtain rfl := Option.some.inj h
      simp [hb, hc]
    · rw [if_neg fun h' => hc ((hclean hb).1 h')] at h
      obtain rfl := Option.some.inj h
      simp [hb, hc]

/-- An outcome other than `COMPLETED` names a cause. -/
theorem Experiment.outcomeCause_isSome {outcome : ExperimentOutcome} (h : e.outcome = some outcome)
    (hne : outcome ≠ .completed) : (e.outcomeCause outcome).isSome := by
  obtain ⟨hall, herr, hcomp, hab⟩ := Experiment.outcome_some h
  cases outcome with
  | completed => exact absurd rfl hne
  | error =>
    unfold Experiment.outcomeCause
    cases hf : e.instances.find? fun i => i.state = .error with
    | some i => rfl
    | none =>
      have hno : ∀ i ∈ e.instances, i.state ≠ .error := by simpa using hf
      rcases herr.1 rfl with ⟨i, hi, he⟩ | htaint
      · exact absurd he (hno i hi)
      · cases ht : e.taintedHosts with
        | nil => exact absurd ht htaint
        | cons t rest => rfl
  | aborted =>
    unfold Experiment.outcomeCause
    rw [Option.isSome_map]
    obtain ⟨hnb, hnc⟩ := hab.1 rfl
    by_contra hf
    have hno : ∀ i ∈ e.instances, i.state ≠ .aborted := by simpa using hf
    refine hnc ⟨fun i hi => ?_, ?_⟩
    · rcases InstanceRecord.isTerminal_iff.1 (hall i hi) with hd | ha | he
      · exact hd
      · exact absurd ha (hno i hi)
      · exact absurd (.inl ⟨i, hi, he⟩) hnb
    · by_contra hne
      exact hnb (.inr hne)

end

/-! ## Settling a change -/

/-- A record after a change, before the reaction to it. -/
def Experiment.Changed (e : Experiment) : Prop :=
  match e.phase with
  | .running => (∀ i ∈ e.instances, i.abortRequested = false) ∧ e.cause = none
  | .halting => (∀ i ∈ e.instances, i.isTerminal = false → i.abortRequested = true) ∧ e.cause.isSome
  | .concluded _ => False

section
variable {e : Experiment}

theorem Experiment.Changed.isConcluded (h : e.Changed) : e.isConcluded = false := by
  unfold Experiment.Changed at h
  unfold Experiment.isConcluded
  cases hp : e.phase with
  | running | halting => rfl
  | concluded o => simp [hp] at h

/-- Concluding settles a record that is consistent while something is live. -/
theorem concludeIfDone_consistent (hc : e.isConcluded = false) (hlive : e.SomeLive → e.Consistent) :
    (concludeIfDone e).Consistent := by
  unfold concludeIfDone
  rw [hc, if_neg Bool.false_ne_true]
  cases ho : e.outcome with
  | none => exact hlive (Experiment.outcome_none.1 ho)
  | some outcome =>
    obtain ⟨hall, herr, hcomp, hab⟩ := Experiment.outcome_some ho
    refine ⟨hall, herr, hcomp, hab, fun hne => ?_⟩
    show (e.cause.or (e.outcomeCause outcome)).isSome
    rw [Option.isSome_or, Experiment.outcomeCause_isSome ho hne, Bool.or_true]

theorem concludeIfDone_instances : (concludeIfDone e).instances = e.instances := by
  unfold concludeIfDone
  split
  · rfl
  · split <;> rfl

theorem concludeIfDone_cause {c : Cause} (h : e.cause = some c) : (concludeIfDone e).cause = some c := by
  unfold concludeIfDone
  split
  · exact h
  · split
    · exact h
    · simp [h]

theorem concludeIfDone_phase (hne : e.phase ≠ .running) : (concludeIfDone e).phase ≠ .running := by
  unfold concludeIfDone
  split
  · exact hne
  · split
    · exact hne
    · simp

theorem fireKillSwitch_fst (hc : e.isConcluded = false) (cause : Cause) :
    (fireKillSwitch e cause).1.phase = .halting ∧ (fireKillSwitch e cause).1.cause = e.cause.or (some cause) ∧
      (fireKillSwitch e cause).1.instances =
        e.instances.map fun i => if i.wanted then { i with abortRequested := true } else i := by
  unfold fireKillSwitch
  rw [hc, if_neg Bool.false_ne_true]
  exact ⟨rfl, rfl, rfl⟩

theorem fireKillSwitch_snd (hc : e.isConcluded = false) (cause : Cause) :
    (fireKillSwitch e cause).2 = (e.instances.filter InstanceRecord.wanted).map InstanceRecord.target := by
  unfold fireKillSwitch
  rw [hc, if_neg Bool.false_ne_true]

theorem InstanceRecord.ask_isTerminal (i : InstanceRecord) :
    (if i.wanted then { i with abortRequested := true } else i : InstanceRecord).isTerminal = i.isTerminal := by
  split <;> rfl

theorem InstanceRecord.ask_target (i : InstanceRecord) :
    (if i.wanted then { i with abortRequested := true } else i : InstanceRecord).target = i.target := by
  split <;> rfl

/-- After a firing every live instance has been asked. -/
theorem fireKillSwitch_asked (hc : e.isConcluded = false) (cause : Cause) :
    ∀ i ∈ (fireKillSwitch e cause).1.instances, i.isTerminal = false → i.abortRequested = true := by
  rw [(fireKillSwitch_fst hc cause).2.2]
  intro i hi hlive
  obtain ⟨j, hj, rfl⟩ := List.mem_map.1 hi
  rw [InstanceRecord.ask_isTerminal] at hlive
  by_cases hw : j.wanted = true
  · rw [if_pos hw]
  · rw [if_neg hw]
    simpa [InstanceRecord.wanted, hlive] using hw

theorem fireKillSwitch_unresolved (hc : e.isConcluded = false) (cause : Cause) :
    (fireKillSwitch e cause).1.unresolved = e.unresolved := by
  unfold Experiment.unresolved
  rw [(fireKillSwitch_fst hc cause).2.2, List.filter_map, List.map_map]
  congr 1
  · funext i
    exact i.ask_target
  · congr 1
    funext i
    simp only [Function.comp_apply, InstanceRecord.ask_isTerminal]

/-- The first firing hands over every live instance. -/
theorem fireKillSwitch_first (hc : e.isConcluded = false) (cause : Cause)
    (h : ∀ i ∈ e.instances, i.abortRequested = false) : (fireKillSwitch e cause).2 = e.unresolved := by
  rw [fireKillSwitch_snd hc]
  unfold Experiment.unresolved
  congr 1
  exact List.filter_congr fun i hi => by simp [InstanceRecord.wanted, h i hi]

/-- A later firing hands over nothing. -/
theorem fireKillSwitch_later (hc : e.isConcluded = false) (cause : Cause)
    (h : ∀ i ∈ e.instances, i.isTerminal = false → i.abortRequested = true) : (fireKillSwitch e cause).2 = [] := by
  rw [fireKillSwitch_snd hc, List.map_eq_nil_iff, List.filter_eq_nil_iff]
  intro i hi
  cases ht : i.isTerminal with
  | true => simp [InstanceRecord.wanted, ht]
  | false => simp [InstanceRecord.wanted, h i hi ht]

/-- Firing and concluding settle a changed record. -/
theorem Experiment.Changed.fire (h : e.Changed) (cause : Cause) :
    (concludeIfDone (fireKillSwitch e cause).1).Consistent := by
  have hc := h.isConcluded
  obtain ⟨hphase, hcause, -⟩ := fireKillSwitch_fst hc cause
  have hrun : (fireKillSwitch e cause).1.isConcluded = false := by
    unfold Experiment.isConcluded
    rw [hphase]
  refine concludeIfDone_consistent hrun fun hlive => ?_
  unfold Experiment.Consistent
  rw [hphase]
  exact ⟨fireKillSwitch_asked hc cause, hlive, by rw [hcause]; simp⟩

theorem Experiment.killTrigger_running (hp : e.phase = .running) (hreq : ∀ i ∈ e.instances, i.abortRequested = false)
    (h : e.killTrigger = none) :
    (∀ i ∈ e.instances, i.state ≠ .error ∧ i.state ≠ .aborted) ∧ e.taintedHosts = [] := by
  unfold Experiment.killTrigger at h
  rw [hp, if_neg (by simp)] at h
  split at h
  next => cases h
  next hf =>
    constructor
    · intro i hi
      have ht : i.trigger = none := List.findSome?_eq_none_iff.1 hf i hi
      unfold InstanceRecord.trigger at ht
      constructor
      · intro hs
        simp [hs] at ht
      · intro hs
        simp [hs, hreq i hi] at ht
    · cases hl : e.taintedHosts with
      | nil => rfl
      | cons t rest => simp [taintCause, hl] at h

/-- **The reaction settles every change.** -/
theorem Experiment.Changed.react (h : e.Changed) : (reactToUpdate e).1.Consistent := by
  unfold reactToUpdate
  cases hk : e.killTrigger with
  | some cause => exact h.fire cause
  | none =>
    refine concludeIfDone_consistent h.isConcluded fun hlive => ?_
    unfold Experiment.Changed at h
    unfold Experiment.Consistent
    cases hp : e.phase with
    | running =>
      rw [hp] at h
      obtain ⟨hreq, hcause⟩ := h
      obtain ⟨hhealthy, htaint⟩ := Experiment.killTrigger_running hp hreq hk
      exact ⟨hhealthy, hreq, htaint, hcause, hlive⟩
    | halting =>
      rw [hp] at h
      exact ⟨h.1, hlive, h.2⟩
    | concluded o => simp [hp] at h

theorem Experiment.Consistent.changed (h : e.Consistent) (hc : e.isConcluded = false) : e.Changed := by
  unfold Experiment.Consistent at h
  unfold Experiment.Changed
  cases hp : e.phase with
  | running => rw [hp] at h; exact ⟨h.unasked, h.cause⟩
  | halting => rw [hp] at h; exact ⟨h.asked, h.cause⟩
  | concluded o => simp [Experiment.isConcluded, hp] at hc

/-! ## What a step hands over -/

/-- A step from `e` to `e'` other than the deadline hands over `aborts`. -/
structure Handover (e e' : Experiment) (aborts : List Target) : Prop where
  first : e.phase = .running → e'.phase = .halting → aborts = e'.unresolved
  later : e.phase ≠ .running → aborts = []
  forward : e.phase ≠ .running → e'.phase ≠ .running
  cause : ∀ c, e.cause = some c → e'.cause = some c

theorem Handover.refl (e : Experiment) : Handover e e [] :=
  ⟨fun hr hh => (by rw [hr] at hh; cases hh), fun _ => rfl, fun h => h, fun _ h => h⟩

theorem concludeIfDone_unresolved : (concludeIfDone e).unresolved = e.unresolved := by
  unfold Experiment.unresolved
  rw [concludeIfDone_instances]

/-- Firing the kill-switch, then concluding. -/
theorem Experiment.Changed.fire_handover (h : e.Changed) (cause : Cause) :
    Handover e (concludeIfDone (fireKillSwitch e cause).1) (fireKillSwitch e cause).2 := by
  have hc := h.isConcluded
  obtain ⟨hphase, hcause, -⟩ := fireKillSwitch_fst hc cause
  unfold Experiment.Changed at h
  refine ⟨fun hr _ => ?_, fun hne => ?_, fun _ => ?_, fun c hs => ?_⟩
  · rw [hr] at h
    rw [concludeIfDone_unresolved, fireKillSwitch_unresolved hc, fireKillSwitch_first hc cause h.1]
  · cases hp : e.phase with
    | running => exact absurd hp hne
    | halting => rw [hp] at h; exact fireKillSwitch_later hc cause h.1
    | concluded o => simp [hp] at h
  · exact concludeIfDone_phase (by rw [hphase]; simp)
  · refine concludeIfDone_cause ?_
    rw [hcause, hs]
    rfl

theorem Experiment.Changed.react_handover (h : e.Changed) : Handover e (reactToUpdate e).1 (reactToUpdate e).2 := by
  unfold reactToUpdate
  cases hk : e.killTrigger with
  | some cause => exact h.fire_handover cause
  | none =>
    refine ⟨fun hr hh => ?_, fun _ => rfl, concludeIfDone_phase, fun c hs => concludeIfDone_cause hs⟩
    have hne : (concludeIfDone e).phase ≠ .halting := by
      unfold concludeIfDone
      split
      · simp [hr]
      · split <;> simp [hr]
    exact absurd hh hne

/-! ## One status -/

theorem applyTo_spec {iid reason : String} {state : InstanceState} {ts : Int} {l l' : List InstanceRecord}
    (h : applyTo iid state reason ts l = some l') :
    l'.map InstanceRecord.key = l.map InstanceRecord.key ∧
    (∃ i ∈ l, i.isTerminal = false) ∧
    ∀ j ∈ l', ∃ i ∈ l, j.abortRequested = i.abortRequested ∧ (i.isTerminal = true → j = i) := by
  induction l generalizing l' with
  | nil => cases h
  | cons a l ih =>
    unfold applyTo at h
    by_cases ha : a.instanceId = iid
    · rw [if_pos ha] at h
      cases ht : a.isTerminal with
      | true => simp [ht] at h
      | false =>
        rw [ht, if_neg Bool.false_ne_true] at h
        obtain rfl := Option.some.inj h
        refine ⟨rfl, ⟨a, List.mem_cons_self, ht⟩, fun j hj => ?_⟩
        rcases List.mem_cons.1 hj with rfl | hj
        · exact ⟨a, List.mem_cons_self, rfl, fun h' => by rw [ht] at h'; cases h'⟩
        · exact ⟨j, List.mem_cons_of_mem _ hj, rfl, fun _ => rfl⟩
    · rw [if_neg ha] at h
      obtain ⟨l₁, h₁, rfl⟩ := Option.map_eq_some_iff.1 h
      obtain ⟨hids, ⟨i, hi, hlive⟩, hmem⟩ := ih h₁
      refine ⟨by simp [hids], ⟨i, List.mem_cons_of_mem _ hi, hlive⟩, fun j hj => ?_⟩
      rcases List.mem_cons.1 hj with rfl | hj
      · exact ⟨j, List.mem_cons_self, rfl, fun _ => rfl⟩
      · obtain ⟨i, hi, hab, hterm⟩ := hmem j hj
        exact ⟨i, List.mem_cons_of_mem _ hi, hab, hterm⟩

theorem Experiment.Consistent.status (h : e.Consistent) {iid reason : String} {state : InstanceState} {ts : Int}
    {e₁ : Experiment} (ha : e.applyStatus iid state reason ts = some e₁) :
    e₁.Changed ∧ e₁.phase = e.phase ∧ e₁.cause = e.cause := by
  obtain ⟨l, hl, rfl⟩ := Option.map_eq_some_iff.1 ha
  obtain ⟨-, ⟨k, hk, hlive⟩, hmem⟩ := applyTo_spec hl
  refine ⟨?_, rfl, rfl⟩
  unfold Experiment.Consistent at h
  unfold Experiment.Changed
  cases hp : e.phase with
  | running =>
    rw [hp] at h
    refine ⟨fun j hj => ?_, h.cause⟩
    obtain ⟨i, hi, hab, -⟩ := hmem j hj
    rw [hab, h.unasked i hi]
  | halting =>
    rw [hp] at h
    refine ⟨fun j hj hjl => ?_, h.cause⟩
    obtain ⟨i, hi, hab, hterm⟩ := hmem j hj
    rw [hab]
    refine h.asked i hi ?_
    cases hit : i.isTerminal with
    | false => rfl
    | true => rw [hterm hit, hit] at hjl; cases hjl
  | concluded o =>
    rw [hp] at h
    rw [h.terminal k hk] at hlive
    cases hlive

/-! ## The deadline -/

/-- What the deadline makes of an instance. -/
def InstanceRecord.expire (nowMs : Int) (i : InstanceRecord) : InstanceRecord :=
  if i.isTerminal then i else { i with state := .error, reason := UNRESOLVED, updatedUnixMs := nowMs }

/-- The reports the deadline makes up, on the list of instances. -/
def expireTo (nowMs : Int) (ids : List String) (l : List InstanceRecord) : List InstanceRecord :=
  ids.foldl (fun l id => (applyTo id .error UNRESOLVED nowMs l).getD l) l

theorem expireAll_eq (e : Experiment) (nowMs : Int) (targets : List Target) :
    e.expireAll nowMs targets = { e with instances := expireTo nowMs (targets.map Prod.snd) e.instances } := by
  induction targets generalizing e with
  | nil => rfl
  | cons target targets ih =>
    unfold Experiment.expireAll expireTo at *
    rw [List.foldl_cons, List.map_cons, List.foldl_cons, ih]
    unfold Experiment.applyStatus
    cases applyTo target.2 .error UNRESOLVED nowMs e.instances <;> rfl

theorem expireTo_cons {nowMs : Int} {i : InstanceRecord} {ids : List String} {l : List InstanceRecord}
    (h : i.instanceId ∉ ids) : expireTo nowMs ids (i :: l) = i :: expireTo nowMs ids l := by
  induction ids generalizing l with
  | nil => rfl
  | cons id ids ih =>
    have hne : i.instanceId ≠ id := fun he => h (he ▸ List.mem_cons_self)
    have hstep : (applyTo id .error UNRESOLVED nowMs (i :: l)).getD (i :: l) =
        i :: (applyTo id .error UNRESOLVED nowMs l).getD l := by
      rw [applyTo, if_neg hne]
      cases applyTo id .error UNRESOLVED nowMs l <;> rfl
    unfold expireTo at *
    rw [List.foldl_cons, hstep, ih fun hm => h (List.mem_cons_of_mem _ hm), List.foldl_cons]

/-- With distinct ids, every live instance is resolved. -/
theorem expireTo_unresolved (nowMs : Int) {l : List InstanceRecord} (hd : (l.map InstanceRecord.instanceId).Nodup) :
    expireTo nowMs ((l.filter fun i => !i.isTerminal).map InstanceRecord.instanceId) l =
      l.map (InstanceRecord.expire nowMs) := by
  induction l with
  | nil => rfl
  | cons i l ih =>
    obtain ⟨hnot, hnd⟩ := List.nodup_cons.1 hd
    have hnot' : i.instanceId ∉ (l.filter fun i => !i.isTerminal).map InstanceRecord.instanceId := fun hm => by
      obtain ⟨j, hj, he⟩ := List.mem_map.1 hm
      exact hnot (he ▸ List.mem_map_of_mem (List.mem_filter.1 hj).1)
    cases ht : i.isTerminal with
    | true =>
      rw [List.filter_cons_of_neg (by simp [ht]), List.map_cons, expireTo_cons hnot', ih hnd]
      simp [InstanceRecord.expire, ht]
    | false =>
      rw [List.filter_cons_of_pos (by simp [ht]), List.map_cons, List.map_cons, ← ih hnd]
      have hstep : (applyTo i.instanceId .error UNRESOLVED nowMs (i :: l)).getD (i :: l) =
          InstanceRecord.expire nowMs i :: l := by
        simp [applyTo, ht, InstanceRecord.expire]
      have hid : (InstanceRecord.expire nowMs i).instanceId = i.instanceId := by
        simp [InstanceRecord.expire, ht]
      unfold expireTo
      rw [List.foldl_cons, hstep]
      exact expireTo_cons (hid ▸ hnot')

theorem Experiment.unresolved_ids : e.unresolved.map Prod.snd =
    (e.instances.filter fun i => !i.isTerminal).map InstanceRecord.instanceId := by
  unfold Experiment.unresolved
  rw [List.map_map]
  rfl

theorem InstanceRecord.expire_isTerminal (nowMs : Int) (i : InstanceRecord) : (i.expire nowMs).isTerminal = true := by
  unfold InstanceRecord.expire
  split
  · assumption
  · rfl

/-- The deadline concludes a live record. -/
theorem Experiment.resolveDeadline_fst (hd : e.IdsDistinct) (hc : e.isConcluded = false) (nowMs : Int) :
    ∃ e₁ : Experiment, (e.resolveDeadline nowMs).1 = concludeIfDone e₁ ∧ e₁.AllTerminal ∧ e₁.isConcluded = false ∧
      e₁.cause = e.cause.or (e.unresolved.head?.map (deadlineCause nowMs)) ∧
      e₁.instances = e.instances.map (InstanceRecord.expire nowMs) ∧ e₁.phase = e.phase ∧
      e₁.taintedHosts = e.taintedHosts := by
  unfold Experiment.resolveDeadline
  rw [hc, if_neg Bool.false_ne_true]
  refine ⟨_, rfl, ?_⟩
  rw [expireAll_eq, Experiment.unresolved_ids]
  have hinst : expireTo nowMs ((e.instances.filter fun i => !i.isTerminal).map InstanceRecord.instanceId) e.instances =
      e.instances.map (InstanceRecord.expire nowMs) := expireTo_unresolved nowMs hd
  refine ⟨fun i hi => ?_, hc, rfl, hinst, rfl, rfl⟩
  have hm : i ∈ e.instances.map (InstanceRecord.expire nowMs) := hinst ▸ hi
  obtain ⟨j, -, rfl⟩ := List.mem_map.1 hm
  exact j.expire_isTerminal nowMs

/-! ## Every operation -/

theorem Experiment.Consistent.cases (h : e.Consistent) : e.SomeLive ∨ e.isConcluded = true := by
  unfold Experiment.Consistent at h
  unfold Experiment.isConcluded
  cases hp : e.phase with
  | running => rw [hp] at h; exact .inl h.live
  | halting => rw [hp] at h; exact .inl h.live
  | concluded o => exact .inr rfl

theorem Handover.of_eq {e₁ e' : Experiment} {aborts : List Target} (h : Handover e₁ e' aborts)
    (hp : e₁.phase = e.phase) (hc : e₁.cause = e.cause) : Handover e e' aborts :=
  ⟨fun hr => h.first (hp ▸ hr), fun hr => h.later (hp ▸ hr), fun hr => h.forward (hp ▸ hr),
    fun c hs => h.cause c (hc ▸ hs)⟩

theorem Experiment.Consistent.handleStatus (h : e.Consistent) (iid : String) (state : InstanceState) (reason : String)
    (ts : Int) :
    (e.handleStatus iid state reason ts).1.Consistent ∧
      Handover e (e.handleStatus iid state reason ts).1 (e.handleStatus iid state reason ts).2 := by
  unfold Experiment.handleStatus
  cases ha : e.applyStatus iid state reason ts with
  | none => exact ⟨h, Handover.refl e⟩
  | some e₁ =>
    obtain ⟨hch, hp, hcause⟩ := h.status ha
    exact ⟨hch.react, hch.react_handover.of_eq hp hcause⟩

theorem Experiment.recordTaint_fields (e : Experiment) (hostname reason : String) (ts : Int) :
    (e.recordTaint hostname reason ts).instances = e.instances ∧ (e.recordTaint hostname reason ts).phase = e.phase ∧
      (e.recordTaint hostname reason ts).cause = e.cause := by
  unfold Experiment.recordTaint
  split <;> exact ⟨rfl, rfl, rfl⟩

theorem Experiment.Consistent.handleTaint (h : e.Consistent) (hostname reason : String) (ts : Int) :
    (e.handleTaint hostname reason ts).1.Consistent ∧
      Handover e (e.handleTaint hostname reason ts).1 (e.handleTaint hostname reason ts).2 := by
  unfold Experiment.handleTaint
  by_cases hg : (e.isConcluded || !e.targetsHost hostname) = true
  · rw [if_pos hg]
    exact ⟨h, Handover.refl e⟩
  · rw [if_neg hg]
    have hc : e.isConcluded = false := by
      simp only [Bool.or_eq_true, not_or, Bool.not_eq_true] at hg
      exact hg.1
    obtain ⟨hi, hp, hcause⟩ := e.recordTaint_fields hostname reason ts
    have hch : (e.recordTaint hostname reason ts).Changed := by
      have he := h.changed hc
      unfold Experiment.Changed at *
      rwa [hi, hp, hcause]
    exact ⟨hch.react, hch.react_handover.of_eq hp hcause⟩

theorem Experiment.Consistent.halt (h : e.Consistent) (reason : String) (nowMs : Int) :
    (e.halt reason nowMs).1.Consistent ∧ Handover e (e.halt reason nowMs).1 (e.halt reason nowMs).2 := by
  unfold Experiment.halt
  cases hc : e.isConcluded with
  | true => exact ⟨h, Handover.refl e⟩
  | false => exact ⟨(h.changed hc).fire _, (h.changed hc).fire_handover _⟩

/-- The deadline settles the record for good; what it hands over is no kill-switch firing. -/
theorem Experiment.Consistent.resolveDeadline (h : e.Consistent) (hd : e.IdsDistinct) (nowMs : Int) :
    (e.resolveDeadline nowMs).1.Consistent ∧ (e.resolveDeadline nowMs).1.isConcluded = true ∧
      ∀ c, e.cause = some c → (e.resolveDeadline nowMs).1.cause = some c := by
  cases hc : e.isConcluded with
  | true =>
    unfold Experiment.resolveDeadline
    rw [hc, if_pos rfl]
    exact ⟨h, hc, fun _ hs => hs⟩
  | false =>
    obtain ⟨e₁, he, hall, hc₁, hcause, -, -⟩ := Experiment.resolveDeadline_fst hd hc nowMs
    have hno : ¬ e₁.SomeLive := fun hl => Experiment.not_allTerminal.2 hl hall
    have hcons := concludeIfDone_consistent hc₁ fun hl => absurd hl hno
    rw [he]
    refine ⟨hcons, ?_, fun c hs => concludeIfDone_cause ?_⟩
    · refine (Experiment.Consistent.cases hcons).resolve_left fun ⟨i, hi, hl⟩ => ?_
      rw [concludeIfDone_instances] at hi
      exact hno ⟨i, hi, hl⟩
    · rw [hcause, hs]
      rfl

/-! ## What no operation changes -/

/-- `e'` is `e` up to phase, cause, taints and the states of the instances. -/
structure Experiment.Kept (e e' : Experiment) : Prop where
  id : e'.id = e.id
  definition : e'.definition = e.definition
  deadlineUnixMs : e'.deadlineUnixMs = e.deadlineUnixMs
  keys : e'.instances.map InstanceRecord.key = e.instances.map InstanceRecord.key

theorem Experiment.Kept.refl (e : Experiment) : e.Kept e := ⟨rfl, rfl, rfl, rfl⟩

theorem Experiment.Kept.trans {e₁ e₂ e₃ : Experiment} (h : e₁.Kept e₂) (k : e₂.Kept e₃) : e₁.Kept e₃ :=
  ⟨k.id.trans h.id, k.definition.trans h.definition, k.deadlineUnixMs.trans h.deadlineUnixMs, k.keys.trans h.keys⟩

theorem Experiment.Kept.ids {e e' : Experiment} (h : e.Kept e') :
    e'.instances.map InstanceRecord.instanceId = e.instances.map InstanceRecord.instanceId := by
  have hfst := congrArg (List.map Prod.fst) h.keys
  rwa [List.map_map, List.map_map] at hfst

theorem applyStatus_kept {iid reason : String} {state : InstanceState} {ts : Int} {e₁ : Experiment}
    (h : e.applyStatus iid state reason ts = some e₁) : e.Kept e₁ := by
  obtain ⟨l, hl, rfl⟩ := Option.map_eq_some_iff.1 h
  exact ⟨rfl, rfl, rfl, (applyTo_spec hl).1⟩

theorem concludeIfDone_kept (e : Experiment) : e.Kept (concludeIfDone e) := by
  unfold concludeIfDone
  split
  · exact Experiment.Kept.refl e
  · split <;> exact ⟨rfl, rfl, rfl, rfl⟩

theorem fireKillSwitch_kept (e : Experiment) (cause : Cause) : e.Kept (fireKillSwitch e cause).1 := by
  unfold fireKillSwitch
  split
  · exact Experiment.Kept.refl e
  · refine ⟨rfl, rfl, rfl, ?_⟩
    rw [List.map_map]
    refine List.map_congr_left fun i _ => ?_
    simp only [Function.comp_apply]
    split <;> rfl

theorem reactToUpdate_kept (e : Experiment) : e.Kept (reactToUpdate e).1 := by
  unfold reactToUpdate
  cases e.killTrigger with
  | some cause => exact (fireKillSwitch_kept e cause).trans (concludeIfDone_kept _)
  | none => exact concludeIfDone_kept e

theorem expireAll_kept (e : Experiment) (nowMs : Int) (targets : List Target) :
    e.Kept (e.expireAll nowMs targets) := by
  induction targets generalizing e with
  | nil => exact Experiment.Kept.refl e
  | cons target targets ih =>
    unfold Experiment.expireAll at *
    rw [List.foldl_cons]
    cases ha : e.applyStatus target.2 .error UNRESOLVED nowMs with
    | none => exact ih e
    | some e₁ => exact (applyStatus_kept ha).trans (ih e₁)

/-- No operation adds, drops or renames an instance. -/
theorem Experiment.apply_kept (e : Experiment) (op : RecordOp) : e.Kept (e.apply op).1 := by
  cases op with
  | status iid state reason ts =>
    show e.Kept (e.handleStatus iid state reason ts).1
    unfold Experiment.handleStatus
    cases ha : e.applyStatus iid state reason ts with
    | none => exact Experiment.Kept.refl e
    | some e₁ => exact (applyStatus_kept ha).trans (reactToUpdate_kept e₁)
  | taint hostname reason ts =>
    show e.Kept (e.handleTaint hostname reason ts).1
    unfold Experiment.handleTaint
    split
    · exact Experiment.Kept.refl e
    · refine Experiment.Kept.trans ?_ (reactToUpdate_kept _)
      unfold Experiment.recordTaint
      split <;> exact ⟨rfl, rfl, rfl, rfl⟩
  | halt reason now =>
    show e.Kept (e.halt reason now).1
    unfold Experiment.halt
    split
    · exact Experiment.Kept.refl e
    · exact (fireKillSwitch_kept e _).trans (concludeIfDone_kept _)
  | deadline now =>
    show e.Kept (e.resolveDeadline now).1
    unfold Experiment.resolveDeadline
    split
    · exact Experiment.Kept.refl e
    · let e₁ := { e with cause := e.cause.or (e.unresolved.head?.map (deadlineCause now)) }
      have h₁ : e.Kept e₁ := ⟨rfl, rfl, rfl, rfl⟩
      exact (h₁.trans (expireAll_kept e₁ now _)).trans (concludeIfDone_kept _)

theorem Experiment.Consistent.apply (h : e.Consistent) (hd : e.IdsDistinct) (op : RecordOp) :
    (e.apply op).1.Consistent ∧ (e.apply op).1.IdsDistinct := by
  refine ⟨?_, by unfold Experiment.IdsDistinct; rwa [(e.apply_kept op).ids]⟩
  cases op with
  | status iid state reason ts => exact (h.handleStatus iid state reason ts).1
  | taint hostname reason ts => exact (h.handleTaint hostname reason ts).1
  | halt reason now => exact (h.halt reason now).1
  | deadline now => exact (h.resolveDeadline hd now).1

end

/-! ## Who has been asked -/

/-- How many instances of that id have been asked to abort. -/
def Experiment.asked (e : Experiment) (iid : String) : Nat :=
  e.instances.countP fun i => i.instanceId = iid ∧ i.abortRequested = true

/-- How often that id is handed over. -/
def handed (aborts : List Target) (iid : String) : Nat := aborts.countP fun a => a.2 = iid

section
variable {e : Experiment}

theorem concludeIfDone_asked (iid : String) : (concludeIfDone e).asked iid = e.asked iid := by
  unfold Experiment.asked
  rw [concludeIfDone_instances]

theorem ask_count (l : List InstanceRecord) (iid : String) :
    ((l.map fun i => if i.wanted then { i with abortRequested := true } else i).countP fun i =>
        i.instanceId = iid ∧ i.abortRequested = true) =
      (l.countP fun i => i.instanceId = iid ∧ i.abortRequested = true) +
        handed ((l.filter InstanceRecord.wanted).map InstanceRecord.target) iid := by
  induction l with
  | nil => rfl
  | cons i l ih =>
    unfold handed at *
    rw [List.map_cons, List.countP_cons, List.countP_cons, ih]
    by_cases hw : i.wanted = true
    · have hr : i.abortRequested = false := by
        unfold InstanceRecord.wanted at hw
        simpa using (Bool.and_eq_true_iff.1 hw).2
      rw [List.filter_cons_of_pos hw, List.map_cons, List.countP_cons, if_pos hw]
      simp only [hr, InstanceRecord.target]
      by_cases hi : i.instanceId = iid
      · simp [hi]
        omega
      · simp [hi]
    · rw [List.filter_cons_of_neg hw, if_neg hw]
      omega

theorem fireKillSwitch_asked_count (e : Experiment) (cause : Cause) (iid : String) :
    (fireKillSwitch e cause).1.asked iid = e.asked iid + handed (fireKillSwitch e cause).2 iid := by
  cases hc : e.isConcluded with
  | true =>
    unfold fireKillSwitch
    rw [hc, if_pos rfl]
    rfl
  | false =>
    rw [fireKillSwitch_snd hc]
    unfold Experiment.asked
    rw [(fireKillSwitch_fst hc cause).2.2]
    exact ask_count e.instances iid

theorem reactToUpdate_asked (e : Experiment) (iid : String) :
    (reactToUpdate e).1.asked iid = e.asked iid + handed (reactToUpdate e).2 iid := by
  unfold reactToUpdate
  cases e.killTrigger with
  | some cause => exact (concludeIfDone_asked iid).trans (fireKillSwitch_asked_count e cause iid)
  | none => exact concludeIfDone_asked iid

theorem applyTo_asked {iid reason : String} {state : InstanceState} {ts : Int} {l l' : List InstanceRecord}
    (h : applyTo iid state reason ts l = some l') (id : String) :
    (l'.countP fun i => i.instanceId = id ∧ i.abortRequested = true) =
      l.countP fun i => i.instanceId = id ∧ i.abortRequested = true := by
  induction l generalizing l' with
  | nil => cases h
  | cons a l ih =>
    unfold applyTo at h
    by_cases ha : a.instanceId = iid
    · rw [if_pos ha] at h
      split at h
      · cases h
      · obtain rfl := Option.some.inj h
        simp only [List.countP_cons]
    · rw [if_neg ha] at h
      obtain ⟨l₁, h₁, rfl⟩ := Option.map_eq_some_iff.1 h
      rw [List.countP_cons, List.countP_cons, ih h₁]

/-- Apart from the deadline, what an operation hands over it marks. -/
theorem Experiment.apply_asked (e : Experiment) {op : RecordOp} (hop : ∀ now, op ≠ .deadline now) (iid : String) :
    (e.apply op).1.asked iid = e.asked iid + handed (e.apply op).2 iid := by
  cases op with
  | status id state reason ts =>
    show (e.handleStatus id state reason ts).1.asked iid = _ + handed (e.handleStatus id state reason ts).2 iid
    unfold Experiment.handleStatus
    cases ha : e.applyStatus id state reason ts with
    | none => rfl
    | some e₁ =>
      obtain ⟨l, hl, rfl⟩ := Option.map_eq_some_iff.1 ha
      have heq : Experiment.asked { e with instances := l } iid = e.asked iid := applyTo_asked hl iid
      rw [← heq]
      exact reactToUpdate_asked _ iid
  | taint hostname reason ts =>
    show (e.handleTaint hostname reason ts).1.asked iid = _ + handed (e.handleTaint hostname reason ts).2 iid
    unfold Experiment.handleTaint
    split
    · rfl
    · have heq : (e.recordTaint hostname reason ts).asked iid = e.asked iid := by
        unfold Experiment.asked
        rw [(e.recordTaint_fields hostname reason ts).1]
      rw [← heq]
      exact reactToUpdate_asked _ iid
  | halt reason now =>
    show (e.halt reason now).1.asked iid = _ + handed (e.halt reason now).2 iid
    unfold Experiment.halt
    split
    · rfl
    · exact (concludeIfDone_asked iid).trans (fireKillSwitch_asked_count e _ iid)
  | deadline now => exact absurd rfl (hop now)

end

/-! ## Who is handed over -/

section
variable {e : Experiment} {t : Target}

theorem Experiment.Kept.targets {e e' : Experiment} (h : e.Kept e') :
    e'.instances.map InstanceRecord.target = e.instances.map InstanceRecord.target := by
  have hmap := congrArg (List.map fun k : String × Hostname × Nat => (k.2.1, k.1)) h.keys
  rwa [List.map_map, List.map_map] at hmap

theorem fireKillSwitch_target {cause : Cause} (h : t ∈ (fireKillSwitch e cause).2) :
    t ∈ e.instances.map InstanceRecord.target ∧ (concludeIfDone (fireKillSwitch e cause).1).phase ≠ .running := by
  cases hc : e.isConcluded with
  | true =>
    unfold fireKillSwitch at h
    rw [hc, if_pos rfl] at h
    cases h
  | false =>
    rw [fireKillSwitch_snd hc] at h
    obtain ⟨i, hi, rfl⟩ := List.mem_map.1 h
    refine ⟨List.mem_map_of_mem (List.mem_filter.1 hi).1, concludeIfDone_phase ?_⟩
    rw [(fireKillSwitch_fst hc cause).1]
    simp

theorem reactToUpdate_target (h : t ∈ (reactToUpdate e).2) :
    t ∈ e.instances.map InstanceRecord.target ∧ (reactToUpdate e).1.phase ≠ .running := by
  unfold reactToUpdate at *
  cases hk : e.killTrigger with
  | some cause => rw [hk] at h; exact fireKillSwitch_target h
  | none => rw [hk] at h; cases h

/-- Only instances of the record are handed over, and none by a step that leaves it `RUNNING`. -/
theorem Experiment.Consistent.target (hcons : e.Consistent) (hd : e.IdsDistinct) {op : RecordOp}
    (h : t ∈ (e.apply op).2) :
    t ∈ e.instances.map InstanceRecord.target ∧ (e.apply op).1.phase ≠ .running := by
  cases op with
  | status iid state reason ts =>
    show _ ∧ (e.handleStatus iid state reason ts).1.phase ≠ .running
    have h' : t ∈ (e.handleStatus iid state reason ts).2 := h
    unfold Experiment.handleStatus at *
    cases ha : e.applyStatus iid state reason ts with
    | none => rw [ha] at h'; cases h'
    | some e₁ =>
      rw [ha] at h'
      rw [← (applyStatus_kept ha).targets]
      exact reactToUpdate_target h'
  | taint hostname reason ts =>
    show _ ∧ (e.handleTaint hostname reason ts).1.phase ≠ .running
    have h' : t ∈ (e.handleTaint hostname reason ts).2 := h
    unfold Experiment.handleTaint at *
    split at h'
    · cases h'
    next hg =>
      rw [if_neg hg, ← (e.recordTaint_fields hostname reason ts).1]
      exact reactToUpdate_target h'
  | halt reason now =>
    show _ ∧ (e.halt reason now).1.phase ≠ .running
    have h' : t ∈ (e.halt reason now).2 := h
    unfold Experiment.halt at *
    split at h'
    · cases h'
    next hg =>
      rw [if_neg hg]
      exact fireKillSwitch_target h'
  | deadline now =>
    have hcon := (hcons.resolveDeadline hd now).2.1
    have h' : t ∈ (e.resolveDeadline now).2 := h
    constructor
    · unfold Experiment.resolveDeadline at h'
      split at h'
      · cases h'
      · obtain ⟨i, hi, rfl⟩ := List.mem_map.1 h'
        exact List.mem_map_of_mem (List.mem_filter.1 hi).1
    · intro hr
      have hp : (e.resolveDeadline now).1.phase = .running := hr
      unfold Experiment.isConcluded at hcon
      rw [hp] at hcon
      cases hcon

/-- A concluded record is final. -/
theorem Experiment.Consistent.final (hcons : e.Consistent) (hc : e.isConcluded = true) (op : RecordOp) :
    e.apply op = (e, []) := by
  cases op with
  | status iid state reason ts =>
    show e.handleStatus iid state reason ts = (e, [])
    unfold Experiment.handleStatus
    cases ha : e.applyStatus iid state reason ts with
    | none => rfl
    | some e₁ =>
      obtain ⟨hch, hp, -⟩ := hcons.status ha
      have hf := hch.isConcluded
      unfold Experiment.isConcluded at hf hc
      rw [hp] at hf
      rw [hf] at hc
      cases hc
  | taint hostname reason ts =>
    show e.handleTaint hostname reason ts = (e, [])
    unfold Experiment.handleTaint
    rw [hc, Bool.true_or, if_pos rfl]
  | halt reason now =>
    show e.halt reason now = (e, [])
    unfold Experiment.halt
    rw [hc, if_pos rfl]
  | deadline now =>
    show e.resolveDeadline now = (e, [])
    unfold Experiment.resolveDeadline
    rw [hc, if_pos rfl]

end

/-! ## Every run -/

theorem mintExperiment_consistent {id : ExperimentId} {definition : ExperimentDefinition} {graceSecs : UInt32}
    {nowMs marginMs : Int} {catalog : Catalog} (ha : Accepted catalog definition) :
    (mintExperiment id definition graceSecs nowMs marginMs).Consistent := by
  have hne : (mintExperiment id definition graceSecs nowMs marginMs).instances ≠ [] := mintExperiment_ne_nil ha
  obtain ⟨i, rest, hi⟩ := List.exists_cons_of_ne_nil hne
  refine ⟨fun j hj => ?_, fun j hj => (mem_mint_iff hj).2.1, rfl, rfl, i, hi ▸ List.mem_cons_self, ?_⟩
  · rw [(mem_mint_iff hj).1]
    exact ⟨by decide, by decide⟩
  · unfold InstanceRecord.isTerminal
    rw [(mem_mint_iff (hi ▸ List.mem_cons_self)).1]
    rfl

theorem reach_consistent {e : Experiment} (h : Reach recordLts e) : e.Consistent ∧ e.IdsDistinct := by
  refine h.inv (P := fun e => e.Consistent ∧ e.IdsDistinct) ?_ ?_
  · rintro e ⟨definition, catalog, facts, nowMs, seq, graceSecs, marginMs, hg, hv, rfl⟩
    have ha := validate_nil hg hv
    exact ⟨mintExperiment_consistent ha, mintExperiment_ids ha (colon_not_mem_mint nowMs seq)⟩
  · rintro e op e' ⟨hc, hd⟩ hs
    obtain rfl := Option.some.inj hs
    exact hc.apply hd op

/-- The id of the record is minted, and the id of an instance spells out the record, the host and the action. -/
structure Experiment.Named (e : Experiment) : Prop where
  minted : ∃ nowMs seq, e.id = .mint nowMs seq
  spelled : ∀ i ∈ e.instances, i.instanceId = instanceId e.id i.hostname i.actionIndex

theorem Experiment.Kept.named {e e' : Experiment} (h : e.Kept e') (hn : e.Named) : e'.Named := by
  refine ⟨h.id ▸ hn.minted, fun i hi => ?_⟩
  have hm : i.key ∈ e.instances.map InstanceRecord.key := h.keys ▸ List.mem_map_of_mem hi
  obtain ⟨j, hj, hk⟩ := List.mem_map.1 hm
  simp only [InstanceRecord.key, Prod.mk.injEq] at hk
  obtain ⟨h1, h2, h3⟩ := hk
  rw [h.id, ← h1, ← h2, ← h3]
  exact hn.spelled j hj

theorem mint_named (nowMs : Int) (seq : Nat) (definition : ExperimentDefinition) (graceSecs : UInt32)
    (createdAtUnixMs marginMs : Int) :
    (mintExperiment (.mint nowMs seq) definition graceSecs createdAtUnixMs marginMs).Named :=
  ⟨⟨nowMs, seq, rfl⟩, fun _ hi => (mem_mint_iff hi).2.2⟩

theorem reach_named {e : Experiment} (h : Reach recordLts e) : e.Named := by
  refine h.inv (P := Experiment.Named) ?_ ?_
  · rintro e ⟨definition, catalog, facts, nowMs, seq, graceSecs, marginMs, -, -, rfl⟩
    exact mint_named nowMs seq definition graceSecs nowMs marginMs
  · intro e op e' hn hs
    obtain rfl := Option.some.inj hs
    exact (e.apply_kept op).named hn

/-- Records that share an instance id share their own. -/
theorem Experiment.Named.id_eq {e e' : Experiment} (h : e.Named) (h' : e'.Named) {iid : String}
    (hi : iid ∈ e.instances.map InstanceRecord.instanceId) (hi' : iid ∈ e'.instances.map InstanceRecord.instanceId) :
    e.id = e'.id := by
  obtain ⟨i, hm, rfl⟩ := List.mem_map.1 hi
  obtain ⟨j, hm', he⟩ := List.mem_map.1 hi'
  obtain ⟨n, k, hid⟩ := h.minted
  obtain ⟨n', k', hid'⟩ := h'.minted
  rw [h.spelled i hm, h'.spelled j hm'] at he
  refine (instanceId_inj ?_ ?_ he).1.symm
  · rw [hid']
    exact colon_not_mem_mint n' k'
  · rw [hid]
    exact colon_not_mem_mint n k

/-- What an operation does to the phase and the cause, and what it hands over. -/
structure Experiment.Step (e e' : Experiment) (op : RecordOp) (aborts : List Target) : Prop where
  first : e.phase = .running → e'.phase = .halting → aborts = e'.unresolved
  forward : e.phase ≠ .running → e'.phase ≠ .running
  later : e.phase ≠ .running → (∀ now, op ≠ .deadline now) → aborts = []
  cause : ∀ c, e.cause = some c → e'.cause = some c

theorem Experiment.Consistent.step {e : Experiment} (hc : e.Consistent) (hd : e.IdsDistinct) (op : RecordOp) :
    e.Step (e.apply op).1 op (e.apply op).2 := by
  have hand : (∀ now, op ≠ .deadline now) → Handover e (e.apply op).1 (e.apply op).2 := by
    intro hne
    cases op with
    | status iid state reason ts => exact (hc.handleStatus iid state reason ts).2
    | taint hostname reason ts => exact (hc.handleTaint hostname reason ts).2
    | halt reason now => exact (hc.halt reason now).2
    | deadline now => exact absurd rfl (hne now)
  by_cases hop : ∃ now, op = .deadline now
  · obtain ⟨now, rfl⟩ := hop
    obtain ⟨-, hcon, hcause⟩ := hc.resolveDeadline hd now
    unfold Experiment.isConcluded at hcon
    refine ⟨fun _ hh => ?_, fun _ hr => ?_, fun _ hne => absurd rfl (hne now), hcause⟩
    · have hp : (e.resolveDeadline now).1.phase = .halting := hh
      rw [hp] at hcon
      cases hcon
    · have hp : (e.resolveDeadline now).1.phase = .running := hr
      rw [hp] at hcon
      cases hcon
  · have hne : ∀ now, op ≠ .deadline now := fun now he => hop ⟨now, he⟩
    have hh := hand hne
    exact ⟨hh.first, hh.forward, fun hr _ => hh.later hr, hh.cause⟩

/-- **Every record is consistent after every operation.** The step from `RUNNING` to `HALTING` hands over exactly the
live instances; a record that has left `RUNNING` never returns there, and no kill-switch firing on it hands over
anything; a recorded cause stays. -/
theorem record_inv {e : Experiment} (h : Reach recordLts e) :
    e.Consistent ∧ ∀ op,
      (e.phase = .running → (e.apply op).1.phase = .halting → (e.apply op).2 = (e.apply op).1.unresolved) ∧
      (e.phase ≠ .running → (e.apply op).1.phase ≠ .running ∧ ((∀ now, op ≠ .deadline now) → (e.apply op).2 = [])) ∧
      ∀ c, e.cause = some c → (e.apply op).1.cause = some c := by
  obtain ⟨hc, hd⟩ := reach_consistent h
  refine ⟨hc, fun op => ?_⟩
  have hs := hc.step hd op
  exact ⟨hs.first, fun hr => ⟨hs.forward hr, hs.later hr⟩, hs.cause⟩

/-! ## A sample record, for runs on fixed inputs -/

def web01 : Hostname := ⟨"web-01", by decide +kernel⟩

def web02 : Hostname := ⟨"web-02", by decide +kernel⟩

def sampleDigest : Digest := ⟨"e3b0c44298fc1c149afbf4c8996fb92427ae41e4649b934ca495991b7852b855", by decide +kernel⟩

def sampleCatalog : Catalog :=
  (∅ : Catalog).insert ("cpu-stress", "1.0.0") ⟨⟨"cpu-stress", "1.0.0", "run.sh", ∅, 600⟩, sampleDigest⟩

def sampleDefinition : ExperimentDefinition := ⟨"smoke", [⟨["web-01", "web-02"], ⟨"cpu-stress", "1.0.0"⟩, ∅, 60⟩]⟩

def sampleRegistry : Registry := registerAgent (registerAgent ∅ web01 1000) web02 1000

def sampleSessions : SessionMap := (SessionMap.empty.insert web01 0 0).insert web02 1 1

def sampleRecord : Experiment := mintExperiment (.mint 1000 0) sampleDefinition 30 1000 DEADLINE_MARGIN_MS

theorem sampleRecord_init : recordLts.init sampleRecord :=
  ⟨sampleDefinition, sampleCatalog, gatherHostFacts sampleRegistry sampleSessions sampleDefinition, 1000, 0, 30,
    DEADLINE_MARGIN_MS, gatherHostFacts_gathered _ _ _, by decide +kernel, rfl⟩

/-- An `ERROR` on one host of a running record hands over the other host. -/
theorem record_inv_sample :
    (sampleRecord.apply (.status "exp-1000-0:web-01:0" .error "exit 30" 2000)).2 =
        [(web02, "exp-1000-0:web-02:0")] ∧
      ((sampleRecord.apply (.status "exp-1000-0:web-01:0" .error "exit 30" 2000)).1.apply (.halt "stop" 3000)).2 =
        [] := by
  have h₁ : Reach recordLts (sampleRecord.apply (.status "exp-1000-0:web-01:0" .error "exit 30" 2000)).1 :=
    .step (.init sampleRecord_init) rfl
  constructor
  · rw [((record_inv (.init sampleRecord_init)).2 _).1 rfl (by decide +kernel)]
    decide +kernel
  · exact (((record_inv h₁).2 _).2.1 (by decide +kernel)).2 fun now h => by cases h

end FaultForge.Master
