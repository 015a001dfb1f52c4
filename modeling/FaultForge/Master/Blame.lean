import FaultForge.Master.Record
import Mathlib.Data.List.Induction

/-!
# The cause of an `ERROR`

`cause` is written by whoever comes first: the kill-switch (dispatch.rs:472), the deadline (372), the conclusion (493).
The outcome is decided later, from all instances. So an `ERROR` names a broken host exactly when the record left
`RUNNING` by something that broke a host (`error_names_broken`); after an operator halt or an agent's own abort it does
not, whatever breaks afterwards (`halted_error_names_none`).
-/
namespace FaultForge.Master

open Lts

/-! ## What a cause names -/

/-- The cause names a host that is tainted or has an instance in `ERROR`, and no instance that is not in `ERROR`. -/
def Experiment.NamesBroken (e : Experiment) (c : Cause) : Prop :=
  (∃ h, c.hostname = some h ∧
    ((∃ t ∈ e.taintedHosts, t.hostname = h) ∨ ∃ i ∈ e.instances, i.hostname.val = h ∧ i.state = .error)) ∧
  ∀ iid, c.instanceId = some iid → ∃ i ∈ e.instances, i.instanceId = iid ∧ i.state = .error

/-- The cause names no host, or an instance that has aborted. -/
def Experiment.NamesAbort (e : Experiment) (c : Cause) : Prop :=
  c.hostname = none ∨ ∃ i ∈ e.instances, c.instanceId = some i.instanceId ∧ i.state = .aborted

/-- What is settled in `e` is settled in `e'`. -/
structure Experiment.Settled (e e' : Experiment) : Prop where
  tainted : ∀ t ∈ e.taintedHosts, t ∈ e'.taintedHosts
  terminal : ∀ i ∈ e.instances, i.isTerminal = true →
    ∃ j ∈ e'.instances, j.instanceId = i.instanceId ∧ j.hostname = i.hostname ∧ j.state = i.state

section
variable {e e' e₁ : Experiment} {c : Cause}

theorem Experiment.Settled.refl (e : Experiment) : e.Settled e := ⟨fun _ ht => ht, fun i hi _ => ⟨i, hi, rfl, rfl, rfl⟩⟩

theorem Experiment.Settled.trans (h : e.Settled e₁) (k : e₁.Settled e') : e.Settled e' := by
  refine ⟨fun t ht => k.tainted t (h.tainted t ht), fun i hi hterm => ?_⟩
  obtain ⟨j, hj, h1, h2, h3⟩ := h.terminal i hi hterm
  obtain ⟨n, hn, k1, k2, k3⟩ := k.terminal j hj (by unfold InstanceRecord.isTerminal at *; rwa [h3])
  exact ⟨n, hn, k1.trans h1, k2.trans h2, k3.trans h3⟩

theorem Experiment.Settled.names (h : e.Settled e') (hn : e.NamesBroken c) : e'.NamesBroken c := by
  obtain ⟨⟨host, hh, hbroken⟩, hinst⟩ := hn
  have herr : ∀ i ∈ e.instances, i.state = .error →
      ∃ j ∈ e'.instances, j.instanceId = i.instanceId ∧ j.hostname = i.hostname ∧ j.state = .error := by
    intro i hi hs
    obtain ⟨j, hj, h1, h2, h3⟩ := h.terminal i hi (InstanceRecord.isTerminal_iff.2 (.inr (.inr hs)))
    exact ⟨j, hj, h1, h2, h3.trans hs⟩
  constructor
  · refine ⟨host, hh, ?_⟩
    rcases hbroken with ⟨t, ht, he⟩ | ⟨i, hi, he, hs⟩
    · exact .inl ⟨t, h.tainted t ht, he⟩
    · obtain ⟨j, hj, -, h2, h3⟩ := herr i hi hs
      exact .inr ⟨j, hj, by rw [h2, he], h3⟩
  · intro iid hid
    obtain ⟨i, hi, he, hs⟩ := hinst iid hid
    obtain ⟨j, hj, h1, -, h3⟩ := herr i hi hs
    exact ⟨j, hj, h1.trans he, h3⟩

theorem Experiment.Settled.namesAbort (h : e.Settled e') (hn : e.NamesAbort c) : e'.NamesAbort c := by
  rcases hn with hnone | ⟨i, hi, hid, hs⟩
  · exact .inl hnone
  · obtain ⟨j, hj, h1, -, h3⟩ := h.terminal i hi (InstanceRecord.isTerminal_iff.2 (.inr (.inl hs)))
    exact .inr ⟨j, hj, by rw [hid, h1], h3.trans hs⟩

/-- No cause names both. -/
theorem Experiment.NamesAbort.not_broken (hd : e.IdsDistinct) (h : e.NamesAbort c) : ¬ e.NamesBroken c := by
  rintro ⟨⟨host, hh, -⟩, hinst⟩
  rcases h with hnone | ⟨i, hi, hid, hs⟩
  · rw [hnone] at hh
    cases hh
  · obtain ⟨j, hj, he, hs'⟩ := hinst _ hid
    obtain rfl := List.inj_on_of_nodup_map hd hj hi he
    rw [hs] at hs'
    cases hs'

/-! ## Operations settle -/

theorem concludeIfDone_tainted (e : Experiment) : (concludeIfDone e).taintedHosts = e.taintedHosts := by
  unfold concludeIfDone
  split
  · rfl
  · split <;> rfl

theorem concludeIfDone_settled (e : Experiment) : e.Settled (concludeIfDone e) := by
  refine ⟨fun t ht => (by rwa [concludeIfDone_tainted]), fun i hi _ => ?_⟩
  exact ⟨i, by rwa [concludeIfDone_instances], rfl, rfl, rfl⟩

theorem fireKillSwitch_settled (e : Experiment) (c : Cause) : e.Settled (fireKillSwitch e c).1 := by
  unfold fireKillSwitch
  split
  · exact Experiment.Settled.refl e
  · refine ⟨fun _ ht => ht, fun i hi _ => ⟨_, List.mem_map_of_mem hi, ?_⟩⟩
    split <;> exact ⟨rfl, rfl, rfl⟩

theorem reactToUpdate_settled (e : Experiment) : e.Settled (reactToUpdate e).1 := by
  unfold reactToUpdate
  cases e.killTrigger with
  | some c => exact (fireKillSwitch_settled e c).trans (concludeIfDone_settled _)
  | none => exact concludeIfDone_settled e

/-- A report moves one live instance, and no other. -/
theorem applyTo_mem {iid reason : String} {state : InstanceState} {ts : Int} {l l' : List InstanceRecord}
    (h : applyTo iid state reason ts l = some l') :
    (∃ i ∈ l, i.instanceId = iid ∧ i.isTerminal = false) ∧ (∀ i ∈ l, i.isTerminal = true → i ∈ l') ∧
      (∃ j ∈ l', j.state = state) ∧ ∀ j ∈ l', j ∈ l ∨ j.state = state := by
  induction l generalizing l' with
  | nil => cases h
  | cons a l ih =>
    unfold applyTo at h
    by_cases ha : a.instanceId = iid
    · rw [if_pos ha] at h
      cases ht : a.isTerminal with
      | true => simp [ht] at h
      | false =>
        rw [ht, if_neg Bool.false_ne_true] at h
        obtain rfl := Option.some.inj h
        refine ⟨⟨a, List.mem_cons_self, ha, ht⟩, fun i hi hterm => ?_, ⟨_, List.mem_cons_self, rfl⟩, fun j hj => ?_⟩
        · rcases List.mem_cons.1 hi with rfl | hi
          · rw [ht] at hterm
            cases hterm
          · exact List.mem_cons_of_mem _ hi
        · rcases List.mem_cons.1 hj with rfl | hj
          · exact .inr rfl
          · exact .inl (List.mem_cons_of_mem _ hj)
    · rw [if_neg ha] at h
      obtain ⟨l₁, h₁, rfl⟩ := Option.map_eq_some_iff.1 h
      obtain ⟨⟨i, hi, hid, hlive⟩, hterm, ⟨n, hn, hst⟩, hmem⟩ := ih h₁
      refine ⟨⟨i, List.mem_cons_of_mem _ hi, hid, hlive⟩, fun k hk hkt => ?_, ⟨n, List.mem_cons_of_mem _ hn, hst⟩,
        fun j hj => ?_⟩
      · rcases List.mem_cons.1 hk with rfl | hk
        · exact List.mem_cons_self
        · exact List.mem_cons_of_mem _ (hterm k hk hkt)
      · rcases List.mem_cons.1 hj with rfl | hj
        · exact .inl List.mem_cons_self
        · exact (hmem j hj).imp_left (List.mem_cons_of_mem _)

theorem recordTaint_settled (e : Experiment) (hostname reason : String) (ts : Int) :
    e.Settled (e.recordTaint hostname reason ts) := by
  unfold Experiment.recordTaint
  split
  · exact Experiment.Settled.refl e
  · exact ⟨fun t ht => List.mem_append_left _ ht, fun i hi _ => ⟨i, hi, rfl, rfl, rfl⟩⟩

theorem Experiment.Consistent.settled (hcons : e.Consistent) (hd : e.IdsDistinct) (op : RecordOp) :
    e.Settled (e.apply op).1 := by
  cases op with
  | status iid state reason ts =>
    show e.Settled (e.handleStatus iid state reason ts).1
    unfold Experiment.handleStatus
    cases ha : e.applyStatus iid state reason ts with
    | none => exact Experiment.Settled.refl e
    | some e₁ =>
      obtain ⟨l, hl, rfl⟩ := Option.map_eq_some_iff.1 ha
      obtain ⟨-, hterm, -⟩ := applyTo_mem hl
      have h₁ : e.Settled { e with instances := l } :=
        ⟨fun _ ht => ht, fun i hi ht => ⟨i, hterm i hi ht, rfl, rfl, rfl⟩⟩
      exact h₁.trans (reactToUpdate_settled _)
  | taint hostname reason ts =>
    show e.Settled (e.handleTaint hostname reason ts).1
    unfold Experiment.handleTaint
    split
    · exact Experiment.Settled.refl e
    · exact (recordTaint_settled e hostname reason ts).trans (reactToUpdate_settled _)
  | halt reason now =>
    show e.Settled (e.halt reason now).1
    unfold Experiment.halt
    split
    · exact Experiment.Settled.refl e
    · exact (fireKillSwitch_settled e _).trans (concludeIfDone_settled _)
  | deadline now =>
    cases hc : e.isConcluded with
    | true =>
      rw [hcons.final hc]
      exact Experiment.Settled.refl e
    | false =>
      show e.Settled (e.resolveDeadline now).1
      obtain ⟨e₁, he, -, -, -, hinst, -, htaint⟩ := Experiment.resolveDeadline_fst hd hc now
      rw [he]
      refine Experiment.Settled.trans ⟨fun t ht => htaint ▸ ht, fun i hi hterm => ?_⟩ (concludeIfDone_settled e₁)
      have hi' : i.expire now = i := by
        unfold InstanceRecord.expire
        rw [if_pos hterm]
      exact ⟨i, hinst ▸ hi' ▸ List.mem_map_of_mem hi, rfl, rfl, rfl⟩

/-! ## Who writes the cause -/

/-- The operation takes a `RUNNING` record out of `RUNNING` without breaking a host: an operator halt, or an agent that
aborts by itself. -/
def Experiment.Spares (e : Experiment) (op : RecordOp) : Prop :=
  e.phase = .running ∧ ((∃ reason now, op = .halt reason now) ∨ ∃ iid reason ts, op = .status iid .aborted reason ts ∧
    ∃ i ∈ e.instances, i.instanceId = iid ∧ i.isTerminal = false)

/-- What the cause of a record says, after it has left `RUNNING`; `spared` if that spared every host. -/
def Experiment.Blames (e : Experiment) (spared : Prop) : Prop :=
  (e.cause = none ∧ e.phase = .concluded .completed ∧ ¬ spared) ∨
    ∃ c, e.cause = some c ∧ ((¬ spared ∧ e.NamesBroken c) ∨ (spared ∧ e.NamesAbort c))

theorem Experiment.Blames.settled {spared : Prop} (h : e.Blames spared) (hs : e.Settled e')
    (hc : ∀ c, e.cause = some c → e'.cause = some c) (hf : e.isConcluded = true → e' = e) : e'.Blames spared := by
  rcases h with ⟨hnone, hp, hno⟩ | ⟨c, hcause, hn⟩
  · rw [hf (by unfold Experiment.isConcluded; rw [hp])]
    exact .inl ⟨hnone, hp, hno⟩
  · exact .inr ⟨c, hc c hcause, hn.imp (fun h => ⟨h.1, hs.names h.2⟩) fun h => ⟨h.1, hs.namesAbort h.2⟩⟩

/-- The first firing writes its cause. -/
theorem fire_cause (hc : e.isConcluded = false) (hnone : e.cause = none) (c : Cause) :
    (concludeIfDone (fireKillSwitch e c).1).cause = some c := by
  refine concludeIfDone_cause ?_
  rw [(fireKillSwitch_fst hc c).2.1, hnone]
  rfl

theorem fire_settled (e : Experiment) (c : Cause) : e.Settled (concludeIfDone (fireKillSwitch e c).1) :=
  (fireKillSwitch_settled e c).trans (concludeIfDone_settled _)

/-- A change of a `RUNNING` record, as far as its states and taints go: at most one kind of end is new. -/
theorem trigger_names {l : List InstanceRecord} (h : l.findSome? InstanceRecord.trigger = some c) :
    ∃ i ∈ l, c.hostname = some i.hostname.val ∧ c.instanceId = some i.instanceId ∧
      (i.state = .error ∨ i.state = .aborted) := by
  obtain ⟨i, hi, ht⟩ := List.exists_of_findSome?_eq_some h
  refine ⟨i, hi, ?_⟩
  unfold InstanceRecord.trigger at ht
  split at ht
  next hs => obtain rfl := Option.some.inj ht; exact ⟨rfl, rfl, .inl hs⟩
  next hs =>
    split at ht
    · cases ht
    · obtain rfl := Option.some.inj ht
      exact ⟨rfl, rfl, .inr hs⟩
  next => cases ht

theorem namesBroken_of_error {i : InstanceRecord} (hi : i ∈ e.instances) (hh : c.hostname = some i.hostname.val)
    (hid : c.instanceId = some i.instanceId) (hs : i.state = .error) : e.NamesBroken c := by
  refine ⟨⟨_, hh, .inr ⟨i, hi, rfl, hs⟩⟩, fun iid he => ⟨i, hi, ?_, hs⟩⟩
  rw [hid] at he
  exact Option.some.inj he

/-- A `RUNNING` record that is settled into without a trigger ends `COMPLETED`, or stays. -/
theorem quiet_react (hp : e.phase = .running) (hreq : ∀ i ∈ e.instances, i.abortRequested = false)
    (hcause : e.cause = none) (hk : e.killTrigger = none) :
    (concludeIfDone e).phase = .running ∨
      (concludeIfDone e).cause = none ∧ (concludeIfDone e).phase = .concluded .completed := by
  obtain ⟨hhealthy, htaint⟩ := Experiment.killTrigger_running hp hreq hk
  have hopen : e.isConcluded = false := by
    unfold Experiment.isConcluded
    rw [hp]
  unfold concludeIfDone
  rw [hopen, if_neg Bool.false_ne_true]
  cases ho : e.outcome with
  | none => exact .inl hp
  | some outcome =>
    obtain ⟨hall, -, hcomp, -⟩ := Experiment.outcome_some ho
    have hclean : e.Clean := by
      refine ⟨fun i hi => ?_, htaint⟩
      rcases InstanceRecord.isTerminal_iff.1 (hall i hi) with hd | ha | he
      · exact hd
      · exact absurd ha (hhealthy i hi).2
      · exact absurd he (hhealthy i hi).1
    obtain rfl := hcomp.2 hclean
    exact .inr ⟨by simp [hcause, Experiment.outcomeCause], rfl⟩

/-- A record whose run so far has left `RUNNING` with a cause, or not at all. -/
def Experiment.Traced (e : Experiment) (spared : Prop) : Prop :=
  (e.phase = .running ∧ ¬ spared) ∨ (e.phase ≠ .running ∧ e.Blames spared)

/-- The reaction to a change that a broken host or an abort shows up in. -/
theorem react_traced (hp : e₁.phase = .running) (hreq : ∀ i ∈ e₁.instances, i.abortRequested = false)
    (hcause : e₁.cause = none) {spared : Prop}
    (hsome : ∀ c, e₁.killTrigger = some c → (¬ spared ∧ e₁.NamesBroken c) ∨ (spared ∧ e₁.NamesAbort c))
    (hquiet : e₁.killTrigger = none → ¬ spared) : (reactToUpdate e₁).1.Traced spared := by
  have hopen : e₁.isConcluded = false := by
    unfold Experiment.isConcluded
    rw [hp]
  unfold reactToUpdate
  cases hk : e₁.killTrigger with
  | some c =>
    refine .inr ⟨concludeIfDone_phase (by rw [(fireKillSwitch_fst hopen c).1]; simp),
      .inr ⟨c, fire_cause hopen hcause c, ?_⟩⟩
    rcases hsome c hk with ⟨hc, hn⟩ | ⟨hc, hn⟩
    · exact .inl ⟨hc, (fire_settled e₁ c).names hn⟩
    · exact .inr ⟨hc, (fire_settled e₁ c).namesAbort hn⟩
  | none =>
    rcases quiet_react hp hreq hcause hk with hr | ⟨hnone, hdone⟩
    · exact .inl ⟨hr, hquiet hk⟩
    · exact .inr ⟨by rw [hdone]; simp, .inl ⟨hnone, hdone, hquiet hk⟩⟩

theorem killTrigger_some (hp : e₁.phase = .running) (hk : e₁.killTrigger = some c) :
    (∃ i ∈ e₁.instances, c.hostname = some i.hostname.val ∧ c.instanceId = some i.instanceId ∧
      (i.state = .error ∨ i.state = .aborted)) ∨ taintCause e₁.taintedHosts = some c := by
  unfold Experiment.killTrigger at hk
  rw [hp, if_neg (by simp)] at hk
  split at hk
  next c' hf =>
    obtain rfl := Option.some.inj hk
    exact .inl (trigger_names hf)
  next => exact .inr hk

/-- A live instance takes a report. -/
theorem applyTo_isSome {iid : String} (state : InstanceState) (reason : String) (ts : Int) {l : List InstanceRecord}
    (hd : (l.map InstanceRecord.instanceId).Nodup) {i : InstanceRecord} (hi : i ∈ l) (hid : i.instanceId = iid)
    (hlive : i.isTerminal = false) : (applyTo iid state reason ts l).isSome = true := by
  induction l with
  | nil => cases hi
  | cons a l ih =>
    obtain ⟨hnot, hnd⟩ := List.nodup_cons.1 hd
    unfold applyTo
    by_cases ha : a.instanceId = iid
    · rw [if_pos ha]
      rcases List.mem_cons.1 hi with rfl | hi
      · rw [hlive]
        rfl
      · exact absurd (ha.trans hid.symm ▸ List.mem_map_of_mem hi) hnot
    · rw [if_neg ha, Option.isSome_map]
      rcases List.mem_cons.1 hi with rfl | hi
      · exact absurd hid ha
      · exact ih hnd hi

theorem status_traced (hp : e.phase = .running) (hr : e.Running) (hd : e.IdsDistinct) (iid : String)
    (state : InstanceState) (reason : String) (ts : Int) :
    (e.handleStatus iid state reason ts).1.Traced (e.Spares (.status iid state reason ts)) := by
  unfold Experiment.handleStatus
  cases ha : e.applyStatus iid state reason ts with
  | none =>
    refine .inl ⟨hp, ?_⟩
    rintro ⟨-, ⟨r, now, he⟩ | ⟨iid', r, t, he, i, hi, hid, hlive⟩⟩
    · cases he
    · cases he
      have hsome := applyTo_isSome .aborted reason ts hd hi hid hlive
      unfold Experiment.applyStatus at ha
      rw [Option.map_eq_none_iff.1 ha] at hsome
      cases hsome
  | some e₁ =>
    obtain ⟨l, hl, rfl⟩ := Option.map_eq_some_iff.1 ha
    obtain ⟨hlive, -, ⟨j, hj, hjs⟩, hmem⟩ := applyTo_mem hl
    obtain ⟨-, -, hab⟩ := applyTo_spec hl
    have hp₁ : ({ e with instances := l } : Experiment).phase = .running := hp
    have hreq : ∀ i ∈ ({ e with instances := l } : Experiment).instances, i.abortRequested = false := by
      intro i hi
      obtain ⟨k, hk, he, -⟩ := hab i hi
      rw [he, hr.unasked k hk]
    refine react_traced hp₁ hreq hr.cause (fun c hk => ?_) fun hk => ?_
    · rcases killTrigger_some hp₁ hk with ⟨i, hi, hh, hid, hs⟩ | ht
      -- the instance that ended is the one reported on
      · have hst : i.state = state := (hmem i hi).resolve_left fun hold => by
          obtain ⟨h1, h2⟩ := hr.healthy i hold
          exact hs.elim h1 h2
        rcases hs with hs | hs
        · refine .inl ⟨?_, namesBroken_of_error hi hh hid hs⟩
          rintro ⟨-, ⟨r, now, he⟩ | ⟨iid', r, t, he, -⟩⟩
          · cases he
          · cases he
            rw [hst] at hs
            cases hs
        · rw [hst] at hs
          subst hs
          exact .inr ⟨⟨hp, .inr ⟨iid, reason, ts, rfl, hlive⟩⟩, .inr ⟨i, hi, hid, hst⟩⟩
      · rw [show ({ e with instances := l } : Experiment).taintedHosts = [] from hr.untainted] at ht
        cases ht
    · rintro ⟨-, ⟨r, now, he⟩ | ⟨iid', r, t, he, -⟩⟩
      · cases he
      · cases he
        exact ((Experiment.killTrigger_running hp₁ hreq hk).1 j hj).2 hjs

theorem taint_traced (hp : e.phase = .running) (hr : e.Running) (hostname reason : String) (ts : Int) :
    (e.handleTaint hostname reason ts).1.Traced (e.Spares (.taint hostname reason ts)) := by
  have hno : ¬ e.Spares (.taint hostname reason ts) := by
    rintro ⟨-, ⟨r, now, he⟩ | ⟨iid', r, t, he, -⟩⟩ <;> cases he
  unfold Experiment.handleTaint
  split
  · exact .inl ⟨hp, hno⟩
  · have he₁ : e.recordTaint hostname reason ts = { e with taintedHosts := [⟨hostname, reason, ts⟩] } := by
      unfold Experiment.recordTaint
      simp [hr.untainted]
    rw [he₁]
    have hp₁ : ({ e with taintedHosts := [⟨hostname, reason, ts⟩] } : Experiment).phase = .running := hp
    refine react_traced hp₁ hr.unasked hr.cause (fun c hk => .inl ⟨hno, ?_⟩) fun _ => hno
    rcases killTrigger_some hp₁ hk with ⟨i, hi, -, -, hs⟩ | ht
    · obtain ⟨h1, h2⟩ := hr.healthy i hi
      exact (hs.elim h1 h2).elim
    · obtain rfl := Option.some.inj ht
      exact ⟨⟨hostname, rfl, .inl ⟨_, List.mem_cons_self, rfl⟩⟩, fun iid hid => by cases hid⟩

theorem halt_traced (hp : e.phase = .running) (hr : e.Running) (reason : String) (now : Int) :
    (e.halt reason now).1.Traced (e.Spares (.halt reason now)) := by
  have hopen : e.isConcluded = false := by
    unfold Experiment.isConcluded
    rw [hp]
  unfold Experiment.halt
  rw [hopen, if_neg Bool.false_ne_true]
  refine .inr ⟨concludeIfDone_phase (by rw [(fireKillSwitch_fst hopen _).1]; simp),
    .inr ⟨_, fire_cause hopen hr.cause _, ?_⟩⟩
  exact .inr ⟨⟨hp, .inl ⟨reason, now, rfl⟩⟩, .inl rfl⟩

theorem deadline_traced (hp : e.phase = .running) (hr : e.Running) (hd : e.IdsDistinct) (hcons : e.Consistent)
    (now : Int) :
    (e.resolveDeadline now).1.Traced (e.Spares (.deadline now)) := by
  have hno : ¬ e.Spares (.deadline now) := by
    rintro ⟨-, ⟨r, n, he⟩ | ⟨iid', r, t, he, -⟩⟩ <;> cases he
  have hopen : e.isConcluded = false := by
    unfold Experiment.isConcluded
    rw [hp]
  have hdone := (hcons.resolveDeadline hd now).2.1
  obtain ⟨e₁, he, -, -, hcause, hinst, -⟩ := Experiment.resolveDeadline_fst hd hopen now
  refine .inr ⟨fun h => ?_, ?_⟩
  · unfold Experiment.isConcluded at hdone
    rw [h] at hdone
    cases hdone
  · obtain ⟨i, hi, hlive⟩ := hr.live
    have hmem : i.target ∈ e.unresolved := List.mem_map_of_mem (List.mem_filter.2 ⟨hi, by simp [hlive]⟩)
    obtain ⟨t, rest, hun⟩ : ∃ t rest, e.unresolved = t :: rest :=
      List.exists_cons_of_ne_nil (List.ne_nil_of_mem hmem)
    have hhead : t ∈ e.unresolved := by
      rw [hun]
      exact List.mem_cons_self
    obtain ⟨j, hj, hjt⟩ := List.mem_map.1 hhead
    obtain ⟨hj, hjlive⟩ := List.mem_filter.1 hj
    have hc₁ : e₁.cause = some (deadlineCause now t) := by
      rw [hcause, hr.cause, hun]
      rfl
    have hexp : j.expire now = { j with state := .error, reason := UNRESOLVED, updatedUnixMs := now } := by
      unfold InstanceRecord.expire
      rw [if_neg (by simpa using hjlive)]
    have hmem : j.expire now ∈ e₁.instances := hinst ▸ List.mem_map_of_mem hj
    rw [he]
    refine .inr ⟨_, concludeIfDone_cause hc₁, .inl ⟨hno, (concludeIfDone_settled e₁).names ?_⟩⟩
    refine namesBroken_of_error hmem ?_ ?_ (by rw [hexp])
    · rw [hexp, ← hjt]
      rfl
    · rw [hexp, ← hjt]
      rfl

/-- **One step out of `RUNNING`.** -/
theorem Experiment.Running.traced (hp : e.phase = .running) (hr : e.Running) (hd : e.IdsDistinct)
    (hcons : e.Consistent) (op : RecordOp) : (e.apply op).1.Traced (e.Spares op) := by
  cases op with
  | status iid state reason ts => exact status_traced hp hr hd iid state reason ts
  | taint hostname reason ts => exact taint_traced hp hr hostname reason ts
  | halt reason now => exact halt_traced hp hr reason now
  | deadline now => exact deadline_traced hp hr hd hcons now

theorem Experiment.Traced.congr {a b : Prop} (h : e.Traced a) (hab : a ↔ b) : e.Traced b := propext hab ▸ h

end

/-! ## Whole runs -/

def Experiment.run (e : Experiment) (ops : List RecordOp) : Experiment := ops.foldl (fun e op => (e.apply op).1) e

/-- On the way through `ops` the record left `RUNNING` without a broken host. -/
def Spared (e : Experiment) (ops : List RecordOp) : Prop :=
  ∃ before op after, ops = before ++ op :: after ∧ (e.run before).Spares op

section
variable {e : Experiment} {ops : List RecordOp}

theorem run_append (e : Experiment) (ops : List RecordOp) (op : RecordOp) :
    e.run (ops ++ [op]) = ((e.run ops).apply op).1 := by
  unfold Experiment.run
  rw [List.foldl_append]
  rfl

theorem run_reach (h : recordLts.init e) (ops : List RecordOp) : Reach recordLts (e.run ops) := by
  induction ops using List.reverseRecOn with
  | nil => exact .init h
  | append_singleton ops op ih => exact run_append e ops op ▸ .step ih rfl

theorem spared_append (op : RecordOp) : Spared e (ops ++ [op]) ↔ Spared e ops ∨ (e.run ops).Spares op := by
  constructor
  · rintro ⟨before, x, after, he, hs⟩
    rcases List.eq_nil_or_concat after with rfl | ⟨after, y, rfl⟩
    · obtain ⟨rfl, hx⟩ := List.append_inj' he rfl
      obtain rfl := (List.cons.inj hx).1
      exact .inr hs
    · rw [List.concat_eq_append, ← List.cons_append, ← List.append_assoc] at he
      exact .inl ⟨before, x, after, (List.append_inj' he rfl).1, hs⟩
  · rintro (⟨before, x, after, rfl, hs⟩ | hs)
    · exact ⟨before, x, after ++ [op], by simp, hs⟩
    · exact ⟨ops, op, [], rfl, hs⟩

/-- Every run leaves `RUNNING` with the cause of the operation that ended it. -/
theorem run_traced (h : recordLts.init e) (ops : List RecordOp) : (e.run ops).Traced (Spared e ops) := by
  induction ops using List.reverseRecOn with
  | nil =>
    obtain ⟨definition, catalog, facts, nowMs, seq, graceSecs, marginMs, -, -, rfl⟩ := h
    refine .inl ⟨rfl, ?_⟩
    rintro ⟨before, op, after, he, -⟩
    cases before <;> cases he
  | append_singleton ops op ih =>
    have hr := run_reach h ops
    obtain ⟨hcons, hd⟩ := reach_consistent hr
    rw [run_append]
    rcases ih with ⟨hp, hno⟩ | ⟨hp, hb⟩
    · have hrun : (e.run ops).Running := by
        have := hcons
        unfold Experiment.Consistent at this
        rwa [hp] at this
      refine (Experiment.Running.traced hp hrun hd hcons op).congr ?_
      rw [spared_append]
      exact ⟨.inr, fun hs => hs.resolve_left hno⟩
    · have hstep := hcons.step hd op
      have hblames := hb.settled (hcons.settled hd op) hstep.cause fun hc => by rw [hcons.final hc]
      refine Experiment.Traced.congr (.inr ⟨hstep.forward hp, hblames⟩) ?_
      rw [spared_append]
      exact ⟨.inl, fun hs => hs.resolve_right fun hs => hp hs.1⟩

/-- **An `ERROR` names a broken host exactly when the record left `RUNNING` by one**: not by an operator halt, and not
by an agent that aborted by itself. -/
theorem error_names_broken (e : Experiment) (h : recordLts.init e) (ops : List RecordOp)
    (hp : (e.run ops).phase = .concluded .error) :
    (∃ c, (e.run ops).cause = some c ∧ (e.run ops).NamesBroken c) ↔ ¬ Spared e ops := by
  have hd := (reach_consistent (run_reach h ops)).2
  rcases run_traced h ops with ⟨hr, -⟩ | ⟨-, hb⟩
  · rw [hp] at hr
    cases hr
  · rcases hb with ⟨-, hc, -⟩ | ⟨c, hc, hn⟩
    · rw [hp] at hc
      cases hc
    · constructor
      · rintro ⟨c', hc', hbroken⟩ hs
        rw [hc] at hc'
        obtain rfl := Option.some.inj hc'
        rcases hn with ⟨hno, -⟩ | ⟨-, ha⟩
        · exact hno hs
        · exact ha.not_broken hd hbroken
      · intro hs
        rcases hn with ⟨-, hbroken⟩ | ⟨hspared, -⟩
        · exact ⟨c, hc, hbroken⟩
        · exact absurd hspared hs

end

/-- One host fails: its `ERROR` is the cause. -/
def failing : List RecordOp :=
  [.status "exp-1000-0:web-01:0" .error "exit 30" 2000, .status "exp-1000-0:web-02:0" .aborted "operator abort" 3000]

theorem error_names_broken_failing :
    ∃ c, (sampleRecord.run failing).cause = some c ∧ (sampleRecord.run failing).NamesBroken c := by
  refine (error_names_broken sampleRecord sampleRecord_init failing (by decide +kernel)).2 ?_
  rintro ⟨before, op, after, he, hp, hs⟩
  rcases before with _ | ⟨a, _ | ⟨b, before⟩⟩
  · obtain ⟨rfl, -⟩ := List.cons.inj he
    rcases hs with ⟨r, now, hs⟩ | ⟨iid, r, t, hs, -⟩ <;> cases hs
  · obtain ⟨rfl, he⟩ := List.cons.inj he
    revert hp
    decide +kernel
  · obtain ⟨-, he⟩ := List.cons.inj he
    obtain ⟨-, he⟩ := List.cons.inj he
    cases before <;> cases he

/-- The operator halts, and then the cleanup of web-01 fails: the `ERROR` carries the operator's cause. -/
def haltedFailing : List RecordOp := [.halt "stop" 1500] ++ failing

theorem halted_error_names_none :
    recordLts.init sampleRecord ∧ (sampleRecord.run haltedFailing).phase = .concluded .error ∧
      ¬ ∃ c, (sampleRecord.run haltedFailing).cause = some c ∧ (sampleRecord.run haltedFailing).NamesBroken c := by
  refine ⟨sampleRecord_init, by decide +kernel, ?_⟩
  rintro ⟨c, hc, ⟨host, hh, -⟩, -⟩
  have hcause : (sampleRecord.run haltedFailing).cause = some ⟨none, none, "operator halt: stop", 1500⟩ := by
    decide +kernel
  rw [hcause] at hc
  obtain rfl := Option.some.inj hc
  cases hh

end FaultForge.Master
