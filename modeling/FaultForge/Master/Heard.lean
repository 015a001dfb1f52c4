import FaultForge.Master.DispatchSteps

/-!
# What the record shows of one instance (experiment.rs:473-494, dispatch.rs:241-279)

`stateOf` is the state of an instance in the record. Only a status of that very instance and the deadline change it
(`apply_stateOf`), and a status changes it unless it is terminal (`hear_stateOf`). `exec_hears` is the same about the
record in the store of the dispatcher.
-/
namespace FaultForge.Master

open Lts Tasks

def Experiment.stateOf (e : Experiment) (id : String) : Option InstanceState :=
  (e.instances.find? fun i => i.instanceId = id).map InstanceRecord.state

/-- What one status frame, or one entry of a report, makes of the record. -/
def Experiment.hear (e : Experiment) (status : InstanceStatus) : Experiment :=
  match decodeStatus status with
  | some (.status instanceId state reason tsUnixMs) =>
    if owningExperimentId instanceId = some e.id then (e.apply (.status instanceId state reason tsUnixMs)).1 else e
  | _ => e

/-- The operation is no report of instance `id`, nor the deadline. -/
def RecordOp.spares (id : String) : RecordOp → Bool
  | .status instanceId _ _ _ => decide (instanceId ≠ id)
  | .taint .. | .halt .. => true
  | .deadline _ => false

/-! ## A status -/

section
variable {e e' : Experiment} {id iid reason : String} {state : InstanceState} {ts : Int} {l l' : List InstanceRecord}

/-- The first instance of the id takes the state, unless its own is terminal. -/
theorem applyTo_find {i : InstanceRecord} (h : (l.find? fun i => i.instanceId = id) = some i) :
    if i.isTerminal then applyTo id state reason ts l = none
    else ∃ l', applyTo id state reason ts l = some l' ∧
      (l'.find? fun i => i.instanceId = id).map InstanceRecord.state = some state := by
  induction l with
  | nil => cases h
  | cons a l ih =>
    by_cases ha : a.instanceId = id
    · rw [List.find?_cons_of_pos (by simpa using ha)] at h
      obtain rfl := Option.some.inj h
      split
      next ht => rw [applyTo, if_pos ha, if_pos ht]
      next ht =>
        rw [applyTo, if_pos ha, if_neg ht]
        refine ⟨_, rfl, ?_⟩
        rw [List.find?_cons_of_pos (by simpa using ha)]
        rfl
    · rw [List.find?_cons_of_neg (by simpa using ha)] at h
      have hl := ih h
      split at hl
      next ht =>
        rw [if_pos ht, applyTo, if_neg ha, hl]
        rfl
      next ht =>
        obtain ⟨l₁, hl₁, hs⟩ := hl
        rw [if_neg ht]
        refine ⟨a :: l₁, ?_, ?_⟩
        · rw [applyTo, if_neg ha, hl₁]
          rfl
        · rw [List.find?_cons_of_neg (by simpa using ha)]
          exact hs

/-- Nothing else is written. -/
theorem applyTo_find_ne (h : applyTo iid state reason ts l = some l') (hne : iid ≠ id) :
    (l'.find? fun i => i.instanceId = id) = l.find? fun i => i.instanceId = id := by
  induction l generalizing l' with
  | nil => cases h
  | cons a l ih =>
    unfold applyTo at h
    by_cases ha : a.instanceId = iid
    · rw [if_pos ha] at h
      have hid : ¬ a.instanceId = id := fun he => hne (ha.symm.trans he)
      split at h
      · cases h
      · obtain rfl := Option.some.inj h
        rw [List.find?_cons_of_neg (by simpa using hid), List.find?_cons_of_neg (by simpa using hid)]
    · rw [if_neg ha] at h
      obtain ⟨l₁, h₁, rfl⟩ := Option.map_eq_some_iff.1 h
      by_cases hid : a.instanceId = id
      · rw [List.find?_cons_of_pos (by simpa using hid), List.find?_cons_of_pos (by simpa using hid)]
      · rw [List.find?_cons_of_neg (by simpa using hid), List.find?_cons_of_neg (by simpa using hid)]
        exact ih h₁

/-! ## The reaction -/

section
variable {α : Type} {f : InstanceRecord → α}

/-- The kill-switch asks, and changes nothing else of an instance. -/
theorem fireKillSwitch_find (hf : ∀ i : InstanceRecord, f { i with abortRequested := true } = f i) (e : Experiment)
    (cause : Cause) (id : String) :
    ((fireKillSwitch e cause).1.instances.find? fun i => i.instanceId = id).map f =
      (e.instances.find? fun i => i.instanceId = id).map f := by
  unfold fireKillSwitch
  split
  · rfl
  · rw [List.find?_map, Option.map_map]
    have hkey : ((fun i : InstanceRecord => decide (i.instanceId = id)) ∘
        fun i : InstanceRecord => if i.wanted then { i with abortRequested := true } else i) =
        fun i => decide (i.instanceId = id) := by
      funext i
      rw [Function.comp_apply]
      split <;> rfl
    have hask : (f ∘ fun i : InstanceRecord => if i.wanted then { i with abortRequested := true } else i) = f := by
      funext i
      rw [Function.comp_apply]
      split
      · exact hf i
      · rfl
    rw [hkey, hask]

theorem reactToUpdate_find (hf : ∀ i : InstanceRecord, f { i with abortRequested := true } = f i) (e : Experiment)
    (id : String) :
    ((reactToUpdate e).1.instances.find? fun i => i.instanceId = id).map f =
      (e.instances.find? fun i => i.instanceId = id).map f := by
  unfold reactToUpdate
  cases e.killTrigger with
  | some cause =>
    simp only [concludeIfDone_instances]
    exact fireKillSwitch_find hf e cause id
  | none => rw [concludeIfDone_instances]

/-- A status of one instance leaves what it does not ask of any other. -/
theorem handleStatus_find_ne (hf : ∀ i : InstanceRecord, f { i with abortRequested := true } = f i) (e : Experiment)
    (hne : iid ≠ id) :
    ((e.handleStatus iid state reason ts).1.instances.find? fun i => i.instanceId = id).map f =
      (e.instances.find? fun i => i.instanceId = id).map f := by
  unfold Experiment.handleStatus
  cases ha : e.applyStatus iid state reason ts with
  | none => rfl
  | some e₁ =>
    obtain ⟨l, hl, rfl⟩ := Option.map_eq_some_iff.1 ha
    exact (reactToUpdate_find hf _ id).trans (congrArg (Option.map f) (applyTo_find_ne hl hne))

end

theorem concludeIfDone_stateOf (e : Experiment) (id : String) : (concludeIfDone e).stateOf id = e.stateOf id := by
  unfold Experiment.stateOf
  rw [concludeIfDone_instances]

theorem fireKillSwitch_stateOf (e : Experiment) (cause : Cause) (id : String) :
    (fireKillSwitch e cause).1.stateOf id = e.stateOf id := fireKillSwitch_find (fun _ => rfl) e cause id

theorem reactToUpdate_stateOf (e : Experiment) (id : String) : (reactToUpdate e).1.stateOf id = e.stateOf id :=
  reactToUpdate_find (fun _ => rfl) e id

/-! ## Operations -/

/-- **No operation but a status of the instance and the deadline changes what the record shows of it.** -/
theorem Experiment.apply_stateOf (e : Experiment) {op : RecordOp} (h : op.spares id = true) :
    (e.apply op).1.stateOf id = e.stateOf id := by
  cases op with
  | status iid state reason ts =>
    have hne : iid ≠ id := of_decide_eq_true h
    exact handleStatus_find_ne (fun _ => rfl) e hne
  | taint hostname reason ts =>
    show (e.handleTaint hostname reason ts).1.stateOf id = e.stateOf id
    unfold Experiment.handleTaint
    split
    · rfl
    · rw [reactToUpdate_stateOf]
      unfold Experiment.stateOf
      rw [(e.recordTaint_fields hostname reason ts).1]
  | halt reason now =>
    show (e.halt reason now).1.stateOf id = e.stateOf id
    unfold Experiment.halt
    split
    · rfl
    · exact (concludeIfDone_stateOf _ id).trans (fireKillSwitch_stateOf e _ id)
  | deadline now => cases h

/-- A status of the instance is taken over unless the state of the record is terminal. -/
theorem Experiment.apply_status_stateOf {current : InstanceState} (h : e.stateOf id = some current) :
    (e.apply (.status id state reason ts)).1.stateOf id =
      some (if current.isTerminal then current else state) := by
  obtain ⟨i, hi, rfl⟩ := Option.map_eq_some_iff.1 h
  show (e.handleStatus id state reason ts).1.stateOf id = _
  have hfind : if i.isTerminal then applyTo id state reason ts e.instances = none
      else ∃ l', applyTo id state reason ts e.instances = some l' ∧
        (l'.find? fun i => i.instanceId = id).map InstanceRecord.state = some state := applyTo_find hi
  unfold Experiment.handleStatus Experiment.applyStatus
  unfold InstanceRecord.isTerminal at hfind
  split at hfind
  next ht =>
    rw [hfind, if_pos ht]
    exact h
  next ht =>
    obtain ⟨l', hl', hs⟩ := hfind
    rw [hl', if_neg ht, Option.map_some]
    exact (reactToUpdate_stateOf _ id).trans hs

/-- A record is minted with every instance pending. -/
theorem init_stateOf (h : recordLts.init e) (hs : e.stateOf id = some state) : state = .pending := by
  obtain ⟨definition, catalog, facts, nowMs, seq, graceSecs, marginMs, -, -, rfl⟩ := h
  obtain ⟨i, hi, rfl⟩ := Option.map_eq_some_iff.1 hs
  exact (mem_mint_iff (List.mem_of_find?_eq_some hi)).1

theorem Experiment.hear_kept (e : Experiment) (status : InstanceStatus) : e.Kept (e.hear status) := by
  unfold Experiment.hear
  split
  · split
    · exact e.apply_kept _
    · exact .refl e
  · exact .refl e

end

/-! ## The dispatcher -/

/-- A minted instance id leads to the record it was minted for. -/
theorem Experiment.Named.owner {e : Experiment} (h : e.Named) {i : InstanceRecord} (hi : i ∈ e.instances) :
    owningExperimentId i.instanceId = some e.id := by
  obtain ⟨nowMs, seq, hid⟩ := h.minted
  have hcolon : ∀ c ∈ e.id.toList, (c != ':') = true := by
    intro c hc
    rw [bne_iff_ne]
    rintro rfl
    exact colon_not_mem_mint nowMs seq (hid ▸ hc)
  have hne : e.id.toList ≠ [] := by
    rw [hid, mint_toList]
    simp
  rw [h.spelled i hi]
  unfold owningExperimentId
  rw [instanceId_toList, List.takeWhile_append_of_pos hcolon, List.dropWhile_append_of_pos hcolon]
  simp [hne, String.ofList_toList]

/-- **What an executed status does to a record in the store.** -/
theorem exec_hears {C : Config} {s : Dispatcher} {p : Nat} {status : InstanceStatus} {a : Act}
    {r : Effect Dispatcher Act} {e : Experiment} (hd : decodeStatus status = some a) (h : exec C s p a = some r)
    (he : s.store.lookup e.id = some e) : r.shared.store.lookup e.id = some (e.hear status) := by
  unfold Experiment.hear
  rw [hd]
  unfold decodeStatus at hd
  split at hd
  · cases hd
  · obtain rfl := Option.some.inj hd
    simp only [exec, handleStatus] at h
    split at h
    next ho =>
      obtain rfl := Option.some.inj h
      simp only [ho, reduceCtorEq, if_false]
      exact he
    next id ho =>
      obtain rfl := Option.some.inj h
      simp only [ho, Option.some.injEq]
      by_cases hid : id = e.id
      · subst hid
        rw [if_pos rfl, Store.update, he]
        exact AList.lookup_insert _
      · rw [if_neg hid, Store.update]
        split
        next => exact he
        next e' _ => exact (AList.lookup_insert_ne (Ne.symm hid)).trans he

end FaultForge.Master
