import FaultForge.Master.Routing

/-!
# Where frames, hosts and states come from (dispatch.rs:151-279, 352-396; session.rs:134-260)

* `reach_sourced` — every `RunFault` is what a record of the store asks for, and every `AbortFault` is about an instance
  of a record that is no longer `RUNNING`.
* `Peered.step` — a stream is given the host that the `Register` of its client names.
* `exec_unheard` — only a frame from an agent puts the report of a status in hand.
* `apply_moves` — an operation leaves the state of an instance, sets the one that a status reports of it, or sets
  `ERROR`.
-/
namespace FaultForge.Master

open Lts Tasks

/-! ## The states of a record -/

/-- Every instance of `l'` is one of `l`, whose state has stayed or passes `P`. -/
def Moves (P : String → InstanceState → Prop) (l l' : List InstanceRecord) : Prop :=
  ∀ j ∈ l', ∃ i ∈ l, j.key = i.key ∧ (j.state = i.state ∨ P i.instanceId j.state)

section
variable {P : String → InstanceState → Prop} {l l₁ l' : List InstanceRecord} {e : Experiment}

theorem Moves.refl (l : List InstanceRecord) : Moves P l l := fun j hj => ⟨j, hj, rfl, .inl rfl⟩

theorem Moves.trans (h : Moves P l l₁) (k : Moves P l₁ l') : Moves P l l' := by
  intro j hj
  obtain ⟨m, hm, hkey, hst⟩ := k j hj
  obtain ⟨i, hi, hkey', hst'⟩ := h m hm
  have hid : m.instanceId = i.instanceId := congrArg Prod.fst hkey'
  refine ⟨i, hi, hkey.trans hkey', ?_⟩
  rcases hst with hst | hst
  · rw [hst]
    exact hst'
  · exact .inr (hid ▸ hst)

theorem applyTo_moves {iid reason : String} {state : InstanceState} {ts : Int} (hP : P iid state)
    (h : applyTo iid state reason ts l = some l') : Moves P l l' := by
  induction l generalizing l' with
  | nil => cases h
  | cons a l ih =>
    unfold applyTo at h
    split at h
    next ha =>
      split at h
      next => cases h
      next =>
        obtain rfl := Option.some.inj h
        intro j hj
        rcases List.mem_cons.1 hj with rfl | hj
        · exact ⟨a, List.mem_cons_self, rfl, .inr (ha ▸ hP)⟩
        · exact ⟨j, List.mem_cons_of_mem _ hj, rfl, .inl rfl⟩
    next =>
      obtain ⟨l₁, h₁, rfl⟩ := Option.map_eq_some_iff.1 h
      intro j hj
      rcases List.mem_cons.1 hj with rfl | hj
      · exact ⟨j, List.mem_cons_self, rfl, .inl rfl⟩
      · obtain ⟨i, hi, hrest⟩ := ih h₁ j hj
        exact ⟨i, List.mem_cons_of_mem _ hi, hrest⟩

theorem applyStatus_moves {iid reason : String} {state : InstanceState} {ts : Int} {e₁ : Experiment} (hP : P iid state)
    (h : e.applyStatus iid state reason ts = some e₁) : Moves P e.instances e₁.instances := by
  obtain ⟨l, hl, rfl⟩ := Option.map_eq_some_iff.1 h
  exact applyTo_moves hP hl

theorem fireKillSwitch_moves (e : Experiment) (cause : Cause) :
    Moves P e.instances (fireKillSwitch e cause).1.instances := by
  unfold fireKillSwitch
  split
  · exact .refl _
  · intro j hj
    obtain ⟨i, hi, rfl⟩ := List.mem_map.1 hj
    refine ⟨i, hi, ?_⟩
    split <;> exact ⟨rfl, .inl rfl⟩

theorem concludeIfDone_moves (e : Experiment) : Moves P e.instances (concludeIfDone e).instances := by
  rw [concludeIfDone_instances]
  exact .refl _

theorem reactToUpdate_moves (e : Experiment) : Moves P e.instances (reactToUpdate e).1.instances := by
  unfold reactToUpdate
  cases e.killTrigger with
  | some cause => exact (fireKillSwitch_moves e cause).trans (concludeIfDone_moves _)
  | none => exact concludeIfDone_moves e

theorem expireAll_moves (hP : ∀ iid, P iid .error) (e : Experiment) (nowMs : Int) (targets : List Target) :
    Moves P e.instances (e.expireAll nowMs targets).instances := by
  induction targets generalizing e with
  | nil => exact .refl _
  | cons target targets ih =>
    unfold Experiment.expireAll at *
    rw [List.foldl_cons]
    cases ha : e.applyStatus target.2 .error UNRESOLVED nowMs with
    | none => exact ih e
    | some e₁ => exact (applyStatus_moves (hP _) ha).trans (ih e₁)

/-- What an operation reports. -/
def RecordOp.Reports (op : RecordOp) (P : String → InstanceState → Prop) : Prop :=
  ∀ iid state reason ts, op = .status iid state reason ts → P iid state

/-- **An operation sets the state that it reports, or `ERROR`.** -/
theorem apply_moves (hP : ∀ iid, P iid .error) {op : RecordOp} (hop : op.Reports P) (e : Experiment) :
    Moves P e.instances (e.apply op).1.instances := by
  cases op with
  | status iid state reason ts =>
    show Moves P _ (e.handleStatus iid state reason ts).1.instances
    unfold Experiment.handleStatus
    cases ha : e.applyStatus iid state reason ts with
    | none => exact .refl _
    | some e₁ => exact (applyStatus_moves (hop _ _ _ _ rfl) ha).trans (reactToUpdate_moves e₁)
  | taint hostname reason ts =>
    show Moves P _ (e.handleTaint hostname reason ts).1.instances
    unfold Experiment.handleTaint
    split
    · exact .refl _
    · have hsame := (e.recordTaint_fields hostname reason ts).1
      exact hsame ▸ reactToUpdate_moves (e.recordTaint hostname reason ts)
  | halt reason now =>
    show Moves P _ (e.halt reason now).1.instances
    unfold Experiment.halt
    split
    · exact .refl _
    · exact (fireKillSwitch_moves e _).trans (concludeIfDone_moves _)
  | deadline now =>
    show Moves P _ (e.resolveDeadline now).1.instances
    unfold Experiment.resolveDeadline
    split
    · exact .refl _
    · let e₁ := { e with cause := e.cause.or (e.unresolved.head?.map (deadlineCause now)) }
      exact (expireAll_moves hP e₁ now e.unresolved).trans (concludeIfDone_moves _)

end

/-! ## What stays of a record -/

/-- What no operation changes, and that a record never returns to `RUNNING`. -/
structure Experiment.Onward (e e' : Experiment) : Prop where
  kept : e.Kept e'
  grace : e'.graceSecs = e.graceSecs
  left : e.phase ≠ .running → e'.phase ≠ .running

def Store.Onward (st st' : Store) : Prop :=
  ∀ x e, st.lookup x = some e → ∃ e', st'.lookup x = some e' ∧ e.Onward e'

section
variable {e e' e'' : Experiment} {st st' : Store}

theorem Experiment.Onward.refl (e : Experiment) : e.Onward e := ⟨.refl e, rfl, fun hp => hp⟩

theorem Experiment.Onward.trans (h : e.Onward e') (k : e'.Onward e'') : e.Onward e'' :=
  ⟨h.kept.trans k.kept, k.grace.trans h.grace, fun hp => k.left (h.left hp)⟩

theorem Store.Onward.of_eq (h : st' = st) : st.Onward st' := fun _ e he => ⟨e, h ▸ he, .refl e⟩

theorem concludeIfDone_grace (e : Experiment) : (concludeIfDone e).graceSecs = e.graceSecs := by
  unfold concludeIfDone
  split
  · rfl
  · split <;> rfl

theorem fireKillSwitch_grace (e : Experiment) (cause : Cause) : (fireKillSwitch e cause).1.graceSecs = e.graceSecs := by
  unfold fireKillSwitch
  split <;> rfl

theorem reactToUpdate_grace (e : Experiment) : (reactToUpdate e).1.graceSecs = e.graceSecs := by
  unfold reactToUpdate
  cases e.killTrigger with
  | some cause => exact (concludeIfDone_grace _).trans (fireKillSwitch_grace e cause)
  | none => exact concludeIfDone_grace e

theorem applyStatus_grace {iid reason : String} {state : InstanceState} {ts : Int}
    (h : e.applyStatus iid state reason ts = some e') : e'.graceSecs = e.graceSecs := by
  obtain ⟨l, -, rfl⟩ := Option.map_eq_some_iff.1 h
  rfl

theorem apply_grace (e : Experiment) (op : RecordOp) : (e.apply op).1.graceSecs = e.graceSecs := by
  cases op with
  | status iid state reason ts =>
    show (e.handleStatus iid state reason ts).1.graceSecs = _
    unfold Experiment.handleStatus
    cases ha : e.applyStatus iid state reason ts with
    | none => rfl
    | some e₁ => exact (reactToUpdate_grace e₁).trans (applyStatus_grace ha)
  | taint hostname reason ts =>
    show (e.handleTaint hostname reason ts).1.graceSecs = _
    unfold Experiment.handleTaint
    split
    · rfl
    · refine (reactToUpdate_grace _).trans ?_
      unfold Experiment.recordTaint
      split <;> rfl
  | halt reason now =>
    show (e.halt reason now).1.graceSecs = _
    unfold Experiment.halt
    split
    · rfl
    · exact (concludeIfDone_grace _).trans (fireKillSwitch_grace e _)
  | deadline now =>
    show (e.resolveDeadline now).1.graceSecs = _
    unfold Experiment.resolveDeadline
    split
    · rfl
    · refine (concludeIfDone_grace _).trans ?_
      rw [expireAll_eq]

theorem apply_onward (h : e.Consistent ∧ e.IdsDistinct) (op : RecordOp) : e.Onward (e.apply op).1 :=
  ⟨e.apply_kept op, apply_grace e op, (h.1.step h.2 op).forward⟩

/-- Every record of the store is consistent. -/
def Store.Settled (st : Store) : Prop := ∀ x e, st.lookup x = some e → e.Consistent ∧ e.IdsDistinct

theorem Store.Settled.update (h : st.Settled) (op : RecordOp) (id : ExperimentId) : (st.update id op).1.Settled :=
  fun _ _ he => Store.update_each (P := fun _ e => e.Consistent ∧ e.IdsDistinct)
    (fun _ _ hc => hc.1.apply hc.2 op) h id he

theorem Store.Settled.update_onward (h : st.Settled) (op : RecordOp) (id : ExperimentId) :
    st.Onward (st.update id op).1 := by
  intro x e he
  rw [Store.update_lookup]
  by_cases hx : x = id
  · subst hx
    rw [if_pos rfl, he]
    exact ⟨_, rfl, apply_onward (h x e he) op⟩
  · rw [if_neg hx]
    exact ⟨e, he, .refl e⟩

theorem Store.Onward.trans {st'' : Store} (h : st.Onward st') (k : st'.Onward st'') : st.Onward st'' := by
  intro x e he
  obtain ⟨e', he', hon⟩ := h x e he
  obtain ⟨e'', he'', hon'⟩ := k x e' he'
  exact ⟨e'', he'', hon.trans hon'⟩

end

/-! ## Frames -/

/-- A record of the store asks for the run. -/
def Ordered (C : Config) (st : Store) (r : RunFault) : Prop :=
  ∃ x e i, st.lookup x = some e ∧ i ∈ e.instances ∧ runFault C e i = some r

/-- A record of the store that is no longer `RUNNING` has the instance. -/
def Stopped (st : Store) (iid : String) : Prop :=
  ∃ x e, st.lookup x = some e ∧ iid ∈ e.ids ∧ e.phase ≠ .running

def Sourced (C : Config) (st : Store) : ServerMessage → Prop
  | .runFault r => Ordered C st r
  | .abortFault iid => Stopped st iid
  | _ => True

/-- The run of an instance, after operations on its record. -/
theorem Experiment.Onward.runFault {C : Config} {e e' : Experiment} (h : e.Onward e') {i : InstanceRecord}
    (hi : i ∈ e.instances) {r : RunFault} (hr : runFault C e i = some r) :
    ∃ j ∈ e'.instances, j.key = i.key ∧ Master.runFault C e' j = some r := by
  have hm : i.key ∈ e'.instances.map InstanceRecord.key := h.kept.keys ▸ List.mem_map_of_mem hi
  obtain ⟨j, hj, hk⟩ := List.mem_map.1 hm
  refine ⟨j, hj, hk, ?_⟩
  have hid : j.instanceId = i.instanceId := congrArg Prod.fst hk
  have hact : j.actionIndex = i.actionIndex := congrArg (fun k => k.2.2) hk
  rw [← hr]
  unfold Master.runFault
  rw [hact, hid, h.kept.definition, h.grace]

section
variable {C : Config} {st st' : Store}

theorem Ordered.mono (h : st.Onward st') {r : RunFault} (ho : Ordered C st r) : Ordered C st' r := by
  obtain ⟨x, e, i, he, hi, hr⟩ := ho
  obtain ⟨e', he', hon⟩ := h x e he
  obtain ⟨j, hj, -, hr'⟩ := hon.runFault hi hr
  exact ⟨x, e', j, he', hj, hr'⟩

theorem Stopped.mono (h : st.Onward st') {iid : String} (hs : Stopped st iid) : Stopped st' iid := by
  obtain ⟨x, e, he, hid, hp⟩ := hs
  obtain ⟨e', he', hon⟩ := h x e he
  refine ⟨x, e', he', ?_, hon.left hp⟩
  rw [Experiment.ids, hon.kept.ids]
  exact hid

theorem Sourced.mono (h : st.Onward st') {f : ServerMessage} (hf : Sourced C st f) : Sourced C st' f := by
  cases f with
  | runFault r => exact Ordered.mono h hf
  | abortFault iid => exact Stopped.mono h hf
  | _ => trivial

/-- What an operation hands over is about records that are no longer `RUNNING`. -/
theorem updateAll_stopped (h : st.Settled) (op : RecordOp) (ids : List ExperimentId) :
    st.Onward (st.updateAll op ids).1 ∧ ∀ t ∈ (st.updateAll op ids).2, Stopped (st.updateAll op ids).1 t.2 := by
  have key := Store.updateAll_inv op
    (P := fun st' acc => st'.Settled ∧ st.Onward st' ∧ ∀ t ∈ acc, Stopped st' t.2) ?_ []
    ⟨h, .of_eq rfl, by simp⟩ ids
  · exact ⟨key.2.1, by simpa using key.2.2⟩
  · rintro st' acc id ⟨hset, hon, hacc⟩
    have hnew : st'.Onward (st'.update id op).1 := hset.update_onward op id
    refine ⟨hset.update op id, hon.trans hnew, fun t ht => ?_⟩
    rcases List.mem_append.1 ht with ht | ht
    · exact (hacc t ht).mono hnew
    · cases hl : st'.lookup id with
      | none => simp [Store.update, hl] at ht
      | some e =>
        have hmem : t ∈ (e.apply op).2 := by simpa [Store.update, hl] using ht
        obtain ⟨hc, hd⟩ := hset id e hl
        obtain ⟨hin, hp⟩ := hc.target hd hmem
        refine ⟨id, (e.apply op).1, by rw [Store.update_lookup, if_pos rfl, hl]; rfl, ?_, hp⟩
        rw [Experiment.ids, (e.apply_kept op).ids]
        obtain ⟨i, hi, rfl⟩ := List.mem_map.1 hin
        exact List.mem_map_of_mem hi

/-- The frame that an act is about to hand over has its record. -/
def ActSourced (C : Config) (st : Store) (a : Act) : Prop := ∀ f, a.frame = some f → Sourced C st f

structure MasterSourced (C : Config) (m : MasterState) : Prop where
  acts : Each (ActSourced C m.shared.store) m.tasks
  log : ∀ t f, .enqueued t (.ok f) ∈ m.shared.log → Sourced C m.shared.store f

theorem frameless {a : Act} (h : a.plain = true) : a.frame = none := by
  cases a <;> first | rfl | cases h

theorem Sound.settled {m : MasterState} (hm : Sound C m) : m.shared.store.Settled :=
  fun x e he => reach_consistent (hm.records x e he).2.1

variable {m m' : MasterState} {l : Label}

theorem ActStep.onward {p : Nat} {a : Act} {rest : List Act} {r : Effect Dispatcher Act} (hm : Sound C m)
    (ht : m.tasks[p]? = some (a :: rest)) (h : ActStep C m.shared p a r) : m.shared.store.Onward r.shared.store := by
  cases h with
  | publish e =>
    have hnew := (hm.publish ht).2
    intro x e₀ he₀
    have hne : x ≠ e.id := fun hx => by rw [hx, hnew] at he₀; cases he₀
    exact ⟨e₀, (AList.lookup_insert_ne hne).trans he₀, .refl e₀⟩
  | @touch _ op ids => exact (updateAll_stopped hm.settled op ids).1
  | leave => exact .of_eq (endSession_fields m.shared p).1
  | _ => exact .of_eq rfl

theorem ActStep.sourced {p : Nat} {a : Act} {r : Effect Dispatcher Act} (hm : Sound C m)
    (h : ActStep C m.shared p a r) (ha : ActSourced C m.shared.store a) :
    (∀ b ∈ r.acts, ActSourced C r.shared.store b) ∧ Each (ActSourced C r.shared.store) r.spawned := by
  have none : ∀ {b : Act} {st : Store}, b.frame = none → ActSourced C st b := fun hb f hf => by rw [hb] at hf; cases hf
  have hnil : Each (ActSourced C r.shared.store) [] := fun _ ht => by cases ht
  cases h with
  | publish e =>
    refine ⟨fun b hb => ?_, hnil⟩
    rcases List.mem_append.1 hb with hb | hb
    · obtain ⟨i, f, hi, hf, rfl⟩ := mem_sendRunFaults hb
      intro g hg
      obtain rfl := Option.some.inj hg
      exact ⟨e.id, e, i, AList.lookup_insert _, hi, hf⟩
    · simp only [List.mem_cons, List.not_mem_nil, or_false] at hb
      rcases hb with rfl | rfl <;> exact none rfl
  | @touch _ op ids acts htouch hacts =>
    refine ⟨fun b hb => ?_, hnil⟩
    rcases List.mem_append.1 hb with hb | hb
    · obtain ⟨t, ht, rfl⟩ := mem_sendAborts hb
      intro g hg
      obtain rfl := Option.some.inj hg
      exact (updateAll_stopped hm.settled op ids).2 t ht
    · obtain ⟨r, rfl⟩ := hacts b hb
      exact none rfl
  | found h f t hsend =>
    refine ⟨fun b hb => ?_, hnil⟩
    obtain rfl := List.mem_singleton.1 hb
    exact ha
  | arm id dl =>
    refine ⟨by simp, fun task ht b hb => ?_⟩
    obtain rfl := List.mem_singleton.1 ht
    obtain rfl := List.mem_singleton.1 hb
    exact none rfl
  | setTaint h tainted reason ts =>
    refine ⟨fun b hb => none ?_, hnil⟩
    cases tainted with
    | true => rw [List.mem_singleton.1 hb]; rfl
    | false => cases hb
  | quiet hq hacts => exact ⟨fun b hb => none (frameless (hacts b hb)), hnil⟩
  | _ => exact ⟨fun b hb => none (by simp_all [Act.frame]), hnil⟩

theorem MasterSourced.step (hm : Sound C m) (h : MasterSourced C m) (hs : MasterStep C m l m') :
    MasterSourced C m' := by
  have plain : ∀ {task : List Act} {st : Store}, (∀ a ∈ task, a.opens = true) → ∀ a ∈ task, ActSourced C st a :=
    fun ho a ha f hf => by rw [frameless (Act.plain_of_opens (ho a ha))] at hf; cases hf
  cases hs with
  | @act p a rest r ht hact =>
    have hon := hact.onward hm ht
    have hown : ActSourced C m.shared.store a := h.acts.get ht a List.mem_cons_self
    obtain ⟨hacts, hspawned⟩ := hact.sourced hm hown
    refine ⟨h.acts.step ht (fun b hb f hf => (hb f hf).mono hon) hacts hspawned, fun t f hf => ?_⟩
    obtain ⟨ds, hlog, hlogged⟩ := (MasterStep.act ht hact).logged
    replace hf : Delivery.enqueued t (.ok f) ∈ r.shared.log := hf
    rw [show r.shared.log = m.shared.log ++ ds from hlog] at hf
    rcases List.mem_append.1 hf with hf | hf
    · exact (h.log t f hf).mono hon
    · cases hlogged with
      | @frame _ t' f' _ hl htask =>
        obtain ⟨rfl, he⟩ := Delivery.enqueued.inj (List.mem_singleton.1 hf)
        obtain rfl := Outbound.ok.inj he
        have hq := h.acts.get htask (.enqueue t f) List.mem_cons_self
        exact (hq f rfl).mono hon
      | relayed =>
        obtain ⟨-, hf⟩ := Delivery.enqueued.inj (List.mem_singleton.1 hf)
        obtain rfl := Outbound.ok.inj hf
        trivial
      | @reply _ r' =>
        obtain ⟨-, hf⟩ := Delivery.enqueued.inj (List.mem_singleton.1 hf)
        obtain rfl := Outbound.ok.inj hf
        cases r' <;> trivial
      | reject =>
        obtain ⟨-, hf⟩ := Delivery.enqueued.inj (List.mem_singleton.1 hf)
        cases hf
      | other hno => exact absurd hf (hno t _)
  | request ho => exact ⟨h.acts.append fun task ht => by rw [List.mem_singleton.1 ht]; exact plain ho, h.log⟩
  | connect => exact ⟨h.acts.append (by simp [Each]), h.log⟩
  | intake _ _ _ ho => exact ⟨h.acts.set (plain ho), h.log⟩
  | drop =>
    refine ⟨h.acts.set (by simp), fun t f hf => ?_⟩
    rcases List.mem_append.1 hf with hf | hf
    · exact h.log t f hf
    · obtain ⟨_, -, he⟩ := List.mem_map.1 hf
      cases he
  | channel | tick => exact ⟨h.acts, h.log⟩

theorem masterStep_onward (hm : Sound C m) (h : masterStep C m l = some m') :
    m.shared.store.Onward m'.shared.store := by
  cases masterStep_step h with
  | act ht hact => exact hact.onward hm ht
  | _ => exact .of_eq rfl

/-- **Every frame for a host has its record.** -/
theorem reach_sourced (h : Reach (masterLts C) m) : MasterSourced C m := by
  refine h.inv_of (I := Sound C) (P := MasterSourced C) (fun _ => reach_sound) ?_
    fun m l m' hm hr hs => hr.step hm (masterStep_step hs)
  rintro m ⟨now, rfl⟩
  exact ⟨fun _ ht => (by cases ht), fun t f hf => (by cases hf)⟩

end

/-! ## The reports in hand -/

/-- The report that an act is about to handle. -/
def Act.heard : Act → Option (String × InstanceState)
  | .status instanceId state _ _ => some (instanceId, state)
  | _ => none

/-- What an act leaves to do is no report. -/
theorem exec_unheard {C : Config} {s : Dispatcher} {p : Nat} {a : Act} {r : Effect Dispatcher Act}
    (h : exec C s p a = some r) : (∀ b ∈ r.acts, b.heard = none) ∧ Each (fun b => b.heard = none) r.spawned := by
  have none_left : ∀ {s'} {acts : List Act}, some (⟨s', acts, []⟩ : Effect Dispatcher Act) = some r →
      (∀ b ∈ acts, b.heard = none) → (∀ b ∈ r.acts, b.heard = none) ∧ Each (fun b => b.heard = none) r.spawned := by
    intro s' acts he ha
    obtain rfl := Option.some.inj he
    exact ⟨ha, fun _ ht => by cases ht⟩
  have aborts : ∀ {st : Store × List Target} {acts : List Act}, onStore s st acts = some r →
      (∀ b ∈ acts, b.heard = none) → (∀ b ∈ r.acts, b.heard = none) ∧ Each (fun b => b.heard = none) r.spawned := by
    intro st acts he ha
    refine none_left he fun b hb => ?_
    rcases List.mem_append.1 hb with hb | hb
    · obtain ⟨t, -, rfl⟩ := mem_sendAborts hb
      rfl
    · exact ha b hb
  cases a with
  | start | toHost | relay | relayTo | reply | reject | enqueue | clearTaint =>
    simp only [exec] at h
    first
      | exact none_left h (by simp [Act.heard])
      | (split at h <;> first | cases h; done | exact none_left h (by simp [Act.heard]))
  | gather d registry facts hosts =>
    cases hosts with
    | cons host hosts => exact none_left h (by simp [Act.heard])
    | nil =>
      simp only [exec] at h
      split at h <;> exact none_left h (by simp [Act.heard])
  | sleep wakeMs =>
    simp only [exec] at h
    split at h
    · exact none_left h (by simp)
    · cases h
  | publish e =>
    refine none_left h fun b hb => ?_
    rcases List.mem_append.1 hb with hb | hb
    · obtain ⟨i, f, -, -, rfl⟩ := mem_sendRunFaults hb
      rfl
    · simp only [List.mem_cons, List.not_mem_nil, or_false] at hb
      rcases hb with rfl | rfl <;> rfl
  | arm id dl =>
    obtain rfl := Option.some.inj h
    exact ⟨by simp, by simp [Each, Act.heard]⟩
  | status iid state reason ts =>
    simp only [exec, handleStatus] at h
    split at h
    · exact none_left h (by simp)
    · exact aborts h (by simp)
  | halt id reason =>
    simp only [exec, handleHalt] at h
    split at h
    · exact none_left h (by simp [Act.heard])
    · split at h
      · exact none_left h (by simp [Act.heard])
      · exact aborts h (by simp [Act.heard])
  | resolve | sweep => exact aborts h (by simp)
  | setTaint hostname tainted reason ts =>
    refine none_left h fun b hb => ?_
    cases tainted with
    | true => obtain rfl := List.mem_singleton.1 hb; rfl
    | false => cases hb
  | _ => exact none_left h (by simp [Act.heard])

/-- What a frame from an agent puts in hand is what it tells. -/
theorem handleFrame_heard {now : Int} {stream : Stream} {frame : AgentMessage} {a : Act} {iid : String}
    {state : InstanceState} (ha : a ∈ handleFrame now stream (some frame)) (h : a.heard = some (iid, state)) :
    (∃ status, (frame = .instanceStatus status ∨ ∃ statuses, frame = .instanceReport statuses ∧ status ∈ statuses) ∧
      status.instanceId = iid ∧ fromWireI32 status.state = .ok state) := by
  have decoded : ∀ {status : InstanceStatus}, decodeStatus status = some a →
      status.instanceId = iid ∧ fromWireI32 status.state = .ok state := by
    intro status hd
    unfold decodeStatus at hd
    split at hd
    next => cases hd
    next state' hs =>
      obtain rfl := Option.some.inj hd
      obtain ⟨rfl, rfl⟩ := Prod.mk.inj (Option.some.inj h)
      exact ⟨rfl, hs⟩
  unfold handleFrame at ha
  split at ha
  · split at ha <;> (obtain rfl := List.mem_singleton.1 ha; cases h)
  · split at ha <;> (obtain rfl := List.mem_singleton.1 ha; cases h)
  next status he =>
    obtain rfl := Option.some.inj he
    exact ⟨status, .inl rfl, decoded (Option.mem_toList.1 ha)⟩
  next statuses he =>
    obtain rfl := Option.some.inj he
    obtain ⟨status, hm, hd⟩ := List.mem_filterMap.1 ha
    exact ⟨status, .inr ⟨statuses, rfl, hm⟩, decoded hd⟩
  · split at ha
    · obtain rfl := List.mem_singleton.1 ha; cases h
    · cases ha
  · cases ha
  · cases ha

/-- The report that an act is about to handle passes `P`. -/
def HeardOk (P : String → InstanceState → Prop) (a : Act) : Prop :=
  ∀ iid state, a.heard = some (iid, state) → P iid state

/-- `P` of every report in hand, and of the states of every record. -/
structure Witnessed (P : String → InstanceState → Prop) (m : MasterState) : Prop where
  acts : Each (HeardOk P) m.tasks
  records : ∀ x e, m.shared.store.lookup x = some e → ∀ i ∈ e.instances, P i.instanceId i.state

section
variable {C : Config} {m m' : MasterState} {P P' : String → InstanceState → Prop}

theorem HeardOk.of_none {a : Act} (h : a.heard = none) : HeardOk P a := fun iid state he => by rw [h] at he; cases he

theorem Witnessed.mono (h : ∀ iid state, P iid state → P' iid state) (hw : Witnessed P m) : Witnessed P' m :=
  ⟨hw.acts.mono fun _ ha iid state he => h iid state (ha iid state he),
    fun x e he i hi => h _ _ (hw.records x e he i hi)⟩

theorem touches_reports {s : Dispatcher} {a : Act} {op : RecordOp} {ids : List ExperimentId}
    (h : a.touches s = some (op, ids)) (ha : HeardOk P a) : op.Reports P := by
  rintro iid state reason ts rfl
  cases a with
  | status iid' state' reason' ts' =>
    obtain ⟨id, -, he⟩ := Option.map_eq_some_iff.1 h
    obtain ⟨rfl, rfl, -⟩ := RecordOp.status.inj (Prod.mk.inj he).1
    exact ha _ _ rfl
  | _ => cases h

theorem ActStep.witnessed {p : Nat} {a : Act} {r : Effect Dispatcher Act} (hinit : ∀ iid, P iid .pending)
    (herr : ∀ iid, P iid .error) (h : ActStep C m.shared p a r) (hs : ActSound C m.shared a) (ha : HeardOk P a)
    (hrec : ∀ x e, m.shared.store.lookup x = some e → ∀ i ∈ e.instances, P i.instanceId i.state) :
    ∀ x e, r.shared.store.lookup x = some e → ∀ i ∈ e.instances, P i.instanceId i.state := by
  cases h with
  | publish e =>
    intro x e₁ he
    by_cases hx : x = e.id
    · subst hx
      rw [AList.lookup_insert] at he
      obtain rfl := Option.some.inj he
      obtain ⟨definition, catalog, facts, nowMs, seq, graceSecs, marginMs, -, -, rfl⟩ := hs.1
      intro i hi
      rw [(mem_mint_iff hi).1]
      exact hinit _
    · exact hrec x e₁ ((AList.lookup_insert_ne hx).symm.trans he)
  | @touch _ op ids acts htouch =>
    intro x e he
    refine Store.updateAll_each (P := fun _ e => ∀ i ∈ e.instances, P i.instanceId i.state) ?_ hrec ids he
    intro x e hold j hj
    obtain ⟨i, hi, hkey, hst⟩ := apply_moves herr (touches_reports htouch ha) e j hj
    rw [show j.instanceId = i.instanceId from congrArg Prod.fst hkey]
    rcases hst with hst | hst
    · rw [hst]
      exact hold i hi
    · exact hst
  | leave => exact fun x e he => hrec x e ((endSession_fields m.shared p).1 ▸ he)
  | _ => exact hrec

/-- **A step shows nothing new but what a frame tells.** -/
theorem Witnessed.step (hm : Sound C m) (hinit : ∀ iid, P iid .pending) (herr : ∀ iid, P iid .error)
    (h : Witnessed P m) {l : Label}
    (hrecv : ∀ p payload, l = .recv p payload → ∀ stream, ∀ a ∈ handleFrame m.shared.now stream payload, HeardOk P a)
    (hs : masterStep C m l = some m') : Witnessed P m' := by
  have intake : ∀ {p : Nat} {acts : Stream → List Act}, (∀ stream, ∀ a ∈ acts stream, HeardOk P a) →
      intake m p acts = some m' → Witnessed P m' := by
    intro p acts hacts hi
    unfold Master.intake at hi
    split at hi
    next stream _ _ =>
      split at hi
      next => cases hi
      next =>
        obtain rfl := Option.some.inj hi
        exact ⟨h.acts.set (hacts stream), h.records⟩
    next => cases hi
  have start : ∀ {task : List Act}, (∀ a ∈ task, a.heard = none) → Witnessed P ⟨m.shared, m.tasks ++ [task]⟩ :=
    fun ht => ⟨h.acts.append fun t hm => by rw [List.mem_singleton.1 hm]; exact fun a ha => .of_none (ht a ha),
      h.records⟩
  cases l with
  | run p =>
    obtain ⟨a, rest, r, ht, hr, rfl⟩ := step_some hs
    have hown : HeardOk P a := h.acts.get ht a List.mem_cons_self
    have hsound : ActSound C m.shared a := hm.acts.get ht a List.mem_cons_self
    obtain ⟨hacts, hspawned⟩ := exec_unheard hr
    exact ⟨h.acts.step ht (fun _ => id) (fun b hb => .of_none (hacts b hb)) (hspawned.mono fun _ => .of_none),
      (exec_step hr).witnessed hinit herr hsound hown h.records⟩
  | submit | haltRequest | clearTaintRequest =>
    obtain rfl := Option.some.inj hs
    exact start (by simp [Act.heard])
  | connect =>
    obtain rfl := Option.some.inj hs
    exact ⟨h.acts.append (by simp [Each]), h.records⟩
  | recv p payload => exact intake (hrecv p payload rfl) hs
  | eof p => exact intake (fun _ a ha => .of_none (by rw [List.mem_singleton.1 ha]; rfl)) hs
  | streamError p message => exact intake (fun _ a ha => .of_none (by rw [List.mem_singleton.1 ha]; rfl)) hs
  | drop p =>
    simp only [masterStep] at hs
    split at hs
    next =>
      split at hs
      next => obtain rfl := Option.some.inj hs; exact ⟨h.acts.set (by simp), h.records⟩
      next => cases hs
    next => cases hs
  | close t =>
    simp only [masterStep] at hs
    split at hs
    next => obtain rfl := Option.some.inj hs; exact ⟨h.acts, h.records⟩
    next => cases hs
  | drain t =>
    simp only [masterStep] at hs
    split at hs
    next =>
      split at hs
      next => obtain rfl := Option.some.inj hs; exact ⟨h.acts, h.records⟩
      next => cases hs
    next => cases hs
  | tick ms => obtain rfl := Option.some.inj hs; exact ⟨h.acts, h.records⟩

end

/-! ## The hosts of streams -/

/-- The host that an act is about to give to its stream. -/
def Act.joinsAs : Act → Option Hostname
  | .registerAgent hostname _ | .fetchEpoch hostname _ | .insertSession hostname _ _ => some hostname
  | _ => none

/-- Streams have, or are about to be given, the host of their client. -/
structure Peered (peer : StreamId → Option Hostname) (m : MasterState) : Prop where
  joining : ∀ t task a h, m.tasks[t]? = some task → a ∈ task → a.joinsAs = some h → peer t = some h
  serves : ∀ t h, Serves m.shared t h → peer t = some h

theorem Act.joins_of_joinsAs {a : Act} {h : Hostname} (ha : a.joinsAs = some h) : a.joins = true := by
  cases a <;> first | rfl | cases ha

section
variable {C : Config} {m m' : MasterState} {peer : StreamId → Option Hostname}

theorem ActStep.joinsAs {s : Dispatcher} {p : Nat} {a : Act} {r : Effect Dispatcher Act} (h : ActStep C s p a r)
    {b : Act} (hb : b ∈ r.acts) {host : Hostname} (hj : b.joinsAs = some host) : a.joinsAs = some host := by
  cases h with
  | registerAgent h now => rw [List.mem_singleton.1 hb] at hj; exact hj
  | fetchEpoch h now => rw [List.mem_singleton.1 hb] at hj; exact hj
  | publish e =>
    rcases List.mem_append.1 hb with hb | hb
    · obtain ⟨i, f, -, -, rfl⟩ := mem_sendRunFaults hb
      cases hj
    · simp only [List.mem_cons, List.not_mem_nil, or_false] at hb
      rcases hb with rfl | rfl <;> cases hj
  | touch htouch hacts =>
    rcases List.mem_append.1 hb with hb | hb
    · obtain ⟨t, -, rfl⟩ := mem_sendAborts hb
      cases hj
    · obtain ⟨r, rfl⟩ := hacts b hb
      cases hj
  | setTaint h tainted reason ts =>
    cases tainted with
    | true => obtain rfl := List.mem_singleton.1 hb; cases hj
    | false => cases hb
  | quiet hq hacts hno =>
    have := hno b hb
    rw [Act.joins_of_joinsAs hj] at this
    cases this
  | noSession | gone | enqueued | arm | reply | leave | respond => cases hb
  | _ => obtain rfl := List.mem_singleton.1 hb; cases hj

/-- An act gives its own stream a host, or none. -/
theorem ActStep.serves {s : Dispatcher} {p : Nat} {a : Act} {r : Effect Dispatcher Act} (h : ActStep C s p a r)
    {t : StreamId} {host : Hostname} (hs : Serves r.shared t host) :
    Serves s t host ∨ (t = p ∧ a.joinsAs = some host) := by
  cases h with
  | insertSession h epoch now =>
    obtain ⟨stream, hst, hh⟩ := hs
    by_cases ht : t = p
    · subst ht
      replace hst : Function.update s.streams t _ t = some stream := hst
      rw [Function.update_self] at hst
      obtain ⟨st, -, rfl⟩ := Option.map_eq_some_iff.1 hst
      exact .inr ⟨rfl, hh⟩
    · exact .inl ⟨stream, (Function.update_of_ne ht _ _).symm.trans hst, hh⟩
  | leave =>
    obtain ⟨stream, hst, hh⟩ := hs
    unfold endSession at hst
    split at hst
    next => exact .inl ⟨stream, hst, hh⟩
    next stream' hp =>
      by_cases ht : t = p
      · subst ht
        replace hst : Function.update s.streams t _ t = some stream := hst
        rw [Function.update_self] at hst
        obtain rfl := Option.some.inj hst
        exact .inl ⟨stream', hp, hh⟩
      · exact .inl ⟨stream, (Function.update_of_ne ht _ _).symm.trans hst, hh⟩
  | _ => exact .inl hs

theorem setStream_hosts {s : Dispatcher} {t t' : StreamId} {stream stream' : Stream} {host : Hostname}
    (hs : s.streams t = some stream) (hh : stream'.hostname = stream.hostname)
    (h : Serves (s.setStream t stream') t' host) : Serves s t' host := by
  obtain ⟨st, hst, hsh⟩ := h
  by_cases ht : t' = t
  · subst ht
    replace hst : Function.update s.streams t' _ t' = some st := hst
    rw [Function.update_self] at hst
    obtain rfl := Option.some.inj hst
    exact ⟨stream, hs, hh.symm.trans hsh⟩
  · exact ⟨st, (Function.update_of_ne ht _ _).symm.trans hst, hsh⟩

/-- Tasks are never forgotten. -/
theorem masterStep_length {l : Label} (h : masterStep C m l = some m') : m.tasks.length ≤ m'.tasks.length := by
  cases masterStep_step h with
  | act | request | connect => simp
  | intake | drop => exact (List.length_set).ge
  | channel | tick => exact Nat.le_refl _

/-- What has been sent on a stream stays sent. -/
theorem masterStep_sent {l : Label} (h : masterStep C m l = some m') {t : StreamId} {o : Outbound}
    (ho : o ∈ m.shared.sent t) : o ∈ m'.shared.sent t := by
  obtain ⟨ds, hlog, -⟩ := (masterStep_step h).logged
  rw [Dispatcher.sent, hlog, List.filterMap_append]
  exact List.mem_append_left _ ho

theorem logged_of_sent {s : Dispatcher} {t : StreamId} {o : Outbound} (h : o ∈ s.sent t) : .enqueued t o ∈ s.log := by
  obtain ⟨d, hd, ho⟩ := List.mem_filterMap.1 h
  exact Delivery.on_some ho ▸ hd

theorem Peered.mono {peer' : StreamId → Option Hostname} (h : Peered peer m)
    (hp : ∀ t host, peer t = some host → peer' t = some host) : Peered peer' m :=
  ⟨fun t task a host ht ha hj => hp t host (h.joining t task a host ht ha hj),
    fun t host hs => hp t host (h.serves t host hs)⟩

/-- The tasks after one of them has been replaced. -/
theorem Peered.set (h : Peered peer m) {p : Nat} {task : List Act}
    (ht : ∀ a ∈ task, ∀ host, a.joinsAs = some host → peer p = some host) {s : Dispatcher}
    (hs : ∀ t host, Serves s t host → Serves m.shared t host) : Peered peer ⟨s, m.tasks.set p task⟩ := by
  refine ⟨fun t task' a host hg ha hj => ?_, fun t host hserves => h.serves t host (hs t host hserves)⟩
  rw [← List.append_nil (m.tasks.set p _)] at hg
  rcases get_step hg with ⟨rfl, rfl⟩ | ⟨-, hg⟩ | hg
  · exact ht a ha host hj
  · exact h.joining t task' a host hg ha hj
  · cases hg

/-- A task is started. -/
theorem Peered.start (h : Peered peer m) {task : List Act} (ht : ∀ a ∈ task, a.joinsAs = none) {s : Dispatcher}
    (hs : ∀ t host, Serves s t host → Serves m.shared t host) : Peered peer ⟨s, m.tasks ++ [task]⟩ := by
  refine ⟨fun t task' a host hg ha hj => ?_, fun t host hserves => h.serves t host (hs t host hserves)⟩
  rw [List.getElem?_append] at hg
  split at hg
  · exact h.joining t task' a host hg ha hj
  · obtain rfl := List.mem_singleton.1 (List.mem_of_getElem? hg)
    rw [ht a ha] at hj
    cases hj

theorem Peered.intake (h : Peered peer m) {p : Nat} {acts : Stream → List Act}
    (hacts : ∀ stream, ∀ a ∈ acts stream, ∀ host, a.joinsAs = some host → peer p = some host)
    (hs : intake m p acts = some m') : Peered peer m' := by
  unfold Master.intake at hs
  split at hs
  next stream _ _ =>
    split at hs
    next => cases hs
    next =>
      obtain rfl := Option.some.inj hs
      exact h.set (hacts stream) fun _ _ => id
  next => cases hs

/-- **A step gives a stream no other host than its client's.** Only the `Register` of a frame names one. -/
theorem Peered.step (h : Peered peer m) {l : Label}
    (hrecv : ∀ p payload, l = .recv p payload → ∀ stream, ∀ a ∈ handleFrame m.shared.now stream payload, ∀ host,
      a.joinsAs = some host → peer p = some host)
    (hs : masterStep C m l = some m') : Peered peer m' := by
  cases l with
  | run p =>
    obtain ⟨a, rest, r, ht, hr, rfl⟩ := step_some hs
    have hact := exec_step hr
    refine ⟨fun t task b host hg hb hj => ?_, fun t host hserves => ?_⟩
    · rcases get_step hg with ⟨rfl, rfl⟩ | ⟨-, hg⟩ | hg
      · rcases List.mem_append.1 hb with hb | hb
        · exact h.joining t _ a host ht List.mem_cons_self (hact.joinsAs hb hj)
        · exact h.joining t _ b host ht (List.mem_cons_of_mem _ hb) hj
      · exact h.joining t task b host hg hb hj
      · cases hact with
        | arm id dl =>
          obtain rfl := List.mem_singleton.1 hg
          obtain rfl := List.mem_singleton.1 hb
          cases hj
        | _ => cases hg
    · rcases hact.serves hserves with hserves | ⟨rfl, hj⟩
      · exact h.serves t host hserves
      · exact h.joining t _ a host ht List.mem_cons_self hj
  | submit | haltRequest | clearTaintRequest =>
    obtain rfl := Option.some.inj hs
    exact h.start (by simp [Act.joinsAs]) fun _ _ => id
  | connect =>
    obtain rfl := Option.some.inj hs
    refine h.start (by simp) fun t host hserves => ?_
    obtain ⟨st, hst, hh⟩ := hserves
    by_cases ht : t = m.tasks.length
    · subst ht
      replace hst : Function.update m.shared.streams m.tasks.length _ m.tasks.length = some st := hst
      rw [Function.update_self] at hst
      obtain rfl := Option.some.inj hst
      cases hh
    · exact ⟨st, (Function.update_of_ne ht _ _).symm.trans hst, hh⟩
  | recv p payload => exact h.intake (hrecv p payload rfl) hs
  | eof p => exact h.intake (by simp [Act.joinsAs]) hs
  | streamError p message => exact h.intake (by simp [Act.joinsAs]) hs
  | drop p =>
    simp only [masterStep] at hs
    split at hs
    next =>
      split at hs
      next => obtain rfl := Option.some.inj hs; exact h.set (by simp) fun _ _ => id
      next => cases hs
    next => cases hs
  | close t =>
    simp only [masterStep] at hs
    split at hs
    next stream hst =>
      obtain rfl := Option.some.inj hs
      refine ⟨h.joining, fun t' host hserves => h.serves t' host (setStream_hosts hst ?_ hserves)⟩
      rfl
    next => cases hs
  | drain t =>
    simp only [masterStep] at hs
    split at hs
    next stream hst =>
      split at hs
      next =>
        obtain rfl := Option.some.inj hs
        refine ⟨h.joining, fun t' host hserves => h.serves t' host (setStream_hosts hst ?_ hserves)⟩
        rfl
      next => cases hs
    next => cases hs
  | tick ms => obtain rfl := Option.some.inj hs; exact ⟨h.joining, h.serves⟩

end

end FaultForge.Master
