import FaultForge.Master.Once

/-!
# The ledger of `AbortFault` frames

While a record is not concluded, the ledger holds exactly one `AbortFault` for each of its instances that has been asked
to abort, and none for the others; and an `AbortFault` is there only for an instance of a record that has left `RUNNING`
(`Aborts.step`, `reach_aborts`). Both the salvo and the reports are judged against this.
-/
namespace FaultForge.Master

open Lts Tasks

/-- What the frames handed over so far, counted by `n`, say about the store. -/
structure AbortsIn (st : Store) (n : String → Nat) : Prop where
  owned : ∀ iid, 0 < n iid → ∃ x e, st.lookup x = some e ∧ iid ∈ e.ids ∧ e.phase ≠ .running
  exact : ∀ x e, st.lookup x = some e → e.isConcluded = false → ∀ iid ∈ e.ids, n iid = e.asked iid

/-- The records of a store, as `Sound` has them. -/
def Records (st : Store) : Prop := ∀ x e, st.lookup x = some e → e.id = x ∧ Reach recordLts e

theorem handed_append (a b : List Target) (iid : String) : handed (a ++ b) iid = handed a iid + handed b iid :=
  List.countP_append

theorem handed_pos {aborts : List Target} {iid : String} (h : 0 < handed aborts iid) : ∃ t ∈ aborts, t.2 = iid := by
  obtain ⟨t, ht, he⟩ := List.countP_pos_iff.1 h
  exact ⟨t, ht, of_decide_eq_true he⟩

theorem mem_ids_of_target {e : Experiment} {t : Target} (h : t ∈ e.instances.map InstanceRecord.target) :
    t.2 ∈ e.ids := by
  obtain ⟨i, hi, rfl⟩ := List.mem_map.1 h
  exact List.mem_map_of_mem hi

theorem apply_ids (e : Experiment) (op : RecordOp) : (e.apply op).1.ids = e.ids := (e.apply_kept op).ids

/-- One record under one operation. -/
theorem AbortsIn.update {st : Store} {n : String → Nat} (hr : Records st) (h : AbortsIn st n) (op : RecordOp)
    (id : ExperimentId) : AbortsIn (st.update id op).1 fun iid => n iid + handed (st.update id op).2 iid := by
  cases hl : st.lookup id with
  | none =>
    have heq : st.update id op = (st, []) := by
      unfold Store.update
      rw [hl]
    rw [heq]
    exact h
  | some e =>
    obtain ⟨hid, hreach⟩ := hr id e hl
    obtain ⟨hcons, hdist⟩ := reach_consistent hreach
    have hnamed := reach_named hreach
    have hsnd : (st.update id op).2 = (e.apply op).2 := by
      unfold Store.update
      rw [hl]
    have hlook : ∀ x, (st.update id op).1.lookup x = if x = id then some (e.apply op).1 else st.lookup x := by
      intro x
      rw [Store.update_lookup, hl]
      rfl
    rw [hsnd]
    constructor
    · intro iid hpos
      by_cases hn : 0 < n iid
      · obtain ⟨x, e₁, he₁, hi, hp⟩ := h.owned iid hn
        by_cases hx : x = id
        · subst hx
          rw [hl] at he₁
          obtain rfl := Option.some.inj he₁
          refine ⟨x, (e.apply op).1, by rw [hlook, if_pos rfl], by rwa [apply_ids], ?_⟩
          exact (hcons.step hdist op).forward hp
        · exact ⟨x, e₁, by rw [hlook, if_neg hx]; exact he₁, hi, hp⟩
      · have hpos : 0 < handed (e.apply op).2 iid := by omega
        obtain ⟨t, ht, rfl⟩ := handed_pos hpos
        obtain ⟨hmem, hp⟩ := hcons.target hdist ht
        exact ⟨id, (e.apply op).1, by rw [hlook, if_pos rfl], by rw [apply_ids]; exact mem_ids_of_target hmem, hp⟩
    · intro x e₁ he₁ hc iid hi
      rw [hlook] at he₁
      by_cases hx : x = id
      · rw [if_pos hx] at he₁
        obtain rfl := Option.some.inj he₁
        rw [apply_ids] at hi
        have hlive : e.isConcluded = false := by
          cases hce : e.isConcluded with
          | false => rfl
          | true => rw [hcons.final hce op, hce] at hc; cases hc
        have hop : ∀ now, op ≠ .deadline now := by
          rintro now rfl
          have hcon : (e.apply (.deadline now)).1.isConcluded = true := (hcons.resolveDeadline hdist now).2.1
          rw [hcon] at hc
          cases hc
        rw [e.apply_asked hop, h.exact id e hl hlive iid hi]
      · rw [if_neg hx] at he₁
        have hzero : handed (e.apply op).2 iid = 0 := by
          by_contra hne
          obtain ⟨t, ht, rfl⟩ := handed_pos (Nat.pos_of_ne_zero hne)
          have hmem := mem_ids_of_target (hcons.target hdist ht).1
          obtain ⟨hid₁, hreach₁⟩ := hr x e₁ he₁
          have := hnamed.id_eq (reach_named hreach₁) hmem hi
          exact hx (by rw [← hid₁, ← this, hid])
        rw [hzero, Nat.add_zero]
        exact h.exact x e₁ he₁ hc iid hi

theorem Records.update {st : Store} (h : Records st) (op : RecordOp) (id : ExperimentId) :
    Records (st.update id op).1 := by
  intro x e he
  refine Store.update_each (P := fun x e => e.id = x ∧ Reach recordLts e) ?_ h id he
  rintro x e ⟨hid, hr⟩
  exact ⟨(e.apply_kept op).id.trans hid, .step hr rfl⟩

/-- Several records under one lock. -/
theorem AbortsIn.updateAll {st : Store} {n : String → Nat} (hr : Records st) (h : AbortsIn st n) (op : RecordOp)
    (ids : List ExperimentId) :
    AbortsIn (st.updateAll op ids).1 fun iid => n iid + handed (st.updateAll op ids).2 iid := by
  have key := Store.updateAll_inv op
    (P := fun st acc => Records st ∧ AbortsIn st fun iid => n iid + handed acc iid)
    (fun st acc id ⟨hr, ha⟩ => ⟨hr.update op id, by
      have hu := ha.update hr op id
      simpa only [handed_append, Nat.add_assoc] using hu⟩) [] ⟨hr, by simpa [handed] using h⟩ ids
  simpa using key.2

section
variable {C : Config} {m m' : MasterState} {l : Label}

def Aborts (m : MasterState) : Prop := AbortsIn m.shared.store fun iid => account (isAbort iid) m

theorem sendAborts_load (aborts : List Target) (iid : String) :
    load (Act.weight (isAbort iid)) (sendAborts aborts) = handed aborts iid := by
  induction aborts with
  | nil => rfl
  | cons a aborts ih =>
    have hw : Act.weight (isAbort iid) (.toHost a.1 (.abortFault a.2)) = if a.2 = iid then 1 else 0 := by
      by_cases h : a.2 = iid <;> simp [Act.weight, Act.frame, tally, isAbort, h]
    unfold sendAborts handed at *
    rw [List.map_cons, load_cons, ih, List.countP_cons, hw]
    simp only [decide_eq_true_eq]
    omega

theorem sendRunFaults_aborts (e : Experiment) (iid : String) :
    load (Act.weight (isAbort iid)) (sendRunFaults C e) = 0 :=
  load_eq_zero fun a ha => by
    obtain ⟨i, f, -, -, rfl⟩ := mem_sendRunFaults ha
    rfl

/-- A new record has asked nobody. -/
theorem init_asked {e : Experiment} (h : recordLts.init e) (iid : String) : e.asked iid = 0 := by
  obtain ⟨definition, catalog, facts, nowMs, seq, graceSecs, marginMs, -, -, rfl⟩ := h
  refine List.countP_eq_zero.2 fun i hi => ?_
  rw [(mem_mint_iff hi).2.1]
  simp

theorem Sound.toRecords (hm : Sound C m) : Records m.shared.store :=
  fun x e he => ⟨(hm.records x e he).1, (hm.records x e he).2.1⟩

theorem Aborts.step (h : Aborts m) (hm : Sound C m) (hs : MasterStep C m l m') : Aborts m' := by
  obtain ⟨new, hnew, hacc⟩ := hs.handed
  have habort : ∀ iid, account (isAbort iid) m' = account (isAbort iid) m + load (Act.weight (isAbort iid)) new :=
    fun iid => hacc _ (isAbort_dispatched iid)
  unfold Aborts at *
  simp only [habort]
  cases hnew with
  | nothing hstore =>
    rw [hstore]
    exact h
  | aborts op ids hstore =>
    rw [hstore]
    simp only [sendAborts_load]
    exact h.updateAll hm.toRecords op ids
  | salvo e ht hstore =>
    obtain ⟨hr, hfree⟩ := hm.publish ht
    have hinit : recordLts.init e := (hm.acts.get ht _ List.mem_cons_self).1
    have hother : ∀ {x e₁}, m.shared.store.lookup x = some e₁ → x ≠ e.id :=
      fun he hx => by rw [hx, hfree] at he; cases he
    rw [hstore]
    simp only [sendRunFaults_aborts, Nat.add_zero]
    constructor
    · intro iid hpos
      obtain ⟨x, e₁, he₁, hi, hp⟩ := h.owned iid hpos
      exact ⟨x, e₁, (AList.lookup_insert_ne (hother he₁)).trans he₁, hi, hp⟩
    · intro x e₁ he₁ hc iid hi
      by_cases hx : x = e.id
      · subst hx
        rw [AList.lookup_insert] at he₁
        obtain rfl := Option.some.inj he₁
        rw [init_asked hinit]
        by_contra hne
        obtain ⟨y, e₂, he₂, hi₂, -⟩ := h.owned iid (Nat.pos_of_ne_zero hne)
        exact hm.publish_fresh ht hi ⟨y, e₂, he₂, hi₂⟩
      · rw [AList.lookup_insert_ne hx] at he₁
        exact h.exact x e₁ he₁ hc iid hi

theorem reach_aborts (h : Reach (masterLts C) m) : Aborts m := by
  refine h.inv_of (I := Sound C) (P := Aborts) (fun _ => reach_sound) ?_
    fun m l m' hm ha hs => ha.step hm (masterStep_step hs)
  rintro m ⟨now, rfl⟩
  exact ⟨fun iid hpos => absurd hpos (Nat.lt_irrefl 0), fun x e he => by cases he⟩

end

end FaultForge.Master
