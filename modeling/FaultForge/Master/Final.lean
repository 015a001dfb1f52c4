import FaultForge.Master.Aborts

/-!
# A conclusion is final (master/src: experiment.rs, dispatch.rs)

Each operation has its own guard against a concluded record: terminal instances absorb a status (experiment.rs:473-494),
`halt` and `resolve_deadline` look at the phase (dispatch.rs:324-390), a taint is not recorded (dispatch.rs:282-306).
That a concluded record has terminal instances only is `Experiment.Consistent`; from it every operation is the identity
on the record (`Experiment.Consistent.final`), whatever else the store holds (`Settled.updateAll`).
-/
namespace FaultForge.Master

open Lts Tasks

/-- The concluded record `e` is stored under `x`. -/
structure Settled (st : Store) (x : ExperimentId) (e : Experiment) : Prop where
  stored : st.lookup x = some e
  concluded : e.isConcluded = true

theorem handed_eq_zero {aborts : List Target} {iid : String} (h : ∀ t ∈ aborts, t.2 ≠ iid) : handed aborts iid = 0 :=
  List.countP_eq_zero.2 fun t ht => by simpa using h t ht

section
variable {st : Store} {x : ExperimentId} {e : Experiment}

/-- An operation on any record of the store leaves a concluded one as it is, and hands over nothing for it. -/
theorem Settled.update (hr : Records st) (h : Settled st x e) (op : RecordOp) (id : ExperimentId) :
    Settled (st.update id op).1 x e ∧ ∀ iid ∈ e.ids, handed (st.update id op).2 iid = 0 := by
  obtain ⟨hid, hreach⟩ := hr x e h.stored
  have hcons := (reach_consistent hreach).1
  cases hl : st.lookup id with
  | none =>
    have hsame : st.update id op = (st, []) := by
      unfold Store.update
      rw [hl]
    rw [hsame]
    exact ⟨h, fun _ _ => rfl⟩
  | some e₀ =>
    have hsnd : (st.update id op).2 = (e₀.apply op).2 := by
      unfold Store.update
      rw [hl]
    rw [hsnd]
    by_cases hx : x = id
    · subst hx
      obtain rfl : e = e₀ := Option.some.inj (h.stored.symm.trans hl)
      have hfinal := hcons.final h.concluded op
      refine ⟨⟨?_, h.concluded⟩, fun iid _ => by rw [hfinal]; rfl⟩
      rw [Store.update_lookup, if_pos rfl, hl, Option.map_some, hfinal]
    · refine ⟨⟨?_, h.concluded⟩, fun iid hi => handed_eq_zero ?_⟩
      · rw [Store.update_lookup, if_neg hx]
        exact h.stored
      · -- a target of another record is an instance of that record
        rintro t ht rfl
        obtain ⟨hid₀, hreach₀⟩ := hr id e₀ hl
        obtain ⟨hcons₀, hdist₀⟩ := reach_consistent hreach₀
        have hmem : t.2 ∈ e₀.ids := mem_ids_of_target (hcons₀.target hdist₀ ht).1
        have heq := (reach_named hreach).id_eq (reach_named hreach₀) hi hmem
        exact hx (by rw [← hid, ← hid₀, heq])

theorem Settled.updateAll (hr : Records st) (h : Settled st x e) (op : RecordOp) (ids : List ExperimentId) :
    Settled (st.updateAll op ids).1 x e ∧ ∀ iid ∈ e.ids, handed (st.updateAll op ids).2 iid = 0 := by
  have key := Store.updateAll_inv op
    (P := fun st acc => Records st ∧ Settled st x e ∧ ∀ iid ∈ e.ids, handed acc iid = 0) ?_ []
    ⟨hr, h, fun _ _ => rfl⟩ ids
  · simpa using key.2
  · rintro st acc id ⟨hr, hs, hacc⟩
    obtain ⟨hs', hnone⟩ := hs.update hr op id
    refine ⟨hr.update op id, hs', fun iid hi => ?_⟩
    rw [handed_append, hacc iid hi, hnone iid hi]

end

section
variable {C : Config} {m m' : MasterState} {l : Label} {x : ExperimentId} {e : Experiment}

/-- One step of the master. -/
theorem Settled.step (h : Settled m.shared.store x e) (hm : Sound C m) (hs : MasterStep C m l m') :
    Settled m'.shared.store x e ∧ ∀ iid ∈ e.ids, account (isAbort iid) m' = account (isAbort iid) m := by
  obtain ⟨new, hnew, hacc⟩ := hs.handed
  have habort : ∀ iid, account (isAbort iid) m' = account (isAbort iid) m + load (Act.weight (isAbort iid)) new :=
    fun iid => hacc _ (isAbort_dispatched iid)
  simp only [habort]
  cases hnew with
  | nothing hstore =>
    rw [hstore]
    exact ⟨h, fun _ _ => rfl⟩
  | salvo e₀ ht hstore =>
    obtain ⟨-, hfree⟩ := hm.publish ht
    have hne : x ≠ e₀.id := by
      rintro rfl
      rw [h.stored] at hfree
      cases hfree
    rw [hstore]
    refine ⟨⟨(AList.lookup_insert_ne hne).trans h.stored, h.concluded⟩, fun iid _ => ?_⟩
    rw [sendRunFaults_aborts, Nat.add_zero]
  | aborts op ids hstore =>
    obtain ⟨hs', hnone⟩ := h.updateAll hm.toRecords op ids
    rw [hstore]
    refine ⟨hs', fun iid hi => ?_⟩
    rw [sendAborts_load, hnone iid hi, Nat.add_zero]

theorem Settled.run {labels : List Label} (h : Settled m.shared.store x e) (hreach : Reach (masterLts C) m)
    (hrun : Lts.run (masterLts C) m labels = some m') :
    Settled m'.shared.store x e ∧ ∀ iid ∈ e.ids, account (isAbort iid) m' = account (isAbort iid) m := by
  induction labels generalizing m with
  | nil =>
    obtain rfl := Option.some.inj hrun
    exact ⟨h, fun _ _ => rfl⟩
  | cons l labels ih =>
    simp only [Lts.run] at hrun
    cases hstep : (masterLts C).step m l with
    | none => simp [hstep] at hrun
    | some m₁ =>
      have hs : MasterStep C m l m₁ := masterStep_step hstep
      obtain ⟨h₁, hacc₁⟩ := h.step (reach_sound hreach) hs
      obtain ⟨h', hacc'⟩ := ih h₁ (hreach.step hstep) (by simpa [hstep] using hrun)
      exact ⟨h', fun iid hi => (hacc' iid hi).trans (hacc₁ iid hi)⟩

theorem Settled.halts {s : Dispatcher} (h : Settled s.store x e) (p : Nat) (reason : String) :
    exec C s p (.halt x reason) = some ⟨s, [.respond (.halted .alreadyConcluded)], []⟩ := by
  simp only [exec, handleHalt, h.stored, h.concluded, if_true]
  rfl

/-- **A conclusion is final.** No operation changes a concluded record of a reachable master or hands over anything for
it; after any further run the record is the same and not one more `AbortFault` for an instance of it has been handed
over; and `halt` answers that it is concluded. -/
theorem concluded_final (h : Reach (masterLts C) m) (he : m.shared.store.lookup x = some e)
    (hc : e.isConcluded = true) :
    (∀ op, e.apply op = (e, [])) ∧
    ∀ labels m', Lts.run (masterLts C) m labels = some m' →
      m'.shared.store.lookup x = some e ∧
      (∀ iid ∈ e.ids, account (isAbort iid) m' = account (isAbort iid) m) ∧
      ∀ p reason, exec C m'.shared p (.halt x reason) =
        some ⟨m'.shared, [.respond (.halted .alreadyConcluded)], []⟩ := by
  have hset : Settled m.shared.store x e := ⟨he, hc⟩
  have hcons := (reach_consistent ((reach_sound h).records x e he).2.1).1
  refine ⟨hcons.final hc, fun labels m' hrun => ?_⟩
  obtain ⟨h', hacc⟩ := hset.run h hrun
  exact ⟨h'.stored, hacc, fun p reason => h'.halts p reason⟩

end

/-- Both instances of a published record report `DONE`. -/
def bothDone : List Label :=
  published ++ [.recv 0 (some (.instanceReport [⟨"exp-1000-1:web-01:0", toWireI32 .done, 3000, "", ""⟩,
    ⟨"exp-1000-1:web-02:0", toWireI32 .done, 3100, "", ""⟩]))] ++ runs 0 2

/-- An `ERROR` for one of them, a taint of its host, and a halt come too late. -/
def tooLate : List Label :=
  [.recv 0 (some (.instanceStatus ⟨"exp-1000-1:web-01:0", toWireI32 .error, 4000, "exit 30", ""⟩))] ++ runs 0 1 ++
  [.recv 0 (some (.taintStatus true "cleanup failed" 4000))] ++ runs 0 2 ++
    [.haltRequest "exp-1000-1" "stop"] ++ runs 3 2

theorem concluded_final_late :
    ∃ (m m' : MasterState) (e : Experiment), e.isConcluded = true ∧
      m.shared.store.lookup "exp-1000-1" = some e ∧ Lts.run (masterLts sampleConfig) m tooLate = some m' ∧
      m'.shared.store.lookup "exp-1000-1" = some e := by
  obtain ⟨m, hm, hp⟩ := reach_of_run
    (fun m => (m.shared.store.lookup "exp-1000-1").any Experiment.isConcluded &&
      (Lts.run (masterLts sampleConfig) m tooLate).isSome)
    (L := masterLts sampleConfig) (s := sampleMaster) ⟨1000, rfl⟩ bothDone (by decide +kernel)
  obtain ⟨hdone, hrun⟩ := Bool.and_eq_true_iff.1 hp
  obtain ⟨e, he, hc⟩ := (Option.any_eq_true _ _).1 hdone
  obtain ⟨m', hm'⟩ := Option.isSome_iff_exists.1 hrun
  exact ⟨m, m', e, hc, he, hm', ((concluded_final hm he hc).2 tooLate m' hm').1⟩

end FaultForge.Master
