import FaultForge.Master.Ledger
import FaultForge.Agent.Once

/-!
# An instance is dispatched once, and injected once

The salvo of a record holds one `RunFault` for an instance at most, and the record is published once under an id that
no other record has; so the ledger never holds two `RunFault` frames of one id (`Runs.step`). With the agent's side
(`Agent.Supervisor.injections_le_one`) this is `no_double_injection`.
-/
namespace FaultForge.Master

open Lts Tasks

/-! ## Owners -/

/-- Some record of the store has an instance of that id. -/
def Owned (st : Store) (iid : String) : Prop := ∃ x e, st.lookup x = some e ∧ iid ∈ e.ids

theorem Owned.updateAll {st : Store} {iid : String} (h : Owned st iid) (op : RecordOp) (ids : List ExperimentId) :
    Owned (st.updateAll op ids).1 iid := by
  obtain ⟨x, e, he, hi⟩ := h
  have hkeep : ∀ e : Experiment, iid ∈ e.ids → iid ∈ (e.apply op).1.ids := fun e hi => by
    unfold Experiment.ids
    rwa [(e.apply_kept op).ids]
  obtain ⟨e', he', hi'⟩ := Store.updateAll_keeps hkeep he hi ids
  exact ⟨x, e', he', hi'⟩

section
variable {C : Config} {m m' : MasterState} {l : Label}

/-- What is known of a record that is about to be published. -/
theorem Sound.publish (hm : Sound C m) {p : Nat} {rest : List Act} {e : Experiment}
    (ht : m.tasks[p]? = some (.publish e :: rest)) :
    Reach recordLts e ∧ m.shared.store.lookup e.id = none := by
  refine ⟨.init (hm.acts.get ht _ List.mem_cons_self).1, ?_⟩
  have hpos : 0 < weigh (pubs e.id) m.tasks := by
    refine weigh_pos ht ?_
    simp only [load_cons, pubs, if_pos]
    omega
  have hle := hm.single e.id
  cases hl : m.shared.store.lookup e.id with
  | none => rfl
  | some e₁ =>
    have : stored m.shared.store e.id = 1 := by simp [stored, hl]
    omega

theorem Owned.insert {st : Store} {iid : String} (h : Owned st iid) {e : Experiment} (hnew : st.lookup e.id = none) :
    Owned (st.insert e.id e) iid := by
  obtain ⟨x, e₁, he, hi⟩ := h
  have hx : x ≠ e.id := fun hx => by rw [hx, hnew] at he; cases he
  exact ⟨x, e₁, (AList.lookup_insert_ne hx).trans he, hi⟩

/-- The instances of a new record belong to no other. -/
theorem Sound.publish_fresh (hm : Sound C m) {p : Nat} {rest : List Act} {e : Experiment}
    (ht : m.tasks[p]? = some (.publish e :: rest)) {iid : String} (hi : iid ∈ e.ids) : ¬ Owned m.shared.store iid := by
  rintro ⟨x, e₁, he, hi₁⟩
  obtain ⟨hr, hnew⟩ := hm.publish ht
  obtain ⟨hid, hr₁, -⟩ := hm.records x e₁ he
  have heq := (reach_named hr).id_eq (reach_named hr₁) hi hi₁
  rw [heq, hid, he] at hnew
  cases hnew

/-! ## One `RunFault` for each instance -/

theorem runFault_instanceId {e : Experiment} {i : InstanceRecord} {f : RunFault} (h : runFault C e i = some f) :
    f.instanceId = i.instanceId := by
  simp only [runFault, Option.bind_eq_bind, Option.bind_eq_some_iff, Option.pure_def, Option.some.injEq] at h
  obtain ⟨action, -, entry, -, params, -, rfl⟩ := h
  rfl

theorem salvo_count (e : Experiment) (iid : String) (l : List InstanceRecord) :
    load (Act.weight (isRun iid))
        (l.filterMap fun i => (runFault C e i).map fun f => .toHost i.hostname (.runFault f)) ≤
      (l.map InstanceRecord.instanceId).count iid := by
  induction l with
  | nil => simp
  | cons i l ih =>
    rw [List.map_cons, List.count_cons]
    cases hf : runFault C e i with
    | none =>
      rw [List.filterMap_cons_none (by rw [hf]; rfl)]
      omega
    | some f =>
      rw [List.filterMap_cons_some (by rw [hf]; rfl), load_cons]
      have hw : Act.weight (isRun iid) (.toHost i.hostname (.runFault f)) = if i.instanceId == iid then 1 else 0 := by
        rw [← runFault_instanceId hf]
        by_cases h : f.instanceId = iid <;> simp [Act.weight, Act.frame, tally, isRun, h]
      beta_reduce
      omega

/-- Every `RunFault` in the ledger is the only one of its id, and belongs to a record. -/
structure Runs (m : MasterState) : Prop where
  once : ∀ iid, account (isRun iid) m ≤ 1
  owned : ∀ iid, 0 < account (isRun iid) m → Owned m.shared.store iid

theorem sendAborts_runs (aborts : List Target) (iid : String) :
    load (Act.weight (isRun iid)) (sendAborts aborts) = 0 :=
  load_eq_zero fun a ha => by
    obtain ⟨t, -, rfl⟩ := mem_sendAborts ha
    rfl

theorem Runs.step (h : Runs m) (hm : Sound C m) (hs : MasterStep C m l m') : Runs m' := by
  obtain ⟨new, hnew, hacc⟩ := hs.handed
  have hrun : ∀ iid, account (isRun iid) m' = account (isRun iid) m + load (Act.weight (isRun iid)) new :=
    fun iid => hacc _ (isRun_dispatched iid)
  cases hnew with
  | nothing hstore =>
    simp only [load_nil, Nat.add_zero] at hrun
    exact ⟨fun iid => hrun iid ▸ h.once iid, fun iid hpos => hstore ▸ h.owned iid (hrun iid ▸ hpos)⟩
  | aborts op ids hstore =>
    simp only [sendAborts_runs, Nat.add_zero] at hrun
    exact ⟨fun iid => hrun iid ▸ h.once iid, fun iid hpos => hstore ▸ (h.owned iid (hrun iid ▸ hpos)).updateAll op ids⟩
  | salvo e ht hstore =>
    obtain ⟨hr, hfree⟩ := hm.publish ht
    have hnodup : e.ids.Nodup := (reach_consistent hr).2
    have hle : ∀ iid, load (Act.weight (isRun iid)) (sendRunFaults C e) ≤ e.ids.count iid :=
      fun iid => salvo_count e iid e.instances
    have hone : ∀ iid, e.ids.count iid ≤ 1 := fun iid => List.nodup_iff_count_le_one.1 hnodup iid
    -- an instance of the new record has no frame yet
    have hzero : ∀ iid, iid ∈ e.ids → account (isRun iid) m = 0 := fun iid hi => by
      by_contra hne
      exact hm.publish_fresh ht hi (h.owned iid (Nat.pos_of_ne_zero hne))
    constructor
    · intro iid
      have h1 := hrun iid
      have h2 := hle iid
      have h3 := hone iid
      by_cases hi : iid ∈ e.ids
      · have := hzero iid hi
        omega
      · have := List.count_eq_zero.2 hi
        have := h.once iid
        omega
    · intro iid hpos
      rw [hstore]
      by_cases hi : iid ∈ e.ids
      · exact ⟨e.id, e, AList.lookup_insert _, hi⟩
      · have h1 := hrun iid
        have h2 := hle iid
        have h3 := List.count_eq_zero.2 hi
        exact (h.owned iid (by omega)).insert hfree

theorem reach_runs (h : Reach (masterLts C) m) : Runs m := by
  refine h.inv_of (I := Sound C) (P := Runs) (fun _ => reach_sound) ?_
    fun m l m' hm hr hs => hr.step hm (masterStep_step hs)
  rintro m ⟨now, rfl⟩
  exact ⟨fun iid => Nat.zero_le 1, fun iid hpos => absurd hpos (Nat.lt_irrefl 0)⟩

/-- How many `RunFault` frames of that id have been sent. -/
def runsSent (m : MasterState) (iid : String) : Nat := m.shared.log.countP (Delivery.sends (isRun iid))

theorem runsSent_le_one (h : Reach (masterLts C) m) (iid : String) : runsSent m iid ≤ 1 :=
  Nat.le_trans (sends_le_account m) ((reach_runs h).once iid)

end

/-- **No double injection.** For every run of an agent `Invoke(Inject)` is performed at most once for an id, a
`RunFault` for a known id changes nothing, and the replay performs only `Abort` and `Cleanup`; for every run of the
master at most one `RunFault` is sent for an id. -/
theorem no_double_injection :
    (∀ (X : Agent.Ext) (a : Agent.Supervisor), Reach (Agent.agentLts X) a →
      (∀ id, a.injections id ≤ 1) ∧
      (∀ run : RunFault, a.Knows run.instanceId → Agent.agentStep X a (.frame (.runFault run)) = some a) ∧
      ∀ id command, (id, command) ∈ a.replayed → command = .abort ∨ command = .cleanup) ∧
    ∀ (C : Config) (m : MasterState), Reach (masterLts C) m → ∀ iid, runsSent m iid ≤ 1 := by
  refine ⟨fun X a ha => ⟨Agent.Supervisor.injections_le_one ha, fun run hk => ?_, Agent.reach_replayed ha⟩,
    fun C m hm => runsSent_le_one hm⟩
  exact congrArg some (Agent.handleRunFault_known a run hk)

/-- An agent that has injected the sample instance, and a master that has dispatched both sample instances. -/
theorem no_double_injection_sample :
    (∃ a, Reach (Agent.agentLts Agent.plainExt) a ∧ 0 < a.injections Agent.sampleRun.instanceId ∧
      a.injections Agent.sampleRun.instanceId ≤ 1) ∧
    ∃ m, Reach (masterLts sampleConfig) m ∧ 0 < runsSent m "exp-1000-1:web-02:0" ∧
      runsSent m "exp-1000-1:web-02:0" ≤ 1 := by
  obtain ⟨a, ha, hp⟩ := reach_of_run (fun a => decide (0 < a.injections Agent.sampleRun.instanceId))
    (L := Agent.agentLts Agent.plainExt) (s := .boot Agent.plainExt Agent.sampleBoot) ⟨Agent.sampleBoot, rfl⟩
    ([.conn .connected, .frame (.runFault Agent.sampleRun)] ++
      Agent.activeChoices.map (.task Agent.sampleRun.instanceId)) (by decide +kernel)
  obtain ⟨m, hm, hq⟩ := reach_of_run (fun m => decide (0 < runsSent m "exp-1000-1:web-02:0"))
    (L := masterLts sampleConfig) (s := sampleMaster) ⟨1000, rfl⟩ (published ++ runs 2 6) (by decide +kernel)
  exact ⟨⟨a, ha, of_decide_eq_true hp, (no_double_injection.1 _ a ha).1 _⟩,
    ⟨m, hm, of_decide_eq_true hq, no_double_injection.2 _ m hm _⟩⟩

end FaultForge.Master
