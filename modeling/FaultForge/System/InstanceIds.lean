import FaultForge.Master.Heard
import FaultForge.System.Acceptance

/-!
# Instance ids identify (experiment.rs:68-109, 429-467, dispatch.rs:134-145, 439-446, supervisor.rs:156-165)

An id is spelled out of three parts and taken apart again at its first colon, and two machines read it: the master finds
the record of a status by it, the agent names a journal file after it. `ids_identify`: over all experiments that a
dispatcher accepts, whatever its clock reads, the ids are distinct, the agent can use them, and each leads back to the
one record it was minted for.
-/
namespace FaultForge.Master

/-- `Experiment::instance` (experiment.rs:464). -/
def Experiment.instance (e : Experiment) (instanceId : String) : Option InstanceRecord :=
  e.instances.find? fun i => i.instanceId = instanceId

/-- What a status writes of an instance. -/
def InstanceRecord.report (i : InstanceRecord) : InstanceState × String × Int := (i.state, i.reason, i.updatedUnixMs)

section
variable {e e' : Experiment} {i : InstanceRecord} {iid : String}

theorem Experiment.instance_mem (h : e.instance iid = some i) : i ∈ e.instances ∧ i.instanceId = iid :=
  ⟨List.mem_of_find?_eq_some h, by simpa using List.find?_some h⟩

/-- Where the ids are distinct, an id finds its own instance. -/
theorem Experiment.IdsDistinct.instance (hd : e.IdsDistinct) (hi : i ∈ e.instances) :
    e.instance i.instanceId = some i := by
  cases hf : e.instance i.instanceId with
  | none =>
    have hnone := List.find?_eq_none.1 hf i hi
    simp at hnone
  | some j =>
    obtain ⟨hj, hid⟩ := Experiment.instance_mem hf
    rw [List.inj_on_of_nodup_map hd hj hi hid]

/-- A record that has gone on from `e` has, under each id of `e`, the same instance. -/
theorem Experiment.Kept.instance (h : e.Kept e') (hd : e.IdsDistinct) (hi : i ∈ e.instances) :
    ∃ j, e'.instance i.instanceId = some j ∧ j.key = i.key := by
  have hkey : i.key ∈ e'.instances.map InstanceRecord.key := h.keys ▸ List.mem_map_of_mem hi
  obtain ⟨j, hj, hji⟩ := List.mem_map.1 hkey
  have hid : j.instanceId = i.instanceId := congrArg Prod.fst hji
  have hd' : e'.IdsDistinct := by
    unfold Experiment.IdsDistinct
    rw [h.ids]
    exact hd
  exact ⟨j, hid ▸ hd'.instance hj, hji⟩

theorem Experiment.instance_none (h : iid ∉ e.ids) : e.instance iid = none := by
  refine List.find?_eq_none.2 fun i hi hid => h ?_
  exact of_decide_eq_true hid ▸ List.mem_map_of_mem hi

end

end FaultForge.Master

namespace FaultForge.System

open Agent Master Lts Tasks

/-! ## What is accepted -/

/-- A step of the master, or what the clock reads from then on. -/
inductive ClockLabel
  | step (l : Label)
  | clock (now : Int)

/-- The master with a clock that may read anything at any time. -/
def clockLts (C : Master.Config) : System MasterState ClockLabel where
  init := (masterLts C).init
  step m
    | .step l => masterStep C m l
    | .clock now => some ⟨{ m.shared with now }, m.tasks⟩

/-- The experiment that a step accepts: its checks have passed, and it takes its id. -/
def accepted (C : Master.Config) (m : MasterState) : ClockLabel → Option Experiment
  | .step (.run p) =>
    match m.tasks[p]? with
    | some (.mint d :: _) =>
      some (mintExperiment (.mint m.shared.now m.shared.seq) d C.defaultGraceSecs m.shared.now C.deadlineMarginMs)
    | _ => none
  | _ => none

/-- The master, and the experiments it has accepted, newest first. -/
def acceptLts (C : Master.Config) : System (Watched MasterState (List Experiment)) ClockLabel :=
  watch (clockLts C) (fun _ => []) fun m seen l _ => (accepted C m l).toList ++ seen

/-- The record is on its way into the store. -/
def Publishes (a : Act) : Prop := ∃ e, a = .publish e

section
variable {C : Master.Config} {m m' : MasterState}

theorem accepted_some {l : ClockLabel} {e : Experiment} (h : accepted C m l = some e) :
    ∃ p d rest, l = .step (.run p) ∧ m.tasks[p]? = some (.mint d :: rest) ∧
      e = mintExperiment (.mint m.shared.now m.shared.seq) d C.defaultGraceSecs m.shared.now C.deadlineMarginMs := by
  unfold accepted at h
  split at h
  next p =>
    split at h
    next d rest ht => exact ⟨p, d, rest, rfl, ht, (Option.some.inj h).symm⟩
    next => cases h
  next => cases h

theorem accepted_mint {p : Nat} {d : ExperimentDefinition} {rest : List Act}
    (ht : m.tasks[p]? = some (.mint d :: rest)) : accepted C m (.step (.run p)) =
      some (mintExperiment (.mint m.shared.now m.shared.seq) d C.defaultGraceSecs m.shared.now C.deadlineMarginMs) := by
  simp only [accepted, ht]

theorem plain_publishes {a : Act} (h : a.plain = true) : ¬ Publishes a := by
  rintro ⟨e, rfl⟩
  cases h

theorem opens_publishes {task : List Act} (h : ∀ a ∈ task, a.opens = true) : ∀ a ∈ task, ¬ Publishes a :=
  fun a ha => plain_publishes (Act.plain_of_opens (h a ha))

/-- Only the minting of an id takes a number and leads to a publication. -/
theorem ActStep.unminted {s : Dispatcher} {p : Nat} {a : Act} {r : Effect Dispatcher Act} (h : ActStep C s p a r)
    (hne : ∀ d, a ≠ .mint d) :
    r.shared.seq = s.seq ∧ (∀ b ∈ r.acts, ¬ Publishes b) ∧ Each (fun b => ¬ Publishes b) r.spawned := by
  have hnil : Each (fun b => ¬ Publishes b) [] := fun _ ht => by cases ht
  cases h with
  | mint d => exact absurd rfl (hne d)
  | publish e =>
    refine ⟨rfl, fun b hb => ?_, hnil⟩
    rcases List.mem_append.1 hb with hb | hb
    · obtain ⟨i, f, -, -, rfl⟩ := mem_sendRunFaults hb
      simp [Publishes]
    · simp only [List.mem_cons, List.not_mem_nil, or_false] at hb
      rcases hb with rfl | rfl <;> simp [Publishes]
  | @touch _ op ids acts htouch hacts =>
    refine ⟨rfl, fun b hb => ?_, hnil⟩
    rcases List.mem_append.1 hb with hb | hb
    · obtain ⟨t, -, rfl⟩ := mem_sendAborts hb
      simp [Publishes]
    · obtain ⟨r, rfl⟩ := hacts b hb
      simp [Publishes]
  | arm id dl =>
    refine ⟨rfl, by simp, fun task ht b hb => ?_⟩
    obtain rfl := List.mem_singleton.1 ht
    obtain rfl := List.mem_singleton.1 hb
    simp [Publishes]
  | setTaint h tainted reason ts => cases tainted <;> exact ⟨rfl, by simp [Publishes], hnil⟩
  | quiet hq hacts => exact ⟨rfl, fun b hb => plain_publishes (hacts b hb), hnil⟩
  | leave => exact ⟨(endSession_fields s p).2.2, by simp, hnil⟩
  | _ => exact ⟨rfl, by simp [Publishes], hnil⟩

/-! ## Every record is one that was accepted -/

structure Tracked (seen : List Experiment) (m : MasterState) : Prop where
  minted : ∀ e ∈ seen, recordLts.init e ∧ MintedBelow m.shared.seq e.id
  distinct : (seen.map Experiment.id).Nodup
  /-- The counter starts at 1. -/
  counter : m.shared.seq = seen.length + 1
  pending : Each (fun a => ∀ e, a = .publish e → e ∈ seen) m.tasks
  stored : ∀ x e, m.shared.store.lookup x = some e → ∃ e₀ ∈ seen, e₀.id = x ∧ e₀.Kept e

variable {seen : List Experiment}

/-- The acceptance of an experiment. -/
theorem Tracked.mint {p : Nat} {d : ExperimentDefinition} {rest : List Act} {e : Experiment} (h : Tracked seen m)
    (hm : Sound C m) (ht : m.tasks[p]? = some (.mint d :: rest))
    (he : e = mintExperiment (.mint m.shared.now m.shared.seq) d C.defaultGraceSecs m.shared.now C.deadlineMarginMs) :
    Tracked (e :: seen) ⟨{ m.shared with seq := m.shared.seq + 1 }, m.tasks.set p (.publish e :: rest)⟩ := by
  have hid : e.id = .mint m.shared.now m.shared.seq := he ▸ rfl
  refine ⟨?_, ?_, ?_, ?_, ?_⟩
  · intro e' hmem
    rcases List.mem_cons.1 hmem with rfl | hmem
    · obtain ⟨facts, hg, hv⟩ := hm.acts.get ht _ List.mem_cons_self
      exact ⟨⟨d, C.catalog, facts, m.shared.now, m.shared.seq, C.defaultGraceSecs, C.deadlineMarginMs, hg, hv, he⟩,
        m.shared.now, m.shared.seq, Nat.lt_succ_self _, hid⟩
    · obtain ⟨hi, hb⟩ := h.minted e' hmem
      exact ⟨hi, hb.mono (Nat.le_succ _)⟩
  · rw [List.map_cons, List.nodup_cons]
    refine ⟨fun hmem => ?_, h.distinct⟩
    obtain ⟨e', he', heq⟩ := List.mem_map.1 hmem
    have hb := (h.minted e' he').2
    rw [heq, hid] at hb
    exact not_mintedBelow m.shared.seq m.shared.now hb
  · simp only [List.length_cons, h.counter]
  · refine (h.pending.mono fun a ha e' hp => List.mem_cons_of_mem _ (ha e' hp)).set fun a ha e' hp => ?_
    rcases List.mem_cons.1 ha with rfl | ha
    · obtain rfl := Act.publish.inj hp
      exact List.mem_cons_self
    · exact List.mem_cons_of_mem _ (h.pending.get ht a (List.mem_cons_of_mem _ ha) e' hp)
  · intro x e' hl
    obtain ⟨e₀, hmem, hx, hk⟩ := h.stored x e' hl
    exact ⟨e₀, List.mem_cons_of_mem _ hmem, hx, hk⟩

/-- Any other act. -/
theorem Tracked.act {p : Nat} {a : Act} {rest : List Act} {r : Effect Dispatcher Act} (h : Tracked seen m)
    (ht : m.tasks[p]? = some (a :: rest)) (hs : ActStep C m.shared p a r) (hne : ∀ d, a ≠ .mint d) :
    Tracked seen ⟨r.shared, m.tasks.set p (r.acts ++ rest) ++ r.spawned⟩ := by
  obtain ⟨hseq, hacts, hspawned⟩ := ActStep.unminted hs hne
  have hnot : ∀ b, ¬ Publishes b → ∀ e, b = .publish e → e ∈ seen := fun b hb e he => absurd ⟨e, he⟩ hb
  refine ⟨hseq ▸ h.minted, h.distinct, hseq.trans h.counter, ?_, fun x e he => ?_⟩
  · exact h.pending.step ht (fun b hb => hb) (fun b hb => hnot b (hacts b hb)) (hspawned.mono hnot)
  · cases hs with
    | publish e₀ =>
      by_cases hx : x = e₀.id
      · subst hx
        rw [AList.lookup_insert] at he
        obtain rfl := Option.some.inj he
        exact ⟨e₀, h.pending.get ht _ List.mem_cons_self e₀ rfl, rfl, .refl e₀⟩
      · rw [AList.lookup_insert_ne hx] at he
        exact h.stored x e he
    | touch =>
      refine Store.updateAll_each (P := fun x e => ∃ e₀ ∈ seen, e₀.id = x ∧ e₀.Kept e) ?_ h.stored _ he
      rintro x e ⟨e₀, hmem, hx, hk⟩
      exact ⟨e₀, hmem, hx, hk.trans (e.apply_kept _)⟩
    | leave => exact h.stored x e ((endSession_fields m.shared p).1 ▸ he)
    | _ => exact h.stored x e he

theorem Tracked.step {l : Label} (h : Tracked seen m) (hm : Sound C m) (hs : masterStep C m l = some m') :
    Tracked ((accepted C m (.step l)).toList ++ seen) m' := by
  cases hacc : accepted C m (.step l) with
  | some e =>
    obtain ⟨p, d, rest, hl, ht, he⟩ := accepted_some hacc
    obtain rfl := ClockLabel.step.inj hl
    have hexec : exec C m.shared p (.mint d) =
        some ⟨{ m.shared with seq := m.shared.seq + 1 }, [.publish e], []⟩ := by
      rw [he]
      rfl
    obtain rfl := Option.some.inj ((step_of_exec ht hexec).symm.trans hs)
    rw [List.append_nil]
    exact h.mint hm ht he
  | none =>
    have hnew : ∀ {task : List Act}, (∀ a ∈ task, a.opens = true) → ∀ a ∈ task, ∀ e, a = .publish e → e ∈ seen :=
      fun ho a ha e he => absurd ⟨e, he⟩ (opens_publishes ho a ha)
    rw [Option.toList_none, List.nil_append]
    cases masterStep_step hs with
    | act ht hact =>
      refine h.act ht hact fun d hd => ?_
      rw [accepted_mint (hd ▸ ht)] at hacc
      cases hacc
    | request ho _ =>
      refine ⟨h.minted, h.distinct, h.counter, h.pending.append fun task ht => ?_, h.stored⟩
      obtain rfl := List.mem_singleton.1 ht
      exact hnew ho
    | connect => exact ⟨h.minted, h.distinct, h.counter, h.pending.append (by simp [Each]), h.stored⟩
    | intake _ _ _ ho _ => exact ⟨h.minted, h.distinct, h.counter, h.pending.set (hnew ho), h.stored⟩
    | drop _ _ => exact ⟨h.minted, h.distinct, h.counter, h.pending.set (by simp), h.stored⟩
    | channel _ _ _ _ _ => exact ⟨h.minted, h.distinct, h.counter, h.pending, h.stored⟩
    | tick ms => exact ⟨h.minted, h.distinct, h.counter, h.pending, h.stored⟩

variable {w : Watched MasterState (List Experiment)}

/-- Whatever the clock reads, the state is sound and every record was accepted. -/
theorem reach_tracked (h : Reach (acceptLts C) w) : Sound C w.state ∧ Tracked w.seen w.state := by
  refine h.inv (P := fun w => Sound C w.state ∧ Tracked w.seen w.state) ?_ ?_
  · rintro ⟨m, seen⟩ ⟨⟨now, hm⟩, hseen⟩
    obtain rfl : seen = [] := hseen
    obtain rfl : m = ⟨.new now, []⟩ := hm
    refine ⟨reach_sound (.init ⟨now, rfl⟩), by simp, List.nodup_nil, rfl, ?_, ?_⟩
    · intro task ht
      cases ht
    · intro x e he
      cases he
  · rintro w l w' ⟨hm, ht⟩ hs
    obtain ⟨hstep, hseen⟩ := watch_step_some.1 hs
    rw [hseen]
    cases l with
    | step l => exact ⟨hm.step (masterStep_step hstep), ht.step hm hstep⟩
    | clock now =>
      rw [← Option.some.inj hstep]
      exact ⟨⟨hm.acts.mono fun a ha => ha.mono (Nat.le_refl _), hm.records, hm.single⟩,
        ht.minted, ht.distinct, ht.counter, ht.pending, ht.stored⟩

/-! ## Ids -/

theorem init_named {e : Experiment} (h : recordLts.init e) : e.Named := reach_named (.init h)

theorem init_distinct {e : Experiment} (h : recordLts.init e) : e.IdsDistinct := (reach_consistent (.init h)).2

/-- The agent can use the instance ids of an accepted definition. -/
theorem init_valid {e : Experiment} (h : recordLts.init e) {i : InstanceRecord} (hi : i ∈ e.instances) :
    validInstanceId i.instanceId = true := by
  obtain ⟨definition, catalog, facts, nowMs, seq, graceSecs, marginMs, -, hv, rfl⟩ := h
  obtain ⟨d, action, host, hd, hhost, hmint⟩ := mem_mint hi
  obtain ⟨name, hparse, rfl⟩ := mintInstance_some hmint
  have hsafe : hostnameIdSafe host = true := (validate_action hv hd).2 host hhost
  exact instanceId_valid nowMs seq (parse_val hsafe hparse ▸ hsafe) action

/-- The ids of different experiments have nothing in common. -/
theorem Tracked.ids_disjoint (h : Tracked seen m) {e e' : Experiment} (he : e ∈ seen) (he' : e' ∈ seen)
    (hne : e.id ≠ e'.id) : e.ids.Disjoint e'.ids := by
  intro iid hi hi'
  exact hne ((init_named (h.minted e he).1).id_eq (init_named (h.minted e' he').1) hi hi')

theorem Tracked.ids_nodup (h : Tracked seen m) : (seen.flatMap Experiment.ids).Nodup := by
  rw [List.nodup_flatMap]
  refine ⟨fun e he => init_distinct (h.minted e he).1, ?_⟩
  exact (List.pairwise_map.1 h.distinct).imp_of_mem fun he he' hne => h.ids_disjoint he he' hne

/-- The record of another experiment does not know the id. -/
theorem Tracked.instance_none (h : Tracked seen m) {e₀ e : Experiment} {i : InstanceRecord} {x : ExperimentId}
    (he₀ : e₀ ∈ seen) (hi : i ∈ e₀.instances) (he : m.shared.store.lookup x = some e) (hx : x ≠ e₀.id) :
    e.instance i.instanceId = none := by
  obtain ⟨e₁, he₁, rfl, hk⟩ := h.stored x e he
  refine Experiment.instance_none fun hmem => ?_
  have hids : e.ids = e₁.ids := hk.ids
  exact h.ids_disjoint he₁ he₀ hx (hids ▸ hmem) (List.mem_map_of_mem hi)

/-! ## A status -/

/-- A status changes the record that its id leads to, of which it writes one instance. -/
theorem status_reaches {s : Dispatcher} {p : Nat} {iid reason : String} {state : InstanceState} {ts : Int}
    {r : Effect Dispatcher Act} {x₀ : ExperimentId} (ho : owningExperimentId iid = some x₀)
    (h : exec C s p (.status iid state reason ts) = some r) {x : ExperimentId} {e : Experiment}
    (he : s.store.lookup x = some e) :
    ∃ e', r.shared.store.lookup x = some e' ∧ (x ≠ x₀ → e' = e) ∧ ∀ iid', iid' ≠ iid →
      (e'.instance iid').map InstanceRecord.report = (e.instance iid').map InstanceRecord.report := by
  simp only [exec, handleStatus, ho, onStore] at h
  obtain rfl := Option.some.inj h
  simp only [Store.update_lookup]
  by_cases hx : x = x₀
  · subst hx
    rw [if_pos rfl, he]
    exact ⟨_, rfl, fun hne => absurd rfl hne, fun iid' hne => handleStatus_find_ne (fun _ => rfl) e (Ne.symm hne)⟩
  · rw [if_neg hx]
    exact ⟨e, he, fun _ => rfl, fun _ _ => rfl⟩

/-- In `s`, the id of instance `i` leads to the record of experiment `x`, there to that instance, and to no other
record; and so does a status for it. -/
structure Identifies (C : Master.Config) (s : Dispatcher) (x : ExperimentId) (i : InstanceRecord) : Prop where
  valid : validInstanceId i.instanceId = true
  owner : owningExperimentId i.instanceId = some x
  found : ∀ e, s.store.lookup x = some e → ∃ j, e.instance i.instanceId = some j ∧ j.key = i.key
  alone : ∀ y e, s.store.lookup y = some e → y ≠ x → e.instance i.instanceId = none
  status : ∀ p state reason ts r, exec C s p (.status i.instanceId state reason ts) = some r →
    ∀ y e, s.store.lookup y = some e → ∃ e', r.shared.store.lookup y = some e' ∧ (y ≠ x → e' = e) ∧
      ∀ iid, iid ≠ i.instanceId →
        (e'.instance iid).map InstanceRecord.report = (e.instance iid).map InstanceRecord.report

theorem Tracked.identifies (h : Tracked seen m) {e₀ : Experiment} (he₀ : e₀ ∈ seen) {i : InstanceRecord}
    (hi : i ∈ e₀.instances) : Identifies C m.shared e₀.id i := by
  have hinit := (h.minted e₀ he₀).1
  have howner : owningExperimentId i.instanceId = some e₀.id := (init_named hinit).owner hi
  refine ⟨init_valid hinit hi, howner, fun e he => ?_, fun y e he hne => h.instance_none he₀ hi he hne, ?_⟩
  · obtain ⟨e₁, he₁, hid, hk⟩ := h.stored _ e he
    obtain rfl := List.inj_on_of_nodup_map h.distinct he₁ he₀ hid
    exact hk.instance (init_distinct hinit) hi
  · intro p state reason ts r hexec y e he
    exact status_reaches howner hexec he

/-- **Instance ids identify.** Of the experiments that one dispatcher has accepted, in any interleaving and with any
readings of the clock, the ids are pairwise distinct, and so are the instance ids, within and across experiments. Every
record of the store is one of them, and each instance id leads to the one instance of the one record it was minted
for. -/
theorem ids_identify (h : Reach (acceptLts C) w) :
    (w.seen.map Experiment.id).Nodup ∧ (w.seen.flatMap Experiment.ids).Nodup ∧
      (∀ x e, w.state.shared.store.lookup x = some e → ∃ e₀ ∈ w.seen, e₀.id = x ∧ e₀.Kept e) ∧
      ∀ e₀ ∈ w.seen, ∀ i ∈ e₀.instances,
        e₀.instance i.instanceId = some i ∧ Identifies C w.state.shared e₀.id i := by
  have ht := (reach_tracked h).2
  refine ⟨ht.distinct, ht.ids_nodup, ht.stored, fun e₀ he₀ i hi => ⟨?_, ht.identifies he₀ hi⟩⟩
  exact (init_distinct (ht.minted e₀ he₀).1).instance hi

end

/-- Both hosts join and two calls submit the same definition; the second is accepted first, and the clock then goes
back. -/
def twoAccepted : List ClockLabel :=
  (joins 0 "web-01" ++ joins 1 "web-02" ++ List.replicate 2 (Label.submit sampleDefinition) ++ runs 2 4 ++
    runs 3 6).map .step ++ [.clock 500] ++ (runs 2 2).map .step

theorem ids_identify_twoAccepted :
    ∃ w : Watched MasterState (List Experiment),
      w.seen.map Experiment.id = ["exp-500-2", "exp-1000-1"] ∧ (w.seen.flatMap Experiment.ids).Nodup := by
  obtain ⟨w, hw, hp⟩ := reach_of_run
    (fun w : Watched MasterState (List Experiment) =>
      decide (w.seen.map Experiment.id = ["exp-500-2", "exp-1000-1"]))
    (L := acceptLts sampleConfig) (s := ⟨sampleMaster, []⟩) ⟨⟨1000, rfl⟩, rfl⟩ twoAccepted (by decide +kernel)
  exact ⟨w, of_decide_eq_true hp, (ids_identify hw).2.1⟩

end FaultForge.System
