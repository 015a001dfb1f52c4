import FaultForge.Master.Routing
import FaultForge.Master.Salvo

/-!
# A halt and the hosts that are away

The kill-switch asks for every live instance once, at its firing. A host without a session at that moment is skipped
("unreachable agents are skipped", dispatch.rs:322), and what a host reports after it has come back asks for nothing
more (`halt_misses_returned`). `halt_hands_over_once` says what holds of every live instance while its experiment is
`HALTING`: one `AbortFault` has been handed over, and it is in one place. A request handler that is dropped while it
fires the kill-switch takes its frames with it; the result is about the runs without that (`Undropped`).
-/
namespace FaultForge.Master

open Lts Tasks

/-- Where a frame for a host is, once it has been handed over. -/
inductive Placed (m : MasterState) (h : Hostname) (f : ServerMessage) : Prop
  /-- The sender is still to be looked up. -/
  | waiting {task : List Act} : task ∈ m.tasks → .toHost h f ∈ task → Placed m h f
  | sending {task : List Act} {t : StreamId} : task ∈ m.tasks → .enqueue t f ∈ task → Serves m.shared t h → Placed m h f
  | enqueued {t : StreamId} : .enqueued t (.ok f) ∈ m.shared.log → Serves m.shared t h → Placed m h f
  /-- The host was away. -/
  | skipped : .noSession h f ∈ m.shared.log → Placed m h f
  | lost {t : StreamId} : .sessionClosed t f ∈ m.shared.log → Serves m.shared t h → Placed m h f

/-- No handler is dropped with an `AbortFault` still to hand over. -/
def Undropped (m : MasterState) : Label → Prop
  | .drop p => ∀ task, m.tasks[p]? = some task → ∀ a ∈ task, ∀ iid, a.frame ≠ some (.abortFault iid)
  | _ => True

section
variable {C : Config} {m m' : MasterState} {l : Label} {q : ServerMessage → Bool}

theorem tally_pos {o : Option ServerMessage} (h : 0 < tally q o) : ∃ f, o = some f ∧ q f = true := by
  cases o with
  | none => cases h
  | some f =>
    cases hq : q f with
    | true => exact ⟨f, rfl, hq⟩
    | false => simp [tally, hq] at h

/-- A frame of the account is in a task or in the log. -/
theorem exists_of_account_pos (h : 0 < account q m) :
    ∃ f, q f = true ∧ ((∃ task ∈ m.tasks, ∃ a ∈ task, a.frame = some f) ∨ ∃ d ∈ m.shared.log, d.frame = some f) := by
  unfold account at h
  by_cases hw : 0 < weigh (Act.weight q) m.tasks
  · obtain ⟨task, ht, a, ha, hpos⟩ := exists_of_weigh_pos hw
    obtain ⟨f, hf, hq⟩ := tally_pos hpos
    exact ⟨f, hq, .inl ⟨task, ht, a, ha, hf⟩⟩
  · have hl : 0 < load (Delivery.weight q) m.shared.log := by omega
    obtain ⟨d, hd, hpos⟩ := exists_of_load_pos hl
    obtain ⟨f, hf, hq⟩ := tally_pos hpos
    exact ⟨f, hq, .inr ⟨d, hd, hf⟩⟩

theorem FrameFor.eq {f : ServerMessage} {h h' : Hostname} {iid : String} (hf : FrameFor f h')
    (hi : instanceOf f = some iid) (hn : Names iid h) : h' = h := by
  obtain ⟨n, k, action, he⟩ := hf iid hi
  obtain ⟨n', k', action', he'⟩ := hn
  exact (instanceId_inj (colon_not_mem_mint n k) (colon_not_mem_mint n' k') (he.symm.trans he')).2.1

theorem OnStream.serves {t : StreamId} {f : ServerMessage} {h : Hostname} {iid : String} (ho : OnStream m.shared t f)
    (hi : instanceOf f = some iid) (hn : Names iid h) : Serves m.shared t h := by
  obtain ⟨h', hs, hf⟩ := ho
  exact hf.eq hi hn ▸ hs

/-- A frame of the account is placed with the host that its instance id names, or abandoned. -/
theorem Routed.placed (hr : Routed m) (h : 0 < account q m) {hn : Hostname}
    (hq : ∀ f, q f = true → Outbound.ownReply (.ok f) = false ∧ ∃ iid, instanceOf f = some iid ∧ Names iid hn) :
    ∃ f, q f = true ∧ (Placed m hn f ∨ .abandoned f ∈ m.shared.log) := by
  obtain ⟨f, hqf, hplace⟩ := exists_of_account_pos h
  obtain ⟨hown, iid, hi, hnames⟩ := hq f hqf
  refine ⟨f, hqf, ?_⟩
  rcases hplace with ⟨task, ht, a, ha, hf⟩ | ⟨d, hd, hf⟩
  · have hra := hr.acts task ht a ha
    cases a with
    | toHost h' f' =>
      obtain rfl := Option.some.inj hf
      obtain rfl := FrameFor.eq hra hi hnames
      exact .inl (.waiting ht ha)
    | enqueue t f' =>
      obtain rfl := Option.some.inj hf
      exact .inl (.sending ht ha (OnStream.serves hra hi hnames))
    | _ => cases hf
  · have hrd := hr.log d hd
    cases d with
    | enqueued t o =>
      cases o with
      | err => cases hf
      | ok f' =>
        obtain rfl := Option.some.inj hf
        exact .inl (.enqueued hd ((hrd (.inl hown)).serves hi hnames))
    | noSession h' f' =>
      obtain rfl := Option.some.inj hf
      obtain rfl := FrameFor.eq hrd hi hnames
      exact .inl (.skipped hd)
    | sessionClosed t f' =>
      obtain rfl := Option.some.inj hf
      exact .inl (.lost hd (OnStream.serves hrd hi hnames))
    | abandoned f' =>
      obtain rfl := Option.some.inj hf
      exact .inr hd

/-- The one `AbortFault` of an instance of a record. -/
theorem abort_placed (h : Reach (masterLts C) m) {x : ExperimentId} {e : Experiment}
    (he : m.shared.store.lookup x = some e) {i : InstanceRecord} (hi : i ∈ e.instances)
    (hone : account (isAbort i.instanceId) m = 1) :
    Placed m i.hostname (.abortFault i.instanceId) ∨ .abandoned (.abortFault i.instanceId) ∈ m.shared.log := by
  have hnames : Names i.instanceId i.hostname := ((reach_routed h).records x e he).names hi
  have hclass : ∀ f, isAbort i.instanceId f = true → f = .abortFault i.instanceId := by
    intro f hq
    cases f with
    | abortFault iid => rw [of_decide_eq_true hq]
    | _ => cases hq
  obtain ⟨f, hq, hplaced⟩ := (reach_routed h).placed (q := isAbort i.instanceId) (by omega)
    fun f hq => by rw [hclass f hq]; exact ⟨rfl, i.instanceId, rfl, hnames⟩
  exact hclass f hq ▸ hplaced

theorem Experiment.asked_eq_one {e : Experiment} (hd : e.IdsDistinct) {i : InstanceRecord} (hi : i ∈ e.instances)
    (ha : i.abortRequested = true) : e.asked i.instanceId = 1 := by
  have hpos : 0 < e.asked i.instanceId := List.countP_pos_iff.2 ⟨i, hi, by simp [ha]⟩
  have hle : e.asked i.instanceId ≤ (e.instances.map InstanceRecord.instanceId).count i.instanceId := by
    unfold Experiment.asked List.count
    rw [List.countP_map]
    exact List.countP_mono_left fun j _ hj => by simp only [decide_eq_true_eq] at hj; simp [hj.1]
  have hone := List.nodup_iff_count_le_one.1 hd i.instanceId
  omega

/-- A live instance of a halting record has been asked once. -/
theorem halting_asked (h : Reach (masterLts C) m) {x : ExperimentId} {e : Experiment}
    (he : m.shared.store.lookup x = some e) (hp : e.phase = .halting) {i : InstanceRecord} (hi : i ∈ e.instances)
    (hlive : i.isTerminal = false) : account (isAbort i.instanceId) m = 1 := by
  obtain ⟨hcons, hdist⟩ := reach_consistent ((reach_sound h).records x e he).2.1
  unfold Experiment.Consistent at hcons
  rw [hp] at hcons
  have hopen : e.isConcluded = false := by
    unfold Experiment.isConcluded
    rw [hp]
  rw [(reach_aborts h).exact x e he hopen i.instanceId (List.mem_map_of_mem hi)]
  exact Experiment.asked_eq_one hdist hi (hcons.asked i hi hlive)

/-- Only a dropped handler abandons a frame. -/
theorem MasterStep.abandons {f : ServerMessage} (h : MasterStep C m l m') (hf : .abandoned f ∈ m'.shared.log) :
    .abandoned f ∈ m.shared.log ∨ ∃ p task, l = .drop p ∧ m.tasks[p]? = some task ∧ ∃ a ∈ task, a.frame = some f := by
  cases h with
  | act ht hs =>
    refine .inl ?_
    cases hs with
    | noSession | gone | enqueued | relayed | reply | reject => simpa using hf
    | leave => exact (endSession_fields m.shared _).2.1 ▸ hf
    | _ => exact hf
  | drop ht =>
    rcases List.mem_append.1 hf with hf | hf
    · exact .inl hf
    · obtain ⟨frame, hframe, heq⟩ := List.mem_map.1 hf
      obtain rfl := Delivery.abandoned.inj heq
      obtain ⟨a, ha, hframe⟩ := List.mem_filterMap.1 hframe
      exact .inr ⟨_, _, rfl, ht, a, ha, hframe⟩
  | _ => exact .inl hf

theorem not_abandoned_of_undropped (h : ReachIf (masterLts C) Undropped m) (iid : String) :
    .abandoned (.abortFault iid) ∉ m.shared.log := by
  refine h.inv (I := fun _ => True) (P := fun m => Delivery.abandoned (.abortFault iid) ∉ m.shared.log)
    (fun _ _ => trivial) (fun m hm => ?_) fun m l m' _ hi hu hs hlog => ?_
  · obtain ⟨now, rfl⟩ := hm
    exact List.not_mem_nil
  · rcases (masterStep_step hs).abandons hlog with hlog | ⟨p, task, rfl, ht, a, ha, hframe⟩
    · exact hi hlog
    · exact hu task ht a ha iid hframe

/-- **While an experiment is `HALTING`, one `AbortFault` has been handed over for each of its live instances**, for the
host of the instance, and no report hands over another. -/
theorem halt_hands_over_once (C : Config) (m : MasterState) (h : ReachIf (masterLts C) Undropped m) (x : ExperimentId)
    (e : Experiment) (he : m.shared.store.lookup x = some e) (hp : e.phase = .halting) (i : InstanceRecord)
    (hi : i ∈ e.instances) (hlive : i.isTerminal = false) :
    account (isAbort i.instanceId) m = 1 ∧ Placed m i.hostname (.abortFault i.instanceId) ∧
      ∀ iid state reason ts, (e.apply (.status iid state reason ts)).2 = [] := by
  have hreach := h.reach
  obtain ⟨hcons, hdist⟩ := reach_consistent ((reach_sound hreach).records x e he).2.1
  have hquiet : ∀ iid state reason ts, (e.apply (.status iid state reason ts)).2 = [] := fun iid state reason ts =>
    (hcons.step hdist _).later (by rw [hp]; simp) fun now h => by cases h
  have hone : account (isAbort i.instanceId) m = 1 := halting_asked hreach he hp hi hlive
  exact ⟨hone, (abort_placed hreach he hi hone).resolve_right (not_abandoned_of_undropped h _), hquiet⟩

end

/-! ## A host that comes back -/

def instance01 : String := "exp-1000-1:web-01:0"

/-- The salvo is over, the session of web-01 drops, and then the experiment is halted. -/
def haltWhileAway : List Label :=
  published ++ runs 2 6 ++ [.eof 0] ++ runs 0 1 ++ [.haltRequest "exp-1000-1" "stop"] ++ runs 4 5

/-- web-01 comes back on stream 5 and reports its instance `ACTIVE`. -/
def comesBack : List Label :=
  joins 5 "web-01" ++ [.recv 5 (some (.instanceReport [⟨instance01, toWireI32 .active, 3000, "", ""⟩]))] ++ runs 5 1

/-- The experiment is `HALTING`, and `q` holds of one of its live instances. -/
def haltingWith (q : InstanceRecord → Bool) (m : MasterState) : Bool :=
  match m.shared.store.lookup "exp-1000-1" with
  | some e => e.phase = .halting && e.instances.any fun i => !i.isTerminal && q i
  | none => false

theorem haltingWith_iff {q : InstanceRecord → Bool} {m : MasterState} (h : haltingWith q m = true) :
    ∃ e i, m.shared.store.lookup "exp-1000-1" = some e ∧ e.phase = .halting ∧ i ∈ e.instances ∧
      i.isTerminal = false ∧ q i = true := by
  unfold haltingWith at h
  split at h
  next e he =>
    obtain ⟨hp, hany⟩ := Bool.and_eq_true_iff.1 h
    obtain ⟨i, hi, hq⟩ := List.any_eq_true.1 hany
    obtain ⟨hlive, hq⟩ := Bool.and_eq_true_iff.1 hq
    exact ⟨e, i, he, of_decide_eq_true hp, hi, by simpa using hlive, hq⟩
  next => cases h

/-- web-01 is away when the halt comes: its `AbortFault` is skipped. -/
theorem halt_hands_over_once_away :
    ∃ (m : MasterState) (i : InstanceRecord), i.instanceId = instance01 ∧
      Delivery.noSession web01 (.abortFault instance01) ∈ m.shared.log ∧ account (isAbort i.instanceId) m = 1 ∧
      Placed m i.hostname (.abortFault i.instanceId) := by
  obtain ⟨m, hm, hp⟩ := reachIf_of_run (L := masterLts sampleConfig) (G := Undropped)
    (g := fun _ l => match l with | .drop _ => false | _ => true)
    (fun m l hl => by
      cases l with
      | drop p => cases hl
      | _ => trivial)
    (fun m => haltingWith (fun i => i.instanceId = instance01) m &&
      m.shared.log.any fun d => match d with
        | .noSession h f => h = web01 && f = .abortFault instance01
        | _ => false)
    (s := sampleMaster) ⟨1000, rfl⟩ haltWhileAway (by decide +kernel)
  obtain ⟨hhalt, hlog⟩ := Bool.and_eq_true_iff.1 hp
  obtain ⟨e, i, he, hphase, hi, hlive, hid⟩ := haltingWith_iff hhalt
  obtain ⟨hone, hplaced, -⟩ := halt_hands_over_once sampleConfig m hm _ e he hphase i hi hlive
  refine ⟨m, i, of_decide_eq_true hid, ?_, hone, hplaced⟩
  obtain ⟨d, hd, hq⟩ := List.any_eq_true.1 hlog
  split at hq
  next h f =>
    simp only [Bool.and_eq_true, decide_eq_true_eq] at hq
    obtain ⟨rfl, rfl⟩ := hq
    exact hd
  next => cases hq

/-- web-01 comes back during the halt and reports its instance `ACTIVE`: no `AbortFault` has ever been sent to it, and
none is on its way. -/
theorem halt_misses_returned :
    ∃ m₀ m, Reach (masterLts sampleConfig) m₀ ∧ haltingWith (fun i => i.instanceId = instance01) m₀ = true ∧
      run (masterLts sampleConfig) m₀ comesBack = some m ∧
      haltingWith (fun i => i.instanceId = instance01 && i.state = .active) m = true ∧
      m.shared.sessions.sender web01 = some 5 ∧
      (∀ t, .ok (.abortFault instance01) ∉ m.shared.sent t) ∧
      weigh (Act.weight (isAbort instance01)) m.tasks = 0 := by
  obtain ⟨m₀, hm₀, hp₀⟩ := reach_of_run
    (fun m₀ => haltingWith (fun i => i.instanceId = instance01) m₀ &&
      (run (masterLts sampleConfig) m₀ comesBack).any fun m =>
        haltingWith (fun i => i.instanceId = instance01 && i.state = .active) m &&
          m.shared.sessions.sender web01 = some 5 && m.shared.log.countP (Delivery.sends (isAbort instance01)) = 0 &&
          weigh (Act.weight (isAbort instance01)) m.tasks = 0)
    (L := masterLts sampleConfig) (s := sampleMaster) ⟨1000, rfl⟩ haltWhileAway (by decide +kernel)
  obtain ⟨hhalt, hrun⟩ := Bool.and_eq_true_iff.1 hp₀
  obtain ⟨m, hm, hp⟩ := (Option.any_eq_true _ _).1 hrun
  simp only [Bool.and_eq_true, decide_eq_true_eq] at hp
  obtain ⟨⟨⟨hback, hsender⟩, hnone⟩, hpending⟩ := hp
  refine ⟨m₀, m, hm₀, hhalt, hm, hback, hsender, fun t hsent => ?_, hpending⟩
  obtain ⟨d, hd, hon⟩ := List.mem_filterMap.1 hsent
  obtain rfl := Delivery.on_some hon
  have := List.countP_eq_zero.1 hnone _ hd
  simp [Delivery.sends, isAbort] at this

end FaultForge.Master
