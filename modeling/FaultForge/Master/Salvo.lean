import FaultForge.Master.Aborts

/-!
# The salvo and the kill-switch

`start_experiment` sends its salvo outside the store lock, over a snapshot of the record. A kill-switch that fires in
between hands over `AbortFault` for instances whose `RunFault` is still to be sent, and the salvo goes on: the agent
sees `AbortFault` first, ignores it, and starts the fault (`salvo_overtaken`). `kill_switch_beats_salvo` says when the
order is right: when every `RunFault` goes out while its experiment is `RUNNING`.
-/
namespace FaultForge.Master

open Lts Tasks

/-- On this sequence no `AbortFault` comes before the `RunFault` of its instance. -/
def InOrder (sent : List Outbound) : Prop :=
  sent.Pairwise fun a b => ∀ r, b = .ok (.runFault r) → a ≠ .ok (.abortFault r.instanceId)

/-- The kill-switch has asked to abort the instance. -/
def Asked (m : MasterState) (iid : String) : Prop :=
  ∃ x e i, m.shared.store.lookup x = some e ∧ i ∈ e.instances ∧ i.instanceId = iid ∧ i.abortRequested = true

/-- Label `l` puts `RunFault` `r` on channel `t`. -/
def SendsRun (m : MasterState) (l : Label) (t : StreamId) (r : RunFault) : Prop :=
  ∃ p rest, l = .run p ∧ m.tasks[p]? = some (.enqueue t (.runFault r) :: rest) ∧ m.shared.closed t = false

/-- The salvo is in time: a `RunFault` goes out only while its experiment is `RUNNING`. -/
def InTime (m : MasterState) (l : Label) : Prop :=
  ∀ t r, SendsRun m l t r → ∀ x e, m.shared.store.lookup x = some e → r.instanceId ∈ e.ids → e.phase = .running

section
variable {C : Config} {m m' : MasterState} {l : Label}

theorem Experiment.asked_eq_zero {e : Experiment} (h : ∀ i ∈ e.instances, i.abortRequested = false) (iid : String) :
    e.asked iid = 0 :=
  List.countP_eq_zero.2 fun i hi => by simp [h i hi]

/-- The record of a `RunFault` that is about to be sent. -/
theorem SendsRun.owner (hr : Reach (masterLts C) m) {t : StreamId} {r : RunFault} (hs : SendsRun m l t r) :
    ∃ x e, m.shared.store.lookup x = some e ∧ r.instanceId ∈ e.ids := by
  obtain ⟨p, rest, -, ht, -⟩ := hs
  refine (reach_runs hr).owned r.instanceId ?_
  have hw : 0 < load (Act.weight (isRun r.instanceId)) (.enqueue t (.runFault r) :: rest) := by
    simp only [load_cons, Act.weight, Act.frame, tally, isRun, decide_true, Bool.toNat_true]
    omega
  have := weigh_pos ht hw
  unfold account
  omega

/-- Nothing has been handed over for an instance of a `RUNNING` record. -/
theorem running_unasked (hr : Reach (masterLts C) m) {x : ExperimentId} {e : Experiment}
    (he : m.shared.store.lookup x = some e) (hp : e.phase = .running) {iid : String} (hi : iid ∈ e.ids) :
    account (isAbort iid) m = 0 := by
  have hcons := (reach_consistent ((reach_sound hr).records x e he).2.1).1
  unfold Experiment.Consistent at hcons
  rw [hp] at hcons
  have hc : e.isConcluded = false := by
    unfold Experiment.isConcluded
    rw [hp]
  have hex : account (isAbort iid) m = e.asked iid := (reach_aborts hr).exact x e he hc iid hi
  rw [hex, Experiment.asked_eq_zero hcons.unasked]

/-! ## Runs in time -/

/-- Over the whole log, no `AbortFault` has gone out before the `RunFault` of its instance. -/
def LogInOrder (log : List Delivery) : Prop :=
  log.Pairwise fun d d' => ∀ t r, d' = .enqueued t (.ok (.runFault r)) → d.sends (isAbort r.instanceId) = false

theorem Logged.pairwise {ds : List Delivery} (h : Logged m l ds) : LogInOrder ds := by
  cases h with
  | other hno =>
    refine List.pairwise_of_forall_mem_list fun d _ d' hd' t r he => ?_
    exact absurd (he ▸ hd') (hno t _)
  | _ => exact List.pairwise_singleton _ _

theorem Logged.sendsRun {ds : List Delivery} (h : Logged m l ds) {t : StreamId} {r : RunFault}
    (hd : .enqueued t (.ok (.runFault r)) ∈ ds) : SendsRun m l t r := by
  cases h with
  | frame hl ht hc =>
    simp only [List.mem_singleton, Delivery.enqueued.injEq, Outbound.ok.injEq] at hd
    obtain ⟨rfl, rfl⟩ := hd
    exact ⟨_, _, hl, ht, hc⟩
  | relayed => simp at hd
  | @reply p r' => cases r' <;> simp [Reply.frame] at hd
  | reject => simp at hd
  | other hno => exact absurd hd (hno t _)

theorem inTime_logInOrder (h : ReachIf (masterLts C) InTime m) : LogInOrder m.shared.log := by
  refine h.inv (I := fun m => Reach (masterLts C) m) (P := fun m => LogInOrder m.shared.log) (fun _ h => h) ?_ ?_
  · rintro m ⟨now, rfl⟩
    exact List.Pairwise.nil
  · intro m l m' hr hord hg hs
    obtain ⟨ds, hlog, hds⟩ := (masterStep_step hs).logged
    rw [hlog]
    refine List.pairwise_append.2 ⟨hord, hds.pairwise, fun d hd d' hd' t r he => ?_⟩
    -- the ledger has no `AbortFault` for an instance of a `RUNNING` record
    have hsend := hds.sendsRun (he ▸ hd')
    obtain ⟨x, e, hx, hi⟩ := hsend.owner hr
    have hzero := running_unasked hr hx (hg t r hsend x e hx hi) hi
    have hle := sends_le_account (q := isAbort r.instanceId) m
    rw [hzero, Nat.le_zero, List.countP_eq_zero] at hle
    simpa using hle d hd

theorem LogInOrder.sent (h : LogInOrder m.shared.log) (t : StreamId) : InOrder (m.shared.sent t) := by
  refine List.pairwise_filterMap.2 (h.imp fun {d d'} hdd o ho o' ho' r hr habort => ?_)
  obtain rfl := Delivery.on_some ho
  obtain rfl := Delivery.on_some ho'
  have hno := hdd t r (by rw [hr])
  simp [habort, Delivery.sends, isAbort] at hno

/-- **The kill-switch beats a salvo that is in time**, and only such a one: an instance that is live while its
experiment is `HALTING` has been asked to abort, so its `RunFault` comes too late. -/
theorem kill_switch_beats_salvo (C : Config) :
    (∀ m, ReachIf (masterLts C) InTime m →
      (∀ t, InOrder (m.shared.sent t)) ∧
      ∀ l t r, InTime m l → SendsRun m l t r → ¬ Asked m r.instanceId) ∧
    ∀ m, Reach (masterLts C) m → ∀ x e i, m.shared.store.lookup x = some e → e.phase = .halting → i ∈ e.instances →
      i.isTerminal = false → Asked m i.instanceId := by
  constructor
  · intro m h
    refine ⟨(inTime_logInOrder h).sent, fun l t r hg hs => ?_⟩
    rintro ⟨y, e', i, he', hi, hid, hreq⟩
    obtain ⟨x, e, he, hmem⟩ := hs.owner h.reach
    have hp := hg t r hs y e' he' (hid ▸ List.mem_map_of_mem hi)
    have hcons := (reach_consistent ((reach_sound h.reach).records y e' he').2.1).1
    unfold Experiment.Consistent at hcons
    rw [hp] at hcons
    rw [hcons.unasked i hi] at hreq
    cases hreq
  · intro m h x e i he hp hi hlive
    have hcons := (reach_consistent ((reach_sound h).records x e he).2.1).1
    unfold Experiment.Consistent at hcons
    rw [hp] at hcons
    exact ⟨x, e, i, he, hi, rfl, hcons.asked i hi hlive⟩

end

/-! ## Two runs -/

/-- The salvo is over before the halt; task 3 sleeps until the deadline. -/
def haltAfter : List Label := published ++ runs 2 6 ++ [.haltRequest "exp-1000-1" "stop"] ++ runs 4 5

/-- The halt comes after the first `RunFault`; then the salvo goes on. -/
def haltBetween : List Label := published ++ runs 2 2 ++ [.haltRequest "exp-1000-1" "stop"] ++ runs 3 5 ++ runs 2 2


def inTime (m : MasterState) (l : Label) : Bool :=
  match l with
  | .run p => match m.tasks[p]? with
    | some (.enqueue t (.runFault r) :: _) =>
      m.shared.closed t || m.shared.store.entries.all fun s => !s.2.ids.contains r.instanceId || s.2.phase = .running
    | _ => true
  | _ => true

theorem inTime_sound (m : MasterState) (l : Label) (h : inTime m l = true) : InTime m l := by
  rintro t r ⟨p, rest, rfl, ht, hc⟩ x e he hi
  simp only [inTime, ht, hc, Bool.false_or, List.all_eq_true] at h
  have hx := h ⟨x, e⟩ (AList.mem_lookup_iff.1 he)
  simpa [hi] using hx

def instance02 : String := "exp-1000-1:web-02:0"

def runFault02 : RunFault := ⟨instance02, "cpu-stress", "1.0.0", sampleDigest.val, "{}", 60, 30⟩

/-- The salvo is over, then the halt: on each channel `AbortFault` comes last. -/
theorem kill_switch_beats_salvo_halt :
    ∃ m : MasterState,
      m.shared.sent 1 = [.ok (.registerAck 1000 10), .ok (.runFault runFault02), .ok (.abortFault instance02)] ∧
      InOrder (m.shared.sent 1) := by
  obtain ⟨m, hm, hp⟩ := reachIf_of_run inTime_sound
    (fun m => decide (m.shared.sent 1 =
      [.ok (.registerAck 1000 10), .ok (.runFault runFault02), .ok (.abortFault instance02)]))
    (L := masterLts sampleConfig) (s := sampleMaster) ⟨1000, rfl⟩ haltAfter (by decide +kernel)
  exact ⟨m, of_decide_eq_true hp, ((kill_switch_beats_salvo sampleConfig).1 m hm).1 1⟩

/-- The halt is between two `RunFault` frames: web-02 gets `AbortFault` first, and then its `RunFault`. -/
theorem salvo_overtaken : ∃ m, Reach (masterLts sampleConfig) m ∧ ∃ t, ¬ InOrder (m.shared.sent t) := by
  obtain ⟨m, hm, hp⟩ := reach_of_run
    (fun m => decide (m.shared.sent 1 =
      [.ok (.registerAck 1000 10), .ok (.abortFault instance02), .ok (.runFault runFault02)]))
    (L := masterLts sampleConfig) (s := sampleMaster) ⟨1000, rfl⟩ haltBetween (by decide +kernel)
  refine ⟨m, hm, 1, fun hord => ?_⟩
  rw [of_decide_eq_true hp] at hord
  simp [InOrder, runFault02] at hord

end FaultForge.Master
