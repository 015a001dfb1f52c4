import FaultForge.Agent.Instances
import FaultForge.System.Deployment

/-!
# What the records of the master rest on

* **`record_earned`**: every state that a record shows of an instance rests on processes that exited 0 on the host of
  the instance, and a record that ends `COMPLETED` on a full life of every instance.
* **`instance_ordered`**: every instance on a host is one of a record that names this host, and runs what it says.
* **`abort_justified`**: an instance is asked to abort only when its record has left `RUNNING`.

They hold in every reachable state of `deployLts`: with any loss of frames and sessions, crashes of agents, and any
order of the steps of the master, its clients and the hosts.
-/
namespace FaultForge.System

open Lts Agent Master

theorem names_inj {iid : String} {h k : Hostname} (hh : Names iid h) (hk : Names iid k) : h = k := by
  obtain ⟨now, seq, action, rfl⟩ := hh
  obtain ⟨now', seq', action', he⟩ := hk
  exact (instanceId_inj (colon_not_mem_mint now seq) (colon_not_mem_mint now' seq') he).2.1

/-! ## What the master has ordered -/

/-- The instance `id` on `host` is one of a record, and nobody has asked it to abort while the record was `RUNNING`. -/
structure Assigned (C : Master.Config) (st : Master.Store) (host : Hostname) (id : String) (t : Task) : Prop where
  own : t.run.instanceId = id
  names : Names id host
  ordered : Ordered C st t.run
  shape : t.Shape
  stopped : t.Asked → Stopped st id

/-- The instances of all hosts, and what they have shown in any process. -/
structure Orderly (C : Master.Config) (s : Deployment) : Prop where
  assigned : ∀ host id t, (s.seats host).node.agent.instances.lookup id = some t →
    Assigned C s.master.shared.store host id t
  past : ∀ host id, (s.seats host).past id ≠ [] → Names id host

section
variable {X : Ext} {C : Master.Config} {s s' : Deployment}

/-- What is in flight to a host is meant for it, and has its record. -/
theorem Wired.delivered (hw : Wired s) (hr : Reach (masterLts C) s.master) {host : Hostname} {t : StreamId}
    {f : ServerMessage} (ht : (s.seats host).stream = some t) (hf : .ok f ∈ s.down t) :
    FrameFor f host ∧ Sourced C s.master.shared.store f := by
  have hlog : .enqueued t (.ok f) ∈ s.master.shared.log := logged_of_sent (hw.down t _ hf)
  refine ⟨fun iid hiid => ?_, (reach_sourced hr).log t f hlog⟩
  have hown : Outbound.ownReply (.ok f) = false := by
    cases f with
    | runFault | abortFault => rfl
    | _ => cases hiid
  obtain ⟨host', hserves, hfor⟩ := (reach_routed hr).log _ hlog (.inl hown)
  have hpeer : some host' = some host := (hw.peered.serves t host' hserves).symm.trans (hw.stream host t ht)
  exact Option.some.inj hpeer ▸ hfor iid hiid

theorem DeployStep.onStore (h : DeployStep X C s s') (hr : Reach (masterLts C) s.master) :
    s.master.shared.store.Onward s'.master.shared.store := by
  rcases h.onMaster with he | ⟨label, hm, -⟩
  · rw [he]
    exact .of_eq rfl
  · exact masterStep_onward (reach_sound hr) hm

theorem Assigned.mono {st st' : Master.Store} (h : st.Onward st') {host : Hostname} {id : String} {t : Task}
    (hp : Assigned C st host id t) : Assigned C st' host id t :=
  ⟨hp.own, hp.names, hp.ordered.mono h, hp.shape, fun ha => (hp.stopped ha).mono h⟩

theorem Orderly.named (ho : Orderly C s) (hr : ∀ host, Reach (nodeLts X) (s.seats host).node) {host : Hostname}
    {id : String} (h : (s.seats host).history id ≠ []) : Names id host := by
  by_cases hp : (s.seats host).past id = []
  · have hseen : (s.seats host).node.agent.seen id ≠ [] := fun he => h (by rw [Seat.history, he, hp]; rfl)
    obtain ⟨t, ht⟩ := Option.isSome_iff_exists.1 (Supervisor.knows_of_seen (reach_agent (hr host)) hseen)
    exact (ho.assigned host id t ht).names
  · exact ho.past host id hp

theorem Orderly.step (hw : Wired s) (hm : Reach (masterLts C) s.master)
    (hr : ∀ host, Reach (nodeLts X) (s.seats host).node) (ho : Orderly C s) (h : DeployStep X C s s') :
    Orderly C s' := by
  have hon := h.onStore hm
  refine ⟨fun host => ?_, fun host => ?_⟩
  · have hseat := h.onSeat host
    generalize s'.seats host = seat' at hseat
    cases hseat with
    | still => exact fun id t ht => (ho.assigned host id t ht).mono hon
    | restart boot => exact fun id t ht => by cases ht
    | move stream hn hrecv =>
      refine nodeStep_each (P := Assigned C s.master.shared.store host) hn (ho.assigned host)
        (fun id t ht => ht.mono hon) (fun run hl => ?_) (fun id t hl ht => ?_)
        fun id ctx ctx' t t' choice obs ht hs => ?_
      · obtain ⟨t, ht, hf⟩ := hrecv _ hl
        obtain ⟨hfor, hsourced⟩ := hw.delivered hm ht hf
        refine ⟨rfl, hfor _ rfl, Ordered.mono hon hsourced, Task.spawn_shape run, fun ha => ?_⟩
        rcases ha with ha | ha | ha <;> cases ha
      · obtain ⟨stream', hst, hf⟩ := hrecv _ hl
        have hstop : Stopped s.master.shared.store id := (hw.delivered hm hst hf).2
        exact ⟨ht.own, ht.names, ht.ordered.mono hon, ht.shape, fun _ => hstop.mono hon⟩
      · have hrun := (taskStep_cases hs).run_eq
        exact ⟨hrun ▸ ht.own, ht.names, hrun ▸ ht.ordered.mono hon, (taskStep_cases hs).shape ht.shape,
          fun ha => (ht.stopped (taskStep_asked hs ht.shape ha)).mono hon⟩
  · have hseat := h.onSeat host
    generalize s'.seats host = seat' at hseat
    cases hseat with
    | still | move => exact ho.past host
    | restart boot => exact fun id => ho.named hr

theorem reach_orderly (h : Reach (deployLts X C) s) : Orderly C s := by
  refine h.inv_of (I := fun s => Reach (deployLts X C) s) (P := Orderly C) (fun _ hr => hr) ?_
    fun s label s' hr ho hs => ho.step (reach_wired hr) (reach_master hr) (reach_seat hr) (deployStep_cases hs)
  rintro s ⟨now, boots, rfl⟩
  exact ⟨fun _ _ _ ht => (by cases ht), fun _ _ hp => absurd rfl hp⟩

end

/-! ## What the hosts have shown -/

/-- What the state rests on has happened on the host of the instance. -/
def Deployment.Attests (s : Deployment) (id : String) (state : InstanceState) : Prop :=
  ∀ host, Names id host → (InstanceState.basis state).Sublist ((s.seats host).history id)

/-- All that is shown, held, in flight or written down of an instance rests on what happened on its host. -/
structure Grounded (s : Deployment) : Prop where
  vouches : ∀ host, (s.seats host).node.Vouches fun id v =>
    (InstanceState.basis v).Sublist ((s.seats host).history id)
  up : ∀ t, ∀ frame ∈ s.up t, Vouched s.Attests frame
  master : Witnessed s.Attests s.master

section
variable {X : Ext} {C : Master.Config} {s s' : Deployment}

theorem SeatStep.history {host : Hostname} {seat : Seat} (h : SeatStep X s host seat) (id : String) :
    ((s.seats host).history id).Sublist (seat.history id) := by
  cases h with
  | still => exact List.Sublist.refl _
  | move stream hn => exact (nodeStep_seen hn id).append (List.Sublist.refl _)
  | restart boot => exact List.sublist_append_right _ _

theorem attests_mono (h : DeployStep X C s s') {id : String} {state : InstanceState} (ha : s.Attests id state) :
    s'.Attests id state := fun host hn => (ha host hn).trans ((h.onSeat host).history id)

theorem attests_of_nil {id : String} {state : InstanceState} (h : InstanceState.basis state = []) :
    s.Attests id state := fun host _ => by rw [h]; exact List.nil_sublist _

/-- What one host has seen of an instance is its own. -/
theorem attests_of_history (ho : Orderly C s) (hr : ∀ host, Reach (nodeLts X) (s.seats host).node) {host : Hostname}
    {id : String} {state : InstanceState} (h : (InstanceState.basis state).Sublist ((s.seats host).history id)) :
    s.Attests id state := by
  intro host' hn
  by_cases hb : InstanceState.basis state = []
  · rw [hb]
    exact List.nil_sublist _
  · have hne : (s.seats host).history id ≠ [] := fun he => hb (List.sublist_nil.1 (he ▸ h))
    rw [names_inj hn (ho.named hr hne)]
    exact h

theorem Grounded.step (hr : Reach (deployLts X C) s) (hr' : Reach (deployLts X C) s') (hg : Grounded s)
    (h : DeployStep X C s s') : Grounded s' := by
  have shown : ∀ host id, (InstanceState.basis ((s'.seats host).node.agent.shows id)).Sublist
      ((s'.seats host).history id) := fun host id =>
    (shows_earned (reach_agent (reach_seat hr' host)) id).trans (List.sublist_append_left _ _)
  have vouched : ∀ {host : Hostname} {label : NodeLabel} {n : Node}, nodeStep X (s.seats host).node label = some n →
      (s'.seats host).node = n → n.Vouches (fun id v => (InstanceState.basis v).Sublist ((s'.seats host).history id)) ∧
        ∃ frames, n.sent = (s.seats host).node.sent ++ frames ∧ ∀ frame ∈ frames,
          Vouched (fun id v => (InstanceState.basis v).Sublist ((s'.seats host).history id)) frame := by
    rintro host label n hn rfl
    exact (hg.vouches host).step (reach_seat hr host) (fun id v hv => hv.trans ((h.onSeat host).history id))
      (shown host) hn
  refine ⟨fun host => ?_, fun t frame hf => ?_, ?_⟩
  · have hseat := h.onSeat host
    generalize he : s'.seats host = seat' at hseat
    cases hseat with
    | still => exact hg.vouches host
    | restart boot => exact Node.boot_vouches boot host.val fun id v hv => by rw [hv]; exact List.nil_sublist _
    | move stream hn =>
      have hv := (vouched hn (congrArg Seat.node he)).1
      rwa [he] at hv
  · rcases h.onUp hf with hf | ⟨host, label, n, hst, hn, hseat, hsent⟩
    · exact (hg.up t frame hf).mono fun _ _ => attests_mono h
    · obtain ⟨-, frames, he, hv⟩ := vouched hn (congrArg Seat.node hseat)
      rw [he, List.drop_left] at hsent
      exact (hv frame hsent).mono fun _ _ => attests_of_history (reach_orderly hr') (reach_seat hr')
  · rcases h.onMaster with he | ⟨label, hm, hrecv⟩
    · rw [he]
      exact hg.master.mono fun _ _ => attests_mono h
    · refine Witnessed.mono (fun _ _ => attests_mono h) ?_
      refine hg.master.step (reach_sound (reach_master hr)) (fun _ => attests_of_nil rfl) (fun _ => attests_of_nil rfl)
        (fun p payload hl stream a ha iid state hheard => ?_) hm
      obtain ⟨frame, hf, rfl⟩ := hrecv p payload hl
      obtain ⟨status, hframe, hid, hstate⟩ := handleFrame_heard ha hheard
      refine hg.up p frame hf iid state (List.mem_filterMap.2 ⟨status, ?_, ?_⟩)
      · rcases hframe with rfl | ⟨statuses, rfl, hs⟩
        · exact List.mem_singleton_self _
        · exact hs
      · rw [stateFor, if_pos hid, hstate]
        rfl

theorem reach_grounded (h : Reach (deployLts X C) s) : Grounded s := by
  induction h with
  | init hi =>
    obtain ⟨now, boots, rfl⟩ := hi
    exact ⟨fun host => Node.boot_vouches (boots host) host.val fun id v hv => by rw [hv]; exact List.nil_sublist _,
      fun _ _ hf => (by cases hf), fun _ ht => (by cases ht), fun _ _ he => (by cases he)⟩
  | @step s s' label hr hs ih => exact ih.step hr (.step hr hs) (deployStep_cases hs)

/-! ## The records -/

/-- The exits that the shown state of an instance rests on. -/
theorem basis_happened (h : Reach (deployLts X C) s) {x : ExperimentId} {e : Experiment}
    (he : s.master.shared.store.lookup x = some e) {i : InstanceRecord} (hi : i ∈ e.instances) :
    (InstanceState.basis i.state).Sublist ((s.seats i.hostname).history i.instanceId) :=
  (reach_grounded h).master.records x e he i hi i.hostname (((reach_routed (reach_master h)).records x e he).names hi)

/-- The full life of every instance of a `COMPLETED` record. -/
theorem completed_life (h : Reach (deployLts X C) s) {x : ExperimentId} {e : Experiment}
    (he : s.master.shared.store.lookup x = some e) (hdone : e.phase = .concluded .completed) {i : InstanceRecord}
    (hi : i ∈ e.instances) :
    [succeeded .cleanup, succeeded .inject, succeeded .preflight, succeeded .preflight].Sublist
      ((s.seats i.hostname).history i.instanceId) := by
  have hshown := basis_happened h he hi
  have hcons := (reach_sound (reach_master h)).settled x e he |>.1
  rw [Experiment.Consistent, hdone] at hcons
  have hstate : i.state = .done := (hcons.completed.1 rfl).1 i hi
  rw [hstate] at hshown
  exact hshown

/-- **Whatever a record shows has happened.** The exits that a state rests on are in the history of the host that the
instance is for, in their order; and if the record ended `COMPLETED`, all of its faults were injected and cleaned up. -/
theorem record_earned (h : Reach (deployLts X C) s) {x : ExperimentId} {e : Experiment}
    (he : s.master.shared.store.lookup x = some e) :
    ∀ i ∈ e.instances,
      (InstanceState.basis i.state).Sublist ((s.seats i.hostname).history i.instanceId) ∧
        (e.phase = .concluded .completed →
          [succeeded .cleanup, succeeded .inject, succeeded .preflight, succeeded .preflight].Sublist
            ((s.seats i.hostname).history i.instanceId)) :=
  fun _ hi => ⟨basis_happened h he hi, fun hdone => completed_life h he hdone hi⟩

/-- **Every instance on a host is in a record**, which names the host and asks for what the instance runs. -/
theorem instance_ordered (h : Reach (deployLts X C) s) {host : Hostname} {id : String} {t : Task}
    (ht : (s.seats host).node.agent.instances.lookup id = some t) :
    ∃ x e i, s.master.shared.store.lookup x = some e ∧ i ∈ e.instances ∧ i.instanceId = id ∧ i.hostname = host ∧
      runFault C e i = some t.run := by
  have hp := (reach_orderly h).assigned host id t ht
  obtain ⟨x, e, i, he, hi, hrun⟩ := hp.ordered
  have hid : i.instanceId = id := (runFault_instanceId hrun).symm.trans hp.own
  refine ⟨x, e, i, he, hi, hid, ?_, hrun⟩
  exact names_inj (hid ▸ ((reach_routed (reach_master h)).records x e he).names hi) hp.names

/-- **No instance is asked to abort while its record is `RUNNING`.** -/
theorem abort_justified (h : Reach (deployLts X C) s) {host : Hostname} {id : String} {t : Task}
    (ht : (s.seats host).node.agent.instances.lookup id = some t) (ha : t.Asked) :
    ∃ x e, s.master.shared.store.lookup x = some e ∧ id ∈ e.ids ∧ e.phase ≠ .running :=
  ((reach_orderly h).assigned host id t ht).stopped ha

end

/-! ## A sample deployment: one fault on one host -/

def sampleDeployment : Deployment :=
  ⟨sampleMaster, fun host => ⟨.boot plainExt sampleBoot host.val, none, fun _ => []⟩, fun _ => none, fun _ => [],
    fun _ => []⟩

def soloDefinition : ExperimentDefinition := ⟨"smoke", [⟨["web-01"], ⟨"cpu-stress", "1.0.0"⟩, ∅, 60⟩]⟩

def onHost (label : SessionLabel) : DeployLabel := .agent web01 (.session label)

def onInstance (choices : List Choice) : List DeployLabel :=
  choices.map fun choice => .agent web01 (.task sampleRun.instanceId choice)

/-- `n` acts of task `p` of the master. -/
def acts (p n : Nat) : List DeployLabel := (runs p n).map .master

/-- The host joins, the master publishes the record, and the host gets its `RunFault`. -/
def orderedLabels : List DeployLabel :=
  [.dial web01, onHost .accept, .receive 0] ++ acts 0 4 ++ [.fetch 0, .read web01] ++
    [.go, .accept, .go, .accept, .go, .go].map onHost ++ [.receive 0, .receive 0] ++ acts 0 1 ++
    [.master (.submit soloDefinition)] ++ acts 1 7 ++ [.fetch 0, .read web01]

/-- The operator halts the experiment, and the host gets its `AbortFault`. -/
def haltedLabels : List DeployLabel :=
  orderedLabels ++ [.master (.haltRequest (.mint 1000 1) "stop")] ++ acts 2 3 ++ [.fetch 0, .read web01]

/-- The oldest frame of the host reaches the master, and is handled. -/
def reportOne : List DeployLabel := [onHost .take, onHost .accept, .receive 0] ++ acts 0 1

/-- The fault runs its full life, and the host reports it. -/
def completedLabels : List DeployLabel :=
  orderedLabels ++ onInstance activeChoices ++ [.agent web01 (.tick 61000)] ++
    onInstance [.go, .go, .go, .go, .resolved (.ok samplePlugin), .exit ⟨[], "", .code 0⟩, .go, .go, .io none, .go,
      .go] ++
    (List.replicate 6 reportOne).flatten

theorem sampleDeployment_init : (deployLts plainExt sampleConfig).init sampleDeployment :=
  ⟨1000, fun _ => sampleBoot, rfl⟩

theorem record_earned_sample :
    ∃ (s : Deployment) (e : Experiment), s.master.shared.store.lookup (.mint 1000 1) = some e ∧
      e.phase = .concluded .completed ∧ ∀ i ∈ e.instances,
        [succeeded .cleanup, succeeded .inject, succeeded .preflight, succeeded .preflight].Sublist
          ((s.seats i.hostname).history i.instanceId) := by
  obtain ⟨s, hs, hp⟩ := reach_of_run
    (fun s => (s.master.shared.store.lookup (.mint 1000 1)).any fun e => decide (e.phase = .concluded .completed))
    sampleDeployment_init completedLabels (by decide +kernel)
  obtain ⟨e, he, hdone⟩ := (Option.any_eq_true _ _).1 hp
  exact ⟨s, e, he, of_decide_eq_true hdone, fun i hi => (record_earned hs he i hi).2 (of_decide_eq_true hdone)⟩

theorem instance_ordered_sample :
    ∃ (s : Deployment) (t : Task), (s.seats web01).node.agent.instances.lookup sampleRun.instanceId = some t ∧
      ∃ x e i, s.master.shared.store.lookup x = some e ∧ i ∈ e.instances ∧ i.instanceId = sampleRun.instanceId ∧
        i.hostname = web01 ∧ runFault sampleConfig e i = some t.run := by
  obtain ⟨s, hs, hp⟩ := reach_of_run
    (fun s => ((s.seats web01).node.agent.instances.lookup sampleRun.instanceId).isSome)
    sampleDeployment_init orderedLabels (by decide +kernel)
  obtain ⟨t, ht⟩ := Option.isSome_iff_exists.1 hp
  exact ⟨s, t, ht, instance_ordered hs ht⟩

theorem abort_justified_sample :
    ∃ (s : Deployment) (t : Task), (s.seats web01).node.agent.instances.lookup sampleRun.instanceId = some t ∧
      t.stopRx = [.operatorAbort] ∧ ∃ x e, s.master.shared.store.lookup x = some e ∧ sampleRun.instanceId ∈ e.ids ∧
        e.phase ≠ .running := by
  obtain ⟨s, hs, hp⟩ := reach_of_run
    (fun s => ((s.seats web01).node.agent.instances.lookup sampleRun.instanceId).any fun t =>
      decide (t.stopRx = [.operatorAbort]))
    sampleDeployment_init haltedLabels (by decide +kernel)
  obtain ⟨t, ht, hasked⟩ := (Option.any_eq_true _ _).1 hp
  have hrx : t.stopRx = [.operatorAbort] := of_decide_eq_true hasked
  exact ⟨s, t, ht, hrx, abort_justified hs ht (.inl (hrx ▸ List.mem_singleton_self _))⟩

end FaultForge.System
