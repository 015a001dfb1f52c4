import FaultForge.Agent.Telling
import FaultForge.Lib.Replica
import FaultForge.Master.Heard

/-!
# The record follows the agent (supervisor.rs:264-299, 650-668; session.rs:251-303; experiment.rs:473-494)

A process, the streams it opens one after another, and the record at the master. A status waits in the task, on the
outbound channel, in `carry`, in the send that is running, or on its stream; the report of a registration goes ahead of
all of these but the last. The master reads each stream in order, and is not bound to have read an older stream to its
end before it reads a newer one. `reconciled` is what the record shows of one instance in every run in which no status
of it is lost and the deadline does not fire.
-/
namespace FaultForge.System

open Lts Agent Master Replica

/-! ## Both sides and the streams between them -/

structure Link where
  node : Node
  /-- How many streams the process has opened. -/
  streams : Nat
  /-- The statuses that a stream has accepted and the master has not handled, each with its stream, oldest first. -/
  wire : List (Nat × InstanceStatus)
  record : Experiment
  /-- The states of the instance that have been enqueued, oldest first. For the statements only. -/
  produced : List InstanceState
  /-- The statuses have been handled in the order in which they were accepted. For the statements only. -/
  inOrder : Bool

inductive LinkLabel
  | node (label : NodeLabel)
  /-- The master handles an entry of the wire, the oldest of its stream. -/
  | deliver (i : Nat)
  /-- An operation on the record that comes from elsewhere. -/
  | op (o : RecordOp)

/-- The states of instance `id` that a step enqueues. -/
def enqueues (id : String) (n n' : Node) : NodeLabel → List InstanceState
  | .task .. | .clear .. => (n'.agent.ctx.out.drop n.agent.ctx.out.length).flatMap (tells id)
  | .tick _ | .session _ => []

def opens : NodeLabel → Bool
  | .session .opened => true
  | _ => false

def Link.follow (id : String) (s : Link) (label : NodeLabel) (n : Node) : Link where
  node := n
  streams := if opens label then s.streams + 1 else s.streams
  wire := s.wire ++ ((n.sent.drop s.node.sent.length).flatMap AgentMessage.statuses).map (s.streams, ·)
  record := s.record
  produced := s.produced ++ enqueues id s.node n label
  inOrder := s.inOrder

def linkStep (X : Ext) (id : String) (s : Link) : LinkLabel → Option Link
  | .node label => (nodeStep X s.node label).map (s.follow id label)
  | .deliver i =>
    match s.wire[i]? with
    | none => none
    | some (stream, status) =>
      if (s.wire.take i).all fun e => e.1 != stream then
        some { s with wire := s.wire.eraseIdx i, record := s.record.hear status, inOrder := s.inOrder && i == 0 }
      else none
  | .op o => some { s with record := (s.record.apply o).1 }

/-- A process that knows nothing of the instance from before its start, and a record minted with it. -/
def linkLts (X : Ext) (id : String) : System Link LinkLabel where
  init s := ∃ b hostname record, (∀ frame ∈ (Node.boot X b hostname).startup, tells id frame = []) ∧
    recordLts.init record ∧ (record.stateOf id).isSome ∧ s = ⟨.boot X b hostname, 0, [], record, [], true⟩
  step := linkStep X id

/-- No status of the instance is overwritten in `carry`, the deadline does not fire, and no one else reports of the
instance. -/
def calm (id : String) (s : Link) : LinkLabel → Bool
  | .node (.session .reject) =>
    match s.node.pc, s.node.carry with
    | .sending frame false _, some kept => AgentMessage.cheap frame || (tells id kept).isEmpty
    | _, _ => true
  | .op o => o.spares id
  | _ => true

/-! ## What is on its way -/

/-- The frames the process holds, in the order in which a stream accepts them. -/
def queue (n : Node) : List AgentMessage :=
  (match n.pc with
    | .sending frame _ _ => [frame]
    | _ => []) ++ n.carry.toList ++ n.agent.ctx.out

/-- What the process has still to hand to a stream of instance `id`. -/
def untold (id : String) (n : Node) : List InstanceState := (queue n).flatMap (tells id) ++ n.agent.telling id

def Link.flight (id : String) (s : Link) : List InstanceState :=
  s.wire.filterMap (fun e => stateFor id e.2) ++ untold id s.node

theorem queue_idle {n : Node} (h : ¬ n.pc.Sending) : queue n = n.carry.toList ++ n.agent.ctx.out := by
  unfold queue
  split
  next frame keep next hpc => exact absurd ⟨frame, keep, next, hpc⟩ h
  next => rfl

theorem queue_sending {n : Node} {frame : AgentMessage} {keep : Bool} {next : Stage}
    (h : n.pc = .sending frame keep next) : queue n = frame :: (n.carry.toList ++ n.agent.ctx.out) := by
  unfold queue
  rw [h]
  rfl

/-- A frame in the send that tells nothing of the instance does not count. -/
theorem queue_sending_silent {id : String} {n : Node} {frame : AgentMessage} {keep : Bool} {next : Stage}
    (h : n.pc = .sending frame keep next) (hnone : tells id frame = []) :
    (queue n).flatMap (tells id) = (n.carry.toList ++ n.agent.ctx.out).flatMap (tells id) := by
  rw [queue_sending h, List.flatMap_cons, hnone]
  rfl

/-! ## The process -/

/-- Startup frames, also the one that is being sent, tell nothing of the instance. -/
structure Unheard (id : String) (n : Node) : Prop where
  startup : ∀ frame ∈ n.startup, tells id frame = []
  keeping : ∀ frame next, n.pc = .sending frame true next → tells id frame = []

/-- What a step of the session hands over. -/
inductive Hands (id : String) (n n' : Node) : Prop
  | still : n'.sent = n.sent → untold id n' = untold id n → Hands id n n'
  /-- A report of the view is put ahead. -/
  | report : n'.sent = n.sent → untold id n' = n.agent.shows id :: untold id n → Hands id n n'
  | accepted (frame : AgentMessage) : n'.sent = n.sent ++ [frame] → untold id n = tells id frame ++ untold id n' →
      Hands id n n'

section
variable {id : String} {n n' : Node} {c c' : Custody} {label : SessionLabel}

theorem untold_of (hq : (queue n').flatMap (tells id) = (queue n).flatMap (tells id))
    (ht : n'.agent.telling id = n.agent.telling id) : untold id n' = untold id n := by
  unfold untold
  rw [hq, ht]

/-- **What a step of the session loop hands over.** -/
theorem Moved.hands (h : Moved n c label n' c') (hs : c.Shape n) (hu : Unheard id n)
    (ht : n'.agent.telling id = n.agent.telling id)
    (hcalm : ∀ frame next kept, label = .reject → n.pc = .sending frame false next →
      AgentMessage.cheap frame = false → n.carry = some kept → tells id kept = []) :
    Unheard id n' ∧ Hands id n n' := by
  have unsent : ¬ n'.pc.Sending → ∀ frame next, n'.pc = .sending frame true next → tells id frame = [] :=
    fun hpc frame next he => absurd ⟨frame, true, next, he⟩ hpc
  cases h with
  | quiet sending hheld hpc hpc' hpump =>
    obtain ⟨hstartup, hcarry, hsent, hout⟩ := Held.mk.inj hheld
    refine ⟨⟨hstartup ▸ hu.startup, unsent hpc'⟩, .still hsent (untold_of ?_ ht)⟩
    rw [queue_idle hpc, queue_idle hpc', hcarry, hout]
  | made frame next hheld hpc hpc' hmakes =>
    obtain ⟨hstartup, hcarry, hsent, hout⟩ := Held.mk.inj hheld
    have hqueue : queue n' = frame :: queue n := by rw [queue_sending hpc', queue_idle hpc, hcarry, hout]
    have hun : untold id n' = tells id frame ++ untold id n := by
      unfold untold
      rw [hqueue, ht, List.flatMap_cons, List.append_assoc]
    refine ⟨⟨hstartup ▸ hu.startup, fun frame' next' he => ?_⟩, ?_⟩
    · rw [hpc'] at he
      cases he
    · cases hmakes with
      | register | heartbeat => exact .still hsent hun
      | taint =>
        refine .still hsent (hun.trans ?_)
        rw [tells, taintStatusFrame_statuses]
        rfl
      | report =>
        rcases reportFrame_tells n.agent n.registeredMs id with hr | ⟨-, hr⟩
        · exact .still hsent (by rw [hun, hr]; rfl)
        · exact .report hsent (by rw [hun, hr]; rfl)
  | fromStartup frame startup hq hheld hpc hpc' =>
    obtain ⟨hstartup, hcarry, hsent, hout⟩ := Held.mk.inj hheld
    have hnone : tells id frame = [] := hu.startup frame (hq ▸ List.mem_cons_self)
    refine ⟨⟨fun f hf => ?_, fun f next he => ?_⟩, .still hsent (untold_of ?_ ht)⟩
    · rw [hstartup] at hf
      exact hu.startup f (hq ▸ List.mem_cons_of_mem _ hf)
    · rw [hpc'] at he
      cases he
      exact hnone
    · rw [queue_sending_silent hpc' hnone, queue_idle hpc, hcarry, hout]
      rfl
  | fromCarry frame hc hheld hpc hpc' =>
    obtain ⟨hstartup, hcarry, hsent, hout⟩ := Held.mk.inj hheld
    refine ⟨⟨hstartup ▸ hu.startup, fun f next he => ?_⟩, .still hsent (untold_of ?_ ht)⟩
    · rw [hpc'] at he
      cases he
    · rw [queue_sending hpc', queue_idle hpc, hcarry, hout, hc]
      rfl
  | fromOut frame out hq hheld hpc hpc' =>
    obtain ⟨hstartup, hcarry, hsent, hout⟩ := Held.mk.inj hheld
    have hidle : ¬ n.pc.Sending := hpc ▸ SessionPc.not_sending_at _
    refine ⟨⟨hstartup ▸ hu.startup, fun f next he => ?_⟩, .still hsent (untold_of ?_ ht)⟩
    · rw [hpc'] at he
      cases he
    · have hnone : n.carry = none := hs.pump hpc
      rw [queue_sending hpc', queue_idle hidle, hcarry.trans hnone, hout, hnone, hq]
      rfl
  | accepted frame keep next hpc hheld hpc' =>
    obtain ⟨hstartup, hcarry, hsent, hout⟩ := Held.mk.inj hheld
    have hidle : ¬ n'.pc.Sending := hpc' ▸ SessionPc.not_sending_at _
    refine ⟨⟨hstartup ▸ hu.startup, unsent hidle⟩, .accepted frame hsent ?_⟩
    unfold untold
    rw [queue_sending hpc, queue_idle hidle, hcarry, hout, ht, List.flatMap_cons, List.append_assoc]
    rfl
  | returned frame next hpc hheld hpc' =>
    obtain ⟨hstartup, hcarry, hsent, hout⟩ := Held.mk.inj hheld
    have hnone : tells id frame = [] := hu.keeping frame next hpc
    have hidle : ¬ n'.pc.Sending := hpc' ▸ SessionPc.not_sending_idle
    refine ⟨⟨fun f hf => ?_, unsent hidle⟩, .still hsent (untold_of ?_ ht)⟩
    · rw [hstartup] at hf
      rcases List.mem_cons.1 hf with rfl | hf
      · exact hnone
      · exact hu.startup f hf
    · rw [queue_sending_silent hpc hnone, queue_idle hidle, hcarry, hout]
      rfl
  | dropped frame next hpc hcheap hheld hpc' =>
    obtain ⟨hstartup, hcarry, hsent, hout⟩ := Held.mk.inj hheld
    have hidle : ¬ n'.pc.Sending := hpc' ▸ SessionPc.not_sending_idle
    have hnone : tells id frame = [] := by cases frame <;> first | rfl | cases hcheap
    refine ⟨⟨hstartup ▸ hu.startup, unsent hidle⟩, .still hsent (untold_of ?_ ht)⟩
    rw [queue_sending_silent hpc hnone, queue_idle hidle, hcarry, hout]
  | carried frame next hpc hw hheld hpc' =>
    obtain ⟨hstartup, hcarry, hsent, hout⟩ := Held.mk.inj hheld
    have hidle : ¬ n'.pc.Sending := hpc' ▸ SessionPc.not_sending_idle
    refine ⟨⟨hstartup ▸ hu.startup, unsent hidle⟩, .still hsent (untold_of ?_ ht)⟩
    rw [queue_sending hpc, queue_idle hidle, hcarry, hout]
    cases hk : n.carry with
    | none => rfl
    | some kept =>
      have hnone : tells id kept = [] := hcalm frame next kept rfl hpc hw hk
      simp only [Option.toList_some, List.cons_append, List.nil_append, List.flatMap_cons, hnone]
      rfl

end

/-! ## The invariant -/

/-- What the record shows, the view of the process, and the states on their way between them. -/
structure Tied (id : String) (s : Link) : Prop where
  unheard : Unheard id s.node
  follows : ∃ copy, s.record.stateOf id = some copy ∧
    Follows InstanceState.isTerminal (s.node.agent.shows id) (s.flight id) copy s.inOrder
  /-- The last state that was enqueued, or is about to be, is that of the view. -/
  last : (.pending :: (s.produced ++ s.node.agent.telling id)).getLast? = some (s.node.agent.shows id)

section
variable {X : Ext} {id : String} {s s' : Link}

/-- A step of the process that enqueues `more`. -/
theorem Tied.enqueue (h : Tied id s) {a : Supervisor} {more : List AgentMessage}
    (hout : a.ctx.out = s.node.agent.ctx.out ++ more) (ht : s.node.agent.Told id a more) {s' : Link}
    (hs' : s' = { s with node := { s.node with agent := a }, produced := s.produced ++ more.flatMap (tells id) }) :
    Tied id s' := by
  subst hs'
  have hqueue : queue { s.node with agent := a } = queue s.node ++ more := by
    unfold queue
    rw [hout, List.append_assoc _ _ more]
  obtain ⟨hu, ⟨copy, hcopy, hf⟩, hlast⟩ := h
  refine ⟨⟨hu.startup, hu.keeping⟩, ⟨copy, hcopy, ?_⟩, ?_⟩
  · show Follows _ (a.shows id) (s.wire.filterMap (fun e => stateFor id e.2) ++ untold id { s.node with agent := a })
      copy s.inOrder
    cases ht with
    | still hv hm =>
      have hun : untold id { s.node with agent := a } = untold id s.node := by
        unfold untold
        rw [hqueue, List.flatMap_append, List.append_assoc, hm]
      rw [hv, hun]
      exact hf
    | moves hlive hm hn ht' =>
      have hun : untold id { s.node with agent := a } = untold id s.node ++ [a.shows id] := by
        unfold untold
        rw [hqueue, hm, List.append_nil, ht', hn, List.append_nil]
      rw [hun, ← List.append_assoc]
      exact hf.update hlive (a.shows id)
  · show (InstanceState.pending :: (s.produced ++ more.flatMap (tells id) ++ a.telling id)).getLast? = some (a.shows id)
    cases ht with
    | still hv hm =>
      rw [List.append_assoc, hm, hv]
      exact hlast
    | moves hlive hm hn ht' =>
      rw [ht', ← List.cons_append]
      exact List.getLast?_concat

/-- A step of the session that hands over. -/
theorem Tied.hand (h : Tied id s) (n : Node) (streams : Nat) (hu : Unheard id n) (hh : Hands id s.node n)
    (hshows : n.agent.shows id = s.node.agent.shows id) (ht : n.agent.telling id = s.node.agent.telling id)
    (hs' : s' = { s with
      node := n
      streams
      wire := s.wire ++ ((n.sent.drop s.node.sent.length).flatMap AgentMessage.statuses).map (s.streams, ·) }) :
    Tied id s' := by
  subst hs'
  obtain ⟨-, ⟨copy, hcopy, hf⟩, hlast⟩ := h
  refine ⟨hu, ⟨copy, hcopy, ?_⟩, ?_⟩
  · show Follows _ (n.agent.shows id) ((s.wire ++ _).filterMap (fun e => stateFor id e.2) ++ untold id n)
      copy s.inOrder
    rw [hshows]
    cases hh with
    | still hsent hun =>
      rw [hsent, List.drop_length, List.flatMap_nil, List.map_nil, List.append_nil, hun]
      exact hf
    | report hsent hun =>
      rw [hsent, List.drop_length, List.flatMap_nil, List.map_nil, List.append_nil, hun]
      exact hf.snapshot
    | accepted frame hsent hun =>
      have hnew : (((n.sent.drop s.node.sent.length).flatMap AgentMessage.statuses).map (s.streams, ·)).filterMap
          (fun e => stateFor id e.2) = tells id frame := by
        rw [hsent, List.drop_left, List.flatMap_cons, List.flatMap_nil, List.append_nil, List.filterMap_map]
        rfl
      rw [List.filterMap_append, hnew, List.append_assoc, ← hun]
      exact hf
  · show (InstanceState.pending :: (s.produced ++ n.agent.telling id)).getLast? = some (n.agent.shows id)
    rw [ht, hshows]
    exact hlast

/-- What a handled status makes of the state that the record shows. -/
theorem hear_stateOf {e : Experiment} (hn : e.Named) {copy : InstanceState} (h : e.stateOf id = some copy)
    (status : InstanceStatus) :
    (e.hear status).stateOf id = some (match stateFor id status with
      | some v => absorb InstanceState.isTerminal copy v
      | none => copy) := by
  unfold Experiment.hear decodeStatus stateFor
  by_cases hid : status.instanceId = id
  · rw [if_pos hid]
    cases hw : fromWireI32 status.state with
    | error _ => exact h
    | ok state =>
      obtain ⟨i, hi, -⟩ := Option.map_eq_some_iff.1 h
      have hiid : i.instanceId = id := by simpa using List.find?_some hi
      have howner : owningExperimentId status.instanceId = some e.id := by
        rw [hid, ← hiid]
        exact hn.owner (List.mem_of_find?_eq_some hi)
      show Experiment.stateOf (if owningExperimentId status.instanceId = some e.id then _ else e) id = _
      rw [if_pos howner, hid]
      exact Experiment.apply_status_stateOf h
  · rw [if_neg hid]
    cases fromWireI32 status.state with
    | error _ => exact h
    | ok state =>
      show Experiment.stateOf (if owningExperimentId status.instanceId = some e.id then _ else e) id = _
      split
      · have hspares : (RecordOp.status status.instanceId state status.reason status.tsUnixMs).spares id = true :=
          decide_eq_true hid
        exact (e.apply_stateOf hspares).trans h
      · exact h

/-- The master handles an entry of the wire. -/
theorem Tied.deliver (h : Tied id s) (hn : s.record.Named) {i stream : Nat} {status : InstanceStatus}
    (hi : s.wire[i]? = some (stream, status)) :
    Tied id { s with
      wire := s.wire.eraseIdx i, record := s.record.hear status, inOrder := s.inOrder && i == 0 } := by
  obtain ⟨hu, ⟨copy, hcopy, hf⟩, hlast⟩ := h
  obtain ⟨hlt, hget⟩ := List.getElem?_eq_some_iff.1 hi
  have hsplit : s.wire = s.wire.take i ++ (stream, status) :: s.wire.drop (i + 1) := by
    rw [← hget, ← List.drop_eq_getElem_cons hlt, List.take_append_drop]
  refine ⟨hu, ⟨_, hear_stateOf hn hcopy status, ?_⟩, hlast⟩
  show Follows _ (s.node.agent.shows id)
    ((s.wire.eraseIdx i).filterMap (fun e => stateFor id e.2) ++ untold id s.node) _ (s.inOrder && i == 0)
  have hflight : s.flight id = (s.wire.take i).filterMap (fun e => stateFor id e.2) ++
      ((stateFor id status).toList ++
        ((s.wire.drop (i + 1)).filterMap (fun e => stateFor id e.2) ++ untold id s.node)) := by
    unfold Link.flight
    conv_lhs => rw [hsplit]
    rw [List.filterMap_append, List.filterMap_cons]
    cases stateFor id status <;> simp
  rw [hflight] at hf
  rw [List.eraseIdx_eq_take_drop_succ, List.filterMap_append, List.append_assoc]
  cases hv : stateFor id status with
  | none =>
    rw [hv, Option.toList_none, List.nil_append] at hf
    exact hf.weaken fun ho => (Bool.and_eq_true_iff.1 ho).1
  | some v =>
    rw [hv, Option.toList_some, List.singleton_append] at hf
    refine hf.deliver fun ho => ?_
    rw [beq_iff_eq.1 ho]
    rfl

/-! ## Runs -/

theorem link_node (h : Reach (linkLts X id) s) : Reach (nodeLts X) s.node := by
  refine h.map (f := Link.node) ?_ ?_
  · rintro s ⟨b, hostname, record, -, -, -, rfl⟩
    exact ⟨b, hostname, rfl⟩
  · intro s label s' _ hs
    cases label with
    | node label =>
      obtain ⟨n, hn, rfl⟩ := Option.map_eq_some_iff.1 hs
      exact .inr ⟨label, hn⟩
    | deliver i =>
      simp only [linkLts, linkStep] at hs
      split at hs
      next => cases hs
      next =>
        split at hs
        · obtain rfl := Option.some.inj hs
          exact .inl rfl
        · cases hs
    | op o => obtain rfl := Option.some.inj hs; exact .inl rfl

theorem link_named (h : Reach (linkLts X id) s) : s.record.Named := by
  refine h.inv (P := fun s => s.record.Named) ?_ ?_
  · rintro s ⟨b, hostname, record, -, hrec, -, rfl⟩
    exact reach_named (.init hrec)
  · intro s label s' hn hs
    cases label with
    | node label => obtain ⟨n, -, rfl⟩ := Option.map_eq_some_iff.1 hs; exact hn
    | deliver i =>
      simp only [linkLts, linkStep] at hs
      split at hs
      next => cases hs
      next =>
        split at hs
        · obtain rfl := Option.some.inj hs
          exact (s.record.hear_kept _).named hn
        · cases hs
    | op o => obtain rfl := Option.some.inj hs; exact (s.record.apply_kept o).named hn

/-- A step of the process. -/
theorem Tied.node (h : Tied id s) (hr : Reach (nodeLts X) s.node) {label : NodeLabel} {n : Node}
    (hcalm : calm id s (.node label) = true) (hs : nodeStep X s.node label = some n) :
    Tied id (s.follow id label n) := by
  have ha := reach_agent hr
  cases label with
  | task id' choice =>
    obtain ⟨a, hstep, rfl⟩ := Option.map_eq_some_iff.1 hs
    have hmore : ∃ more, a.ctx.out = s.node.agent.ctx.out ++ more ∧ s.node.agent.Told id a more :=
      stepInstance_told (reach_candid ha) hstep
    obtain ⟨more, hout, htold⟩ := hmore
    refine h.enqueue hout htold ?_
    simp [Link.follow, enqueues, opens, hout]
  | clear i choice =>
    obtain ⟨a, hstep, rfl⟩ := Option.map_eq_some_iff.1 hs
    obtain ⟨-, hinst, more, hout, hquiet⟩ := stepClear_silent (reach_silent ha) hstep
    obtain ⟨hv, ht⟩ := Supervisor.told_of_lookup s.node.agent a (congrArg (AList.lookup id) hinst)
    have hnone : more.flatMap (tells id) = [] := by
      refine List.flatMap_eq_nil_iff.2 fun frame hf => ?_
      rw [tells, hquiet frame hf]
      rfl
    refine h.enqueue hout (.still hv (by rw [hnone, ht]; rfl)) ?_
    simp [Link.follow, enqueues, opens, hout]
  | tick now =>
    obtain rfl := Option.some.inj hs
    refine h.hand { s.node with agent := { s.node.agent with ctx := { s.node.agent.ctx with now } } } s.streams
      ⟨h.unheard.startup, h.unheard.keeping⟩ (.still rfl rfl) rfl rfl ?_
    simp [Link.follow, enqueues, opens]
  | session label =>
    have hstep : sessionStep s.node label = some n := hs
    have hwatched : ∃ c, Reach (custodyLts X) ⟨s.node, c⟩ := hr.watched
    obtain ⟨c, hc⟩ := hwatched
    obtain ⟨hshows, ht⟩ := sessionStep_told hstep id
    obtain ⟨hu, hh⟩ := Moved.hands (sessionStep_moved c hstep) (reach_shape hc) h.unheard ht (by
      rintro frame next kept rfl hpc hcheap hk
      simpa [calm, hpc, hk, hcheap] using hcalm)
    refine h.hand n (if opens (.session label) then s.streams + 1 else s.streams) hu hh hshows ht ?_
    simp [Link.follow, enqueues]

theorem Tied.step (h : Tied id s) (hr : Reach (linkLts X id) s) {label : LinkLabel} (hcalm : calm id s label = true)
    (hs : linkStep X id s label = some s') : Tied id s' := by
  cases label with
  | node label =>
    obtain ⟨n, hn, rfl⟩ := Option.map_eq_some_iff.1 hs
    exact h.node (link_node hr) hcalm hn
  | deliver i =>
    simp only [linkStep] at hs
    split at hs
    next => cases hs
    next stream status hi =>
      split at hs
      · obtain rfl := Option.some.inj hs
        exact h.deliver (link_named hr) hi
      · cases hs
  | op o =>
    obtain rfl := Option.some.inj hs
    obtain ⟨hu, ⟨copy, hcopy, hf⟩, hlast⟩ := h
    exact ⟨hu, ⟨copy, (s.record.apply_stateOf hcalm).trans hcopy, hf⟩, hlast⟩

/-- **The invariant of every calm run.** -/
theorem reach_tied (h : ReachIf (linkLts X id) (fun s label => calm id s label = true) s) : Tied id s := by
  refine h.inv (I := Reach (linkLts X id)) (P := Tied id) (fun _ h => h) ?_ ?_
  · rintro s ⟨b, hostname, record, hstartup, hrec, hsome, rfl⟩
    obtain ⟨state, hstate⟩ := Option.isSome_iff_exists.1 hsome
    obtain rfl := init_stateOf hrec hstate
    have hun : untold id (.boot X b hostname) = [] := rfl
    refine ⟨⟨hstartup, fun frame next he => by cases he⟩, ⟨.pending, hstate, ?_⟩, rfl⟩
    show Follows _ _ (([] : List (Nat × InstanceStatus)).filterMap _ ++ untold id (.boot X b hostname)) _ _
    rw [hun]
    exact .start _
  · intro s label s' hr ht hcalm hs
    exact ht.step hr hcalm hs

/-- A step that neither reports of the instance from elsewhere nor fires the deadline leaves a terminal state. -/
theorem terminal_kept (hn : s.record.Named) {state : InstanceState} (hstate : s.record.stateOf id = some state)
    (hf : state.isTerminal = true) {label : LinkLabel} (hcalm : calm id s label = true)
    (hs : linkStep X id s label = some s') : s'.record.stateOf id = some state := by
  cases label with
  | node label => obtain ⟨n, -, rfl⟩ := Option.map_eq_some_iff.1 hs; exact hstate
  | deliver i =>
    simp only [linkStep] at hs
    split at hs
    next => cases hs
    next stream status hi =>
      split at hs
      · obtain rfl := Option.some.inj hs
        refine (hear_stateOf hn hstate status).trans (congrArg some ?_)
        split
        next v _ => rw [absorb, if_pos hf]
        next => rfl
      · cases hs
  | op o => obtain rfl := Option.some.inj hs; exact (s.record.apply_stateOf hcalm).trans hstate

/-- **The record and the agent agree.** With nothing of the instance on its way, the record shows the last state that
was enqueued, if it is terminal or if the statuses were handled in the order of their acceptance; a terminal state of
the record is that of the agent, and nothing changes it. -/
theorem reconciled (h : ReachIf (linkLts X id) (fun s label => calm id s label = true) s) :
    (s.flight id = [] → (s.node.agent.shows id).isTerminal = true ∨ s.inOrder = true →
      s.record.stateOf id = some (s.produced.getLastD .pending)) ∧
    ∀ state, s.record.stateOf id = some state → state.isTerminal = true →
      s.node.agent.shows id = state ∧ ∀ label s', calm id s label = true → (linkLts X id).step s label = some s' →
        s'.record.stateOf id = some state := by
  obtain ⟨-, ⟨copy, hcopy, hf⟩, hlast⟩ := reach_tied h
  constructor
  · intro hflight ho
    have htelling : s.node.agent.telling id = [] := (List.append_eq_nil_iff.1 (List.append_eq_nil_iff.1 hflight).2).2
    rw [hflight] at hf
    rw [htelling, List.append_nil, List.getLast?_cons, Option.some.injEq] at hlast
    rw [hcopy, hf.converged ho, List.getLastD_eq_getLast?, hlast]
  · intro state hstate hterm
    obtain rfl := Option.some.inj (hcopy.symm.trans hstate)
    exact ⟨(hf.settled hterm).symm, fun label s' hcalm hs =>
      terminal_kept (link_named h.reach) hstate hterm hcalm hs⟩

end

def linkedRecord : Experiment := mintExperiment (.mint 1000 1) sampleDefinition 30 1000 DEADLINE_MARGIN_MS

def sampleLink : Link := ⟨sampleNode, 0, [], linkedRecord, [], true⟩

theorem sampleLink_init : (linkLts plainExt Agent.sampleRun.instanceId).init sampleLink :=
  ⟨sampleBoot, "web-01", linkedRecord, by decide +kernel,
    ⟨sampleDefinition, sampleCatalog, gatherHostFacts sampleRegistry sampleSessions sampleDefinition, 1000, 1, 30,
      DEADLINE_MARGIN_MS, gatherHostFacts_gathered _ _ _, by decide +kernel, rfl⟩, by decide +kernel, rfl⟩

def begins : List Choice := [.go, .go]

def fails : List Choice := [.joinError "", .go, .go, .go]

def movesOn : List SessionLabel := [.take, .accept, .ended] ++ reconnects ++ [.accept, .go, .accept, .go, .go]

/-- `PENDING` goes to the first stream; the report of the second and `ABORTED` are handled before it. -/
def overtaken : List LinkLabel :=
  (sessionLabels.map NodeLabel.session ++ begins.map (NodeLabel.task Agent.sampleRun.instanceId) ++
    movesOn.map NodeLabel.session ++ fails.map (NodeLabel.task Agent.sampleRun.instanceId) ++
    [NodeLabel.session .take, NodeLabel.session .accept]).map LinkLabel.node ++ [.deliver 1, .deliver 1, .deliver 0]

/-- The late `PENDING` leaves the record at `ABORTED`. -/
theorem reconciled_overtaken :
    ∃ s : Link, s.inOrder = false ∧ s.produced = [.pending, .aborted] ∧
      s.record.stateOf Agent.sampleRun.instanceId = some .aborted := by
  obtain ⟨s, hs, hp⟩ := reachIf_of_run (L := linkLts plainExt Agent.sampleRun.instanceId)
    (g := calm Agent.sampleRun.instanceId) (fun _ _ h => h)
    (fun s => decide (s.inOrder = false ∧ s.produced = [.pending, .aborted] ∧
      s.flight Agent.sampleRun.instanceId = [] ∧
      (s.node.agent.shows Agent.sampleRun.instanceId).isTerminal = true))
    sampleLink_init overtaken (by decide +kernel)
  obtain ⟨horder, hproduced, hflight, hterm⟩ := of_decide_eq_true hp
  refine ⟨s, horder, hproduced, ?_⟩
  rw [(reconciled hs).1 hflight (.inl hterm), hproduced]
  rfl

end FaultForge.System
