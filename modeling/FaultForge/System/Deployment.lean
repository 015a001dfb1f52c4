import FaultForge.Agent.Earned
import FaultForge.Master.Provenance

/-!
# One master and its hosts

`deployLts` is the whole system: the master, one agent process a host, and between them the two directions of each
`Session` stream. A stream carries frames in order. It can lose what is in flight (nobody need read it, and either end
can go at any time), but it neither makes frames up nor turns them round. A host can crash and start again at any time,
with anything on its disk.

`Wired` is what the wiring keeps (`reach_wired`): a stream that the master has registered for a host is one that this
host has dialled, and whatever is in flight to an agent is in the master's log.
-/
namespace FaultForge.System

open Lts Agent Master

/-! ## The system -/

/-- A host: its agent process, the stream of its last session, and what the processes before it showed. -/
structure Seat where
  node : Node
  stream : Option StreamId
  /-- For the statements only. -/
  past : String → List Obs

/-- What happened to an instance on the host, newest first. -/
def Seat.history (seat : Seat) (id : String) : List Obs := seat.node.agent.seen id ++ seat.past id

structure Deployment where
  master : MasterState
  seats : Hostname → Seat
  /-- Who dialled a stream. -/
  peer : StreamId → Option Hostname
  /-- In flight to the master, oldest first. -/
  up : StreamId → List AgentMessage
  /-- In flight to the agent, oldest first. -/
  down : StreamId → List Outbound

/-- The label takes a frame off a stream, or opens one. -/
def wired : Label → Bool
  | .connect | .recv _ _ | .drain _ => true
  | _ => false

def wiredAgent : NodeLabel → Bool
  | .session .opened | .session (.recv _) => true
  | _ => false

/-- What the end of the stream at the agent makes of an item: an error ends the session. -/
def arrival : Outbound → NodeLabel
  | .ok f => .session (.recv f)
  | .err _ => .session .ended

inductive DeployLabel
  | master (label : Label)
  | agent (host : Hostname) (label : NodeLabel)
  /-- The agent opens a stream. -/
  | dial (host : Hostname)
  /-- The master reads a frame of an agent. -/
  | receive (t : StreamId)
  /-- The stream takes a frame out of the channel. -/
  | fetch (t : StreamId)
  /-- The agent reads an item of its stream. -/
  | read (host : Hostname)
  /-- The agent of the host crashes and starts again. -/
  | restart (host : Hostname) (boot : Boot)

def Deployment.setSeat (s : Deployment) (host : Hostname) (seat : Seat) : Deployment :=
  { s with seats := Function.update s.seats host seat }

/-- The process has moved to `n`: what it sent is in flight. -/
def Deployment.move (s : Deployment) (host : Hostname) (n : Node) : Deployment where
  __ := s.setSeat host { s.seats host with node := n }
  up := match (s.seats host).stream with
    | some t => Function.update s.up t (s.up t ++ n.sent.drop (s.seats host).node.sent.length)
    | none => s.up

def Deployment.dialled (s : Deployment) (host : Hostname) (n : Node) (m : MasterState) : Deployment where
  __ := s.setSeat host ⟨n, some s.master.tasks.length, (s.seats host).past⟩
  master := m
  peer := Function.update s.peer s.master.tasks.length (some host)

def deployStep (X : Ext) (C : Master.Config) (s : Deployment) : DeployLabel → Option Deployment
  | .master label => if wired label then none else (masterStep C s.master label).map fun master => { s with master }
  | .agent host label =>
    if wiredAgent label then none else (nodeStep X (s.seats host).node label).map (s.move host)
  | .dial host =>
    match nodeStep X (s.seats host).node (.session .opened), masterStep C s.master .connect with
    | some n, some m => some (s.dialled host n m)
    | _, _ => none
  | .receive t =>
    match s.up t with
    | [] => none
    | frame :: rest =>
      (masterStep C s.master (.recv t (some frame))).map fun master =>
        { s with master, up := Function.update s.up t rest }
  | .fetch t =>
    match (s.master.shared.sent t)[s.master.shared.taken t]? with
    | none => none
    | some o =>
      (masterStep C s.master (.drain t)).map fun master =>
        { s with master, down := Function.update s.down t (s.down t ++ [o]) }
  | .read host =>
    match (s.seats host).stream with
    | none => none
    | some t =>
      match s.down t with
      | [] => none
      | o :: rest =>
        (nodeStep X (s.seats host).node (arrival o)).map fun n =>
          { s.move host n with down := Function.update s.down t rest }
  | .restart host boot =>
    some (s.setSeat host ⟨.boot X boot host.val, none, (s.seats host).history⟩)

def deployLts (X : Ext) (C : Master.Config) : System Deployment DeployLabel where
  init s := ∃ (now : Int) (boots : Hostname → Boot),
    s = ⟨⟨.new now, []⟩, fun host => ⟨.boot X (boots host) host.val, none, fun _ => []⟩, fun _ => none, fun _ => [],
      fun _ => []⟩
  step := deployStep X C

/-! ## The steps -/

/-- Every step of the system. -/
inductive DeployStep (X : Ext) (C : Master.Config) (s : Deployment) : Deployment → Prop
  | master {label : Label} {m : MasterState} : wired label = false → masterStep C s.master label = some m →
      DeployStep X C s { s with master := m }
  | agent {host : Hostname} {label : NodeLabel} {n : Node} : wiredAgent label = false →
      nodeStep X (s.seats host).node label = some n → DeployStep X C s (s.move host n)
  | dial {host : Hostname} {n : Node} {m : MasterState} :
      nodeStep X (s.seats host).node (.session .opened) = some n → masterStep C s.master .connect = some m →
      DeployStep X C s (s.dialled host n m)
  | receive {t : StreamId} {frame : AgentMessage} {rest : List AgentMessage} {m : MasterState} :
      s.up t = frame :: rest → masterStep C s.master (.recv t (some frame)) = some m →
      DeployStep X C s { s with master := m, up := Function.update s.up t rest }
  | fetch {t : StreamId} {o : Outbound} {m : MasterState} :
      o ∈ s.master.shared.sent t → masterStep C s.master (.drain t) = some m →
      DeployStep X C s { s with master := m, down := Function.update s.down t (s.down t ++ [o]) }
  | read {host : Hostname} {t : StreamId} {o : Outbound} {rest : List Outbound} {n : Node} :
      (s.seats host).stream = some t → s.down t = o :: rest →
      nodeStep X (s.seats host).node (arrival o) = some n →
      DeployStep X C s { s.move host n with down := Function.update s.down t rest }
  | restart (host : Hostname) (boot : Boot) :
      DeployStep X C s (s.setSeat host ⟨.boot X boot host.val, none, (s.seats host).history⟩)

section
variable {X : Ext} {C : Master.Config} {s s' : Deployment} {label : DeployLabel}

/-- **The inversion lemma of the system.** -/
theorem deployStep_cases (h : deployStep X C s label = some s') : DeployStep X C s s' := by
  cases label with
  | master label =>
    simp only [deployStep] at h
    split at h
    next => cases h
    next hw =>
      obtain ⟨m, hm, rfl⟩ := Option.map_eq_some_iff.1 h
      exact .master (by simpa using hw) hm
  | agent host label =>
    simp only [deployStep] at h
    split at h
    next => cases h
    next hw =>
      obtain ⟨n, hn, rfl⟩ := Option.map_eq_some_iff.1 h
      exact .agent (by simpa using hw) hn
  | dial host =>
    simp only [deployStep] at h
    split at h
    next n m hn hm => obtain rfl := Option.some.inj h; exact .dial hn hm
    next => cases h
  | receive t =>
    simp only [deployStep] at h
    split at h
    next => cases h
    next frame rest hup =>
      obtain ⟨m, hm, rfl⟩ := Option.map_eq_some_iff.1 h
      exact .receive hup hm
  | fetch t =>
    simp only [deployStep] at h
    split at h
    next => cases h
    next o ho =>
      obtain ⟨m, hm, rfl⟩ := Option.map_eq_some_iff.1 h
      exact .fetch (List.mem_of_getElem? ho) hm
  | read host =>
    simp only [deployStep] at h
    split at h
    next => cases h
    next t ht =>
      split at h
      next => cases h
      next o rest hdown =>
        obtain ⟨n, hn, rfl⟩ := Option.map_eq_some_iff.1 h
        exact .read ht hdown hn
  | restart host boot => obtain rfl := Option.some.inj h; exact .restart host boot

/-! ### One part of the system -/

/-- What a step does to the master: nothing, or one of its steps, which receives only what is in flight. -/
theorem DeployStep.onMaster (h : DeployStep X C s s') : s'.master = s.master ∨ ∃ label,
    masterStep C s.master label = some s'.master ∧
      ∀ t payload, label = .recv t payload → ∃ frame ∈ s.up t, payload = some frame := by
  cases h with
  | @master label m hw hm =>
    refine .inr ⟨label, hm, ?_⟩
    rintro t payload rfl
    cases hw
  | dial _ hm => exact .inr ⟨_, hm, fun _ _ h => by cases h⟩
  | receive hup hm =>
    refine .inr ⟨_, hm, fun t payload h => ?_⟩
    obtain ⟨rfl, rfl⟩ := Label.recv.inj h
    exact ⟨_, hup ▸ List.mem_cons_self, rfl⟩
  | fetch _ hm => exact .inr ⟨_, hm, fun _ _ h => by cases h⟩
  | agent | read | restart => exact .inl rfl

/-- What a step does to a seat. -/
inductive SeatStep (X : Ext) (s : Deployment) (host : Hostname) : Seat → Prop
  | still : SeatStep X s host (s.seats host)
  | move {label : NodeLabel} {n : Node} (stream : Option StreamId) :
      nodeStep X (s.seats host).node label = some n →
      (∀ f, label = .session (.recv f) → ∃ t, (s.seats host).stream = some t ∧ .ok f ∈ s.down t) →
      SeatStep X s host ⟨n, stream, (s.seats host).past⟩
  | restart (boot : Boot) : SeatStep X s host ⟨.boot X boot host.val, none, (s.seats host).history⟩

@[simp] theorem setSeat_self (s : Deployment) (host : Hostname) (seat : Seat) :
    (s.setSeat host seat).seats host = seat := by
  simp [Deployment.setSeat]

theorem setSeat_ne (s : Deployment) {host host' : Hostname} (seat : Seat) (h : host' ≠ host) :
    (s.setSeat host seat).seats host' = s.seats host' := by
  simp [Deployment.setSeat, h]

theorem SeatStep.setSeat {host : Hostname} {seat : Seat} (h : SeatStep X s host seat) (host' : Hostname) :
    SeatStep X s host' ((s.setSeat host seat).seats host') := by
  by_cases hh : host' = host
  · rw [hh, setSeat_self]
    exact h
  · rw [setSeat_ne s seat hh]
    exact .still

theorem DeployStep.onSeat (h : DeployStep X C s s') (host : Hostname) : SeatStep X s host (s'.seats host) := by
  cases h with
  | master | receive | fetch => exact .still
  | agent hw hn => exact (SeatStep.move _ hn (by rintro f rfl; cases hw)).setSeat host
  | dial hn => exact (SeatStep.move _ hn (fun _ h => by cases h)).setSeat host
  | @read host' t o rest n ht hdown hn =>
    refine (SeatStep.move _ hn (fun f he => ⟨t, ht, ?_⟩)).setSeat host
    cases o with
    | ok g => cases he; exact hdown ▸ List.mem_cons_self
    | err => cases he
  | restart host' boot => exact (SeatStep.restart boot).setSeat host

/-- The frame has just been sent on the stream, by the process of the host that dialled it last. -/
def Sends (X : Ext) (s s' : Deployment) (t : StreamId) (frame : AgentMessage) : Prop :=
  ∃ host label n, (s.seats host).stream = some t ∧ nodeStep X (s.seats host).node label = some n ∧
    s'.seats host = { s.seats host with node := n } ∧ frame ∈ n.sent.drop (s.seats host).node.sent.length

theorem move_up {host : Hostname} {n : Node} {t : StreamId} {frame : AgentMessage}
    (h : frame ∈ (s.move host n).up t) :
    frame ∈ s.up t ∨ (s.seats host).stream = some t ∧ frame ∈ n.sent.drop (s.seats host).node.sent.length := by
  unfold Deployment.move at h
  cases hs : (s.seats host).stream with
  | none => rw [hs] at h; exact .inl h
  | some t' =>
    rw [hs] at h
    by_cases ht : t = t'
    · subst ht
      replace h : frame ∈ Function.update s.up t _ t := h
      rw [Function.update_self] at h
      exact (List.mem_append.1 h).imp_right fun hf => ⟨rfl, hf⟩
    · exact .inl ((congrArg (frame ∈ ·) (Function.update_of_ne ht _ _)).mp h)

/-- What is in flight to the master was so before, or has just been sent. -/
theorem DeployStep.onUp (h : DeployStep X C s s') {t : StreamId} {frame : AgentMessage} (hf : frame ∈ s'.up t) :
    frame ∈ s.up t ∨ Sends X s s' t frame := by
  have moved : ∀ {host : Hostname} {label : NodeLabel} {n : Node}, nodeStep X (s.seats host).node label = some n →
      frame ∈ (s.move host n).up t → s'.seats host = { s.seats host with node := n } →
      frame ∈ s.up t ∨ Sends X s s' t frame := fun hn hup hseat =>
    (move_up hup).imp_right fun ⟨ht, hsent⟩ => ⟨_, _, _, ht, hn, hseat, hsent⟩
  cases h with
  | master | dial | fetch | restart => exact .inl hf
  | agent hw hn => exact moved hn hf (setSeat_self s _ _)
  | @receive t' frame' rest m hup =>
    by_cases ht : t = t'
    · subst ht
      replace hf : frame ∈ Function.update s.up t rest t := hf
      rw [Function.update_self] at hf
      exact .inl (hup ▸ List.mem_cons_of_mem _ hf)
    · exact .inl ((congrArg (frame ∈ ·) (Function.update_of_ne ht _ _)).mp hf)
  | read ht hdown hn => exact moved hn hf (setSeat_self s _ _)

/-- What is in flight to an agent was so before, or has been sent by the master. -/
theorem DeployStep.onDown (h : DeployStep X C s s') {t : StreamId} {o : Outbound} (ho : o ∈ s'.down t) :
    o ∈ s.down t ∨ o ∈ s.master.shared.sent t := by
  cases h with
  | master | dial | receive | agent | restart => exact .inl ho
  | @fetch t' o' m hsent =>
    by_cases ht : t = t'
    · subst ht
      replace ho : o ∈ Function.update s.down t _ t := ho
      rw [Function.update_self] at ho
      refine (List.mem_append.1 ho).imp_right fun ho => ?_
      exact List.mem_singleton.1 ho ▸ hsent
    · exact .inl ((congrArg (o ∈ ·) (Function.update_of_ne ht _ _)).mp ho)
  | @read host t' o' rest n _ hdown =>
    by_cases ht : t = t'
    · subst ht
      replace ho : o ∈ Function.update s.down t rest t := ho
      rw [Function.update_self] at ho
      exact .inl (hdown ▸ List.mem_cons_of_mem _ ho)
    · exact .inl ((congrArg (o ∈ ·) (Function.update_of_ne ht _ _)).mp ho)

/-- The streams of the seats and who dialled them: a step dials a new one, or none. -/
inductive PeerStep (s s' : Deployment) : Prop
  | still : s'.peer = s.peer →
      (∀ host, (s'.seats host).stream = (s.seats host).stream ∨ (s'.seats host).stream = none) → PeerStep s s'
  | dial (host : Hostname) : s'.peer = Function.update s.peer s.master.tasks.length (some host) →
      s.master.tasks.length < s'.master.tasks.length → (s'.seats host).stream = some s.master.tasks.length →
      (∀ host', host' ≠ host → s'.seats host' = s.seats host') → PeerStep s s'

theorem setSeat_stream {host : Hostname} {seat : Seat}
    (h : seat.stream = (s.seats host).stream ∨ seat.stream = none) (host' : Hostname) :
    ((s.setSeat host seat).seats host').stream = (s.seats host').stream ∨
      ((s.setSeat host seat).seats host').stream = none := by
  by_cases hh : host' = host
  · rw [hh, setSeat_self]
    exact h
  · rw [setSeat_ne s seat hh]
    exact .inl rfl

theorem DeployStep.onPeer (h : DeployStep X C s s') : PeerStep s s' := by
  cases h with
  | master | receive | fetch => exact .still rfl fun _ => .inl rfl
  | agent | read => exact .still rfl (setSeat_stream (.inl rfl))
  | restart host boot => exact .still rfl (setSeat_stream (.inr rfl))
  | @dial host n m hn hm =>
    have hstream : ((s.dialled host n m).seats host).stream = some s.master.tasks.length :=
      congrArg Seat.stream (setSeat_self s host _)
    obtain rfl := Option.some.inj hm
    exact .dial host rfl (by simp [Deployment.dialled]) hstream fun host' hh => setSeat_ne s _ hh

/-! ### The parts on their own -/

theorem reach_master (h : Reach (deployLts X C) s) : Reach (masterLts C) s.master := by
  refine h.map (f := Deployment.master) ?_ fun s label s' _ hs => ?_
  · rintro s ⟨now, boots, rfl⟩
    exact ⟨now, rfl⟩
  · exact (deployStep_cases hs).onMaster.imp_right fun ⟨label, hm, _⟩ => ⟨label, hm⟩

theorem reach_seat (h : Reach (deployLts X C) s) (host : Hostname) : Reach (nodeLts X) (s.seats host).node := by
  induction h with
  | init hi =>
    obtain ⟨now, boots, rfl⟩ := hi
    exact .init ⟨boots host, host.val, rfl⟩
  | @step s s' label _ hs ih =>
    have hseat := (deployStep_cases hs).onSeat host
    generalize s'.seats host = seat' at hseat
    cases hseat with
    | still => exact ih
    | move stream hn => exact .step ih hn
    | restart boot => exact .init ⟨boot, host.val, rfl⟩

/-! ## The wiring -/

structure Wired (s : Deployment) : Prop where
  registers : ∀ host, (s.seats host).node.Registers host.val
  peered : Peered s.peer s.master
  bound : ∀ t host, s.peer t = some host → t < s.master.tasks.length
  stream : ∀ host t, (s.seats host).stream = some t → s.peer t = some host
  up : ∀ t, ∀ frame ∈ s.up t, ∃ host, s.peer t = some host ∧ OwnRegister host.val frame
  down : ∀ t, ∀ o ∈ s.down t, o ∈ s.master.shared.sent t

/-- Whoever has dialled a stream stays its peer. -/
theorem Wired.peer_mono (hw : Wired s) (h : PeerStep s s') {t : StreamId} {host : Hostname}
    (hp : s.peer t = some host) : s'.peer t = some host := by
  cases h with
  | still he => rw [he]; exact hp
  | dial host' he =>
    rw [he, Function.update_of_ne (Nat.ne_of_lt (hw.bound t host hp))]
    exact hp

theorem Wired.bound_step (hw : Wired s) (h : PeerStep s s') (hlen : s.master.tasks.length ≤ s'.master.tasks.length)
    (t : StreamId) (host : Hostname) (hp : s'.peer t = some host) : t < s'.master.tasks.length := by
  cases h with
  | still he =>
    rw [he] at hp
    exact Nat.lt_of_lt_of_le (hw.bound t host hp) hlen
  | dial host' he hlt =>
    by_cases ht : t = s.master.tasks.length
    · exact ht ▸ hlt
    · rw [he, Function.update_of_ne ht] at hp
      exact Nat.lt_of_lt_of_le (hw.bound t host hp) hlen

theorem Wired.stream_step (hw : Wired s) (h : PeerStep s s') (host : Hostname) (t : StreamId)
    (hs : (s'.seats host).stream = some t) : s'.peer t = some host := by
  have hmono : s.peer t = some host → s'.peer t = some host := hw.peer_mono h
  cases h with
  | still he hstream =>
    rcases hstream host with hsame | hnone
    · exact hmono (hw.stream host t (hsame ▸ hs))
    · rw [hnone] at hs
      cases hs
  | dial host' he _ hnew hold =>
    by_cases hh : host = host'
    · subst hh
      rw [hnew] at hs
      obtain rfl := Option.some.inj hs
      rw [he, Function.update_self]
    · rw [hold host hh] at hs
      exact hmono (hw.stream host t hs)

/-- A frame of a host joins its stream under the name of the host, or not at all. -/
theorem joins_own {host : Hostname} {frame : AgentMessage} (hf : OwnRegister host.val frame) {now : Int}
    {stream : Stream} {a : Act} (ha : a ∈ handleFrame now stream (some frame)) {host' : Hostname}
    (hj : a.joinsAs = some host') : host' = host := by
  have parsed : ∀ name, frame = .register name → processRegister name stream.hostname.isSome = .ok host' →
      host' = host := by
    intro name he hp
    obtain rfl := hf name he
    unfold processRegister at hp
    rw [host.parse_val] at hp
    split at hp
    · cases hp
    · exact (Except.ok.inj hp).symm
  unfold handleFrame at ha
  split at ha
  next name he =>
    split at ha
    next host₁ hp =>
      obtain rfl := List.mem_singleton.1 ha
      obtain rfl := Option.some.inj hj
      exact parsed name (Option.some.inj he) hp
    next => obtain rfl := List.mem_singleton.1 ha; cases hj
  · split at ha <;> (obtain rfl := List.mem_singleton.1 ha; cases hj)
  next status he =>
    unfold decodeStatus at ha
    split at ha
    · cases ha
    · obtain rfl := List.mem_singleton.1 ha
      cases hj
  next statuses he =>
    obtain ⟨status, -, hd⟩ := List.mem_filterMap.1 ha
    unfold decodeStatus at hd
    split at hd
    · cases hd
    · obtain rfl := Option.some.inj hd
      cases hj
  · split at ha
    · obtain rfl := List.mem_singleton.1 ha; cases hj
    · cases ha
  · cases ha
  · cases ha

theorem Wired.step (hw : Wired s) (h : DeployStep X C s s') : Wired s' := by
  have hmono : ∀ t host, s.peer t = some host → s'.peer t = some host := fun _ _ => hw.peer_mono h.onPeer
  have hlen : s.master.tasks.length ≤ s'.master.tasks.length := by
    rcases h.onMaster with he | ⟨label, hm, -⟩
    · rw [he]
    · exact masterStep_length hm
  refine ⟨fun host => ?_, ?_, hw.bound_step h.onPeer hlen, hw.stream_step h.onPeer, fun t frame hf => ?_,
    fun t o ho => ?_⟩
  · have hseat := h.onSeat host
    generalize s'.seats host = seat' at hseat
    cases hseat with
    | still => exact hw.registers host
    | move stream hn => exact ((hw.registers host).step hn).1
    | restart boot => exact .boot X boot host.val
  · rcases h.onMaster with he | ⟨label, hm, hrecv⟩
    · rw [he]
      exact hw.peered.mono hmono
    · refine Peered.mono (hw.peered.step (fun p payload hl stream a ha host hj => ?_) hm) hmono
      obtain ⟨frame, hf, rfl⟩ := hrecv p payload hl
      obtain ⟨host', hp, hown⟩ := hw.up p frame hf
      exact joins_own hown ha hj ▸ hp
  · rcases h.onUp hf with hf | ⟨host, label, n, hs, hn, -, hsent⟩
    · obtain ⟨host, hp, hown⟩ := hw.up t frame hf
      exact ⟨host, hmono t host hp, hown⟩
    · obtain ⟨frames, he, hown⟩ := ((hw.registers host).step hn).2
      rw [he, List.drop_left] at hsent
      exact ⟨host, hmono t host (hw.stream host t hs), hown frame hsent⟩
  · have grown : ∀ {o}, o ∈ s.master.shared.sent t → o ∈ s'.master.shared.sent t := fun ho => by
      rcases h.onMaster with he | ⟨label, hm, -⟩
      · rw [he]; exact ho
      · exact masterStep_sent hm ho
    rcases h.onDown ho with ho | ho
    · exact grown (hw.down t o ho)
    · exact grown ho

theorem reach_wired (h : Reach (deployLts X C) s) : Wired s := by
  refine h.inv (P := Wired) ?_ fun s label s' hw hs => hw.step (deployStep_cases hs)
  rintro s ⟨now, boots, rfl⟩
  exact ⟨fun host => .boot X (boots host) host.val, ⟨fun t task a host ht => (by cases ht), fun t host hs => (by
    obtain ⟨_, hst, -⟩ := hs
    cases hst)⟩, fun _ _ hp => (by cases hp), fun _ _ hs => (by cases hs), fun _ _ hf => (by cases hf),
    fun _ _ ho => (by cases ho)⟩

end

end FaultForge.System
