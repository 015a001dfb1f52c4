import FaultForge.Lib.Tasks
import FaultForge.Master.Record

/-!
# The dispatcher, its sessions and its handlers (master/src: dispatch.rs, session.rs, server.rs)

The master as a pool of tasks over one shared state. A task is a `Session` call (its id is its stream's), an HTTP
handler, or a deadline task. An act is what a task does in one critical section, or one `send().await`; between two acts
any other task may step in.

| here | there |
| --- | --- |
| acts `start` .. `publish`, `sendRunFaults`, `toHost`, `enqueue` | `start_experiment` dispatch.rs:123, 151, 179, 215 |
| acts `arm`, `timer`, `sleep`, `resolve` | `spawn_deadline_task`, `resolve_deadline` dispatch.rs:227, 352 |
| acts `status`, `setTaint`, `sweep` | `handle_instance_status`, `handle_taint_status` dispatch.rs:241, 282 |
| acts `halt`, `clearTaint`, `relay`, `relayTo` | dispatch.rs:324, 399 |
| `processRegister`, `decodeStatus`, `handleFrame` | session.rs:24, 66, 102 |
| acts `registerAgent` .. `leave` | `Session::register`, `send`, `reject`, `run` session.rs:134-260 |

`registry`, `sessions` and `store` have locks of their own, so a handler that takes two of them does so in two acts. The
facts for validation are read host by host from one snapshot of the registry, since its lock is held over the loop and
the session map's is not. The order in which a sweep visits the store is the order of its keys (unspecified in the
source). One clock serves the timestamps and the sleeps. An outbound channel holds 32 frames; a `Session` call owns the
receiving end, which the client drains or drops. A dropped HTTP request drops its handler's future at a pending send.
-/
namespace FaultForge.Master

open Lts Tasks

/-! ## Configuration and results -/

structure Config where
  catalog : Catalog
  defaultGraceSecs : UInt32
  deadlineMarginMs : Int
  heartbeatIntervalSecs : UInt32
  /-- `serde_json::to_string`. -/
  encodeParams : Params → Option String

/-- `tonic::Status`; the text of `invalidArgument` is the `Display` of the error. -/
inductive Status
  | failedPrecondition (message : String)
  | invalidArgument (e : HostnameError)
  | stream (message : String)
deriving DecidableEq

/-- What a session answers a frame with. -/
inductive Reply
  | registerAck (serverTimeUnixMs : Int) (heartbeatIntervalSecs : UInt32)
  | heartbeatAck (serverTimeUnixMs : Int)

def Reply.frame : Reply → ServerMessage
  | .registerAck serverTimeUnixMs heartbeatIntervalSecs => .registerAck serverTimeUnixMs heartbeatIntervalSecs
  | .heartbeatAck serverTimeUnixMs => .heartbeatAck serverTimeUnixMs

/-- `Result<ServerMessage, Status>`, what an outbound channel carries. -/
inductive Outbound
  | ok (frame : ServerMessage)
  | err (status : Status)
deriving DecidableEq

inductive HaltOutcome | notFound | alreadyConcluded | accepted
deriving DecidableEq, Repr

inductive ClearTaintOutcome | unknownHost | notConnected | sent
deriving DecidableEq, Repr

/-- What a handler answers. -/
inductive Response
  | rejected (failures : List ValidationFailure)
  | created (e : Experiment)
  | halted (outcome : HaltOutcome)
  | cleared (outcome : ClearTaintOutcome)

/-! ## State -/

abbrev Store := AList fun _ : ExperimentId => Experiment

/-- One `Session` call: what its task knows, and the receiving end of its channel. -/
structure Stream where
  hostname : Option Hostname
  epoch : Option Nat
  /-- The task has ended. -/
  ended : Bool
  /-- How many frames have been taken out of the channel. -/
  taken : Nat
  /-- The receiving end is gone. -/
  closed : Bool

def Stream.new : Stream := ⟨none, none, false, 0, false⟩

/-- What has become of a frame. The two cases in the middle are warnings in the source. -/
inductive Delivery
  | enqueued (stream : StreamId) (o : Outbound)
  | noSession (hostname : Hostname) (frame : ServerMessage)
  | sessionClosed (stream : StreamId) (frame : ServerMessage)
  /-- Its handler's future was dropped. -/
  | abandoned (frame : ServerMessage)

structure Dispatcher where
  registry : Registry
  sessions : SessionMap
  store : Store
  seq : Nat
  now : Int
  streams : StreamId → Option Stream
  log : List Delivery
  responses : List (Nat × Response)

def Dispatcher.new (now : Int) : Dispatcher := ⟨∅, .empty, ∅, 1, now, fun _ => none, [], []⟩

/-! ## Channels -/

def CHANNEL : Nat := 32

def Delivery.on (t : StreamId) : Delivery → Option Outbound
  | .enqueued t' o => if t' = t then some o else none
  | _ => none

/-- The outbound sequence of a stream. -/
def Dispatcher.sent (s : Dispatcher) (t : StreamId) : List Outbound := s.log.filterMap (Delivery.on t)

def Dispatcher.closed (s : Dispatcher) (t : StreamId) : Bool :=
  match s.streams t with
  | some stream => stream.closed
  | none => true

def Dispatcher.taken (s : Dispatcher) (t : StreamId) : Nat :=
  match s.streams t with
  | some stream => stream.taken
  | none => 0

/-- The free places of a channel. -/
def Dispatcher.room (s : Dispatcher) (t : StreamId) : Nat := CHANNEL + s.taken t - (s.sent t).length

inductive Sending
  | waits
  | closed
  | done (s : Dispatcher)

/-- `tx.send(..).await`. -/
def Dispatcher.send (s : Dispatcher) (t : StreamId) (o : Outbound) : Sending :=
  if s.closed t then .closed
  else if s.room t = 0 then .waits
  else .done { s with log := s.log ++ [.enqueued t o] }

/-! ## Operations on the store -/

def Store.update (st : Store) (id : ExperimentId) (op : RecordOp) : Store × List Target :=
  match st.lookup id with
  | none => (st, [])
  | some e => (st.insert id (e.apply op).1, (e.apply op).2)

/-- One operation on several records under one lock. -/
def Store.updateAll (st : Store) (op : RecordOp) : List ExperimentId → Store × List Target
  | [] => (st, [])
  | id :: ids =>
    let (st, aborts) := st.update id op
    let (st, more) := updateAll st op ids
    (st, aborts ++ more)

/-- `owning_experiment_id` (dispatch.rs:440). -/
def owningExperimentId (instanceId : String) : Option ExperimentId :=
  let experiment := instanceId.toList.takeWhile (· != ':')
  match instanceId.toList.dropWhile (· != ':') with
  | [] => none
  | _ :: rest => if experiment = [] ∨ rest = [] then none else some (String.ofList experiment)

/-! ## Acts -/

inductive Act
  | start (definition : ExperimentDefinition)
  | gather (definition : ExperimentDefinition) (registry : Registry) (facts : AList fun _ : String => HostFacts)
      (hosts : List String)
  | mint (definition : ExperimentDefinition)
  | publish (e : Experiment)
  /-- `send_to_host`: the lookup of the sender. -/
  | toHost (hostname : Hostname) (frame : ServerMessage)
  /-- `send_to_host`: the send on the channel that was found. -/
  | enqueue (stream : StreamId) (frame : ServerMessage)
  | arm (id : ExperimentId) (deadlineUnixMs : Int)
  | timer (id : ExperimentId) (deadlineUnixMs : Int)
  | sleep (wakeMs : Int)
  | resolve (id : ExperimentId)
  | status (instanceId : String) (state : InstanceState) (reason : String) (tsUnixMs : Int)
  | setTaint (hostname : Hostname) (tainted : Bool) (reason : String) (tsUnixMs : Int)
  | sweep (hostname : Hostname) (reason : String) (tsUnixMs : Int)
  | halt (id : ExperimentId) (reason : String)
  | clearTaint (hostname : Hostname)
  | relay (hostname : Hostname)
  | relayTo (stream : StreamId)
  | registerAgent (hostname : Hostname) (now : Int)
  | fetchEpoch (hostname : Hostname) (now : Int)
  | insertSession (hostname : Hostname) (epoch : Nat) (now : Int)
  | updateHeartbeat (hostname : Hostname) (now : Int)
  | reply (r : Reply)
  | reject (status : Status)
  | leave
  | respond (r : Response)

abbrev MasterState := Pool Dispatcher Act

def runFault (C : Config) (e : Experiment) (i : InstanceRecord) : Option RunFault := do
  let action ← e.definition.actions[i.actionIndex]?
  let entry ← C.catalog.get action.plugin.name action.plugin.version
  let paramsJson ← C.encodeParams action.params
  return ⟨i.instanceId, action.plugin.name, action.plugin.version, entry.digest.val, paramsJson, action.durationSecs,
    e.graceSecs⟩

/-- The salvo, over the snapshot taken before the record was published. -/
def sendRunFaults (C : Config) (e : Experiment) : List Act :=
  e.instances.filterMap fun i => (runFault C e i).map fun f => .toHost i.hostname (.runFault f)

def sendAborts (aborts : List Target) : List Act := aborts.map fun a => .toHost a.1 (.abortFault a.2)

section
variable (C : Config) (s : Dispatcher) (p : Nat)

/-- An act that changes nothing but what is left to do. -/
def goOn (acts : List Act) : Option (Effect Dispatcher Act) := some ⟨s, acts, []⟩

/-- An operation on the store, and the frames it hands over. -/
def onStore (r : Store × List Target) (acts : List Act) : Option (Effect Dispatcher Act) :=
  some ⟨{ s with store := r.1 }, sendAborts r.2 ++ acts, []⟩

def handleStatus (instanceId : String) (state : InstanceState) (reason : String) (tsUnixMs : Int) :
    Option (Effect Dispatcher Act) :=
  match owningExperimentId instanceId with
  | none => goOn s []
  | some id => onStore s (s.store.update id (.status instanceId state reason tsUnixMs)) []

def handleHalt (id : ExperimentId) (reason : String) : Option (Effect Dispatcher Act) :=
  match s.store.lookup id with
  | none => goOn s [.respond (.halted .notFound)]
  | some e =>
    if e.isConcluded then goOn s [.respond (.halted .alreadyConcluded)]
    else onStore s (s.store.update id (.halt reason s.now)) [.respond (.halted .accepted)]

/-- The end of a session task: its entry goes, if it is still the current one. -/
def endSession : Dispatcher :=
  match s.streams p with
  | none => s
  | some stream =>
    let sessions := match stream.hostname, stream.epoch with
      | some hostname, some epoch => s.sessions.removeIfCurrent hostname epoch
      | _, _ => s.sessions
    { s with sessions, streams := Function.update s.streams p (some { stream with ended := true }) }

def insertSession (hostname : Hostname) (epoch : Nat) : Dispatcher where
  __ := s
  sessions := s.sessions.insert hostname epoch p
  streams := Function.update s.streams p ((s.streams p).map fun stream =>
    { stream with hostname := some hostname, epoch := some epoch })

/-- One act of task `p`; `none` while it waits. -/
def exec : Act → Option (Effect Dispatcher Act)
  | .start definition =>
    goOn s [.gather definition s.registry ∅ (definition.actions.flatMap ActionDefinition.hosts)]
  | .gather definition registry facts (host :: hosts) =>
    goOn s [.gather definition registry (addFacts registry s.sessions facts host) hosts]
  | .gather definition _ facts [] =>
    match validate definition C.catalog facts with
    | [] => goOn s [.mint definition]
    | f :: fs => goOn s [.respond (.rejected (f :: fs))]
  | .mint definition =>
    let e := mintExperiment (.mint s.now s.seq) definition C.defaultGraceSecs s.now C.deadlineMarginMs
    some ⟨{ s with seq := s.seq + 1 }, [.publish e], []⟩
  | .publish e =>
    some ⟨{ s with store := s.store.insert e.id e },
      sendRunFaults C e ++ [.arm e.id e.deadlineUnixMs, .respond (.created e)], []⟩
  | .toHost hostname frame =>
    match s.sessions.sender hostname with
    | none => some ⟨{ s with log := s.log ++ [.noSession hostname frame] }, [], []⟩
    | some t => goOn s [.enqueue t frame]
  | .enqueue t frame =>
    match s.send t (.ok frame) with
    | .waits => none
    | .closed => some ⟨{ s with log := s.log ++ [.sessionClosed t frame] }, [], []⟩
    | .done s => goOn s []
  | .arm id deadlineUnixMs => some ⟨s, [], [[.timer id deadlineUnixMs]]⟩
  | .timer id deadlineUnixMs => goOn s [.sleep (max s.now deadlineUnixMs), .resolve id]
  | .sleep wakeMs => if wakeMs ≤ s.now then goOn s [] else none
  | .resolve id => onStore s (s.store.update id (.deadline s.now)) []
  | .status instanceId state reason tsUnixMs => handleStatus s instanceId state reason tsUnixMs
  | .setTaint hostname tainted reason tsUnixMs =>
    some ⟨{ s with registry := setTaint s.registry hostname tainted },
      if tainted then [.sweep hostname reason tsUnixMs] else [], []⟩
  | .sweep hostname reason tsUnixMs =>
    onStore s (s.store.updateAll (.taint hostname.val reason tsUnixMs) s.store.keys) []
  | .halt id reason => handleHalt s id reason
  | .clearTaint hostname =>
    if hostname ∈ s.registry then goOn s [.relay hostname] else goOn s [.respond (.cleared .unknownHost)]
  | .relay hostname =>
    match s.sessions.sender hostname with
    | none => goOn s [.respond (.cleared .notConnected)]
    | some t => goOn s [.relayTo t]
  | .relayTo t =>
    match s.send t (.ok .clearTaint) with
    | .waits => none
    | .closed => goOn s [.respond (.cleared .notConnected)]
    | .done s => goOn s [.respond (.cleared .sent)]
  | .registerAgent hostname now =>
    some ⟨{ s with registry := registerAgent s.registry hostname now }, [.fetchEpoch hostname now], []⟩
  | .fetchEpoch hostname now =>
    some ⟨{ s with sessions := s.sessions.fetchEpoch.2 }, [.insertSession hostname s.sessions.fetchEpoch.1 now], []⟩
  | .insertSession hostname epoch now =>
    some ⟨insertSession s p hostname epoch, [.reply (.registerAck now C.heartbeatIntervalSecs)], []⟩
  | .updateHeartbeat hostname now =>
    some ⟨{ s with registry := updateHeartbeat s.registry hostname now }, [.reply (.heartbeatAck now)], []⟩
  | .reply reply =>
    match s.send p (.ok reply.frame) with
    | .waits => none
    | .closed => goOn s [.leave]
    | .done s => goOn s []
  | .reject status =>
    match s.send p (.err status) with
    | .waits => none
    | .closed => goOn s [.leave]
    | .done s => goOn s [.leave]
  | .leave => some ⟨endSession s p, [], []⟩
  | .respond r => some ⟨{ s with responses := s.responses ++ [(p, r)] }, [], []⟩

end

/-! ## Frames from an agent -/

/-- `process_register`, but for the reply. -/
def processRegister (hostname : String) (alreadyRegistered : Bool) : Except Status Hostname :=
  if alreadyRegistered then .error (.failedPrecondition "duplicate register on active session")
  else
    match Hostname.parse hostname with
    | .error e => .error (.invalidArgument e)
    | .ok hostname => .ok hostname

/-- `decode_status`; a state that does not parse is dropped. -/
def decodeStatus (status : InstanceStatus) : Option Act :=
  match fromWireI32 status.state with
  | .error _ => none
  | .ok state => some (.status status.instanceId state status.reason status.tsUnixMs)

/-- `Session::handle_frame`, at the clock reading `now`. -/
def handleFrame (now : Int) (stream : Stream) : Option AgentMessage → List Act
  | some (.register hostname) =>
    match processRegister hostname stream.hostname.isSome with
    | .ok hostname => [.registerAgent hostname now]
    | .error status => [.reject status]
  | some .heartbeat =>
    match stream.hostname with
    | some hostname => [.updateHeartbeat hostname now]
    | none => [.reject (.failedPrecondition "heartbeat received before register")]
  | some (.instanceStatus status) => (decodeStatus status).toList
  | some (.instanceReport statuses) => statuses.filterMap decodeStatus
  | some (.taintStatus tainted reason tsUnixMs) =>
    match stream.hostname with
    | some hostname => [.setTaint hostname tainted reason tsUnixMs]
    | none => []
  | some (.faultEvent _ _) | none => []

/-! ## Steps -/

/-- The act ends a handler, with its answer. -/
def Act.answers : Act → Bool
  | .respond _ | .relayTo _ => true
  | _ => false

/-- The act is a send that a future can be dropped at. -/
def Act.awaits : Act → Bool
  | .enqueue _ _ | .relayTo _ => true
  | _ => false

/-- The frame an act is about to deliver. -/
def Act.frame : Act → Option ServerMessage
  | .toHost _ f | .enqueue _ f => some f
  | _ => none

inductive Label
  | run (p : Nat)
  | submit (definition : ExperimentDefinition)
  | haltRequest (id : ExperimentId) (reason : String)
  | clearTaintRequest (hostname : Hostname)
  /-- A client opens a `Session`. -/
  | connect
  | recv (p : Nat) (payload : Option AgentMessage)
  | eof (p : Nat)
  | streamError (p : Nat) (message : String)
  /-- The client of a handler is gone, and its future is dropped at a pending send. -/
  | drop (p : Nat)
  | close (t : StreamId)
  | drain (t : StreamId)
  | tick (ms : Nat)

/-- A session task that waits for a frame goes on with `acts`. -/
def intake (m : MasterState) (p : Nat) (acts : Stream → List Act) : Option MasterState :=
  match m.shared.streams p, m.tasks[p]? with
  | some stream, some [] => if stream.ended then none else some ⟨m.shared, m.tasks.set p (acts stream)⟩
  | _, _ => none

def Dispatcher.setStream (s : Dispatcher) (t : StreamId) (stream : Stream) : Dispatcher :=
  { s with streams := Function.update s.streams t (some stream) }

def masterStep (C : Config) (m : MasterState) : Label → Option MasterState
  | .run p => Tasks.step (exec C) m p
  | .submit definition => some ⟨m.shared, m.tasks ++ [[.start definition]]⟩
  | .haltRequest id reason => some ⟨m.shared, m.tasks ++ [[.halt id reason]]⟩
  | .clearTaintRequest hostname => some ⟨m.shared, m.tasks ++ [[.clearTaint hostname]]⟩
  | .connect => some ⟨m.shared.setStream m.tasks.length .new, m.tasks ++ [[]]⟩
  | .recv p payload => intake m p fun stream => handleFrame m.shared.now stream payload
  | .eof p => intake m p fun _ => [.leave]
  | .streamError p message => intake m p fun _ => [.reject (.stream message)]
  | .drop p =>
    match m.tasks[p]? with
    | some (a :: rest) =>
      if a.awaits && (a :: rest).any Act.answers then
        some ⟨{ m.shared with log := m.shared.log ++ ((a :: rest).filterMap Act.frame).map .abandoned },
          m.tasks.set p []⟩
      else none
    | _ => none
  | .close t =>
    match m.shared.streams t with
    | some stream => some ⟨m.shared.setStream t { stream with closed := true }, m.tasks⟩
    | none => none
  | .drain t =>
    match m.shared.streams t with
    | some stream =>
      if stream.taken < (m.shared.sent t).length then
        some ⟨m.shared.setStream t { stream with taken := stream.taken + 1 }, m.tasks⟩
      else none
    | none => none
  | .tick ms => some ⟨{ m.shared with now := m.shared.now + ms }, m.tasks⟩

def masterLts (C : Config) : System MasterState Label where
  init m := ∃ now, m = ⟨.new now, []⟩
  step := masterStep C

/-! ## A sample master, for runs on fixed inputs -/

def sampleConfig : Config := ⟨sampleCatalog, 30, DEADLINE_MARGIN_MS, 10, fun _ => some "{}"⟩

def sampleMaster : MasterState := ⟨.new 1000, []⟩

/-- `n` acts of task `p`. -/
def runs (p n : Nat) : List Label := List.replicate n (.run p)

/-- A session whose `Register` is handled to the end. -/
def joins (p : Nat) (host : String) : List Label := [.connect, .recv p (some (.register host))] ++ runs p 4

/-- Both hosts join, and task 2 has published its record. -/
def published : List Label :=
  joins 0 "web-01" ++ joins 1 "web-02" ++ [.submit sampleDefinition] ++ runs 2 6

end FaultForge.Master
