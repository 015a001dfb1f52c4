import FaultForge.Cli.Script
import FaultForge.Fault.Json
import FaultForge.Master.Dispatch

/-!
# The management plane (master/src/management.rs)

What the HTTP handlers answer: the views of the registry and of the records, and the status codes of the handlers.
Bodies are JSON values; the framework's own answers (a body that does not decode) are of its own text.

| here | there |
| --- | --- |
| `agentView`, `experimentView`, `experimentSummary` | management.rs:49, 151, 168 |
| `listAgents`, `getAgent`, `listExperiments`, `getExperiment` | management.rs:199, 215, 244, 256 |
| `created`, `rejected`, `haltStatus`, `clearTaintStatus` | management.rs:228, 269, 287 |
| `PluginRef.ofJson` .. `ExperimentDefinition.ofJson` | the derived `Deserialize` of experiment.rs:31-59 |

The labels of a phase are those of `Cli.phaseLabels`. The name of an agent is its hostname, which is all that
`register_agent` ever gives it.
-/
namespace FaultForge.Master

/-! ## Definitions, as the operator sends them -/

def PluginRef.ofJson (v : Value) : Option PluginRef :=
  match v.fields ["name", "version"] with
  | some [name, version] => do return ⟨← required Value.asString name, ← required Value.asString version⟩
  | _ => none

def ActionDefinition.ofJson (v : Value) : Option ActionDefinition :=
  match v.fields ["hosts", "plugin", "params", "duration_secs"] with
  | some [hosts, plugin, params, durationSecs] => do
    return ⟨← required (Value.asVec Value.asString) hosts, ← required PluginRef.ofJson plugin,
      ← required Value.asMap params, ← required Value.asU32 durationSecs⟩
  | _ => none

def ExperimentDefinition.ofJson (v : Value) : Option ExperimentDefinition :=
  match v.fields ["name", "actions"] with
  | some [name, actions] => do
    return ⟨← required Value.asString name, ← required (Value.asVec ActionDefinition.ofJson) actions⟩
  | _ => none

/-! ## Views -/

structure AgentView where
  hostname : String
  name : String
  lastSeenUnixMs : Int
  tainted : Bool
deriving DecidableEq, Repr

def agentView (hostname : Hostname) (info : AgentInfo) : AgentView :=
  ⟨hostname.val, hostname.val, info.lastSeen, info.tainted⟩

structure CauseView where
  hostname : Option String
  instanceId : Option String
  reason : String
  tsUnixMs : Int
deriving DecidableEq, Repr

structure InstanceView where
  instanceId : String
  hostname : String
  actionIndex : Nat
  state : InstanceState
  reason : String
  updatedUnixMs : Int
deriving DecidableEq, Repr

structure ExperimentView where
  id : String
  name : String
  state : String
  outcome : Option String
  graceSecs : UInt32
  startedUnixMs : Int
  deadlineUnixMs : Int
  cause : Option CauseView
  instances : List InstanceView
deriving DecidableEq, Repr

structure ExperimentSummary where
  id : String
  name : String
  state : String
  outcome : Option String
  startedUnixMs : Int
  instances : Nat
deriving DecidableEq, Repr

def causeView (c : Cause) : CauseView := ⟨c.hostname, c.instanceId, c.reason, c.tsUnixMs⟩

def instanceView (i : InstanceRecord) : InstanceView :=
  ⟨i.instanceId, i.hostname.val, i.actionIndex, i.state, i.reason, i.updatedUnixMs⟩

def experimentView (e : Experiment) : ExperimentView :=
  let (state, outcome) := Cli.phaseLabels e.phase
  ⟨e.id, e.definition.name, state, outcome, e.graceSecs, e.startedUnixMs, e.deadlineUnixMs, e.cause.map causeView,
    e.instances.map instanceView⟩

def experimentSummary (e : Experiment) : ExperimentSummary :=
  let (state, outcome) := Cli.phaseLabels e.phase
  ⟨e.id, e.definition.name, state, outcome, e.startedUnixMs, e.instances.length⟩

/-! ## Views as JSON -/

/-- `InstanceState` in `SCREAMING_SNAKE_CASE` (fault state.rs:15). -/
def stateLabel : InstanceState → String
  | .pending => "PENDING"
  | .preflight => "PREFLIGHT"
  | .injecting => "INJECTING"
  | .active => "ACTIVE"
  | .recovering => "RECOVERING"
  | .done => "DONE"
  | .aborted => "ABORTED"
  | .error => "ERROR"

def AgentView.toJson (v : AgentView) : Value :=
  .object [("hostname", .string v.hostname), ("name", .string v.name), ("last_seen_unix_ms", .int v.lastSeenUnixMs),
    ("tainted", .bool v.tainted)]

def CauseView.toJson (v : CauseView) : Value :=
  .object [("hostname", .option .string v.hostname), ("instance_id", .option .string v.instanceId),
    ("reason", .string v.reason), ("ts_unix_ms", .int v.tsUnixMs)]

def InstanceView.toJson (v : InstanceView) : Value :=
  .object [("instance_id", .string v.instanceId), ("hostname", .string v.hostname),
    ("action_index", .unsigned (.ofNat v.actionIndex)), ("state", .string (stateLabel v.state)),
    ("reason", .string v.reason), ("updated_unix_ms", .int v.updatedUnixMs)]

def ExperimentView.toJson (v : ExperimentView) : Value :=
  .object [("id", .string v.id), ("name", .string v.name), ("state", .string v.state),
    ("outcome", .option .string v.outcome), ("grace_secs", .unsigned v.graceSecs.toUInt64),
    ("started_unix_ms", .int v.startedUnixMs), ("deadline_unix_ms", .int v.deadlineUnixMs),
    ("cause", .option CauseView.toJson v.cause), ("instances", .array (v.instances.map InstanceView.toJson))]

def ExperimentSummary.toJson (v : ExperimentSummary) : Value :=
  .object [("id", .string v.id), ("name", .string v.name), ("state", .string v.state),
    ("outcome", .option .string v.outcome), ("started_unix_ms", .int v.startedUnixMs),
    ("instances", .unsigned (.ofNat v.instances))]

/-! ## Handlers -/

/-- A status code, and the body where there is one. -/
structure HttpAnswer where
  status : Nat
  body : Option Value

def listAgents (s : Dispatcher) : HttpAnswer :=
  let views := s.registry.entries.map fun entry => agentView entry.1 entry.2
  ⟨200, some (.array ((views.mergeSort fun a b => decide (a.hostname ≤ b.hostname)).map AgentView.toJson))⟩

def getAgent (s : Dispatcher) (hostname : String) : HttpAnswer :=
  match Hostname.parse hostname with
  | .error _ => ⟨404, none⟩
  | .ok hostname =>
    match s.registry.lookup hostname with
    | none => ⟨404, none⟩
    | some info => ⟨200, some (agentView hostname info).toJson⟩

/-- `Dispatcher::list_experiments` (dispatch.rs:429): oldest first, ties by id. -/
def sortedExperiments (s : Dispatcher) : List Experiment :=
  (s.store.entries.map fun entry => entry.2).mergeSort fun a b =>
    decide (a.startedUnixMs < b.startedUnixMs ∨ a.startedUnixMs = b.startedUnixMs ∧ a.id ≤ b.id)

def listExperiments (s : Dispatcher) : HttpAnswer :=
  ⟨200, some (.array ((sortedExperiments s).map fun e => (experimentSummary e).toJson))⟩

def getExperiment (s : Dispatcher) (id : String) : HttpAnswer :=
  match s.store.lookup id with
  | none => ⟨404, none⟩
  | some e => ⟨200, some (experimentView e).toJson⟩

def haltStatus : HaltOutcome → Nat
  | .notFound => 404
  | .alreadyConcluded => 409
  | .accepted => 202

def clearTaintStatus : ClearTaintOutcome → Nat
  | .unknownHost => 404
  | .notConnected => 409
  | .sent => 202

/-- What the handlers of a request to the dispatcher make of its result. -/
def Response.answer : Response → HttpAnswer
  | .created e => ⟨201, some (experimentView e).toJson⟩
  | .rejected failures =>
    ⟨422, some (.object [("errors", .array (failures.map fun f => .string f.toString))])⟩
  | .halted outcome => ⟨haltStatus outcome, none⟩
  | .cleared outcome => ⟨clearTaintStatus outcome, none⟩

end FaultForge.Master
