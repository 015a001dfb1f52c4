import FaultForge.Fault.Params
import FaultForge.Proto

/-!
# The experiment domain (master/src/experiment.rs)

Definitions, ids, validation, and the record with its pure operations.

| here | there |
| --- | --- |
| `instanceId`, `hostnameIdSafe` | experiment.rs:97, 104 |
| `validate` | experiment.rs:221 |
| `deadlineUnixMs`, `mintExperiment` | experiment.rs:404, 422 |
| `Experiment.applyStatus`, `recordTaint`, `targetsHost` | experiment.rs:473, 497, 510 |
| `Experiment.killTrigger`, `outcome`, `outcomeCause` | experiment.rs:521, 552, 579 |

A `HashMap` is an `AList`. The `u64` sequence number of an experiment is a `Nat`: the counter is taken not to wrap.
-/
namespace FaultForge.Master

open Text

/-! ## Catalog -/

/-- `CatalogEntry` (catalog.rs:20). -/
structure CatalogEntry where
  manifest : Manifest
  digest : Digest

abbrev Catalog := AList fun _ : String × String => CatalogEntry

def Catalog.get (c : Catalog) (name version : String) : Option CatalogEntry := c.lookup (name, version)

/-! ## Operator input -/

structure PluginRef where
  name : String
  version : String
deriving DecidableEq, Repr

structure ActionDefinition where
  hosts : List String
  plugin : PluginRef
  params : Params
  durationSecs : UInt32

structure ExperimentDefinition where
  name : String
  actions : List ActionDefinition

/-! ## Ids -/

abbrev ExperimentId := String

/-- `ExperimentId::mint`. -/
def ExperimentId.mint (nowMs : Int) (seq : Nat) : ExperimentId := s!"exp-{nowMs}-{seq}"

def instanceId (experiment : ExperimentId) (hostname : Hostname) (actionIndex : Nat) : String :=
  s!"{experiment}:{hostname.val}:{actionIndex}"

def hostnameIdSafe (hostname : String) : Bool :=
  hostname != "" && hostname.toList.all fun c => isAsciiAlphanumeric c || c == '.' || c == '_' || c == '-'

/-! ## Validation -/

structure HostFacts where
  registered : Bool
  connected : Bool
  tainted : Bool
deriving DecidableEq, Repr

inductive ValidationFailure
  | noActions
  | noHosts (action : Nat)
  | unknownPlugin (action : Nat) (name version : String)
  | invalidParams (action : Nat) (reason : String)
  | zeroDuration (action : Nat)
  | durationOverMax (action : Nat) (durationSecs maxSecs : UInt32)
  | hostnameNotIdSafe (action : Nat) (hostname : String)
  | duplicateHost (action : Nat) (hostname : String)
  | hostUnknown (action : Nat) (hostname : String)
  | hostDisconnected (action : Nat) (hostname : String)
  | hostTainted (action : Nat) (hostname : String)
deriving DecidableEq, Repr

/-- The `Display` text of a `ValidationFailure`. -/
def ValidationFailure.toString : ValidationFailure → String
  | .noActions => "experiment has no actions"
  | .noHosts action => s!"action {action}: no target hosts"
  | .unknownPlugin action name version => s!"action {action}: unknown plugin {name}@{version}"
  | .invalidParams action reason => s!"action {action}: invalid params: {reason}"
  | .zeroDuration action => s!"action {action}: duration_secs must be greater than 0"
  | .durationOverMax action durationSecs maxSecs =>
    s!"action {action}: duration {durationSecs}s exceeds plugin max_duration_secs {maxSecs}s"
  | .hostnameNotIdSafe action hostname =>
    s!"action {action}: hostname '{hostname}' is outside the instance-id charset"
  | .duplicateHost action hostname => s!"action {action}: duplicate host '{hostname}'"
  | .hostUnknown action hostname => s!"action {action}: host '{hostname}' is not registered"
  | .hostDisconnected action hostname => s!"action {action}: host '{hostname}' has no live session"
  | .hostTainted action hostname => s!"action {action}: host '{hostname}' is TAINTED"

/-- What VALIDATE says about one host that is not a duplicate. -/
def validateHost (facts : AList fun _ : String => HostFacts) (action : Nat) (hostname : String) :
    List ValidationFailure :=
  if !hostnameIdSafe hostname then [.hostnameNotIdSafe action hostname]
  else
    let facts := (facts.lookup hostname).getD ⟨false, false, false⟩
    if !facts.registered then [.hostUnknown action hostname]
    else if !facts.connected then [.hostDisconnected action hostname]
    else if facts.tainted then [.hostTainted action hostname]
    else []

/-- The loop over an action's hosts; `seen` are the hosts before. -/
def validateHosts (facts : AList fun _ : String => HostFacts) (action : Nat) (seen : List String) :
    List String → List ValidationFailure
  | [] => []
  | hostname :: hosts =>
    if hostname ∈ seen then .duplicateHost action hostname :: validateHosts facts action seen hosts
    else validateHost facts action hostname ++ validateHosts facts action (hostname :: seen) hosts

def validatePlugin (catalog : Catalog) (action : Nat) (d : ActionDefinition) : List ValidationFailure :=
  match catalog.get d.plugin.name d.plugin.version with
  | none => [.unknownPlugin action d.plugin.name d.plugin.version]
  | some entry =>
    (match validateParams entry.manifest.paramsSchema d.params with
      | .error e => [.invalidParams action e.toString]
      | .ok () => []) ++
    if entry.manifest.maxDurationSecs < d.durationSecs then
      [.durationOverMax action d.durationSecs entry.manifest.maxDurationSecs]
    else []

def validateAction (catalog : Catalog) (facts : AList fun _ : String => HostFacts) (action : Nat)
    (d : ActionDefinition) : List ValidationFailure :=
  (if d.hosts = [] then [.noHosts action] else []) ++
  validatePlugin catalog action d ++
  (if d.durationSecs = 0 then [.zeroDuration action] else []) ++
  validateHosts facts action [] d.hosts

def validate (definition : ExperimentDefinition) (catalog : Catalog) (facts : AList fun _ : String => HostFacts) :
    List ValidationFailure :=
  (match definition.actions with
    | [] => [.noActions]
    | _ :: _ => []) ++
  definition.actions.zipIdx.flatMap fun (d, action) => validateAction catalog facts action d

/-! ## The record -/

structure Cause where
  hostname : Option String
  instanceId : Option String
  reason : String
  tsUnixMs : Int
deriving DecidableEq, Repr

inductive ExperimentOutcome | completed | aborted | error
deriving DecidableEq, Repr

inductive ExperimentPhase
  | running
  | halting
  | concluded (outcome : ExperimentOutcome)
deriving DecidableEq, Repr

structure InstanceRecord where
  instanceId : String
  hostname : Hostname
  actionIndex : Nat
  state : InstanceState
  reason : String
  updatedUnixMs : Int
  abortRequested : Bool
deriving DecidableEq

def InstanceRecord.isTerminal (i : InstanceRecord) : Bool := i.state.isTerminal

structure TaintedHost where
  hostname : String
  reason : String
  tsUnixMs : Int
deriving DecidableEq, Repr

structure Experiment where
  id : ExperimentId
  definition : ExperimentDefinition
  graceSecs : UInt32
  startedUnixMs : Int
  deadlineUnixMs : Int
  phase : ExperimentPhase
  instances : List InstanceRecord
  taintedHosts : List TaintedHost
  cause : Option Cause

def DEADLINE_MARGIN_MS : Int := 30000

def deadlineUnixMs (definition : ExperimentDefinition) (graceSecs : UInt32) (nowMs marginMs : Int) : Int :=
  let windows := definition.actions.map fun a => (a.durationSecs.toNat + graceSecs.toNat : Int)
  nowMs + (windows.max?.getD 0) * 1000 + marginMs

/-- The record of one target; `none` for a hostname that does not parse. -/
def mintInstance (id : ExperimentId) (nowMs : Int) (actionIndex : Nat) (hostname : String) : Option InstanceRecord :=
  match Hostname.parse hostname with
  | .error _ => none
  | .ok hostname => some ⟨instanceId id hostname actionIndex, hostname, actionIndex, .pending, "", nowMs, false⟩

def mintExperiment (id : ExperimentId) (definition : ExperimentDefinition) (graceSecs : UInt32)
    (nowMs marginMs : Int) : Experiment where
  id := id
  definition := definition
  graceSecs := graceSecs
  startedUnixMs := nowMs
  deadlineUnixMs := deadlineUnixMs definition graceSecs nowMs marginMs
  phase := .running
  instances := definition.actions.zipIdx.flatMap fun (d, action) => d.hosts.filterMap (mintInstance id nowMs action)
  taintedHosts := []
  cause := none

/-! ## Operations on the record -/

/-- An agent's report for the first instance of that id; `none` when nothing changes. -/
def applyTo (instanceId : String) (state : InstanceState) (reason : String) (tsUnixMs : Int) :
    List InstanceRecord → Option (List InstanceRecord)
  | [] => none
  | i :: rest =>
    if i.instanceId = instanceId then
      if i.isTerminal then none else some ({ i with state, reason, updatedUnixMs := tsUnixMs } :: rest)
    else (applyTo instanceId state reason tsUnixMs rest).map (i :: ·)

/-- `apply_status`; `none` where the source returns `false`. -/
def Experiment.applyStatus (e : Experiment) (instanceId : String) (state : InstanceState) (reason : String)
    (tsUnixMs : Int) : Option Experiment :=
  (applyTo instanceId state reason tsUnixMs e.instances).map fun instances => { e with instances }

def Experiment.recordTaint (e : Experiment) (hostname reason : String) (tsUnixMs : Int) : Experiment :=
  if e.taintedHosts.any fun t => t.hostname = hostname then e
  else { e with taintedHosts := e.taintedHosts ++ [⟨hostname, reason, tsUnixMs⟩] }

def Experiment.targetsHost (e : Experiment) (hostname : String) : Bool :=
  e.instances.any fun i => i.hostname.val = hostname

def InstanceRecord.cause (i : InstanceRecord) (reason : String) : Cause :=
  ⟨some i.hostname.val, some i.instanceId, reason, i.updatedUnixMs⟩

def taintCause (tainted : List TaintedHost) : Option Cause :=
  tainted.head?.map fun t => ⟨some t.hostname, none, s!"host TAINTED: {t.reason}", t.tsUnixMs⟩

/-- What an instance alone says about the kill-switch. -/
def InstanceRecord.trigger (i : InstanceRecord) : Option Cause :=
  match i.state with
  | .error => some (i.cause s!"instance ERROR: {i.reason}")
  | .aborted => if i.abortRequested then none else some (i.cause s!"agent-initiated abort: {i.reason}")
  | _ => none

def Experiment.killTrigger (e : Experiment) : Option Cause :=
  if e.phase ≠ .running then none
  else
    match e.instances.findSome? InstanceRecord.trigger with
    | some cause => some cause
    | none => taintCause e.taintedHosts

def Experiment.outcome (e : Experiment) : Option ExperimentOutcome :=
  if e.instances.any fun i => !i.isTerminal then none
  else if (e.instances.any fun i => i.state = .error) || !e.taintedHosts.isEmpty then some .error
  else if e.instances.all fun i => i.state = .done then some .completed
  else some .aborted

def Experiment.outcomeCause (e : Experiment) : ExperimentOutcome → Option Cause
  | .completed => none
  | .error =>
    match e.instances.find? fun i => i.state = .error with
    | some i => some (i.cause s!"instance ERROR: {i.reason}")
    | none => taintCause e.taintedHosts
  | .aborted => (e.instances.find? fun i => i.state = .aborted).map fun i => i.cause s!"instance ABORTED: {i.reason}"

def Experiment.isConcluded (e : Experiment) : Bool :=
  match e.phase with
  | .concluded _ => true
  | .running | .halting => false

end FaultForge.Master
