import FaultForge.Agent.Transitions
import FaultForge.Fault.Params
import FaultForge.Proto

/-!
# What an instance task reads and writes

The shared runtime context with the host's disk, the outbound channel and the clock, and the pure helpers of the
shell (supervisor.rs:66-130, 282-403; journal.rs; taint.rs).

| here | there |
| --- | --- |
| `JournalEntry`, `TaintRecord` | journal.rs:19, taint.rs:13 |
| `Ctx` | `RuntimeCtx` supervisor.rs:53, with the files it points to and the wall clock |
| `trySend` | `send_out` supervisor.rs:337: the bounded `out` channel takes a frame only while it has room |
| `setup`, `telemetry`, `invocationEvent` | supervisor.rs:307, 347, 374 |

Third-party text functions (`serde_json`, `humantime`, `Debug` of a `Duration`) are the fields of `Ext`.
-/
namespace FaultForge.Agent

open Text

/-! ## Records on disk -/

structure JournalEntry where
  version : Nat
  instanceId : String
  pluginName : String
  pluginVersion : String
  pluginDigest : String
  params : Params
  startedUnixMs : Int
  durationSecs : UInt32
  graceSecs : UInt32
  deadlineUnix : Int

def JOURNAL_VERSION : Nat := 1

structure TaintRecord where
  reason : String
  tsUnixMs : Int
  instanceId : String
deriving DecidableEq, Repr

/-! ## The context -/

/-- `ConnState` (supervisor.rs:38). -/
inductive ConnState
  | connected
  | lost (sinceUnixMs : Int)
deriving DecidableEq, Repr

/-- How a plugin process ended, as the operating system reports it. -/
inductive ProcessEnd
  | code (c : Int)
  | timedOut
  | signalled
  | failed (reason : String)
deriving DecidableEq, Repr

/-- What a step of an instance task shows to the outside, for the statements only. -/
inductive Obs
  /-- `Effect::Invoke` is performed. -/
  | invoked (command : PluginCommand)
  /-- Its process is started: the `exec` in the blocking pool, after the digest check and the hand-off to the pool. -/
  | spawned (command : PluginCommand)
  /-- Its process has ended. -/
  | exited (command : PluginCommand) (status : ProcessEnd)
  /-- `Journal::remove` has returned. -/
  | removed (ok : Bool)
deriving DecidableEq, Repr

structure Ctx where
  /-- `<data_dir>/instances/<id>.json`. -/
  journal : AList fun _ : String => JournalEntry
  /-- What `Taint::current` reads. -/
  taint : Option TaintRecord
  /-- The outbound channel, oldest frame first. -/
  out : List AgentMessage
  conn : ConnState
  lossThresholdSecs : UInt64
  invocationTimeoutSecs : UInt64
  now : Int

/-- `mpsc::channel::<AgentMessage>(256)` (session.rs:123). -/
def OUT_CAPACITY : Nat := 256

/-- `send_out`: enabled while the channel has room. -/
def trySend (ctx : Ctx) (frame : AgentMessage) : Option Ctx :=
  if ctx.out.length < OUT_CAPACITY then some { ctx with out := ctx.out ++ [frame] } else none

/-- `Taint::mark` (taint.rs:70): an existing record is kept. `error` is the result of the write, when one is made. -/
def Ctx.mark (ctx : Ctx) (record : TaintRecord) (error : Option String) : Ctx :=
  match ctx.taint, error with
  | none, none => { ctx with taint := some record }
  | _, _ => ctx

theorem Ctx.mark_journal (ctx : Ctx) (record : TaintRecord) (error : Option String) :
    (ctx.mark record error).journal = ctx.journal := by
  unfold Ctx.mark; split <;> rfl

theorem Ctx.mark_taint (ctx : Ctx) (record : TaintRecord) (error : Option String) :
    ctx.taint.isSome → (ctx.mark record error).taint.isSome := by
  unfold Ctx.mark; split <;> simp_all

theorem Ctx.mark_ok (ctx : Ctx) (record : TaintRecord) : (ctx.mark record none).taint.isSome := by
  unfold Ctx.mark; split <;> simp_all [Option.isSome_iff_ne_none]

theorem Ctx.mark_out (ctx : Ctx) (record : TaintRecord) (error : Option String) :
    (ctx.mark record error).out = ctx.out := by
  unfold Ctx.mark; split <;> rfl

/-! ## Pure helpers of the shell -/

structure Ext where
  /-- `serde_json::from_str::<Map<String, Value>>`. -/
  parseParams : String → Except String Params
  /-- `PluginEvent::log(..)` at the given time for the given instance, encoded; `none` when encoding fails. -/
  logLine : Int → String → String → Option String
  /-- The `Debug` text of a `Duration` of whole seconds. -/
  durationDebug : UInt64 → String

/-- `valid_instance_id` (supervisor.rs:152). -/
def validInstanceId (s : String) : Bool :=
  s != "" && s != "." && s != ".." &&
    s.toList.all fun c => isAsciiAlphanumeric c || c == '.' || c == '_' || c == ':' || c == '-'

/-- `status_frame` (supervisor.rs:68). -/
def statusFrame (instanceId : String) (state : InstanceState) (reason : Option String) (pluginDigest : String)
    (tsUnixMs : Int) : AgentMessage :=
  .instanceStatus ⟨instanceId, toWireI32 state, tsUnixMs, reason.getD "", pluginDigest⟩

/-- `taint_status_frame` (supervisor.rs:97). -/
def taintStatusFrame (current : Option TaintRecord) (nowMs : Int) : AgentMessage :=
  match current with
  | none => .taintStatus false "" nowMs
  | some record => .taintStatus true record.reason record.tsUnixMs

/-- `VerifiedPlugin` (agent/catalog.rs:40). -/
structure VerifiedPlugin where
  entrypoint : String
  manifest : Manifest
  digest : Digest

/-- `setup` (supervisor.rs:306); `resolved` is the answer of `resolve_verified` when it is asked. -/
def setup (X : Ext) (taint : Option TaintRecord) (run : RunFault) (resolved : Except String VerifiedPlugin) :
    Except String (VerifiedPlugin × Params) :=
  match taint with
  | some record => .error s!"host tainted: {record.reason}"
  | none =>
    match Digest.parse run.pluginDigest with
    | .error e => .error s!"invalid plugin digest: {e.toString}"
    | .ok _ =>
      match resolved with
      | .error e => .error e
      | .ok plugin =>
        match X.parseParams run.paramsJson with
        | .error e => .error s!"params_json is not a JSON object: {e}"
        | .ok params =>
          match validateParams plugin.manifest.paramsSchema params with
          | .error e => .error s!"invalid params: {e.toString}"
          | .ok () =>
            if plugin.manifest.maxDurationSecs < run.durationSecs then
              .error s!"duration {run.durationSecs}s exceeds plugin max_duration_secs {plugin.manifest.maxDurationSecs}s"
            else .ok (plugin, params)

/-- `StdoutLine` (runner.rs:20). -/
inductive StdoutLine
  | event (raw : String)
  | malformed (raw : String)
deriving DecidableEq, Repr

/-- `Invocation` (runner.rs:48), with the way the process ended. -/
structure Invocation where
  lines : List StdoutLine
  stderr : String
  status : ProcessEnd
deriving DecidableEq, Repr

/-- A telemetry line still to be forwarded: verbatim, or wrapped in an agent-authored log event. -/
inductive Telemetry
  | raw (line : String)
  | log (msg : String)
deriving DecidableEq, Repr

/-- The lines `forward_telemetry` goes through (supervisor.rs:347). -/
def telemetry (invocation : Invocation) : List Telemetry :=
  (invocation.lines.map fun
    | .event raw => .raw raw
    | .malformed raw => .log s!"malformed plugin output: {raw}") ++
  ((lines invocation.stderr.toList).filter fun line => !(trim line).isEmpty).map fun line =>
    .log s!"stderr: {String.ofList line}"

/-- The frame of a telemetry line; `none` when the log event cannot be encoded. -/
def Telemetry.frame (X : Ext) (id : String) (now : Int) : Telemetry → Option AgentMessage
  | .raw line => some (.faultEvent id line)
  | .log msg => (X.logLine now id msg).map (.faultEvent id)

/-- `invocation_event` (supervisor.rs:374), over `wait_with_timeout`'s classification. -/
def invocationEvent (X : Ext) (timeoutSecs : UInt64) (command : PluginCommand) : ProcessEnd → Event
  | .code c => .commandFinished command (classifyExit c)
  | .timedOut => .invocationFailed command s!"killed after invocation timeout ({X.durationDebug timeoutSecs})"
  | .signalled => .invocationFailed command "terminated by signal"
  | .failed reason => .invocationFailed command reason

theorem invocationEvent_answers (X : Ext) (timeoutSecs : UInt64) (command : PluginCommand) (status : ProcessEnd) :
    (invocationEvent X timeoutSecs command status).answers = some (.command command) := by
  cases status <;> rfl

end FaultForge.Agent
