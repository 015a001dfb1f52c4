import Mathlib.Data.List.AList
import FaultForge.Fault.Params
import FaultForge.Lib.Files

/-!
# The reference plugin (crates/plugins/noop-marker: main.rs)

One invocation of `noop-marker` on a file system. The clock is whole seconds since the epoch (an invocation whose clock
`humantime` cannot print panics, and counts as one that is killed). The text of a time, the JSON of a marker, the JSON
reader and the path `tempfile` adds to an error are parameters; the answers of the host and the random part of a
temporary file's name come with the invocation.

| here | there |
| --- | --- |
| `PluginInput`, `PluginEvent` | fault/src/protocol.rs:124-216 |
| `Marker`, `PluginOutcome` | main.rs:32-49 |
| `main`, `run` | main.rs:51-142 |
| `preflight`, `inject`, `report`, `revert` | main.rs:146-283 |
| `writeMarker` | main.rs:290-311 |
-/
namespace FaultForge.NoopMarker

open Files

/-! ## The plugin's side of the contract -/

structure PluginInput where
  instanceId : String
  params : Params
  deadlineUnix : Int
  phase : Phase

inductive Level | info | warn | error
deriving DecidableEq, Repr

inductive EventBody
  | status (state : InstanceState)
  | log (level : Level) (msg : String)
deriving DecidableEq, Repr

structure PluginEvent where
  ts : String
  instanceId : String
  body : EventBody
deriving DecidableEq, Repr

/-- `PluginCommand::parse` (protocol.rs:86), with the text of `UnknownCommand`. -/
def parseCommand : String → Except String PluginCommand
  | "preflight" => .ok .preflight
  | "inject" => .ok .inject
  | "report" => .ok .report
  | "abort" => .ok .abort
  | "cleanup" => .ok .cleanup
  | other => .error s!"unknown plugin command: {other}"

theorem parseCommand_asStr (command : PluginCommand) : parseCommand command.asStr = .ok command := by
  cases command <;> rfl

/-! ## What an invocation works with -/

def PLUGIN_IDENTITY : String := "noop-marker@1"

def EXIT_UNEXPECTED : Nat := 1

structure Marker where
  instanceId : String
  plugin : String
  deadlineUnix : Int
  params : Params
  writtenAtUnix : Int

abbrev Bytes := List UInt8

/-- The libraries the plugin calls. -/
structure Externals where
  /-- `humantime::format_rfc3339_seconds`. -/
  ts : Nat → String
  /-- `serde_json::to_vec`. -/
  toVec : Marker → Except String Bytes
  /-- `serde_json::from_slice`. -/
  fromSlice : Bytes → Except String Value
  /-- The path `tempfile` adds to the text of an error. -/
  withPath : IoError → IoError

/-- What the host answers to each file operation, and what it chooses. -/
structure Answers where
  createDir : Option Refusal
  createTemp : Option Refusal
  /-- The random part of the temporary file's name. -/
  suffix : String
  /-- A refused write leaves the first bytes in the file. -/
  write : Option (Refusal × Nat)
  sync : Option Refusal
  rename : Option Refusal
  remove : Option Refusal
  read : Option Refusal

/-- Every operation runs. -/
def Answers.smooth (suffix : String) : Answers := ⟨none, none, suffix, none, none, none, none, none⟩

def Answers.tempName (a : Answers) : String := ".tmp" ++ a.suffix

structure PluginOutcome where
  events : List PluginEvent
  exit : Nat

section
variable (ext : Externals) (a : Answers) (input : PluginInput) (now : Nat)

def status (state : InstanceState) : PluginEvent := ⟨ext.ts now, input.instanceId, .status state⟩

def log (level : Level) (msg : String) : PluginEvent := ⟨ext.ts now, input.instanceId, .log level msg⟩

/-- `fail` (main.rs:314). -/
def fail (exit : Nat) (msg : String) : PluginOutcome := ⟨[log ext input now .error msg], exit⟩

/-- `Drop for NamedTempFile`: an error is ignored. -/
def dropTemp (fs : FileSystem Bytes) (dir : Path) : FileSystem Bytes :=
  match fs.removeFile a.remove (dir.join a.tempName) with
  | .ok fs' => fs'
  | .error _ => fs

/-- The tree with the marker's directory, or why it is not there. -/
def ensureDir (fs : FileSystem Bytes) (dir : Path) : Except IoError (FileSystem Bytes) :=
  match fs.createDir a.createDir dir with
  | .ok fs' => .ok fs'
  | .error e => if e.kind = .alreadyExists then .ok fs else .error e

/-- `preflight` (main.rs:147). -/
def preflight (markerPath : Path) (fs : FileSystem Bytes) : PluginOutcome × FileSystem Bytes :=
  if !markerPath.absolute then
    (fail ext input now EXIT_PREFLIGHT_FAILED s!"marker_path is not absolute: {markerPath.display}", fs)
  else
    match markerPath.parent with
    | none => (fail ext input now EXIT_PREFLIGHT_FAILED "marker_path has no parent directory", fs)
    | some dir =>
      match ensureDir a fs dir with
      | .error e =>
        (fail ext input now EXIT_PREFLIGHT_FAILED s!"cannot create marker directory {dir.display}: {e.text}", fs)
      | .ok fs =>
        match fs.createNew a.createTemp dir a.tempName [] with
        | .error e =>
          let e := ext.withPath e
          (fail ext input now EXIT_PREFLIGHT_FAILED s!"marker directory {dir.display} is not writable: {e.text}", fs)
        | .ok fs => (⟨[status ext input now .preflight], EXIT_SUCCESS⟩, dropTemp a fs dir)

/-- `write_marker` (main.rs:290); an error past the temporary file's creation drops it. -/
def writeMarker (markerPath : Path) (fs : FileSystem Bytes) : Except IoError Unit × FileSystem Bytes :=
  match markerPath.parent with
  | none => (.error ⟨.invalidInput, "marker_path has no parent directory"⟩, fs)
  | some dir =>
    let marker : Marker := ⟨input.instanceId, PLUGIN_IDENTITY, input.deadlineUnix, input.params, now⟩
    match ext.toVec marker with
    | .error e => (.error ⟨.other, e⟩, fs)
    | .ok bytes =>
      match fs.createNew a.createTemp dir a.tempName [] with
      | .error e => (.error (ext.withPath e), fs)
      | .ok fs =>
        let tmp := dir.join a.tempName
        match a.write with
        | some (r, written) =>
          (.error (ext.withPath r.error), dropTemp a (fs.write tmp (bytes.take written)) dir)
        | none =>
          let fs := fs.write tmp bytes
          match a.sync with
          | some r => (.error r.error, dropTemp a fs dir)
          | none =>
            match fs.renameFile a.rename tmp markerPath with
            | .error e => (.error e, dropTemp a fs dir)
            | .ok fs => (.ok (), fs)

/-- `inject` (main.rs:200). -/
def inject (markerPath : Path) (fs : FileSystem Bytes) : PluginOutcome × FileSystem Bytes :=
  let events := [status ext input now .injecting]
  match writeMarker ext a input now markerPath fs with
  | (.ok (), fs) => (⟨events ++ [status ext input now .active], EXIT_SUCCESS⟩, fs)
  | (.error e, fs) => (⟨events ++ [log ext input now .error s!"inject failed: {e.text}"], EXIT_INJECT_FAILED⟩, fs)

/-- `report` (main.rs:221). -/
def report (markerPath : Path) (fs : FileSystem Bytes) : PluginOutcome :=
  match fs.readFile a.read markerPath with
  | .ok bytes =>
    match ext.fromSlice bytes with
    | .ok _ => ⟨[status ext input now .active], EXIT_SUCCESS⟩
    | .error e => fail ext input now EXIT_UNEXPECTED s!"marker present but not parseable JSON: {e}"
  | .error e =>
    if e.kind = .notFound then ⟨[status ext input now .done], EXIT_SUCCESS⟩
    else fail ext input now EXIT_UNEXPECTED s!"cannot read marker: {e.text}"

/-- `revert` (main.rs:251). -/
def revert (markerPath : Path) (fs : FileSystem Bytes) : PluginOutcome × FileSystem Bytes :=
  let events := [status ext input now .recovering]
  match fs.removeFile a.remove markerPath with
  | .ok fs => (⟨events ++ [status ext input now .done], EXIT_SUCCESS⟩, fs)
  | .error e =>
    if e.kind = .notFound then (⟨events ++ [status ext input now .done], EXIT_SUCCESS⟩, fs)
    else (⟨events ++ [log ext input now .error s!"failed to remove marker: {e.text}"], EXIT_CLEANUP_FAILED⟩, fs)

/-- `input.params.get("marker_path").and_then(as_str)`. -/
def PluginInput.markerPath (input : PluginInput) : Option String :=
  match input.params.lookup "marker_path" with
  | some (.string s) => some s
  | _ => none

/-- `run` (main.rs:103). -/
def run (command : PluginCommand) (fs : FileSystem Bytes) : PluginOutcome × FileSystem Bytes :=
  match input.markerPath with
  | none => (⟨[log ext input now .error "params.marker_path missing or not a string"], EXIT_UNEXPECTED⟩, fs)
  | some text =>
    let markerPath := Path.ofText text
    if command ≠ .preflight ∧ markerPath.absolute = false then
      (fail ext input now EXIT_UNEXPECTED s!"marker_path is not absolute: {markerPath.display}", fs)
    else
      match command with
      | .preflight => preflight ext a input now markerPath fs
      | .inject => inject ext a input now markerPath fs
      | .report => (report ext a input now markerPath fs, fs)
      | .abort | .cleanup => revert ext a input now markerPath fs

/-- `main` (main.rs:51): the lines on stdout and stderr, and the exit code. -/
def main (word : Option String) (stdin : Except String PluginInput) (fs : FileSystem Bytes) :
    (List PluginEvent × List String × Nat) × FileSystem Bytes :=
  match word with
  | none => (([], ["usage: noop-marker <preflight|inject|report|abort|cleanup>"], EXIT_UNEXPECTED), fs)
  | some word =>
    match parseCommand word with
    | .error e => (([], [e], EXIT_UNEXPECTED), fs)
    | .ok command =>
      match stdin with
      | .error e => (([], [s!"failed to read plugin input: {e}"], EXIT_UNEXPECTED), fs)
      | .ok input =>
        let (outcome, fs) := run ext a input now command fs
        ((outcome.events, [], outcome.exit), fs)

end

/-- `report` changes nothing. -/
theorem run_report (ext : Externals) (a : Answers) (input : PluginInput) (now : Nat) (fs : FileSystem Bytes) :
    (run ext a input now .report fs).2 = fs := by
  unfold run
  split
  · rfl
  · dsimp only
    split <;> rfl

end FaultForge.NoopMarker
