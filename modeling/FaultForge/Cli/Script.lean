import FaultForge.Fault.Params
import FaultForge.Master.Experiment

/-!
# `experiment run` as a gate (crates/cli: script.rs, output.rs, api)

One call of `faultforge experiment run -f <file>`: what it reads, what the master answers, what it writes and the code
it exits with. Scripts trust the code of `--wait`. It is 0 for a `COMPLETED` record, and the code of the outcome
otherwise, with one exception that the source makes on purpose: when the reader of standard output has gone, the code
is 0 whatever the outcome (script.rs:149, 215). `wait_gate` has that exception in it, `wait_gate_piped` shows it.

| here | there |
| --- | --- |
| `ApiError`, `Experiment` | api/error.rs, api/model.rs:105 |
| `runExperiment`, `getExperiment` | `Client::run_experiment`, `Client::get_experiment` api/mod.rs:135, 189 |
| `renderExperiment` | output.rs:116, the pretty JSON as a parameter |
| `run`, `runExperimentFile`, `waitUntilTerminal` | script.rs:35, 121, 159 |
| `writeLine`, `outcomeExitCode` | script.rs:219, 179 |
| `phaseLabels` | the master's side, management.rs:118 |
-/
namespace FaultForge.Cli

/-! ## The management API -/

inductive ApiError
  | connect (url : String)
  | timeout
  | transport (e : String)
  | notFound
  | conflict (reason : String)
  | validation (errors : List String)
  | status (code : Nat) (body : String)
  | decode (e : String)
  | invalidUrl (e : String)
deriving DecidableEq, Repr

def ApiError.toString : ApiError → String
  | .connect url => s!"could not connect to master at {url}"
  | .timeout => "request to master timed out"
  | .transport e => s!"transport error: {e}"
  | .notFound => "not found"
  | .conflict reason => s!"conflict: {reason}"
  | .validation errors => "experiment rejected: " ++ "; ".intercalate errors
  | .status code _ => s!"master returned HTTP {code}"
  | .decode e => s!"could not decode master response: {e}"
  | .invalidUrl e => s!"invalid master URL: {e}"

structure Cause where
  hostname : Option String
  instanceId : Option String
  reason : String
  tsUnixMs : Int
deriving DecidableEq, Repr

structure Instance where
  instanceId : String
  hostname : String
  actionIndex : Nat
  state : String
  reason : String
  updatedUnixMs : Int
deriving DecidableEq, Repr

/-- A full record, as the CLI reads it. -/
structure Experiment where
  id : String
  name : String
  state : String
  outcome : Option String
  graceSecs : UInt32
  startedUnixMs : Int
  deadlineUnixMs : Int
  cause : Option Cause
  instances : List Instance
deriving DecidableEq, Repr

def Experiment.isTerminal (e : Experiment) : Bool := e.outcome.isSome

structure Response where
  status : Nat
  /-- Reading the body can fail. -/
  body : Except String String

/-- What became of a request, errors classified (`endpoint`, `send`, `classify_transport`). -/
abbrev Sent := Except ApiError Response

/-- `serde_json`. -/
structure Json where
  /-- The `errors` of a 422 body. -/
  errors : String → Option (List String)
  experiment : String → Except String Experiment
  pretty : Experiment → Except String String

section
variable (J : Json)

def validationError (r : Response) : ApiError :=
  let body := r.body.toOption.getD ""
  .validation ((J.errors body).getD [body])

def statusError (r : Response) : ApiError := .status r.status (r.body.toOption.getD "")

def Response.isSuccess (r : Response) : Bool := 200 ≤ r.status && r.status < 300

/-- `Response::json`. -/
def Response.experiment (r : Response) : Except ApiError Experiment :=
  match r.body with
  | .error e => .error (.decode e)
  | .ok body =>
    match J.experiment body with
    | .error e => .error (.decode e)
    | .ok experiment => .ok experiment

def runExperiment : Sent → Except ApiError Experiment
  | .error e => .error e
  | .ok r =>
    if r.status = 422 then .error (validationError J r)
    else if !r.isSuccess then .error (statusError r)
    else r.experiment J

def getExperiment : Sent → Except ApiError Experiment
  | .error e => .error e
  | .ok r =>
    if r.status = 404 then .error .notFound
    else if !r.isSuccess then .error (statusError r)
    else r.experiment J

end

/-! ## Rendering -/

inductive OutputFormat | json | table
deriving DecidableEq, Repr

/-- `{:<width}`. -/
def pad (width : Nat) (s : String) : String := s ++ String.ofList (List.replicate (width - s.length) ' ')

/-- `relative_age`, on nanoseconds since the epoch. -/
def relativeAge (now lastSeen : Int) : String :=
  if now < lastSeen then "just now"
  else
    let secs := (now - lastSeen) / 1000000000
    if secs < 60 then s!"{secs}s ago"
    else if secs < 3600 then s!"{secs / 60}m ago"
    else s!"{secs / 3600}h ago"

def msToTime (ms : Int) : Int := if ms < 0 then 0 else ms * 1000000

def renderCause (c : Cause) : String :=
  let hostname := c.hostname.getD "-"
  let instanceId := c.instanceId.getD "-"
  s!"cause:    {c.reason} (host: {hostname}, instance: {instanceId})"

def tableRow (instanceId hostname state reason : String) : String :=
  s!"{pad 40 instanceId} {pad 20 hostname} {pad 12 state} {reason}"

def renderExperimentTable (e : Experiment) (now : Int) : String :=
  let outcome := e.outcome.getD "-"
  let header := tableRow "INSTANCE" "HOSTNAME" "STATE" "REASON"
  "\n".intercalate ([s!"id:       {e.id}", s!"name:     {e.name}", s!"state:    {e.state}", s!"outcome:  {outcome}",
      s!"grace:    {e.graceSecs}s", s!"started:  {relativeAge now (msToTime e.startedUnixMs)}"] ++
    e.cause.toList.map renderCause ++ ["", header, String.ofList (List.replicate header.length '-')] ++
    e.instances.map fun i => tableRow i.instanceId i.hostname i.state i.reason)

def renderExperiment (J : Json) (e : Experiment) (format : OutputFormat) (now : Int) : String :=
  match format with
  | .json =>
    match J.pretty e with
    | .ok text => text
    | .error e => s!"\x7brender error: {e}\x7d"
  | .table => renderExperimentTable e now

/-! ## The command -/

def EXIT_OK : Nat := 0
def EXIT_ERROR : Nat := 1
def EXIT_NOT_FOUND : Nat := 2
def EXIT_VALIDATION : Nat := 3
def EXIT_EXPERIMENT_ABORTED : Nat := 4
def EXIT_EXPERIMENT_ERROR : Nat := 5

/-- A panic, as that of `eprintln!` when standard error is gone. -/
def EXIT_PANIC : Nat := 101

inductive WriteError
  | brokenPipe
  | other
deriving DecidableEq, Repr

/-- What surrounds one call. -/
structure Host where
  /-- `Client::new`. -/
  client : Except ApiError Unit
  /-- `read_to_string` of the definition file. -/
  readToString : Except String String
  /-- `serde_norway::from_str`. -/
  fromYaml : String → Except String Value
  /-- `POST /experiments`. -/
  post : Value → Sent
  /-- What `GET /experiments/<id>` has come back with so far, oldest first. -/
  get : String → List Sent
  /-- A `writeln!` to standard output. -/
  stdout : String → Except WriteError Unit
  /-- Standard error takes what is written to it. -/
  stderr : Bool
  /-- When the record is rendered, in nanoseconds. -/
  now : Int

/-- The code, and the lines on standard error. -/
structure Exit where
  code : Nat
  stderr : List String
deriving DecidableEq, Repr

def writeError (w : Host) (msg : String) : Exit := ⟨EXIT_ERROR, if w.stderr then [s!"error: {msg}"] else []⟩

def writeTransportError (w : Host) (e : ApiError) : Exit := writeError w e.toString

/-- The two `eprintln!` of a rejection. -/
def rejected (w : Host) (errors : List String) : Exit :=
  if w.stderr then
    ⟨EXIT_VALIDATION, "error: experiment rejected by VALIDATE:" :: errors.map fun error => s!"  - {error}"⟩
  else ⟨EXIT_PANIC, []⟩

/-- `write_line`; the error is an exit code. -/
def writeLine (stdout : String → Except WriteError Unit) (line : String) : Except Nat Unit :=
  match stdout line with
  | .ok () => .ok ()
  | .error .brokenPipe => .error EXIT_OK
  | .error .other => .error EXIT_ERROR

def emit (w : Host) (line : String) : Exit :=
  match writeLine w.stdout line with
  | .ok () => ⟨EXIT_OK, []⟩
  | .error code => ⟨code, []⟩

def outcomeExitCode : Option String → Nat
  | some "COMPLETED" => EXIT_OK
  | some "ABORTED" => EXIT_EXPERIMENT_ABORTED
  | some "ERROR" => EXIT_EXPERIMENT_ERROR
  | _ => EXIT_ERROR

def readDefinition (w : Host) (file : String) : Except String Value :=
  match w.readToString with
  | .error e => .error s!"could not read {file}: {e}"
  | .ok text =>
    match w.fromYaml text with
    | .error e => .error s!"could not parse {file}: {e}"
    | .ok value => .ok value

section
variable (J : Json)

/-- The polling loop over the answers that have come; `none` while it waits for the next one. -/
def waitUntilTerminal : List Sent → Option (Except ApiError Experiment)
  | [] => none
  | sent :: rest =>
    match getExperiment J sent with
    | .error e => some (.error e)
    | .ok experiment => if experiment.isTerminal then some (.ok experiment) else waitUntilTerminal rest

/-- `run_experiment_file`; `none` while it is still polling. -/
def runExperimentFile (w : Host) (file : String) (output : OutputFormat) (wait : Bool) : Option Exit :=
  match readDefinition w file with
  | .error msg => some (writeError w msg)
  | .ok definition =>
    match runExperiment J (w.post definition) with
    | .error (.validation errors) => some (rejected w errors)
    | .error e => some (writeTransportError w e)
    | .ok experiment =>
      if !wait then some (emit w (renderExperiment J experiment output w.now))
      else
        match waitUntilTerminal J (w.get experiment.id) with
        | none => none
        | some (.error e) => some (writeTransportError w e)
        | some (.ok finalRecord) =>
          match writeLine w.stdout (renderExperiment J finalRecord output w.now) with
          | .error code => some ⟨code, []⟩
          | .ok () => some ⟨outcomeExitCode finalRecord.outcome, []⟩

/-- `run`, for `experiment run`. -/
def run (w : Host) (file : String) (output : OutputFormat) (wait : Bool) : Option Exit :=
  match w.client with
  | .error e => some (writeTransportError w e)
  | .ok () => runExperimentFile J w file output wait

end

/-! ## What the master reports -/

/-- `outcome_label`. -/
def outcomeLabel : Master.ExperimentOutcome → String
  | .completed => "COMPLETED"
  | .aborted => "ABORTED"
  | .error => "ERROR"

/-- `phase_labels`: the state and the outcome of a record's view. -/
def phaseLabels : Master.ExperimentPhase → String × Option String
  | .running => ("RUNNING", none)
  | .halting => ("HALTING", none)
  | .concluded outcome => (outcomeLabel outcome, some (outcomeLabel outcome))

/-! ## The gate -/

section
variable (J : Json)

/-- An answer that leaves the loop polling. -/
def Pending (sent : Sent) : Prop := ∃ experiment, getExperiment J sent = .ok experiment ∧ experiment.isTerminal = false

/-- `record` is the first terminal one, and no poll before it failed. -/
def FirstTerminal (polls : List Sent) (record : Experiment) : Prop :=
  ∃ before sent after, polls = before ++ sent :: after ∧ (∀ s ∈ before, Pending J s) ∧
    getExperiment J sent = .ok record ∧ record.isTerminal = true

/-- The submission was accepted and the polls of its id ended in `record`. -/
structure Reported (w : Host) (file : String) (record : Experiment) : Prop where
  client : w.client = .ok ()
  polled : ∃ definition created, readDefinition w file = .ok definition ∧
    runExperiment J (w.post definition) = .ok created ∧ FirstTerminal J (w.get created.id) record

end

variable {J : Json} {w : Host}

theorem waitUntilTerminal_pending {sent : Sent} (h : Pending J sent) (rest : List Sent) :
    waitUntilTerminal J (sent :: rest) = waitUntilTerminal J rest := by
  obtain ⟨experiment, hget, hterminal⟩ := h
  simp [waitUntilTerminal, hget, hterminal]

theorem waitUntilTerminal_skip {before : List Sent} (h : ∀ s ∈ before, Pending J s) (rest : List Sent) :
    waitUntilTerminal J (before ++ rest) = waitUntilTerminal J rest := by
  induction before with
  | nil => rfl
  | cons sent before ih =>
    rw [List.cons_append, waitUntilTerminal_pending (h sent List.mem_cons_self)]
    exact ih fun s hs => h s (List.mem_cons_of_mem _ hs)

/-- The loop over a list of answers: all pending, or a first one that is not. -/
theorem waitUntilTerminal_cases (polls : List Sent) :
    (∀ s ∈ polls, Pending J s) ∨
      ∃ before sent after, polls = before ++ sent :: after ∧ (∀ s ∈ before, Pending J s) ∧ ¬Pending J sent := by
  induction polls with
  | nil => exact .inl (List.forall_mem_nil _)
  | cons sent rest ih =>
    by_cases hp : Pending J sent
    · obtain hall | ⟨before, stop, after, rfl, hbefore, hstop⟩ := ih
      · exact .inl (List.forall_mem_cons.2 ⟨hp, hall⟩)
      · exact .inr ⟨sent :: before, stop, after, rfl, List.forall_mem_cons.2 ⟨hp, hbefore⟩, hstop⟩
    · exact .inr ⟨[], sent, rest, rfl, List.forall_mem_nil _, hp⟩

/-- The answer that ends the loop decides its result. -/
theorem waitUntilTerminal_stop {sent : Sent} (h : ¬Pending J sent) (rest : List Sent) :
    waitUntilTerminal J (sent :: rest) = some (getExperiment J sent) := by
  unfold waitUntilTerminal
  cases hget : getExperiment J sent with
  | error e => rfl
  | ok experiment =>
    have hterminal : experiment.isTerminal = true := by
      by_contra hn
      exact h ⟨experiment, hget, by simpa using hn⟩
    simp [hterminal]

theorem not_pending {sent : Sent} {record : Experiment} (hget : getExperiment J sent = .ok record)
    (hterminal : record.isTerminal = true) : ¬Pending J sent := by
  rintro ⟨experiment, hget', hpending⟩
  rw [hget] at hget'
  cases hget'
  simp [hterminal] at hpending

/-- The wait goes on exactly while every answer is a record without an outcome. -/
theorem waitUntilTerminal_none (polls : List Sent) :
    waitUntilTerminal J polls = none ↔ ∀ s ∈ polls, Pending J s := by
  constructor
  · intro h
    obtain hall | ⟨before, sent, after, rfl, hbefore, hstop⟩ := waitUntilTerminal_cases (J := J) polls
    · exact hall
    · rw [waitUntilTerminal_skip hbefore, waitUntilTerminal_stop hstop] at h
      cases h
  · intro h
    have := waitUntilTerminal_skip h []
    rwa [List.append_nil] at this

theorem waitUntilTerminal_ok (polls : List Sent) (record : Experiment) :
    waitUntilTerminal J polls = some (.ok record) ↔ FirstTerminal J polls record := by
  constructor
  · intro h
    obtain hall | ⟨before, sent, after, rfl, hbefore, hstop⟩ := waitUntilTerminal_cases (J := J) polls
    · rw [(waitUntilTerminal_none polls).2 hall] at h
      cases h
    · rw [waitUntilTerminal_skip hbefore, waitUntilTerminal_stop hstop, Option.some.injEq] at h
      refine ⟨before, sent, after, rfl, hbefore, h, ?_⟩
      by_contra hn
      exact hstop ⟨record, h, by simpa using hn⟩
  · rintro ⟨before, sent, after, rfl, hbefore, hget, hterminal⟩
    rw [waitUntilTerminal_skip hbefore, waitUntilTerminal_stop (not_pending hget hterminal), hget]

theorem Reported.unique {file : String} {record record' : Experiment} (h : Reported J w file record)
    (h' : Reported J w file record') : record = record' := by
  obtain ⟨-, definition, created, hread, hpost, hpolls⟩ := h
  obtain ⟨-, definition', created', hread', hpost', hpolls'⟩ := h'
  rw [hread, Except.ok.injEq] at hread'
  subst hread'
  rw [hpost, Except.ok.injEq] at hpost'
  subst hpost'
  have heq := ((waitUntilTerminal_ok _ _).2 hpolls).symm.trans ((waitUntilTerminal_ok _ _).2 hpolls')
  simpa using heq

theorem outcomeExitCode_ok (outcome : Option String) :
    outcomeExitCode outcome = EXIT_OK ↔ outcome = some "COMPLETED" := by
  unfold outcomeExitCode
  split <;> simp_all [EXIT_OK, EXIT_ERROR, EXIT_EXPERIMENT_ABORTED, EXIT_EXPERIMENT_ERROR]

theorem rejected_code (errors : List String) : (rejected w errors).code ≠ EXIT_OK := by
  unfold rejected
  split <;> simp [EXIT_VALIDATION, EXIT_PANIC, EXIT_OK]

theorem writeError_code (msg : String) : (writeError w msg).code ≠ EXIT_OK := by simp [writeError, EXIT_ERROR, EXIT_OK]

/-- The code once the final record is there: what became of the line, then the outcome. -/
def finalCode (J : Json) (w : Host) (output : OutputFormat) (record : Experiment) : Nat :=
  match w.stdout (renderExperiment J record output w.now) with
  | .ok () => outcomeExitCode record.outcome
  | .error .brokenPipe => EXIT_OK
  | .error .other => EXIT_ERROR

theorem run_reported {file : String} {record : Experiment} (h : Reported J w file record) (output : OutputFormat) :
    run J w file output true = some ⟨finalCode J w output record, []⟩ := by
  obtain ⟨hclient, definition, created, hread, hpost, hpolls⟩ := h
  have hwait := (waitUntilTerminal_ok _ _).2 hpolls
  simp only [run, hclient, runExperimentFile, hread, hpost, hwait, Bool.not_true, Bool.false_eq_true, if_false,
    writeLine, finalCode]
  cases w.stdout (renderExperiment J record output w.now) with
  | ok => rfl
  | error e => cases e <;> rfl

/-- Every other end is a failure, and shows in the code. -/
theorem run_unreported {file : String} {output : OutputFormat} {exit : Exit}
    (hrun : run J w file output true = some exit) (h : ∀ record, ¬Reported J w file record) :
    exit.code ≠ EXIT_OK := by
  cases hclient : w.client with
  | error e =>
    simp only [run, hclient, Option.some.injEq] at hrun
    exact hrun ▸ writeError_code _
  | ok =>
  simp only [run, hclient, runExperimentFile] at hrun
  cases hread : readDefinition w file with
  | error msg =>
    simp only [hread, Option.some.injEq] at hrun
    exact hrun ▸ writeError_code _
  | ok definition =>
  simp only [hread] at hrun
  cases hpost : runExperiment J (w.post definition) with
  | error e =>
    simp only [hpost] at hrun
    cases e with
    | validation errors =>
      cases hrun
      exact rejected_code _
    | _ =>
      cases hrun
      exact writeError_code _
  | ok created =>
  simp only [hpost, Bool.not_true, Bool.false_eq_true, if_false] at hrun
  cases hwait : waitUntilTerminal J (w.get created.id) with
  | none =>
    rw [hwait] at hrun
    cases hrun
  | some result =>
  cases result with
  | error e =>
    simp only [hwait, Option.some.injEq] at hrun
    exact hrun ▸ writeError_code _
  | ok record =>
    have hpolls := (waitUntilTerminal_ok _ _).1 hwait
    exact absurd ⟨hclient, definition, created, hread, hpost, hpolls⟩ (h record)

theorem finalCode_ok {output : OutputFormat} {record : Experiment} (h : finalCode J w output record = EXIT_OK) :
    record.outcome = some "COMPLETED" ∨ w.stdout (renderExperiment J record output w.now) = .error .brokenPipe := by
  unfold finalCode at h
  split at h
  · exact .inl ((outcomeExitCode_ok _).1 h)
  · exact .inr ‹_›
  · simp [EXIT_ERROR, EXIT_OK] at h

theorem finalCode_open {output : OutputFormat} {record : Experiment}
    (h : w.stdout (renderExperiment J record output w.now) ≠ .error .brokenPipe) :
    finalCode J w output record = outcomeExitCode record.outcome ∨ finalCode J w output record = EXIT_ERROR := by
  unfold finalCode
  split
  · exact .inl rfl
  · contradiction
  · exact .inr rfl

/-- **The gate**: code 0 says the master reported the experiment `COMPLETED`, or that nobody was left to read the final
record. `ABORTED` and `ERROR` give their own code or that of a failed write. -/
theorem wait_gate (J : Json) (w : Host) (file : String) (output : OutputFormat) :
    (∀ exit, run J w file output true = some exit → exit.code = EXIT_OK →
      ∃ record, Reported J w file record ∧ (record.outcome = some "COMPLETED" ∨
        w.stdout (renderExperiment J record output w.now) = .error .brokenPipe)) ∧
    (∀ record, Reported J w file record →
      w.stdout (renderExperiment J record output w.now) ≠ .error .brokenPipe →
      ∃ exit, run J w file output true = some exit ∧
        (record.outcome = some "ABORTED" → exit.code = EXIT_EXPERIMENT_ABORTED ∨ exit.code = EXIT_ERROR) ∧
        (record.outcome = some "ERROR" → exit.code = EXIT_EXPERIMENT_ERROR ∨ exit.code = EXIT_ERROR)) ∧
    [EXIT_OK, EXIT_ERROR, EXIT_NOT_FOUND, EXIT_VALIDATION, EXIT_EXPERIMENT_ABORTED, EXIT_EXPERIMENT_ERROR].Nodup := by
  refine ⟨fun exit hrun hcode => ?_, fun record hrep hopen => ?_, by decide⟩
  · by_cases h : ∃ record, Reported J w file record
    · obtain ⟨record, hrep⟩ := h
      rw [run_reported hrep, Option.some.injEq] at hrun
      subst hrun
      exact ⟨record, hrep, finalCode_ok hcode⟩
    · exact absurd hcode (run_unreported hrun (not_exists.1 h))
  · refine ⟨_, run_reported hrep output, ?_, ?_⟩ <;> intro houtcome <;>
      simpa only [houtcome, outcomeExitCode] using finalCode_open hopen

/-! ### One experiment, seen to its end -/

def sampleRecord (phase : Master.ExperimentPhase) : Experiment :=
  let (state, outcome) := phaseLabels phase
  ⟨"exp-1", "it", state, outcome, 30, 1000, 66000, none, []⟩

/-- The same, as the master sends it. -/
def sampleBody (phase : Master.ExperimentPhase) : String :=
  let (state, outcome) := phaseLabels phase
  let outcome := outcome.elim "null" fun label => "\"" ++ label ++ "\""
  "\x7b\"id\":\"exp-1\",\"name\":\"it\",\"state\":\"" ++ state ++ "\",\"outcome\":" ++ outcome ++
    ",\"grace_secs\":30,\"started_unix_ms\":1000,\"deadline_unix_ms\":66000,\"cause\":null,\"instances\":[]\x7d"

def sampleJson : Json where
  errors _ := none
  experiment body :=
    match [.running, .halting, .concluded .completed, .concluded .aborted, .concluded .error].find?
        fun phase => body == sampleBody phase with
    | some phase => .ok (sampleRecord phase)
    | none => .error "expected value at line 1 column 1"
  pretty _ := .ok ""

theorem sampleJson_body (phase : Master.ExperimentPhase) :
    sampleJson.experiment (sampleBody phase) = .ok (sampleRecord phase) := by
  cases phase with
  | concluded outcome => cases outcome <;> decide +kernel
  | _ => decide +kernel

def sampleHost (outcome : Master.ExperimentOutcome) (stdout : String → Except WriteError Unit) : Host where
  client := .ok ()
  readToString := .ok ("name: it\nactions:\n  - hosts: [web-01]\n" ++
    "    plugin: \x7bname: fixture, version: \"1\"\x7d\n    params: \x7b\x7d\n    duration_secs: 5\n")
  fromYaml _ := .ok (.object [("actions", .array [.object [("duration_secs", .unsigned 5),
    ("hosts", .array [.string "web-01"]), ("params", .object []),
    ("plugin", .object [("name", .string "fixture"), ("version", .string "1")])]]), ("name", .string "it")])
  post _ := .ok ⟨201, .ok (sampleBody .running)⟩
  get _ := [.ok ⟨200, .ok (sampleBody .running)⟩, .ok ⟨200, .ok (sampleBody (.concluded outcome))⟩]
  stdout := stdout
  stderr := true
  now := 70000000000

theorem getExperiment_sample (phase : Master.ExperimentPhase) :
    getExperiment sampleJson (.ok ⟨200, .ok (sampleBody phase)⟩) = .ok (sampleRecord phase) := by
  simp [getExperiment, Response.isSuccess, Response.experiment, sampleJson_body]

theorem sample_reported (outcome : Master.ExperimentOutcome) (stdout : String → Except WriteError Unit) :
    Reported sampleJson (sampleHost outcome stdout) "exp.yaml" (sampleRecord (.concluded outcome)) := by
  refine ⟨rfl, _, sampleRecord .running, rfl, ?_, [_], _, [], rfl, ?_, getExperiment_sample _, rfl⟩
  · simp [sampleHost, runExperiment, Response.isSuccess, Response.experiment, sampleJson_body]
  · intro sent hsent
    rw [List.mem_singleton.1 hsent]
    exact ⟨_, getExperiment_sample _, rfl⟩

theorem wait_gate_sample :
    (∃ record, Reported sampleJson (sampleHost .completed fun _ => .ok ()) "exp.yaml" record ∧
      record.outcome = some "COMPLETED") ∧
    ∃ exit, run sampleJson (sampleHost .aborted fun _ => .ok ()) "exp.yaml" .table true = some exit ∧
      (exit.code = EXIT_EXPERIMENT_ABORTED ∨ exit.code = EXIT_ERROR) := by
  constructor
  · have hrun := run_reported (sample_reported .completed fun _ => .ok ()) .table
    obtain ⟨record, hrep, hcompleted | hpipe⟩ := (wait_gate _ _ _ _).1 _ hrun rfl
    · exact ⟨record, hrep, hcompleted⟩
    · cases hpipe
  · obtain ⟨exit, hrun, haborted, -⟩ :=
      (wait_gate _ _ _ .table).2.1 _ (sample_reported .aborted fun _ => .ok ()) (by simp [sampleHost])
    exact ⟨exit, hrun, haborted rfl⟩

/-- With the reader of standard output gone, the code of a failed experiment is 0. -/
theorem wait_gate_piped :
    let w := sampleHost .error fun _ => .error .brokenPipe
    run sampleJson w "exp.yaml" .table true = some ⟨EXIT_OK, []⟩ ∧
      Reported sampleJson w "exp.yaml" (sampleRecord (.concluded .error)) ∧
      ∀ record, Reported sampleJson w "exp.yaml" record → record.outcome = some "ERROR" := by
  have hrep := sample_reported .error fun _ => .error .brokenPipe
  refine ⟨run_reported hrep .table, hrep, fun record h => ?_⟩
  rw [h.unique hrep]
  rfl

end FaultForge.Cli
