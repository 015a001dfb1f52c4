import FaultForge.Agent.Runtime
import FaultForge.Lib.Lts

/-!
# One instance task (supervisor.rs: run_instance, apply_effect, invoke_gated, wait_for_stop)

`taskStep` runs the task of one instance from one point where it can be interrupted to the next: every await,
every file operation and every read of shared state is a step of its own, so other tasks and a crash can come
between any two. What the environment decides (results of blocking calls, I/O errors, which branch of a `select!`
is ready) is the `Choice`; a send is not enabled while the `out` channel is full. The timer of `wait_for_stop` and
the wall clock are taken to run together: it fires once the clock has reached the deadline.

| here | there |
| --- | --- |
| `Pc` | the await points of `run_instance` and the functions it calls |
| `consume` | one turn of the loop: `machine::step`, the view, `active_since_ms` supervisor.rs:650-662 |
| `perform` | `apply_effect` supervisor.rs:506 |
| `clock`, `waitForStop` | `wait_for_stop` supervisor.rs:543 |
| `taskStep` | `run_instance` supervisor.rs:585 with `invoke_gated` 428, `forward_telemetry` 347, `mark_tainted` 672 |
-/
namespace FaultForge.Agent

open Lts

/-! ## The task -/

/-- Where a task goes on after a send. -/
inductive After
  | setup
  | loop
  | forward (rest : List Telemetry) (event : Event)
deriving DecidableEq, Repr

inductive Pc
  /-- Spawned, not polled yet. -/
  | start
  /-- `send_out`: waiting for room in the outbound channel. -/
  | send (frame : AgentMessage) (after : After)
  /-- The blocking `setup` call. -/
  | setup
  /-- In the loop: effects of the last step to perform, else the next event. -/
  | loop
  /-- `invoke_gated`: the blocking digest verification. -/
  | verify (command : PluginCommand) (phase : Phase)
  /-- `invoke_gated`: the plugin process is running. -/
  | running (command : PluginCommand) (phase : Phase)
  /-- `invoke_gated`: forwarding telemetry; `event` is the result to queue afterwards. -/
  | forward (rest : List Telemetry) (event : Event)
  /-- `wait_for_stop`: about to evaluate the deadlines. -/
  | waiting
  /-- `wait_for_stop`: in the `select!`, with the timer set. -/
  | armed (deadlineMs : Int) (cause : StopCause)
  /-- `mark_tainted`: the record is written (or the write failed), not re-read yet. -/
  | reread (record : TaintRecord) (nowMs : Int)
  | finished
deriving DecidableEq, Repr

def After.pc : After → Pc
  | .setup => .setup
  | .loop => .loop
  | .forward rest event => .forward rest event

/-- `InstanceView` (supervisor.rs:131). -/
structure InstanceView where
  state : InstanceState
  pluginDigest : String
deriving DecidableEq, Repr

structure Task where
  run : RunFault
  params : Params
  startMs : Int
  deadlineUnix : Int
  view : InstanceView
  state : State
  queue : List Event
  /-- Effects of the last step, not performed yet. -/
  effects : List Effect
  activeSinceMs : Option Int
  /-- The unbounded stop channel, oldest first. -/
  stopRx : List StopCause
  pc : Pc

def Task.id (t : Task) : String := t.run.instanceId

/-- The task `handle_run_fault` spawns. -/
def Task.spawn (run : RunFault) : Task where
  run := run
  params := ∅
  startMs := 0
  deadlineUnix := 0
  view := ⟨.pending, run.pluginDigest⟩
  state := .pending
  queue := []
  effects := []
  activeSinceMs := none
  stopRx := []
  pc := .start

/-- What the environment decides in a step. -/
inductive Choice
  /-- Nothing: the next action is determined. -/
  | go
  /-- The answer of `resolve_verified`. -/
  | resolved (result : Except String VerifiedPlugin)
  /-- A blocking task ended in a join error. -/
  | joinError (msg : String)
  /-- The plugin invocation ended. -/
  | exit (invocation : Invocation)
  /-- `stop_rx.recv()` is ready. -/
  | recvStop
  /-- The result of a file operation. -/
  | io (error : Option String)
  /-- The timer of `wait_for_stop` fires. -/
  | fire
  /-- `conn.changed()` is ready. -/
  | changed

/-! ## The loop -/

/-- One turn of the loop on `event`: the effects are performed by the next steps. -/
def consume (now : Int) (t : Task) (event : Event) (queue : List Event) : Task :=
  let (state, effects) := step t.state event
  { t with
    state, effects, queue
    pc := .loop
    view := { t.view with state := state.instanceState }
    activeSinceMs := if state = .active ∧ t.activeSinceMs = none then some now else t.activeSinceMs }

/-- `Duration::as_millis() as i64`: the cast of a `u128` keeps its low 64 bits. -/
def lossThresholdMs (secs : UInt64) : Int := Int.bmod (1000 * secs.toNat) (2 ^ 64)

/-- The `StopClock` that `wait_for_stop` evaluates (supervisor.rs:553). -/
def clock (ctx : Ctx) (t : Task) : StopClock where
  durationEndMs := t.activeSinceMs.getD t.startMs + t.run.durationSecs.toNat * 1000
  deadmanMs := t.deadlineUnix * 1000
  masterLostSinceMs := match ctx.conn with
    | .connected => none
    | .lost since => some since
  lossThresholdMs := lossThresholdMs ctx.lossThresholdSecs

/-- One evaluation of `wait_for_stop`: a stop that is due, or the deadline to sleep for. -/
def waitForStop (ctx : Ctx) (t : Task) : StopCause ⊕ Int × StopCause :=
  let (at_, cause) := nextStop (clock ctx t)
  if at_ ≤ ctx.now then .inl cause else .inr (at_, cause)

def journalEntry (t : Task) : JournalEntry where
  version := JOURNAL_VERSION
  instanceId := t.id
  pluginName := t.run.pluginName
  pluginVersion := t.run.pluginVersion
  pluginDigest := t.run.pluginDigest
  params := t.params
  startedUnixMs := t.startMs
  durationSecs := t.run.durationSecs
  graceSecs := t.run.graceSecs
  deadlineUnix := t.deadlineUnix

def Task.push (t : Task) (event : Event) : Task := { t with queue := t.queue ++ [event], pc := .loop }

/-- `apply_effect` (supervisor.rs:506), up to its next interruption point; `rest` are the later effects. -/
def perform (ctx : Ctx) (t : Task) (rest : List Effect) : Effect → Choice → Option (Ctx × Task × List Obs)
  | .emitStatus state reason, .go =>
    some (ctx, { t with
      effects := rest, pc := .send (statusFrame t.id state reason t.run.pluginDigest ctx.now) .loop }, [])
  | .invoke command phase, .go =>
    some (ctx, { t with effects := rest, pc := .verify command phase }, [.invoked command])
  | .writeJournal, .io none =>
    some ({ ctx with journal := ctx.journal.insert t.id (journalEntry t) },
      ({ t with effects := rest }).push .journalWritten, [])
  | .writeJournal, .io (some error) => some (ctx, ({ t with effects := rest }).push (.journalWriteFailed error), [])
  | .removeJournal, .io none =>
    some ({ ctx with journal := ctx.journal.erase t.id }, { t with effects := rest }, [.removed true])
  | .removeJournal, .io (some _) => some (ctx, { t with effects := rest }, [.removed false])
  | .markTainted reason, .io error =>
    let record : TaintRecord := ⟨reason, ctx.now, t.id⟩
    some (ctx.mark record error, { t with effects := rest, pc := .reread record ctx.now }, [])
  | _, _ => none

/-! ## One step of the task -/

/-- The digest check that `invoke_gated` makes before it asks the catalog. -/
def gate (pluginDigest : String) (resolved : Except String VerifiedPlugin) : Except String VerifiedPlugin :=
  match Digest.parse pluginDigest with
  | .error e => .error s!"invalid plugin digest: {e.toString}"
  | .ok _ => resolved

def taskStep (X : Ext) (ctx : Ctx) (t : Task) (choice : Choice) : Option (Ctx × Task × List Obs) :=
  match t.pc, choice with
  | .start, .go =>
    let deadlineUnix := ctx.now.tdiv 1000 + t.run.durationSecs.toNat + t.run.graceSecs.toNat
    let frame := statusFrame t.id .pending none t.run.pluginDigest ctx.now
    some (ctx, { t with startMs := ctx.now, deadlineUnix, pc := .send frame .setup }, [])
  | .send frame after, .go => (trySend ctx frame).map fun ctx => (ctx, { t with pc := after.pc }, [])
  | .setup, .resolved result =>
    match setup X ctx.taint t.run result with
    | .ok (_, params) => some (ctx, { t with params, queue := [.setupOk], pc := .loop }, [])
    | .error reason => some (ctx, { t with queue := [.setupFailed reason], pc := .loop }, [])
  | .setup, .joinError msg =>
    some (ctx, { t with queue := [.setupFailed s!"setup task failed: {msg}"], pc := .loop }, [])
  | .loop, choice =>
    match t.effects with
    | effect :: rest => perform ctx t rest effect choice
    | [] =>
      match choice with
      | .go =>
        match t.queue with
        | event :: queue => some (ctx, consume ctx.now t event queue, [])
        | [] =>
          if t.state.isTerminal then some (ctx, { t with pc := .finished }, [])
          else if t.state = .active then some (ctx, { t with pc := .waiting }, [])
          else some (ctx, consume ctx.now t (.stopRequested .deadman) [], [])
      | _ => none
  | .verify command phase, .resolved result =>
    -- The check, the hand-off to the blocking pool and the `exec` are one step, taken at the `exec`: a stop or a
    -- deadline that falls between them comes before the spawn.
    match gate t.run.pluginDigest result with
    | .ok _ => some (ctx, { t with pc := .running command phase }, [.spawned command])
    | .error reason => some (ctx, t.push (.invokeRejected command reason), [])
  | .verify command _, .joinError msg =>
    some (ctx, t.push (.invocationFailed command s!"digest verification task failed: {msg}"), [])
  | .running _ _, .recvStop =>
    match t.stopRx with
    | cause :: stopRx => some (ctx, { t with stopRx, queue := .stopRequested cause :: t.queue }, [])
    | [] => none
  | .running command _, .exit invocation =>
    let event := invocationEvent X ctx.invocationTimeoutSecs command invocation.status
    some (ctx, { t with pc := .forward (telemetry invocation) event }, [.exited command invocation.status])
  | .running command _, .joinError msg =>
    some (ctx, t.push (.invocationFailed command s!"invocation task failed: {msg}"), [])
  | .forward (line :: rest) event, .go =>
    match line.frame X t.id ctx.now with
    | some frame => some (ctx, { t with pc := .send frame (.forward rest event) }, [])
    | none => some (ctx, { t with pc := .forward rest event }, [])
  | .forward [] event, .go => some (ctx, t.push event, [])
  | .waiting, .go =>
    match waitForStop ctx t with
    | .inl cause => some (ctx, consume ctx.now t (.stopRequested cause) t.queue, [])
    | .inr (at_, cause) => some (ctx, { t with pc := .armed at_ cause }, [])
  | .armed at_ cause, .fire =>
    if at_ ≤ ctx.now then some (ctx, consume ctx.now t (.stopRequested cause) t.queue, []) else none
  | .armed _ _, .changed => some (ctx, { t with pc := .waiting }, [])
  | .armed _ _, .recvStop =>
    match t.stopRx with
    | cause :: stopRx => some (ctx, consume ctx.now { t with stopRx } (.stopRequested cause) t.queue, [])
    | [] => none
  | .reread record nowMs, .go =>
    some (ctx, { t with pc := .send (taintStatusFrame (ctx.taint.or (some record)) nowMs) .loop }, [])
  | _, _ => none

/-! ## The steps a task can make -/

/-- Every step of `taskStep`, by what the task does in it. -/
inductive TaskStep (X : Ext) (ctx : Ctx) (t : Task) : Ctx → Task → List Obs → Prop
  | start : t.pc = .start →
      TaskStep X ctx t ctx { t with
        startMs := ctx.now
        deadlineUnix := ctx.now.tdiv 1000 + t.run.durationSecs.toNat + t.run.graceSecs.toNat
        pc := .send (statusFrame t.id .pending none t.run.pluginDigest ctx.now) .setup } []
  | send {frame : AgentMessage} {after : After} : t.pc = .send frame after → ctx.out.length < OUT_CAPACITY →
      TaskStep X ctx t { ctx with out := ctx.out ++ [frame] } { t with pc := after.pc } []
  | setupDone {event : Event} (params : Params) : t.pc = .setup → event.answers = some .setup →
      TaskStep X ctx t ctx { t with params, queue := [event], pc := .loop } []
  | emit {state : InstanceState} {reason : Option String} {rest : List Effect} :
      t.pc = .loop → t.effects = .emitStatus state reason :: rest →
      TaskStep X ctx t ctx { t with
        effects := rest, pc := .send (statusFrame t.id state reason t.run.pluginDigest ctx.now) .loop } []
  | invoke {command : PluginCommand} {phase : Phase} {rest : List Effect} :
      t.pc = .loop → t.effects = .invoke command phase :: rest →
      TaskStep X ctx t ctx { t with effects := rest, pc := .verify command phase } [.invoked command]
  | write {rest : List Effect} : t.pc = .loop → t.effects = .writeJournal :: rest →
      TaskStep X ctx t { ctx with journal := ctx.journal.insert t.id (journalEntry t) }
        (({ t with effects := rest } : Task).push .journalWritten) []
  | writeFailed {rest : List Effect} (error : String) : t.pc = .loop → t.effects = .writeJournal :: rest →
      TaskStep X ctx t ctx (({ t with effects := rest } : Task).push (.journalWriteFailed error)) []
  | remove {rest : List Effect} : t.pc = .loop → t.effects = .removeJournal :: rest →
      TaskStep X ctx t { ctx with journal := ctx.journal.erase t.id } { t with effects := rest } [.removed true]
  | removeFailed {rest : List Effect} : t.pc = .loop → t.effects = .removeJournal :: rest →
      TaskStep X ctx t ctx { t with effects := rest } [.removed false]
  | mark {reason : String} {rest : List Effect} (error : Option String) :
      t.pc = .loop → t.effects = .markTainted reason :: rest →
      TaskStep X ctx t (ctx.mark ⟨reason, ctx.now, t.id⟩ error)
        { t with effects := rest, pc := .reread ⟨reason, ctx.now, t.id⟩ ctx.now } []
  | next {event : Event} {queue : List Event} : t.pc = .loop → t.effects = [] → t.queue = event :: queue →
      TaskStep X ctx t ctx (consume ctx.now t event queue) []
  | finish : t.pc = .loop → t.effects = [] → t.queue = [] → t.state.isTerminal →
      TaskStep X ctx t ctx { t with pc := .finished } []
  | activate : t.pc = .loop → t.effects = [] → t.queue = [] → t.state = .active →
      TaskStep X ctx t ctx { t with pc := .waiting } []
  | wedged : t.pc = .loop → t.effects = [] → t.queue = [] → t.state.isTerminal = false → t.state ≠ .active →
      TaskStep X ctx t ctx (consume ctx.now t (.stopRequested .deadman) []) []
  | spawn {command : PluginCommand} {phase : Phase} : t.pc = .verify command phase →
      TaskStep X ctx t ctx { t with pc := .running command phase } [.spawned command]
  | refused {command : PluginCommand} {phase : Phase} {event : Event} : t.pc = .verify command phase →
      (∃ reason, event = .invokeRejected command reason ∨ event = .invocationFailed command reason) →
      TaskStep X ctx t ctx (t.push event) []
  | stopRunning {command : PluginCommand} {phase : Phase} {cause : StopCause} {stopRx : List StopCause} :
      t.pc = .running command phase → t.stopRx = cause :: stopRx →
      TaskStep X ctx t ctx { t with stopRx, queue := .stopRequested cause :: t.queue } []
  | exit {command : PluginCommand} {phase : Phase} (invocation : Invocation) : t.pc = .running command phase →
      TaskStep X ctx t ctx
        { t with
          pc := .forward (telemetry invocation)
            (invocationEvent X ctx.invocationTimeoutSecs command invocation.status) }
        [.exited command invocation.status]
  | lost {command : PluginCommand} {phase : Phase} (reason : String) : t.pc = .running command phase →
      TaskStep X ctx t ctx (t.push (.invocationFailed command reason)) []
  | forward {line : Telemetry} {rest : List Telemetry} {event : Event} {frame : AgentMessage} :
      t.pc = .forward (line :: rest) event → line.frame X t.id ctx.now = some frame →
      TaskStep X ctx t ctx { t with pc := .send frame (.forward rest event) } []
  | forwardSkip {line : Telemetry} {rest : List Telemetry} {event : Event} :
      t.pc = .forward (line :: rest) event → line.frame X t.id ctx.now = none →
      TaskStep X ctx t ctx { t with pc := .forward rest event } []
  | forwarded {event : Event} : t.pc = .forward [] event → TaskStep X ctx t ctx (t.push event) []
  | arm (deadlineMs : Int) (cause : StopCause) : t.pc = .waiting →
      TaskStep X ctx t ctx { t with pc := .armed deadlineMs cause } []
  | rearm {deadlineMs : Int} {cause : StopCause} : t.pc = .armed deadlineMs cause →
      TaskStep X ctx t ctx { t with pc := .waiting } []
  | stop (cause : StopCause) (stopRx : List StopCause) :
      (t.pc = .waiting ∨ ∃ deadlineMs c, t.pc = .armed deadlineMs c) →
      TaskStep X ctx t ctx (consume ctx.now { t with stopRx } (.stopRequested cause) t.queue) []
  | reread {record : TaintRecord} {nowMs : Int} : t.pc = .reread record nowMs →
      TaskStep X ctx t ctx { t with pc := .send (taintStatusFrame (ctx.taint.or (some record)) nowMs) .loop } []

theorem perform_cases {X : Ext} {ctx ctx' : Ctx} {t t' : Task} {obs : List Obs} {effect : Effect} {rest : List Effect}
    {choice : Choice} (hpc : t.pc = .loop) (heff : t.effects = effect :: rest)
    (h : perform ctx t rest effect choice = some (ctx', t', obs)) : TaskStep X ctx t ctx' t' obs := by
  unfold perform at h
  split at h
  all_goals first | cases h; done | skip
  all_goals simp only [Option.some.injEq, Prod.mk.injEq] at h; obtain ⟨rfl, rfl, rfl⟩ := h
  · exact .emit hpc heff
  · exact .invoke hpc heff
  · exact .write hpc heff
  · exact .writeFailed _ hpc heff
  · exact .remove hpc heff
  · exact .removeFailed hpc heff
  · exact .mark _ hpc heff

/-- The loop with no effect left to perform. -/
theorem loop_cases {X : Ext} {ctx ctx' : Ctx} {t t' : Task} {obs : List Obs} (hpc : t.pc = .loop)
    (heff : t.effects = []) (h : (match t.queue with
      | event :: queue => some (ctx, consume ctx.now t event queue, [])
      | [] =>
        if t.state.isTerminal then some (ctx, { t with pc := .finished }, [])
        else if t.state = .active then some (ctx, { t with pc := .waiting }, [])
        else some (ctx, consume ctx.now t (.stopRequested .deadman) [], [])) = some (ctx', t', obs)) :
    TaskStep X ctx t ctx' t' obs := by
  split at h
  next event queue hq => cases h; exact .next hpc heff hq
  next hq =>
    split at h
    next hterm => cases h; exact .finish hpc heff hq hterm
    next hterm =>
      split at h
      next hact => cases h; exact .activate hpc heff hq hact
      next hact => cases h; exact .wedged hpc heff hq (by simpa using hterm) hact

theorem trySend_some {ctx ctx' : Ctx} {frame : AgentMessage} (h : trySend ctx frame = some ctx') :
    ctx.out.length < OUT_CAPACITY ∧ ctx' = { ctx with out := ctx.out ++ [frame] } := by
  unfold trySend at h
  split at h
  next hroom => cases h; exact ⟨hroom, rfl⟩
  next => cases h

/-- **The inversion lemma of the task.** -/
theorem taskStep_cases {X : Ext} {ctx ctx' : Ctx} {t t' : Task} {obs : List Obs} {choice : Choice}
    (h : taskStep X ctx t choice = some (ctx', t', obs)) : TaskStep X ctx t ctx' t' obs := by
  unfold taskStep at h
  split at h
  next hpc => cases h; exact .start hpc
  next frame after hpc =>
    obtain ⟨ctx₁, hsend, he⟩ := Option.map_eq_some_iff.1 h
    obtain ⟨hroom, rfl⟩ := trySend_some hsend
    cases he; exact .send hpc hroom
  next result hpc =>
    split at h
    next params _ => cases h; exact .setupDone params hpc rfl
    next reason _ => cases h; exact .setupDone t.params hpc rfl
  next msg hpc => cases h; exact .setupDone t.params hpc rfl
  next hpc =>
    split at h
    next effect rest heff => exact perform_cases hpc heff h
    next heff =>
      split at h
      next => exact loop_cases hpc heff h
      next => cases h
  next command phase result hpc =>
    split at h
    next => cases h; exact .spawn hpc
    next reason _ => cases h; exact .refused hpc ⟨reason, .inl rfl⟩
  next command phase msg hpc => cases h; exact .refused hpc ⟨_, .inr rfl⟩
  next command phase hpc =>
    split at h
    next cause stopRx hrx => cases h; exact .stopRunning hpc hrx
    next => cases h
  next command phase invocation hpc => cases h; exact .exit invocation hpc
  next command phase msg hpc => cases h; exact .lost _ hpc
  next line rest event hpc =>
    split at h
    next frame hf => cases h; exact .forward hpc hf
    next hf => cases h; exact .forwardSkip hpc hf
  next event hpc => cases h; exact .forwarded hpc
  next hpc =>
    split at h
    next cause _ => cases h; exact .stop cause t.stopRx (.inl hpc)
    next deadlineMs cause _ => cases h; exact .arm deadlineMs cause hpc
  next deadlineMs cause hpc =>
    split at h
    next => cases h; exact .stop cause t.stopRx (.inr ⟨_, _, hpc⟩)
    next => cases h
  next hpc => cases h; exact .rearm hpc
  next hpc =>
    split at h
    next cause stopRx _ => cases h; exact .stop cause stopRx (.inr ⟨_, _, hpc⟩)
    next => cases h
  next record nowMs hpc => cases h; exact .reread hpc
  next => cases h

theorem taskStep_mark {X : Ext} {ctx ctx' : Ctx} {t t' : Task} {choice : Choice} {reason : String}
    {rest : List Effect} {obs : List Obs}
    (h : taskStep X ctx t choice = some (ctx', t', obs)) (hpc : t.pc = .loop)
    (heff : t.effects = .markTainted reason :: rest) :
    ∃ error, choice = .io error ∧ ctx' = ctx.mark ⟨reason, ctx.now, t.id⟩ error := by
  simp only [taskStep, hpc, heff] at h
  cases choice with
  | io error => cases h; exact ⟨error, rfl, rfl⟩
  | _ => cases h

theorem TaskStep.taint_kept {X : Ext} {ctx ctx' : Ctx} {t t' : Task} {obs : List Obs}
    (h : TaskStep X ctx t ctx' t' obs) (ht : ctx.taint.isSome) : ctx'.taint.isSome := by
  cases h with
  | mark error => exact ctx.mark_taint _ error ht
  | _ => exact ht

/-! ## A sample instance, for runs on fixed inputs -/

/-- Every parameter text is the empty map, no log line is encoded. -/
def plainExt : Ext where
  parseParams _ := .ok ∅
  logLine _ _ _ := none
  durationDebug secs := s!"{secs}s"

def sampleRun : RunFault where
  instanceId := "exp-1000-1:web-01:0"
  pluginName := "fixture"
  pluginVersion := "1"
  pluginDigest := "aab0f7e0d67b3b0225252193a01c1313cf34da6a0244f59162eac97029d770a2"
  paramsJson := "\x7b\x7d"
  durationSecs := 60
  graceSecs := 10

def samplePlugin : VerifiedPlugin where
  entrypoint := "/plugins/fixture@1/run.sh"
  manifest := ⟨"fixture", "1", "./run.sh", ∅, 60⟩
  digest := ⟨sampleRun.pluginDigest, by decide⟩

def sampleCtx : Ctx where
  journal := ∅
  taint := none
  out := []
  conn := .connected
  lossThresholdSecs := 30
  invocationTimeoutSecs := 10
  now := 1000

/-- An invocation that prints nothing and exits with `code`. -/
def invokeChoices (code : Int) : List Choice :=
  [.go, .resolved (.ok samplePlugin), .exit ⟨[], "", .code code⟩, .go]

/-- Setup and both preflights succeed, the entry is written, `inject` has been started. -/
def injectChoices : List Choice :=
  [.go, .go, .resolved (.ok samplePlugin), .go, .go, .go] ++ invokeChoices 0 ++ [.go] ++ invokeChoices 0 ++
    [.go, .io none, .go, .go, .go, .go, .resolved (.ok samplePlugin)]

end FaultForge.Agent
