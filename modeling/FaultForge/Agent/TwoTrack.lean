import FaultForge.Agent.CrashSafe
import FaultForge.Agent.Replay

/-!
# Two-track telemetry on the agent (supervisor.rs:343-488, 749-898; runner.rs:224)

What a plugin prints is split into lines and forwarded as `FaultEvent` frames; what the agent does next is decided by
how the process ended. So every run of an instance is, step by step, a run of the same instance whose plugin prints
nothing, with forwarding steps in between that change nothing but what is left to forward.

* `Instance.quiet` — an instance without what was printed: nothing left to forward, and an empty channel, since what is
  in it depends on who drains it; the frames of a run are among its `operations`.
* `quiet_step` — a forwarding step or a change of the channel does not show in `quiet`; any other step is a step of the
  silent plugin.
* `quiet_run` — so a run is a run of the silent plugin on its `erased` labels, with the same operations.
* `replayLoop_quiet` — the same of restart replay.
-/
namespace FaultForge.Agent

open Lts Text

/-! ## Lines -/

/-- `split_stdout` (runner.rs:224); `isEvent` says which lines `serde_json` reads as a `PluginEvent`. -/
def splitStdout (isEvent : String → Bool) (stdout : String) : List StdoutLine :=
  ((lines stdout.toList).filter fun line => !(trim line).isEmpty).map fun line =>
    if isEvent (String.ofList line) then .event (String.ofList line) else .malformed (String.ofList line)

/-- What `runner::invoke` returns for a process that printed this. -/
def printed (isEvent : String → Bool) (stdout stderr : String) (status : ProcessEnd) : Invocation :=
  ⟨splitStdout isEvent stdout, stderr, status⟩

/-! ## Without what was printed -/

def isTelemetry : AgentMessage → Bool
  | .faultEvent _ _ => true
  | _ => false

/-- The frames but the telemetry. -/
def lifecycle (frames : List AgentMessage) : List AgentMessage := frames.filter fun f => !isTelemetry f

def Invocation.quiet (i : Invocation) : Invocation := ⟨[], "", i.status⟩

def Pc.quiet : Pc → Pc
  | .forward _ event | .send _ (.forward _ event) => .forward [] event
  | pc => pc

def Task.quiet (t : Task) : Task := { t with pc := t.pc.quiet }

def Ctx.quiet (ctx : Ctx) : Ctx := { ctx with out := [] }

def Instance.quiet (c : Instance) : Instance := { c with ctx := c.ctx.quiet, task := c.task.quiet }

def Choice.quiet : Choice → Choice
  | .exit invocation => .exit invocation.quiet
  | choice => choice

def InstanceLabel.quiet : InstanceLabel → InstanceLabel
  | .task choice => .task choice.quiet
  | label => label

/-- A step of `forward_telemetry` that forwards a line, or the channel drained or filled by others. -/
def aside (c : Instance) : InstanceLabel → Bool
  | .task .go =>
    match c.task.pc with
    | .forward (_ :: _) _ | .send _ (.forward _ _) => true
    | _ => false
  | .interfere (.out _) => true
  | _ => false

/-! ## Operations -/

/-- What the lifecycle of an instance does to the outside. -/
inductive Operation
  | invoke (command : PluginCommand) (phase : Phase)
  | send (frame : AgentMessage)
  | writeJournal (entry : JournalEntry) (error : Option String)
  | removeJournal (error : Option String)
  | markTainted (record : TaintRecord) (error : Option String)

/-- The operation of a task step; forwarding telemetry is none. -/
def operation (ctx : Ctx) (t : Task) : Choice → List Operation
  | .go =>
    match t.pc, t.effects with
    | .send frame _, _ => if isTelemetry frame then [] else [.send frame]
    | .loop, .invoke command phase :: _ => [.invoke command phase]
    | _, _ => []
  | .io error =>
    match t.pc, t.effects with
    | .loop, .writeJournal :: _ => [.writeJournal (journalEntry t) error]
    | .loop, .removeJournal :: _ => [.removeJournal error]
    | .loop, .markTainted reason :: _ => [.markTainted ⟨reason, ctx.now, t.id⟩ error]
    | _, _ => []
  | _ => []

def Instance.operation (c : Instance) : InstanceLabel → List Operation
  | .task choice => Agent.operation c.ctx c.task choice
  | _ => []

variable (X : Ext)

/-- The plugin that prints nothing, and a channel that always has room. -/
def silentLts : System Instance InstanceLabel where
  init c := ∃ c', (instanceLts X).init c' ∧ c = c'.quiet
  step c a := ((instanceLts X).step c a).map Instance.quiet

/-- The operations of a run, oldest first. -/
def operations (L : System Instance InstanceLabel) : Instance → List InstanceLabel → List Operation
  | _, [] => []
  | c, a :: as =>
    match L.step c a with
    | none => []
    | some c' => c.operation a ++ operations L c' as

/-- The labels of a run without the steps aside and without what was printed: the results of the invocations, the stop
requests, the clock and all else that is not the plugin's output. -/
def erased : Instance → List InstanceLabel → List InstanceLabel
  | _, [] => []
  | c, a :: as =>
    match (instanceLts X).step c a with
    | none => []
    | some c' => if aside c a then erased c' as else a.quiet :: erased c' as

/-! ## One step -/

/-- What waits to be sent is telemetry exactly while lines are forwarded. -/
def Pc.Sorted (pc : Pc) : Prop :=
  ∀ frame after, pc = .send frame after → (isTelemetry frame = true ↔ ∃ rest event, after = .forward rest event)

section
variable {X : Ext} {ctx ctx' : Ctx} {t t' : Task} {obs : List Obs} {choice : Choice}

theorem taintStatusFrame_quiet (current : Option TaintRecord) (nowMs : Int) :
    isTelemetry (taintStatusFrame current nowMs) = false := by
  cases current <;> rfl

theorem Telemetry.frame_telemetry {line : Telemetry} {id : String} {now : Int} {frame : AgentMessage}
    (h : line.frame X id now = some frame) : isTelemetry frame = true := by
  cases line with
  | raw s => cases h; rfl
  | log msg =>
    obtain ⟨text, -, rfl⟩ := Option.map_eq_some_iff.1 h
    rfl

theorem After.pc_sorted (after : After) : after.pc.Sorted := by
  intro frame after' h
  cases after <;> cases h

theorem Pc.Sorted.status {frame : AgentMessage} (hf : isTelemetry frame = false) {after : After}
    (ha : ∀ rest event, after ≠ .forward rest event) : (Pc.send frame after).Sorted := by
  intro frame' after' h
  obtain ⟨rfl, rfl⟩ := Pc.send.inj h
  simp only [hf, Bool.false_eq_true, false_iff, not_exists]
  exact ha

theorem TaskStep.sorted (h : TaskStep X ctx t ctx' t' obs) : t'.pc.Sorted := by
  cases h with
  | start | emit => exact .status rfl (by simp)
  | reread => exact .status (taintStatusFrame_quiet _ _) (by simp)
  | forward _ hf =>
    intro frame' after' h
    obtain ⟨rfl, rfl⟩ := Pc.send.inj h
    exact ⟨fun _ => ⟨_, _, rfl⟩, fun _ => Telemetry.frame_telemetry hf⟩
  | send => exact After.pc_sorted _
  | remove hpc | removeFailed hpc =>
    intro frame after h
    rw [show _ = Pc.loop from hpc] at h
    cases h
  | stopRunning hpc =>
    intro frame after h
    rw [show _ = Pc.running _ _ from hpc] at h
    cases h
  | _ => exact fun _ _ h => by cases h

theorem Ctx.mark_out_comm (ctx : Ctx) (record : TaintRecord) (error : Option String) (out : List AgentMessage) :
    { ctx with out }.mark record error = { ctx.mark record error with out } := by
  cases ht : ctx.taint <;> cases error <;> simp only [Ctx.mark, ht]

theorem perform_out (rest : List Effect) (effect : Effect) (out : List AgentMessage) :
    perform { ctx with out } t rest effect choice =
      (perform ctx t rest effect choice).map fun r => ({ r.1 with out }, r.2) := by
  cases effect with
  | markTainted reason =>
    cases choice with
    | io error => simp only [perform, Ctx.mark_out_comm, Option.map_some]
    | _ => rfl
  | writeJournal | removeJournal =>
    cases choice with
    | io error => cases error <;> rfl
    | _ => rfl
  | emitStatus | invoke => cases choice <;> rfl

/-- A task looks into the outbound channel only to send. -/
theorem taskStep_out (hpc : ∀ frame after, t.pc ≠ .send frame after) (out : List AgentMessage) :
    taskStep X { ctx with out } t choice =
      (taskStep X ctx t choice).map fun r => ({ r.1 with out }, r.2) := by
  obtain ⟨pc, hp⟩ : ∃ pc, t.pc = pc := ⟨_, rfl⟩
  rw [hp] at hpc
  simp only [taskStep, hp]
  cases pc with
  | send frame after => exact absurd rfl (hpc frame after)
  | loop =>
    cases t.effects with
    | cons effect rest => exact perform_out rest effect out
    | nil =>
      cases choice with
      | go =>
        dsimp only
        cases t.queue with
        | cons => rfl
        | nil =>
          dsimp only
          repeat' split
          all_goals rfl
      | _ => rfl
  | setup =>
    cases choice with
    | resolved result =>
      dsimp only
      cases setup X ctx.taint t.run result <;> rfl
    | _ => rfl
  | verify command phase =>
    cases choice with
    | resolved result =>
      dsimp only
      cases gate t.run.pluginDigest result <;> rfl
    | _ => rfl
  | running command phase =>
    cases choice with
    | recvStop =>
      dsimp only
      cases t.stopRx <;> rfl
    | _ => rfl
  | forward lines event =>
    cases choice with
    | go =>
      cases lines with
      | nil => rfl
      | cons line rest =>
        dsimp only
        cases line.frame X t.id ctx.now <;> rfl
    | _ => cases lines <;> rfl
  | waiting =>
    cases choice with
    | go =>
      have hw : waitForStop { ctx with out } t = waitForStop ctx t := rfl
      rw [hw]
      rcases waitForStop ctx t with cause | ⟨deadlineMs, cause⟩ <;> rfl
    | _ => rfl
  | armed deadlineMs cause =>
    cases choice with
    | fire =>
      dsimp only
      split <;> rfl
    | recvStop =>
      dsimp only
      cases t.stopRx <;> rfl
    | _ => rfl
  | start | reread | finished => cases choice <;> rfl

theorem Task.quiet_eq (h : t.pc.quiet = t.pc) : t.quiet = t := by
  unfold Task.quiet
  rw [h]

@[simp] theorem Pc.quiet_quiet (pc : Pc) : pc.quiet.quiet = pc.quiet := by
  cases pc with
  | send frame after => cases after <;> rfl
  | _ => rfl

@[simp] theorem Instance.quiet_quiet (c : Instance) : c.quiet.quiet = c.quiet := by
  simp [Instance.quiet, Task.quiet, Ctx.quiet]

/-- Only a running process can exit. -/
theorem taskStep_exit {invocation : Invocation} (hrunning : ∀ command phase, t.pc ≠ .running command phase) :
    taskStep X ctx t (.exit invocation) = none := by
  obtain ⟨pc, hp⟩ : ∃ pc, t.pc = pc := ⟨_, rfl⟩
  rw [hp] at hrunning
  simp only [taskStep, hp]
  cases pc with
  | running command phase => exact absurd rfl (hrunning command phase)
  | loop =>
    cases t.effects with
    | nil => rfl
    | cons effect rest => cases effect <;> rfl
  | forward lines event => cases lines <;> rfl
  | _ => rfl

/-- A step that forwards a line shows nowhere else. -/
theorem taskStep_forwards {lines : List Telemetry} {event : Event} (hs : t.pc.Sorted)
    (hpc : (∃ line, t.pc = .forward (line :: lines) event) ∨ ∃ frame, t.pc = .send frame (.forward lines event))
    (h : taskStep X ctx t .go = some (ctx', t', obs)) :
    ctx'.quiet = ctx.quiet ∧ t'.quiet = t.quiet ∧ obs = [] ∧ operation ctx t .go = [] := by
  rcases hpc with ⟨line, hpc⟩ | ⟨frame, hpc⟩
  · simp only [taskStep, hpc] at h
    have hop : operation ctx t .go = [] := by simp [operation, hpc]
    split at h
    · cases h
      exact ⟨rfl, by simp [Task.quiet, Pc.quiet, hpc], rfl, hop⟩
    · cases h
      exact ⟨rfl, by simp [Task.quiet, Pc.quiet, hpc], rfl, hop⟩
  · have hf : isTelemetry frame = true := (hs _ _ hpc).2 ⟨_, _, rfl⟩
    simp only [taskStep, hpc, Option.map_eq_some_iff] at h
    obtain ⟨ctx₁, hsend, he⟩ := h
    obtain ⟨-, rfl⟩ := trySend_some hsend
    cases he
    exact ⟨rfl, by simp [Task.quiet, Pc.quiet, After.pc, hpc], rfl, by simp [operation, hpc, hf]⟩

/-- Any other step is one of the silent plugin, with the same operation. -/
theorem taskStep_quiet
    (hno : choice = .go → (∀ line lines event, t.pc ≠ .forward (line :: lines) event) ∧
      ∀ frame lines event, t.pc ≠ .send frame (.forward lines event))
    (h : taskStep X ctx t choice = some (ctx', t', obs)) :
    (∃ ctx₁ t₁, taskStep X ctx.quiet t.quiet choice.quiet = some (ctx₁, t₁, obs) ∧ ctx₁.quiet = ctx'.quiet ∧
        t₁.quiet = t'.quiet) ∧
      operation ctx.quiet t.quiet choice.quiet = operation ctx t choice := by
  obtain ⟨pc, hp⟩ : ∃ pc, t.pc = pc := ⟨_, rfl⟩
  cases pc with
  | send frame after =>
    have hgo : choice = .go := by
      cases choice <;> simp_all [taskStep]
    subst hgo
    have hafter : ∀ lines event, after ≠ .forward lines event := by
      rintro lines event rfl
      exact (hno rfl).2 _ _ _ hp
    have hq : t.quiet = t := Task.quiet_eq (by rw [hp]; cases after <;> first | rfl | exact absurd rfl (hafter _ _))
    simp only [taskStep, hp, Option.map_eq_some_iff] at h
    obtain ⟨ctx₁, hsend, he⟩ := h
    obtain ⟨-, rfl⟩ := trySend_some hsend
    cases he
    refine ⟨⟨{ ctx with out := [frame] }, { t with pc := after.pc }, ?_, rfl, rfl⟩, by rw [hq]; rfl⟩
    rw [hq]
    simp only [Choice.quiet, taskStep, hp]
    rfl
  | forward lines event =>
    cases lines with
    | cons line rest =>
      cases choice with
      | go => exact absurd hp ((hno rfl).1 _ _ _)
      | _ => simp [taskStep, hp] at h
    | nil =>
      have hq : t.quiet = t := Task.quiet_eq (by rw [hp]; rfl)
      rw [hq]
      cases choice with
      | go =>
        simp only [taskStep, hp] at h
        cases h
        exact ⟨⟨ctx.quiet, t.push event, by simp only [Choice.quiet, taskStep, hp], rfl, rfl⟩, rfl⟩
      | _ => simp [taskStep, hp] at h
  | running command phase =>
    have hq : t.quiet = t := Task.quiet_eq (by rw [hp]; rfl)
    rw [hq]
    refine ⟨?_, by cases choice <;> rfl⟩
    cases choice with
    | exit invocation =>
      simp only [taskStep, hp] at h
      cases h
      refine ⟨ctx.quiet, { t with pc := .forward [] _ }, ?_, rfl, rfl⟩
      simp only [Choice.quiet, taskStep, hp]
      rfl
    | joinError msg =>
      simp only [taskStep, hp] at h
      cases h
      refine ⟨ctx.quiet, t.push _, ?_, rfl, rfl⟩
      simp only [Choice.quiet, taskStep, hp]
    | recvStop =>
      simp only [taskStep, hp] at h
      split at h
      · next hrx =>
        cases h
        refine ⟨ctx.quiet, { t with stopRx := _, queue := _, pc := .running command phase }, ?_, rfl, rfl⟩
        simp only [Choice.quiet, taskStep, hp, hrx]
      · cases h
    | _ => simp [taskStep, hp] at h
  | _ =>
    have hq : t.quiet = t := Task.quiet_eq (by rw [hp]; rfl)
    have hc : choice.quiet = choice := by
      cases choice with
      | exit invocation => rw [taskStep_exit (by simp [hp])] at h; cases h
      | _ => rfl
    have hstep : taskStep X ctx.quiet t choice = some (ctx'.quiet, t', obs) := by
      rw [Ctx.quiet, taskStep_out (by simp [hp]), h]
      rfl
    rw [hq, hc]
    refine ⟨⟨_, _, hstep, rfl, rfl⟩, by cases choice <;> rfl⟩

end

/-! ## Runs of an instance -/

section
variable {X : Ext} {c c' : Instance} {a : InstanceLabel}

theorem Interference.apply_quiet {own : String} {ctx ctx' : Ctx} {i : Interference}
    (h : i.apply own ctx = some ctx') (hout : ∀ frames, i ≠ .out frames) :
    i.apply own ctx.quiet = some ctx'.quiet := by
  cases i with
  | journal id entry =>
    simp only [Interference.apply] at h ⊢
    split at h
    · cases h
    · next hid =>
      rw [if_neg hid]
      cases entry <;> cases h <;> rfl
  | mark record error =>
    cases h
    simp only [Interference.apply, Ctx.quiet, Ctx.mark_out_comm]
  | out frames => exact absurd rfl (hout frames)
  | clear | conn | tick =>
    cases h
    rfl

theorem instance_sorted (h : (instanceLts X).step c a = some c') (hs : c.task.pc.Sorted) : c'.task.pc.Sorted := by
  simp only [instanceLts] at h
  split at h
  · cases h
  · cases a with
    | task choice =>
      obtain ⟨⟨ctx, task, obs⟩, ht, rfl⟩ := Option.map_eq_some_iff.1 h
      exact (taskStep_cases ht).sorted
    | stop cause => cases h; exact hs
    | interfere i =>
      obtain ⟨ctx, -, rfl⟩ := Option.map_eq_some_iff.1 h
      exact hs
    | crash => cases h; exact hs

theorem aside_iff : aside c a = true ↔ (∃ frames, a = .interfere (.out frames)) ∨ a = .task .go ∧ ∃ lines event,
    (∃ line, c.task.pc = .forward (line :: lines) event) ∨ ∃ frame, c.task.pc = .send frame (.forward lines event) := by
  unfold aside
  split
  · split
    · next line lines event hpc => simp [hpc]
    · next frame lines event hpc => simp [hpc]
    · next h1 h2 =>
      simp only [Bool.false_eq_true, false_iff]
      rintro (⟨frames, h⟩ | ⟨-, lines, event, ⟨line, hpc⟩ | ⟨frame, hpc⟩⟩)
      · cases h
      · exact h1 _ _ _ hpc
      · exact h2 _ _ _ hpc
  · next frames => simp
  · next h1 h2 =>
    simp only [Bool.false_eq_true, false_iff]
    rintro (⟨frames, rfl⟩ | ⟨rfl, -⟩)
    · exact h2 _ rfl
    · exact h1 rfl

/-- **One step.** A step aside does not show in `quiet`; any other is a step of the silent plugin. -/
theorem quiet_step (hs : c.task.pc.Sorted) (h : (instanceLts X).step c a = some c') :
    if aside c a then c'.quiet = c.quiet ∧ c.operation a = []
    else (silentLts X).step c.quiet a.quiet = some c'.quiet ∧ c.quiet.operation a.quiet = c.operation a := by
  simp only [silentLts, instanceLts] at h ⊢
  split at h
  · cases h
  · next hcrash =>
    have hcrash' : ¬ c.quiet.crashed = true := hcrash
    rw [if_neg hcrash']
    cases a with
    | task choice =>
      obtain ⟨⟨ctx, task, obs⟩, ht, rfl⟩ := Option.map_eq_some_iff.1 h
      split
      · next hf =>
        obtain ⟨frames, hout⟩ | ⟨hgo, lines, event, hpc⟩ := aside_iff.1 hf
        · cases hout
        obtain rfl := InstanceLabel.task.inj hgo
        obtain ⟨hctx, htask, rfl, hop⟩ := taskStep_forwards hs hpc ht
        refine ⟨?_, hop⟩
        simp only [Instance.quiet, hctx, htask, List.nil_append]
      · next hf =>
        have hno : choice = .go → (∀ line lines event, c.task.pc ≠ .forward (line :: lines) event) ∧
            ∀ frame lines event, c.task.pc ≠ .send frame (.forward lines event) := by
          rintro rfl
          exact ⟨fun line lines event hpc => hf (aside_iff.2 (.inr ⟨rfl, lines, event, .inl ⟨line, hpc⟩⟩)),
            fun frame lines event hpc => hf (aside_iff.2 (.inr ⟨rfl, lines, event, .inr ⟨frame, hpc⟩⟩))⟩
        obtain ⟨⟨ctx₁, t₁, hstep, hctx, htask⟩, hop⟩ := taskStep_quiet hno ht
        refine ⟨?_, hop⟩
        change ((taskStep X c.ctx.quiet c.task.quiet choice.quiet).map _).map _ = _
        rw [hstep]
        simp only [Option.map_some, Instance.quiet, hctx, htask]
    | stop cause =>
      cases h
      let placed : Instance := { c with task := { c.task with stopRx := c.task.stopRx ++ [cause] } }
      exact ⟨congrArg some (Instance.quiet_quiet placed), rfl⟩
    | interfere i =>
      obtain ⟨ctx, hi, rfl⟩ := Option.map_eq_some_iff.1 h
      split
      · next hf =>
        obtain ⟨frames, hout⟩ | ⟨hgo, -⟩ := aside_iff.1 hf
        · obtain rfl := InstanceLabel.interfere.inj hout
          cases hi
          exact ⟨rfl, rfl⟩
        · cases hgo
      · next hf =>
        have hout : ∀ frames, i ≠ .out frames := by
          rintro frames rfl
          exact hf rfl
        refine ⟨?_, rfl⟩
        change ((i.apply c.task.id c.ctx.quiet).map _).map _ = _
        rw [Interference.apply_quiet hi hout]
        exact congrArg some (Instance.quiet_quiet { c with ctx })
    | crash =>
      cases h
      exact ⟨congrArg some (Instance.quiet_quiet { c with crashed := true }), rfl⟩

/-- **A run.** What remains of it without the plugin's output is a run of the silent plugin, with the same
operations. -/
theorem quiet_run {as : List InstanceLabel} (hs : c.task.pc.Sorted) (h : run (instanceLts X) c as = some c') :
    run (silentLts X) c.quiet (erased X c as) = some c'.quiet ∧
      operations (silentLts X) c.quiet (erased X c as) = operations (instanceLts X) c as := by
  induction as generalizing c with
  | nil =>
    cases h
    exact ⟨rfl, rfl⟩
  | cons a as ih =>
    simp only [run] at h
    cases hstep : (instanceLts X).step c a with
    | none => simp [hstep] at h
    | some c₁ =>
      rw [hstep, Option.bind_some] at h
      obtain ⟨hrun, hop⟩ := ih (instance_sorted hstep hs) h
      have hq := quiet_step hs hstep
      simp only [erased, operations, hstep]
      split at hq
      · next hf =>
        rw [if_pos hf, hq.2, List.nil_append, ← hq.1]
        exact ⟨hrun, hop⟩
      · next hf =>
        rw [if_neg hf]
        simp only [run, operations, hq.1, Option.bind_some, hq.2]
        exact ⟨hrun, by rw [hop]⟩

/-- **Two runs.** Where they differ only in what was printed, they perform the same operations. -/
theorem quiet_runs {c₁ c₁' c₂ c₂' : Instance} {as₁ as₂ : List InstanceLabel} (hs₁ : c₁.task.pc.Sorted)
    (hs₂ : c₂.task.pc.Sorted) (hc : c₁.quiet = c₂.quiet) (h₁ : run (instanceLts X) c₁ as₁ = some c₁')
    (h₂ : run (instanceLts X) c₂ as₂ = some c₂') (he : erased X c₁ as₁ = erased X c₂ as₂) :
    c₁'.quiet = c₂'.quiet ∧ operations (instanceLts X) c₁ as₁ = operations (instanceLts X) c₂ as₂ := by
  obtain ⟨hrun₁, hop₁⟩ := quiet_run hs₁ h₁
  obtain ⟨hrun₂, hop₂⟩ := quiet_run hs₂ h₂
  rw [hc, he, hrun₂] at hrun₁
  rw [hc, he, hop₂] at hop₁
  exact ⟨(Option.some.inj hrun₁).symm, hop₁.symm⟩

theorem init_sorted (h : (instanceLts X).init c) : c.task.pc.Sorted := by
  obtain ⟨run, hrun, -⟩ := h
  rw [hrun]
  intro frame after hpc
  cases hpc

end

/-! ## Replay -/

def Answer.quiet (a : Answer) : Answer := { a with invocation := a.invocation.quiet }

def Replayed.quiet (r : Replayed) : Replayed := { r with frames := lifecycle r.frames }

def Replay.quiet (r : Replay) : Replay := { r with result := r.result.quiet }

/-- The operations of one turn of the loop. -/
def replayOperation (entry : JournalEntry) (answer : Answer) (r : Replay) : List Operation :=
  match r.effects with
  | .emitStatus state reason :: _ => [.send (statusFrame entry.instanceId state reason entry.pluginDigest answer.now)]
  | .invoke command phase :: _ => [.invoke command phase]
  | .removeJournal :: _ => [.removeJournal answer.error]
  | .markTainted reason :: _ =>
    let record : TaintRecord := ⟨reason, answer.now, entry.instanceId⟩
    [.markTainted record answer.error,
      .send (taintStatusFrame ((r.result.mark record answer.error).taint.or (some record)) answer.now)]
  | _ => []

section
variable (X : Ext) (timeoutSecs : UInt64) (entry : JournalEntry)

/-- The operations of the loop, turn by turn as `replayLoop`. -/
def replayOperations (env : Nat → Answer) : Nat → Replay → List Operation
  | 0, _ => []
  | fuel + 1, r =>
    match replayTurn X timeoutSecs entry (env fuel) r with
    | none => []
    | some r' => replayOperation entry (env fuel) r ++ replayOperations env fuel r'

variable {X timeoutSecs entry}

theorem lifecycle_append (xs ys : List AgentMessage) : lifecycle (xs ++ ys) = lifecycle xs ++ lifecycle ys :=
  List.filter_append ..

theorem lifecycle_telemetry (lines : List Telemetry) (id : String) (now : Int) :
    lifecycle (lines.filterMap fun line => line.frame X id now) = [] := by
  refine List.filter_eq_nil_iff.2 fun frame hm => ?_
  obtain ⟨line, -, hf⟩ := List.mem_filterMap.1 hm
  simp [Telemetry.frame_telemetry hf]

theorem Replayed.mark_quiet (r : Replayed) (record : TaintRecord) (error : Option String) :
    (r.mark record error).quiet = r.quiet.mark record error := by
  cases ht : r.taint <;> cases error <;> simp [Replayed.mark, Replayed.quiet, ht]

theorem replayEffect_quiet (answer : Answer) (r : Replay) (effect : Effect) :
    (replayEffect X timeoutSecs entry answer r effect).quiet =
      replayEffect X timeoutSecs entry answer.quiet r.quiet effect := by
  cases effect with
  | emitStatus state reason =>
    simp only [replayEffect, Replay.quiet, Replayed.quiet, lifecycle_append]
    rfl
  | invoke command phase =>
    simp only [replayEffect, replayInvoke, Answer.quiet]
    cases replayGate entry.pluginDigest answer.resolved with
    | error reason => simp [Replay.quiet, Replayed.quiet]
    | ok plugin =>
      simp only [Replay.quiet, Replayed.quiet, lifecycle_append, lifecycle_telemetry]
      rfl
  | writeJournal => rfl
  | removeJournal =>
    simp only [replayEffect, Answer.quiet]
    cases answer.error <;> rfl
  | markTainted reason =>
    simp only [replayEffect, Answer.quiet, Replay.quiet]
    rw [← Replayed.mark_quiet]
    simp only [Replayed.quiet, lifecycle_append]
    congr 3
    simp [lifecycle, taintStatusFrame_quiet]

theorem replayTurn_quiet (answer : Answer) (r : Replay) :
    replayTurn X timeoutSecs entry answer.quiet r.quiet =
      (replayTurn X timeoutSecs entry answer r).map Replay.quiet := by
  unfold replayTurn
  have he : r.quiet.effects = r.effects := rfl
  have hq : r.quiet.queue = r.queue := rfl
  rw [he, hq]
  cases r.effects with
  | cons effect rest =>
    simp only [Option.map_some, replayEffect_quiet]
    rfl
  | nil => cases r.queue <;> rfl

theorem replayOperation_quiet (answer : Answer) (r : Replay) :
    replayOperation entry answer.quiet r.quiet = replayOperation entry answer r := by
  unfold replayOperation
  have he : r.quiet.effects = r.effects := rfl
  have hm : ∀ record error, (r.quiet.result.mark record error).taint = (r.result.mark record error).taint :=
    fun record error => (congrArg Replayed.taint (Replayed.mark_quiet r.result record error)).symm
  rw [he]
  simp only [hm]
  rfl

/-- **Replay.** Without what was printed, the loop is the loop of the silent plugin, with the same operations. -/
theorem replayLoop_quiet (env : Nat → Answer) (fuel : Nat) (r : Replay) :
    (replayLoop X timeoutSecs entry env fuel r).quiet =
        replayLoop X timeoutSecs entry (fun i => (env i).quiet) fuel r.quiet ∧
      replayOperations X timeoutSecs entry env fuel r =
        replayOperations X timeoutSecs entry (fun i => (env i).quiet) fuel r.quiet := by
  induction fuel generalizing r with
  | zero => exact ⟨rfl, rfl⟩
  | succ fuel ih =>
    simp only [replayLoop, replayOperations, replayTurn_quiet, replayOperation_quiet]
    cases replayTurn X timeoutSecs entry (env fuel) r with
    | none => exact ⟨rfl, rfl⟩
    | some r' =>
      obtain ⟨h1, h2⟩ := ih r'
      exact ⟨h1, by simp only [Option.map_some, h2]⟩

/-- The operations of `replayEntry`. -/
def replayEntryOperations (X : Ext) (timeoutSecs : UInt64) (entry : JournalEntry) (now : Int) (env : Nat → Answer)
    (result : Replayed) : List Operation :=
  let (state, effects) := State.replayRecovery (replayOutcome now entry) "recovered after agent restart"
  replayOperations X timeoutSecs entry env REPLAY_TURNS { state, queue := [], effects, result }

/-- Two replays that differ only in what was printed. -/
theorem replayEntry_quiet {now : Int} {env₁ env₂ : Nat → Answer} {result : Replayed}
    (henv : ∀ i, (env₁ i).quiet = (env₂ i).quiet) :
    (replayEntry X timeoutSecs entry now env₁ result).quiet = (replayEntry X timeoutSecs entry now env₂ result).quiet ∧
      replayEntryOperations X timeoutSecs entry now env₁ result =
        replayEntryOperations X timeoutSecs entry now env₂ result := by
  have hsame : (fun i => (env₁ i).quiet) = fun i => (env₂ i).quiet := funext henv
  unfold replayEntry replayEntryOperations
  simp only [State.replayRecovery]
  constructor
  · rw [(replayLoop_quiet env₁ _ _).1, (replayLoop_quiet env₂ _ _).1, hsame]
  · rw [(replayLoop_quiet env₁ _ _).2, (replayLoop_quiet env₂ _ _).2, hsame]

end

end FaultForge.Agent
