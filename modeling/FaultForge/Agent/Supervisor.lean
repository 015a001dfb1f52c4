import FaultForge.Agent.TaskShape
import FaultForge.Agent.Replay

/-!
# The supervisor and its instances (supervisor.rs:141-296)

`agentLts` is the whole agent below its session: frames from the master in any order, every step of every instance
task and of every `ClearTaint` task, and what the session does to the shared state (it takes frames from the outbound
channel, it publishes the connectivity). A run starts with the replay of an arbitrary journal.

| here | there |
| --- | --- |
| `ClearTask`, `clearStep` | the task of `handle_clear_taint` supervisor.rs:218 |
| `Supervisor` | supervisor.rs:151 with the tasks it has spawned |
| `handleRunFault`, `handleAbortFault` | supervisor.rs:179, 204 |
| `dispatch` | session.rs:356 |
| `Supervisor.boot` | `run_agent` session.rs:104-149 |
-/
namespace FaultForge.Agent

open Lts

/-! ## The agent -/

inductive ClearTask
  | clear
  | reread
  | send (frame : AgentMessage)
  | done
deriving DecidableEq, Repr

def clearFailed (reason : String) (now : Int) : AgentMessage := taintStatusFrame (some ⟨reason, now, ""⟩) now

def clearStep (ctx : Ctx) : ClearTask → Choice → Option (Ctx × ClearTask)
  | .clear, .io none => some ({ ctx with taint := none }, .reread)
  | .clear, .io (some e) => some (ctx, .send (clearFailed s!"taint clear failed: {e}" ctx.now))
  | .clear, .joinError e => some (ctx, .send (clearFailed s!"taint clear task failed: {e}" ctx.now))
  | .reread, .go => some (ctx, .send (taintStatusFrame ctx.taint ctx.now))
  | .send frame, .go => (trySend ctx frame).map fun ctx => (ctx, .done)
  | _, _ => none

structure Supervisor where
  ctx : Ctx
  /-- Terminal instances stay, so that a duplicate `RunFault` is recognised. -/
  instances : AList fun _ : String => Task
  clears : List ClearTask
  /-- The commands that the replay invoked, for the statements only. -/
  replayed : List (String × PluginCommand)
  /-- What the instance tasks have shown, newest first, for the statements only. -/
  log : List (String × Obs)

def handleRunFault (a : Supervisor) (run : RunFault) : Supervisor :=
  if validInstanceId run.instanceId = false then a
  else if (a.instances.lookup run.instanceId).isSome then a
  else { a with instances := a.instances.insert run.instanceId (.spawn run) }

/-- A task that has finished never reads its stop channel again. -/
def handleAbortFault (a : Supervisor) (instanceId : String) : Supervisor :=
  match a.instances.lookup instanceId with
  | some t => { a with instances := a.instances.insert instanceId { t with stopRx := t.stopRx ++ [.operatorAbort] } }
  | none => a

def dispatch (a : Supervisor) : ServerMessage → Supervisor
  | .runFault run => handleRunFault a run
  | .abortFault instanceId => handleAbortFault a instanceId
  | .clearTaint => { a with clears := a.clears ++ [.clear] }
  | .heartbeatAck _ => a
  | .registerAck .. => a

theorem dispatch_ctx (a : Supervisor) (f : ServerMessage) : (dispatch a f).ctx = a.ctx := by
  cases f with
  | runFault run =>
    simp only [dispatch, handleRunFault]
    split
    · rfl
    · split <;> rfl
  | abortFault id =>
    simp only [dispatch, handleAbortFault]
    split <;> rfl
  | clearTaint | heartbeatAck | registerAck => rfl

theorem dispatch_clears (a : Supervisor) {f : ServerMessage} (h : f ≠ .clearTaint) :
    (dispatch a f).clears = a.clears := by
  cases f with
  | runFault run =>
    simp only [dispatch, handleRunFault]
    split
    · rfl
    · split <;> rfl
  | abortFault id =>
    simp only [dispatch, handleAbortFault]
    split <;> rfl
  | clearTaint => exact absurd rfl h
  | heartbeatAck | registerAck => rfl

/-! ## Start -/

/-- What `run_agent` finds: the journal and the taint record on disk, the answers to the replay, its configuration. -/
structure Boot where
  replayNow : Int
  entries : Except String (List (Except String JournalEntry))
  env : Nat → Nat → Answer
  journal : AList fun _ : String => JournalEntry
  taint : Option TaintRecord
  lossThresholdSecs : UInt64
  invocationTimeoutSecs : UInt64
  /-- The clock when the channels are made. -/
  now : Int

def Boot.replay (X : Ext) (b : Boot) : Replayed :=
  replayJournal X b.invocationTimeoutSecs b.replayNow b.entries b.env b.journal b.taint

def Supervisor.boot (X : Ext) (b : Boot) : Supervisor where
  ctx := {
    journal := (b.replay X).journal
    taint := (b.replay X).taint
    out := []
    conn := .lost b.now
    lossThresholdSecs := b.lossThresholdSecs
    invocationTimeoutSecs := b.invocationTimeoutSecs
    now := b.now }
  instances := ∅
  clears := []
  replayed := (b.replay X).invoked
  log := []

/-! ## Steps -/

inductive AgentLabel
  | frame (f : ServerMessage)
  | task (id : String) (choice : Choice)
  | clear (i : Nat) (choice : Choice)
  /-- The session takes the oldest frame from the outbound channel. -/
  | drain
  | conn (state : ConnState)
  | tick (now : Int)

def stepInstance (X : Ext) (a : Supervisor) (id : String) (choice : Choice) : Option Supervisor :=
  match a.instances.lookup id with
  | none => none
  | some t => (taskStep X a.ctx t choice).map fun (ctx, t, obs) =>
      { a with ctx, instances := a.instances.insert id t, log := obs.map (fun o => (id, o)) ++ a.log }

def stepClear (a : Supervisor) (i : Nat) (choice : Choice) : Option Supervisor :=
  match a.clears[i]? with
  | none => none
  | some c => (clearStep a.ctx c choice).map fun (ctx, c) => { a with ctx, clears := a.clears.set i c }

def agentStep (X : Ext) (a : Supervisor) : AgentLabel → Option Supervisor
  | .frame f => some (dispatch a f)
  | .task id choice => stepInstance X a id choice
  | .clear i choice => stepClear a i choice
  | .drain => match a.ctx.out with
    | [] => none
    | _ :: out => some { a with ctx := { a.ctx with out } }
  | .conn state => some { a with ctx := { a.ctx with conn := state } }
  | .tick now => some { a with ctx := { a.ctx with now } }

def agentLts (X : Ext) : System Supervisor AgentLabel where
  init a := ∃ b, a = .boot X b
  step := agentStep X

/-- What happened to an instance, newest first. -/
def Supervisor.seen (a : Supervisor) (id : String) : List Obs := (a.log.filter (·.1 = id)).map (·.2)

def Supervisor.Knows (a : Supervisor) (id : String) : Prop := (a.instances.lookup id).isSome

/-- Every step of the agent, by what it does to the instances. -/
inductive AgentStep (X : Ext) (a : Supervisor) : Supervisor → Prop
  /-- No instance moves. -/
  | around (ctx : Ctx) (clears : List ClearTask) : AgentStep X a { a with ctx, clears }
  | spawn (run : RunFault) : a.instances.lookup run.instanceId = none →
      AgentStep X a { a with instances := a.instances.insert run.instanceId (.spawn run) }
  | abort {id : String} {t : Task} : a.instances.lookup id = some t →
      AgentStep X a
        { a with instances := a.instances.insert id { t with stopRx := t.stopRx ++ [.operatorAbort] } }
  | task {id : String} {t t' : Task} {ctx : Ctx} {obs : List Obs} :
      a.instances.lookup id = some t → TaskStep X a.ctx t ctx t' obs →
      AgentStep X a
        { a with ctx, instances := a.instances.insert id t', log := obs.map (fun o => (id, o)) ++ a.log }

theorem dispatch_cases (X : Ext) (a : Supervisor) (f : ServerMessage) : AgentStep X a (dispatch a f) := by
  cases f with
  | runFault run =>
    simp only [dispatch, handleRunFault]
    split
    · exact .around a.ctx a.clears
    · split
      next => exact .around a.ctx a.clears
      next hk => exact .spawn run (by simpa using hk)
  | abortFault id =>
    simp only [dispatch, handleAbortFault]
    split
    next t ht => exact .abort ht
    next => exact .around a.ctx a.clears
  | clearTaint => exact .around a.ctx _
  | heartbeatAck | registerAck => exact .around a.ctx a.clears

theorem stepInstance_some {X : Ext} {a a' : Supervisor} {id : String} {choice : Choice}
    (h : stepInstance X a id choice = some a') :
    ∃ t ctx t' obs, a.instances.lookup id = some t ∧ taskStep X a.ctx t choice = some (ctx, t', obs) ∧
      a' = { a with ctx, instances := a.instances.insert id t', log := obs.map (fun o => (id, o)) ++ a.log } := by
  unfold stepInstance at h
  split at h
  next => cases h
  next t ht =>
    obtain ⟨⟨ctx, t', obs⟩, hstep, rfl⟩ := Option.map_eq_some_iff.1 h
    exact ⟨t, ctx, t', obs, ht, hstep, rfl⟩

theorem stepClear_some {a a' : Supervisor} {i : Nat} {choice : Choice} (h : stepClear a i choice = some a') :
    ∃ c ctx c', a.clears[i]? = some c ∧ clearStep a.ctx c choice = some (ctx, c') ∧
      a' = { a with ctx, clears := a.clears.set i c' } := by
  unfold stepClear at h
  split at h
  next => cases h
  next c hc =>
    obtain ⟨⟨ctx, c'⟩, hstep, rfl⟩ := Option.map_eq_some_iff.1 h
    exact ⟨c, ctx, c', hc, hstep, rfl⟩

/-- **The inversion lemma of the agent.** -/
theorem agentStep_cases {X : Ext} {a a' : Supervisor} {label : AgentLabel} (h : agentStep X a label = some a') :
    AgentStep X a a' := by
  cases label with
  | frame f => obtain rfl := Option.some.inj h; exact dispatch_cases X a f
  | task id choice =>
    obtain ⟨t, ctx, t', obs, ht, hstep, rfl⟩ := stepInstance_some h
    exact .task ht (taskStep_cases hstep)
  | clear i choice =>
    obtain ⟨c, ctx, c', -, -, rfl⟩ := stepClear_some h
    exact .around ctx _
  | drain =>
    simp only [agentStep] at h
    split at h
    next => cases h
    next => obtain rfl := Option.some.inj h; exact .around _ a.clears
  | conn | tick => obtain rfl := Option.some.inj h; exact .around _ a.clears

/-! ## The invariant of the instances -/

theorem Supervisor.seen_log (a : Supervisor) (ctx : Ctx) (instances : AList fun _ : String => Task) (obs : List Obs)
    (id id' : String) :
    ({ a with ctx, instances, log := obs.map (fun o => (id, o)) ++ a.log } : Supervisor).seen id' =
      if id = id' then obs ++ a.seen id' else a.seen id' := by
  unfold Supervisor.seen
  by_cases h : id = id'
  · rw [if_pos h]
    simp [h, List.filter_map, Function.comp_def]
  · rw [if_neg h]
    simp [h, List.filter_map, Function.comp_def]

/-- What every instance keeps to itself: `P` of the task and of what it has shown. -/
def Supervisor.Each (P : List Obs → Task → Prop) (a : Supervisor) : Prop :=
  (∀ id t, a.instances.lookup id = some t → t.id = id ∧ P (a.seen id) t) ∧
  ∀ id, a.instances.lookup id = none → a.seen id = []

theorem Supervisor.Each.update {P : List Obs → Task → Prop} {a : Supervisor} (h : a.Each P) {id : String} {t' : Task}
    (ctx : Ctx) (obs : List Obs) (hid : t'.id = id) (hP : P (obs ++ a.seen id) t') :
    Supervisor.Each P
      { a with ctx, instances := a.instances.insert id t', log := obs.map (fun o => (id, o)) ++ a.log } := by
  constructor
  · intro id' t ht
    rw [Supervisor.seen_log]
    by_cases he : id = id'
    · subst he
      rw [AList.lookup_insert] at ht
      obtain rfl := Option.some.inj ht
      rw [if_pos rfl]
      exact ⟨hid, hP⟩
    · rw [AList.lookup_insert_ne (Ne.symm he)] at ht
      rw [if_neg he]
      exact h.1 id' t ht
  · intro id' ht
    rw [Supervisor.seen_log]
    by_cases he : id = id'
    · subst he
      rw [AList.lookup_insert] at ht
      cases ht
    · rw [AList.lookup_insert_ne (Ne.symm he)] at ht
      rw [if_neg he]
      exact h.2 id' ht

/-- **The invariant rule for instances**: what a new task has, and every task step and every abort request keeps,
holds of every instance of every reachable agent. -/
theorem reach_each {X : Ext} {P : List Obs → Task → Prop} (hspawn : ∀ run, P [] (.spawn run))
    (habort : ∀ seen t stopRx, P seen t → P seen { t with stopRx })
    (htask : ∀ seen ctx ctx' t t' obs, P seen t → TaskStep X ctx t ctx' t' obs → P (obs ++ seen) t')
    {a : Supervisor} (h : Reach (agentLts X) a) : a.Each P := by
  induction h with
  | init hi =>
    obtain ⟨b, rfl⟩ := hi
    exact ⟨fun id t ht => (by cases ht), fun _ _ => rfl⟩
  | @step a a' label _ hs ih =>
    cases agentStep_cases hs with
    | around ctx clears => exact ih
    | spawn run hnew =>
      refine ih.update a.ctx [] rfl ?_
      rw [ih.2 _ hnew]
      exact hspawn run
    | @abort id t ht =>
      obtain ⟨hid, hP⟩ := ih.1 id t ht
      exact ih.update a.ctx [] hid (habort _ _ _ hP)
    | @task id t t' ctx obs ht hstep =>
      obtain ⟨hid, hP⟩ := ih.1 id t ht
      exact ih.update ctx obs (hstep.id_eq.trans hid) (htask _ _ _ _ _ _ hP hstep)

/-! ## A sample agent, for runs on fixed inputs -/

/-- An empty journal and an untainted host. -/
def sampleBoot : Boot where
  replayNow := 1000
  entries := .ok []
  env _ _ := ⟨1000, .error "", ⟨[], "", .timedOut⟩, none⟩
  journal := ∅
  taint := none
  lossThresholdSecs := 30
  invocationTimeoutSecs := 10
  now := 1000

/-- From the `RunFault` to `wait_for_stop`. -/
def activeChoices : List Choice := injectChoices ++ [.exit ⟨[], "", .code 0⟩, .go, .go, .go, .go, .go]

end FaultForge.Agent
