import FaultForge.Agent.Supervisor

/-!
# The session loop (session.rs:104-344)

`nodeLts` is the whole agent process: the supervisor with its tasks, and `run_agent`'s loop of session attempts. A send
on the request stream is accepted or rejected, in any pattern; the response stream delivers frames, stays silent or
ends, at any time.

| here | there |
| --- | --- |
| `Stage`, `SessionPc` | the points of `run_agent` and `run_session` between which other tasks run |
| `nextBackoff`, `interpretRegisterAck` | session.rs:90, 60 |
| `reportFrame` | `report_frame` supervisor.rs:267 |
| `Node.endSession` | the end of an attempt in `run_agent` session.rs:168-182 |
| `Node.keepFrame` | the failure branches of `send_frame`, `send_frame_keeping` session.rs:307, 330 |
| `sessionStep` | `run_session` session.rs:196 |
-/
namespace FaultForge.Agent

open Lts

/-! ## Frames and helpers -/

def nextBackoff (secs : Nat) : Nat := min (secs * 2) 30

def interpretRegisterAck (heartbeatIntervalSecs : UInt32) : Option UInt32 :=
  if heartbeatIntervalSecs = 0 then none else some heartbeatIntervalSecs

def liveStatus (nowMs : Int) (id : String) (view : InstanceView) : Option InstanceStatus :=
  if view.state.isTerminal then none else some ⟨id, toWireI32 view.state, nowMs, "", view.pluginDigest⟩

/-- The live instances, sorted by id. -/
def reportFrame (a : Supervisor) (nowMs : Int) : AgentMessage :=
  .instanceReport ((a.instances.entries.filterMap fun e => liveStatus nowMs e.1 e.2.view).mergeSort
    fun x y => decide (x.instanceId ≤ y.instanceId))

/-! ## The process -/

/-- Where `run_session` goes on. -/
inductive Stage
  | awaitAck
  | report
  | taint
  | startup
  | carry
  | pump
deriving DecidableEq, Repr

inductive SessionPc
  /-- Sleeping for the backoff. -/
  | idle
  /-- Connecting and opening the stream. -/
  | dialing
  /-- In a send on the request stream; `keep` for `send_frame_keeping`. -/
  | sending (frame : AgentMessage) (keep : Bool) (next : Stage)
  | at (stage : Stage)
  | stopped
deriving DecidableEq, Repr

structure Node where
  agent : Supervisor
  hostname : String
  pc : SessionPc
  backoffSecs : Nat
  startup : List AgentMessage
  carry : Option AgentMessage
  /-- `now_ms` of the session, read after `RegisterAck`. -/
  registeredMs : Int
  /-- Every frame a request stream has accepted, oldest first. -/
  sent : List AgentMessage
  /-- When the last frame from the master was read, for the statements only. -/
  lastFrame : Option Int
  /-- When the last registered session ended (or the process started); `none` while one is registered. For the
  statements only. -/
  lostAt : Option Int

/-- The session has read its `RegisterAck`. -/
def SessionPc.registered : SessionPc → Bool
  | .idle | .dialing | .stopped | .at .awaitAck | .sending _ _ .awaitAck => false
  | .at _ | .sending .. => true

def Node.setConn (n : Node) (state : ConnState) : Node :=
  { n with agent := { n.agent with ctx := { n.agent.ctx with conn := state } } }

/-- An attempt has ended: the loss instant is published only if the connectivity was `Connected`. -/
def Node.endSession (n : Node) : Node :=
  let lostAt := if n.pc.registered then some n.agent.ctx.now else n.lostAt
  let n := if n.agent.ctx.conn = .connected then n.setConn (.lost n.agent.ctx.now) else n
  { n with pc := .idle, lostAt }

def AgentMessage.cheap : AgentMessage → Bool
  | .heartbeat | .register _ => true
  | _ => false

/-- A rejected frame: back to the startup queue, or carried to the next session unless it is cheap to lose. -/
def Node.keepFrame (n : Node) (frame : AgentMessage) (keep : Bool) : Node :=
  if keep then { n with startup := frame :: n.startup }
  else if AgentMessage.cheap frame then n
  else { n with carry := some frame }

def Node.received (n : Node) : Node := { n with lastFrame := some n.agent.ctx.now }

def Node.register (n : Node) : Node :=
  { n.setConn .connected with pc := .at .report, backoffSecs := 1, registeredMs := n.agent.ctx.now, lostAt := none }

inductive SessionLabel
  /-- The backoff is over. -/
  | wake
  | opened
  /-- The master address is not a URI. -/
  | invalidUri
  /-- The stream ends or fails, or cannot be opened. -/
  | ended
  | accept
  | reject
  | recv (f : ServerMessage)
  /-- The heartbeat interval ticks. -/
  | beat
  /-- `out_rx.recv()` is ready. -/
  | take
  | go

def sessionStep (n : Node) (label : SessionLabel) : Option Node :=
  match n.pc, label with
  | .idle, .wake => some { n with pc := .dialing, backoffSecs := nextBackoff n.backoffSecs }
  | .dialing, .invalidUri => some { n with pc := .stopped }
  | .dialing, .ended => some n.endSession
  | .dialing, .opened => some { n with pc := .sending (.register n.hostname) false .awaitAck }
  | .sending frame _ next, .accept => some { n with pc := .at next, sent := n.sent ++ [frame] }
  | .sending frame keep _, .reject => some (n.keepFrame frame keep).endSession
  | .at .awaitAck, .recv (.registerAck _ interval) =>
    match interpretRegisterAck interval with
    | none => some n.received.endSession
    | some _ => some n.received.register
  | .at .awaitAck, .recv _ => some n.received
  | .at .awaitAck, .ended => some n.endSession
  | .at .report, .go => some { n with pc := .sending (reportFrame n.agent n.registeredMs) false .taint }
  | .at .taint, .go =>
    some { n with pc := .sending (taintStatusFrame n.agent.ctx.taint n.registeredMs) false .startup }
  | .at .startup, .go =>
    match n.startup with
    | [] => some { n with pc := .at .carry }
    | frame :: startup => some { n with startup, pc := .sending frame true .startup }
  | .at .carry, .go =>
    match n.carry with
    | none => some { n with pc := .at .pump }
    | some frame => some { n with carry := none, pc := .sending frame false .pump }
  | .at .pump, .recv f => some { n.received with agent := dispatch n.agent f }
  | .at .pump, .ended => some n.endSession
  | .at .pump, .beat => some { n with pc := .sending .heartbeat false .pump }
  | .at .pump, .take =>
    match n.agent.ctx.out with
    | [] => none
    | frame :: out =>
      some { n with agent := { n.agent with ctx := { n.agent.ctx with out } }, pc := .sending frame false .pump }
  | _, _ => none

inductive NodeLabel
  | task (id : String) (choice : Choice)
  | clear (i : Nat) (choice : Choice)
  | tick (now : Int)
  | session (label : SessionLabel)

def nodeStep (X : Ext) (n : Node) : NodeLabel → Option Node
  | .task id choice => (stepInstance X n.agent id choice).map fun agent => { n with agent }
  | .clear i choice => (stepClear n.agent i choice).map fun agent => { n with agent }
  | .tick now => some { n with agent := { n.agent with ctx := { n.agent.ctx with now } } }
  | .session label => sessionStep n label

/-- `run_agent` up to its loop. -/
def Node.boot (X : Ext) (b : Boot) (hostname : String) : Node where
  agent := .boot X b
  hostname := hostname
  pc := .dialing
  backoffSecs := 1
  startup := (b.replay X).frames
  carry := none
  registeredMs := b.now
  sent := []
  lastFrame := none
  lostAt := some b.now

def nodeLts (X : Ext) : System Node NodeLabel where
  init n := ∃ b hostname, n = .boot X b hostname
  step := nodeStep X

/-! ## What a session does to the agent -/

/-- The connectivity tells whether a session is registered, and since when none is. -/
def Node.ConnExact (n : Node) : Prop :=
  n.lostAt.isNone = n.pc.registered ∧
    n.agent.ctx.conn = match n.lostAt with
      | none => .connected
      | some since => .lost since

/-- A step of the session loop that neither registers nor ends an attempt. -/
structure Node.Quiet (n n' : Node) : Prop where
  registered : n'.pc.registered = n.pc.registered
  lostAt : n'.lostAt = n.lostAt
  conn : n'.agent.ctx.conn = n.agent.ctx.conn

theorem Node.Quiet.connExact {n n' : Node} (h : n.Quiet n') (hn : n.ConnExact) : n'.ConnExact := by
  obtain ⟨hreg, hconn⟩ := hn
  exact ⟨by rw [h.lostAt, h.registered]; exact hreg, by rw [h.lostAt, h.conn]; exact hconn⟩

theorem Node.ConnExact.agent {n : Node} (hn : n.ConnExact) {agent : Supervisor}
    (h : agent.ctx.conn = n.agent.ctx.conn) : Node.ConnExact { n with agent } :=
  ⟨hn.1, h.trans hn.2⟩

@[simp] theorem Node.endSession_pc (n : Node) : n.endSession.pc = .idle := rfl

@[simp] theorem Node.endSession_lostAt (n : Node) :
    n.endSession.lostAt = if n.pc.registered then some n.agent.ctx.now else n.lostAt := rfl

@[simp] theorem Node.endSession_conn (n : Node) :
    n.endSession.agent.ctx.conn =
      if n.agent.ctx.conn = .connected then .lost n.agent.ctx.now else n.agent.ctx.conn := by
  unfold Node.endSession
  by_cases hc : n.agent.ctx.conn = .connected
  · simp only [hc, if_true]
    rfl
  · simp only [hc, if_false]

theorem Node.ConnExact.endSession {n : Node} (hn : n.ConnExact) : n.endSession.ConnExact := by
  obtain ⟨hreg, hconn⟩ := hn
  unfold Node.ConnExact
  rw [Node.endSession_lostAt, Node.endSession_conn, Node.endSession_pc, ← hreg]
  cases hl : n.lostAt with
  | none => simp [hconn, hl, SessionPc.registered]
  | some since => simp [hconn, hl, SessionPc.registered]

theorem Node.Quiet.refl (n : Node) : n.Quiet n := ⟨rfl, rfl, rfl⟩

theorem Node.keepFrame_quiet (n : Node) (frame : AgentMessage) (keep : Bool) : n.Quiet (n.keepFrame frame keep) := by
  unfold Node.keepFrame
  split
  · exact ⟨rfl, rfl, rfl⟩
  · split <;> exact ⟨rfl, rfl, rfl⟩

/-- **The inversion lemma of the session loop**, as far as the connectivity goes. -/
theorem sessionStep_conn {n n' : Node} {label : SessionLabel} (h : sessionStep n label = some n') :
    n.Quiet n' ∨ (∃ m, n.Quiet m ∧ n' = m.endSession) ∨
      (n'.pc.registered = true ∧ n'.lostAt = none ∧ n'.agent.ctx.conn = .connected) := by
  have quiet : ∀ {m : Node}, some m = some n' → n.Quiet m → n.Quiet n' := fun he hq => Option.some.inj he ▸ hq
  have ended : ∀ {m : Node}, some m.endSession = some n' → n.Quiet m → ∃ m, n.Quiet m ∧ n' = m.endSession :=
    fun he hq => ⟨_, hq, (Option.some.inj he).symm⟩
  unfold sessionStep at h
  split at h
  next hpc => exact .inl (quiet h ⟨by rw [hpc]; rfl, rfl, rfl⟩)
  next hpc => exact .inl (quiet h ⟨by rw [hpc]; rfl, rfl, rfl⟩)
  next => exact .inr (.inl (ended h (.refl n)))
  next hpc => exact .inl (quiet h ⟨by rw [hpc]; rfl, rfl, rfl⟩)
  next next hpc => exact .inl (quiet h ⟨by rw [hpc]; cases next <;> rfl, rfl, rfl⟩)
  next frame keep next hpc => exact .inr (.inl (ended h (n.keepFrame_quiet frame keep)))
  next interval hpc =>
    cases hi : interpretRegisterAck interval with
    | none => rw [hi] at h; exact .inr (.inl (ended h ⟨rfl, rfl, rfl⟩))
    | some secs => rw [hi] at h; exact .inr (.inr (Option.some.inj h ▸ ⟨rfl, rfl, rfl⟩))
  next => exact .inl (quiet h ⟨rfl, rfl, rfl⟩)
  next => exact .inr (.inl (ended h (.refl n)))
  next hpc => exact .inl (quiet h ⟨by rw [hpc]; rfl, rfl, rfl⟩)
  next hpc => exact .inl (quiet h ⟨by rw [hpc]; rfl, rfl, rfl⟩)
  next hpc => split at h <;> exact .inl (quiet h ⟨by rw [hpc]; rfl, rfl, rfl⟩)
  next hpc => split at h <;> exact .inl (quiet h ⟨by rw [hpc]; rfl, rfl, rfl⟩)
  next f hpc => exact .inl (quiet h ⟨rfl, rfl, by rw [dispatch_ctx]⟩)
  next => exact .inr (.inl (ended h (.refl n)))
  next hpc => exact .inl (quiet h ⟨by rw [hpc]; rfl, rfl, rfl⟩)
  next hpc =>
    split at h
    next => cases h
    next => exact .inl (quiet h ⟨by rw [hpc]; rfl, rfl, rfl⟩)
  next => cases h

theorem clearStep_conn {ctx ctx' : Ctx} {c c' : ClearTask} {choice : Choice}
    (h : clearStep ctx c choice = some (ctx', c')) : ctx'.conn = ctx.conn := by
  unfold clearStep at h
  split at h
  case h_5 =>
    obtain ⟨ctx₁, hsend, he⟩ := Option.map_eq_some_iff.1 h
    obtain ⟨-, rfl⟩ := trySend_some hsend
    cases he
    rfl
  all_goals cases h
  all_goals rfl

/-- **The connectivity signal is exact**: `Connected` while a session is registered, else `Lost` since the last
registered one ended. Attempts that fail before `RegisterAck` never move the loss instant. -/
theorem reach_connExact {X : Ext} {n : Node} (h : Reach (nodeLts X) n) : n.ConnExact := by
  refine h.inv (P := Node.ConnExact) ?_ ?_
  · rintro n ⟨b, hostname, rfl⟩
    exact ⟨rfl, rfl⟩
  · intro n label n' hn hs
    cases label with
    | session label =>
      rcases sessionStep_conn hs with hq | ⟨m, hq, rfl⟩ | ⟨hreg, hlost, hconn⟩
      · exact hq.connExact hn
      · exact (hq.connExact hn).endSession
      · exact ⟨by rw [hlost, hreg]; rfl, by rw [hlost]; exact hconn⟩
    | task id choice =>
      obtain ⟨a, ha, rfl⟩ := Option.map_eq_some_iff.1 hs
      obtain ⟨t, ctx, t', obs, -, hstep, rfl⟩ := stepInstance_some ha
      exact hn.agent (taskStep_cases hstep).conn_eq
    | clear i choice =>
      obtain ⟨a, ha, rfl⟩ := Option.map_eq_some_iff.1 hs
      obtain ⟨c, ctx, c', -, hstep, rfl⟩ := stepClear_some ha
      exact hn.agent (clearStep_conn hstep)
    | tick => obtain rfl := Option.some.inj hs; exact hn

/-! ## The process refines the agent -/

/-- What a step of the session loop does to the agent: nothing, or one step of `agentLts`. -/
inductive Node.Moves (X : Ext) (n : Node) (a : Supervisor) : Prop
  | still : a = n.agent → Moves X n a
  | step (label : AgentLabel) : agentStep X n.agent label = some a → Moves X n a

theorem Node.endSession_moves (X : Ext) (n : Node) : n.Moves X n.endSession.agent := by
  unfold Node.endSession
  by_cases hc : n.agent.ctx.conn = .connected
  · simp only [hc, if_true]
    exact .step (.conn (.lost n.agent.ctx.now)) rfl
  · simp only [hc, if_false]
    exact .still rfl

theorem Node.keepFrame_agent (n : Node) (frame : AgentMessage) (keep : Bool) :
    (n.keepFrame frame keep).agent = n.agent := by
  unfold Node.keepFrame
  split
  · rfl
  · split <;> rfl

theorem sessionStep_moves (X : Ext) {n n' : Node} {label : SessionLabel} (h : sessionStep n label = some n') :
    n.Moves X n'.agent := by
  have still : ∀ {m : Node}, some m = some n' → m.agent = n.agent → n.Moves X n'.agent :=
    fun he hm => Option.some.inj he ▸ .still hm
  have ended : ∀ {m : Node}, some m.endSession = some n' → m.agent = n.agent → n.Moves X n'.agent := fun {m} he hm => by
    obtain rfl := Option.some.inj he
    rcases m.endSession_moves X with hs | ⟨label, hs⟩
    · exact .still (hs.trans hm)
    · exact .step label (hm ▸ hs)
  unfold sessionStep at h
  split at h
  next => exact still h rfl
  next => exact still h rfl
  next => exact ended h rfl
  next => exact still h rfl
  next => exact still h rfl
  next frame keep next hpc => exact ended h (n.keepFrame_agent frame keep)
  next interval hpc =>
    cases hi : interpretRegisterAck interval with
    | none => rw [hi] at h; exact ended h rfl
    | some secs => rw [hi] at h; exact .step (.conn .connected) (Option.some.inj h ▸ rfl)
  next => exact still h rfl
  next => exact ended h rfl
  next => exact still h rfl
  next => exact still h rfl
  next => split at h <;> exact still h rfl
  next => split at h <;> exact still h rfl
  next f hpc => exact .step (.frame f) (Option.some.inj h ▸ rfl)
  next => exact ended h rfl
  next => exact still h rfl
  next =>
    split at h
    next => cases h
    next frame out hout => exact .step .drain (by obtain rfl := Option.some.inj h; simp [agentStep, hout])
  next => cases h

theorem reach_agent {X : Ext} {n : Node} (h : Reach (nodeLts X) n) : Reach (agentLts X) n.agent := by
  refine h.map (f := Node.agent) ?_ ?_
  · rintro n ⟨b, hostname, rfl⟩
    exact ⟨b, rfl⟩
  · intro n label n' _ hs
    cases label with
    | session label =>
      rcases sessionStep_moves X hs with he | ⟨label, he⟩
      · exact .inl he
      · exact .inr ⟨label, he⟩
    | task id choice =>
      obtain ⟨a, ha, rfl⟩ := Option.map_eq_some_iff.1 hs
      exact .inr ⟨.task id choice, ha⟩
    | clear i choice =>
      obtain ⟨a, ha, rfl⟩ := Option.map_eq_some_iff.1 hs
      exact .inr ⟨.clear i choice, ha⟩
    | tick now => obtain rfl := Option.some.inj hs; exact .inr ⟨.tick now, rfl⟩

/-! ## A sample process, for runs on fixed inputs -/

def sampleNode : Node := .boot plainExt sampleBoot "web-01"

def sessionLabels : List SessionLabel :=
  [.opened, .accept, .recv (.registerAck 1000 10), .go, .accept, .go, .accept, .go, .go, .recv (.runFault sampleRun)]

/-- A session registers and delivers one `RunFault` at 1000; the fault becomes active. -/
def activeRun : List NodeLabel :=
  sessionLabels.map .session ++ activeChoices.map (.task sampleRun.instanceId)

def failedAttempt : List SessionLabel := [.ended, .wake, .ended]

end FaultForge.Agent
