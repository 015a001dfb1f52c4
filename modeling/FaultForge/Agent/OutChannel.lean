import FaultForge.Agent.Supervisor

/-!
# Recovery and the outbound channel

Every status and every telemetry line of every instance goes through one channel of `OUT_CAPACITY` frames that only a
session empties (`send_out` supervisor.rs:337, session.rs:136). A stopped instance waits for the plugin and the disk
only, never for the master, except in a send: `stepInstance_enabled` says exactly when its task can move, and
`recovery_free` that all of them can exactly while the channel has room or none of them is at a send.
-/
namespace FaultForge.Agent

open Lts

/-- A stop has been taken: recorded behind a call in flight, or acted on. -/
def State.stopped : State → Bool
  | .preflightInstall stop | .preflightRuntime stop | .writingJournal stop | .injecting stop => stop.isSome
  | .recovering _ | .done | .aborted | .error => true
  | .pending | .active => false

def Task.AtSend (t : Task) : Prop := ∃ frame after, t.pc = .send frame after

/-- The instance can make a step of its own: nothing is taken from the channel first. -/
def Supervisor.CanStep (X : Ext) (a : Supervisor) (id : String) : Prop :=
  ∃ choice a', agentStep X a (.task id choice) = some a'

/-- An instance between its stop and the end of its recovery. -/
def Supervisor.Stopping (a : Supervisor) (id : String) (t : Task) : Prop :=
  a.instances.lookup id = some t ∧ t.state.stopped ∧ t.pc ≠ .finished

/-- Recovery does not need the master. -/
def Supervisor.RecoveryFree (X : Ext) (a : Supervisor) : Prop := ∀ id t, a.Stopping id t → a.CanStep X id

def Supervisor.HasRoom (a : Supervisor) : Prop := a.ctx.out.length < OUT_CAPACITY

/-! ## When a task can move -/

theorem trySend_room {ctx : Ctx} (frame : AgentMessage) (h : ctx.out.length < OUT_CAPACITY) :
    trySend ctx frame = some { ctx with out := ctx.out ++ [frame] } := by
  unfold trySend
  rw [if_pos h]

/-- Every effect has an answer of the environment that performs it. -/
theorem perform_enabled (ctx : Ctx) (t : Task) (rest : List Effect) (effect : Effect) :
    ∃ choice, (perform ctx t rest effect choice).isSome := by
  cases effect with
  | emitStatus | invoke => exact ⟨.go, rfl⟩
  | writeJournal | removeJournal | markTainted => exact ⟨.io none, rfl⟩

theorem taskStep_enabled (X : Ext) (ctx : Ctx) (t : Task) :
    (∃ choice, (taskStep X ctx t choice).isSome) ↔
      t.pc ≠ .finished ∧ (t.AtSend → ctx.out.length < OUT_CAPACITY) := by
  constructor
  · rintro ⟨choice, h⟩
    obtain ⟨⟨ctx', t', obs⟩, hstep⟩ := Option.isSome_iff_exists.1 h
    refine ⟨fun hpc => ?_, fun ⟨frame, after, hpc⟩ => ?_⟩
    · simp [taskStep, hpc] at hstep
    · cases choice <;> simp only [taskStep, hpc] at hstep
      case go =>
        obtain ⟨ctx₁, hsend, -⟩ := Option.map_eq_some_iff.1 hstep
        exact (trySend_some hsend).1
      all_goals cases hstep
  · rintro ⟨hfin, hroom⟩
    cases hpc : t.pc with
    | finished => exact absurd hpc hfin
    | start => exact ⟨.go, by simp [taskStep, hpc]⟩
    | send frame after => exact ⟨.go, by simp [taskStep, hpc, trySend_room frame (hroom ⟨frame, after, hpc⟩)]⟩
    | setup => exact ⟨.joinError "", by simp [taskStep, hpc]⟩
    | verify => exact ⟨.joinError "", by simp [taskStep, hpc]⟩
    | running => exact ⟨.joinError "", by simp [taskStep, hpc]⟩
    | armed => exact ⟨.changed, by simp [taskStep, hpc]⟩
    | reread => exact ⟨.go, by simp [taskStep, hpc]⟩
    | forward rest event =>
      refine ⟨.go, ?_⟩
      cases rest with
      | nil => simp [taskStep, hpc]
      | cons line rest =>
        simp only [taskStep, hpc]
        split <;> rfl
    | waiting =>
      refine ⟨.go, ?_⟩
      simp only [taskStep, hpc]
      split <;> rfl
    | loop =>
      cases heff : t.effects with
      | cons effect rest =>
        obtain ⟨choice, h⟩ := perform_enabled ctx t rest effect
        exact ⟨choice, by simp only [taskStep, hpc, heff]; exact h⟩
      | nil =>
        refine ⟨.go, ?_⟩
        simp only [taskStep, hpc, heff]
        split
        · rfl
        · split
          · rfl
          · split <;> rfl

theorem stepInstance_enabled {X : Ext} {a : Supervisor} {id : String} {t : Task} (ht : a.Stopping id t) :
    a.CanStep X id ↔ (t.AtSend → a.HasRoom) := by
  obtain ⟨hlook, -, hfin⟩ := ht
  have hstep : ∀ choice, (agentStep X a (.task id choice)).isSome = (taskStep X a.ctx t choice).isSome := by
    intro choice
    simp only [agentStep, stepInstance, hlook, Option.isSome_map]
  have hcan : a.CanStep X id ↔ ∃ choice, (taskStep X a.ctx t choice).isSome := by
    unfold Supervisor.CanStep
    simp only [← hstep, Option.isSome_iff_exists]
  rw [hcan, taskStep_enabled]
  exact ⟨fun h => h.2, fun h => ⟨hfin, h⟩⟩

/-! ## How full the channel can be -/

theorem TaskStep.out_length {X : Ext} {ctx ctx' : Ctx} {t t' : Task} {obs : List Obs}
    (h : TaskStep X ctx t ctx' t' obs) :
    ctx'.out.length = ctx.out.length ∨ t.AtSend ∧ ctx'.out.length = ctx.out.length + 1 := by
  cases h with
  | send hpc => exact .inr ⟨⟨_, _, hpc⟩, by simp⟩
  | mark error =>
    unfold Ctx.mark
    split <;> exact .inl rfl
  | _ => exact .inl rfl

theorem clearStep_out_length {ctx ctx' : Ctx} {c c' : ClearTask} {choice : Choice}
    (h : clearStep ctx c choice = some (ctx', c')) :
    ctx'.out.length = ctx.out.length ∨ (∃ frame, c = .send frame) ∧ ctx'.out.length = ctx.out.length + 1 := by
  unfold clearStep at h
  split at h
  case h_5 =>
    obtain ⟨ctx₁, hsend, he⟩ := Option.map_eq_some_iff.1 h
    obtain ⟨-, rfl⟩ := trySend_some hsend
    cases he
    exact .inr ⟨⟨_, rfl⟩, by simp⟩
  all_goals first
    | (cases h; done)
    | (obtain ⟨rfl, -⟩ := Prod.mk.inj (Option.some.inj h); exact .inl rfl)

/-- No send completes into the last free place of the channel. -/
def LeavesRoom (a : Supervisor) : AgentLabel → Prop
  | .task id _ => ∀ t, a.instances.lookup id = some t → t.AtSend → a.ctx.out.length + 1 < OUT_CAPACITY
  | .clear i _ => ∀ frame, a.clears[i]? = some (.send frame) → a.ctx.out.length + 1 < OUT_CAPACITY
  | .frame _ | .drain | .conn _ | .tick _ => True

theorem agentStep_room {X : Ext} {a a' : Supervisor} {label : AgentLabel} (h : agentStep X a label = some a')
    (ha : a.HasRoom) (hg : LeavesRoom a label) : a'.HasRoom := by
  unfold Supervisor.HasRoom at *
  cases label with
  | frame f =>
    obtain rfl := Option.some.inj h
    rw [dispatch_ctx]
    exact ha
  | task id choice =>
    obtain ⟨t, ctx, t', obs, ht, hstep, rfl⟩ := stepInstance_some h
    rcases (taskStep_cases hstep).out_length with he | ⟨hsend, he⟩
    · rw [he]
      exact ha
    · rw [he]
      exact hg t ht hsend
  | clear i choice =>
    obtain ⟨c, ctx, c', hc, hstep, rfl⟩ := stepClear_some h
    rcases clearStep_out_length hstep with he | ⟨⟨frame, rfl⟩, he⟩
    · rw [he]
      exact ha
    · rw [he]
      exact hg frame hc
  | drain =>
    simp only [agentStep] at h
    split at h
    next => cases h
    next frame out hout =>
      obtain rfl := Option.some.inj h
      rw [hout, List.length_cons] at ha
      exact Nat.lt_of_succ_lt ha
  | conn | tick => obtain rfl := Option.some.inj h; exact ha

/-! ## The law -/

/-- **Recovery needs room, and nothing else.** In every reachable state all stopped instances can move exactly when
the channel has room or none of them is at a send; so they always can in a run whose sends leave a place free. -/
theorem recovery_free (X : Ext) :
    (∀ a, Reach (agentLts X) a → (a.RecoveryFree X ↔ a.HasRoom ∨ ∀ id t, a.Stopping id t → ¬ t.AtSend)) ∧
    (∀ a, ReachIf (agentLts X) LeavesRoom a → a.RecoveryFree X) := by
  refine ⟨fun a _ => ⟨fun h => ?_, fun h id t ht => ?_⟩, fun a h => ?_⟩
  · by_cases hroom : a.HasRoom
    · exact .inl hroom
    · exact .inr fun id t ht hsend => hroom ((stepInstance_enabled ht).1 (h id t ht) hsend)
  · refine (stepInstance_enabled ht).2 fun hsend => ?_
    rcases h with hroom | hnone
    · exact hroom
    · exact absurd hsend (hnone id t ht)
  · have hroom : a.HasRoom := by
      refine h.inv (I := fun _ => True) (P := Supervisor.HasRoom) (fun _ _ => trivial) ?_ ?_
      · rintro a ⟨b, rfl⟩
        show (0 : Nat) < OUT_CAPACITY
        decide
      · exact fun a label a' _ ha hg hs => agentStep_room hs ha hg
    exact fun id t ht => (stepInstance_enabled ht).2 fun _ => hroom

/-! ## A full channel -/

section
variable {X : Ext} {a : Supervisor} {id : String} {t : Task}

theorem stepInstance_go (ctx : Ctx) (t' : Task) (ht : a.instances.lookup id = some t)
    (hstep : taskStep X a.ctx t .go = some (ctx, t', [])) :
    (agentLts X).step a (.task id .go) = some { a with ctx, instances := a.instances.insert id t' } := by
  simp [agentLts, agentStep, stepInstance, ht, hstep]

def chatter (n : Nat) (line : String) : List Telemetry := List.replicate n (.raw line)

/-- Telemetry of `n` lines fills `n` places. -/
theorem forward_lines {line : String} {event : Event} {n m : Nat} (h : Reach (agentLts X) a)
    (ht : a.instances.lookup id = some t) (hpc : t.pc = .forward (chatter (n + m) line) event)
    (hroom : a.ctx.out.length + n ≤ OUT_CAPACITY) :
    ∃ a' t', Reach (agentLts X) a' ∧ a'.instances.lookup id = some t' ∧ t'.state = t.state ∧
      t'.pc = .forward (chatter m line) event ∧ a'.ctx.out.length = a.ctx.out.length + n ∧
      a'.ctx.conn = a.ctx.conn := by
  induction n generalizing a t with
  | zero => exact ⟨a, t, h, ht, rfl, by rw [hpc, Nat.zero_add], rfl, rfl⟩
  | succ n ih =>
    rw [Nat.succ_add, chatter, List.replicate_succ, ← chatter] at hpc
    let t₁ : Task := { t with pc := .send (.faultEvent t.id line) (.forward (chatter (n + m) line) event) }
    let t₂ : Task := { t with pc := .forward (chatter (n + m) line) event }
    let a₁ : Supervisor := { a with instances := a.instances.insert id t₁ }
    let ctx₂ : Ctx := { a.ctx with out := a.ctx.out ++ [.faultEvent t.id line] }
    let a₂ : Supervisor := { a₁ with ctx := ctx₂, instances := a₁.instances.insert id t₂ }
    have h₁ : Reach (agentLts X) a₁ :=
      .step h (stepInstance_go a.ctx t₁ ht (by simp [taskStep, hpc, Telemetry.frame, t₁]))
    have hlt : a.ctx.out.length < OUT_CAPACITY := by omega
    have h₂ : Reach (agentLts X) a₂ :=
      .step h₁ (stepInstance_go ctx₂ t₂ (AList.lookup_insert _)
        (by simp [taskStep, t₁, a₁, trySend_room _ hlt, ctx₂, t₂, After.pc]))
    have hlen : a₂.ctx.out.length = a.ctx.out.length + 1 := by simp [a₂, ctx₂]
    obtain ⟨a', t', hr, hl, hst, hpc', hout, hconn⟩ := ih h₂ (AList.lookup_insert _) rfl (by omega)
    exact ⟨a', t', hr, hl, hst, hpc', by omega, hconn⟩

end

def chattyAbort : Invocation := ⟨List.replicate 300 (.event "line"), "", .code 0⟩

def abortChoices : List Choice := [.go, .go, .go, .go, .resolved (.ok samplePlugin), .exit chattyAbort]

/-- A fault becomes active, the session is lost for good, the instance self-aborts, and `abort` prints 300 lines. -/
def lostRun : List AgentLabel :=
  [.conn .connected, .frame (.runFault sampleRun)] ++ activeChoices.map (.task sampleRun.instanceId) ++
    [.conn (.lost 1000), .tick 40000] ++ abortChoices.map (.task sampleRun.instanceId)

theorem lostRun_reach :
    ∃ a t, Reach (agentLts plainExt) a ∧ a.instances.lookup sampleRun.instanceId = some t ∧ t.state.stopped ∧
      t.pc = .forward (chatter (251 + 49) "line") (.commandFinished .abort .success) ∧ a.ctx.out.length = 5 ∧
      a.ctx.conn = .lost 1000 := by
  let p : Supervisor → Bool := fun a => (a.instances.lookup sampleRun.instanceId).any fun t =>
    t.state.stopped && decide (t.pc = .forward (chatter (251 + 49) "line") (.commandFinished .abort .success)) &&
      decide (a.ctx.out.length = 5) && decide (a.ctx.conn = .lost 1000)
  obtain ⟨a, ha, hp⟩ := reach_of_run p (L := agentLts plainExt) (s := .boot plainExt sampleBoot) ⟨sampleBoot, rfl⟩
    lostRun (by decide +kernel)
  obtain ⟨t, ht, hp⟩ := (Option.any_eq_true _ _).1 hp
  simp only [Bool.and_eq_true, decide_eq_true_eq] at hp
  obtain ⟨⟨⟨hstop, hpc⟩, hout⟩, hconn⟩ := hp
  exact ⟨a, t, ha, ht, hstop, hpc, hout, hconn⟩

/-- With the master away and five frames buffered, the recovery goes on. -/
theorem recovery_free_lost :
    ∃ (a : Supervisor) (t : Task), a.Stopping sampleRun.instanceId t ∧ a.ctx.conn = .lost 1000 ∧
      a.RecoveryFree plainExt := by
  obtain ⟨a, t, ha, ht, hstop, hpc, hout, hconn⟩ := lostRun_reach
  refine ⟨a, t, ⟨ht, hstop, by simp [hpc]⟩, hconn, ((recovery_free plainExt).1 a ha).2 (.inl ?_)⟩
  unfold Supervisor.HasRoom
  rw [hout]
  decide

/-- The master is away, the channel is full, and the recovery of a stopped instance cannot go on. -/
theorem recovery_blocked :
    ∃ a, Reach (agentLts plainExt) a ∧ (∃ since, a.ctx.conn = .lost since) ∧ ¬ a.RecoveryFree plainExt := by
  obtain ⟨a, t, ha, ht, hstop, hpc, hout, hconn⟩ := lostRun_reach
  obtain ⟨b, t₁, hb, ht₁, hst₁, hpc₁, hout₁, hconn₁⟩ := forward_lines ha ht hpc (by rw [hout]; decide)
  have hcons : chatter 49 "line" = .raw "line" :: chatter 48 "line" := rfl
  -- One more line: the task is now at a send that the channel has no place for.
  let t₂ : Task := { t₁ with
    pc := .send (.faultEvent t₁.id "line") (.forward (chatter 48 "line") (.commandFinished .abort .success)) }
  let c : Supervisor := { b with instances := b.instances.insert sampleRun.instanceId t₂ }
  have hc : Reach (agentLts plainExt) c :=
    .step hb (stepInstance_go b.ctx t₂ ht₁ (by simp [taskStep, hpc₁, hcons, Telemetry.frame, t₂]))
  have hstopping : c.Stopping sampleRun.instanceId t₂ :=
    ⟨AList.lookup_insert _, by rw [show t₂.state = t.state from hst₁]; exact hstop, by simp [t₂]⟩
  refine ⟨c, hc, ⟨1000, hconn₁.trans hconn⟩, fun hfree => ?_⟩
  have hroom : c.ctx.out.length < OUT_CAPACITY :=
    (stepInstance_enabled hstopping).1 (hfree _ _ hstopping) ⟨_, _, rfl⟩
  rw [show c.ctx.out.length = a.ctx.out.length + 251 from hout₁, hout] at hroom
  exact absurd hroom (by decide)

end FaultForge.Agent
