import FaultForge.Agent.Quarantine
import FaultForge.Master.Record

/-!
# The taint on both sides (supervisor.rs:218-261, 672-693; dispatch.rs:282-292)

`mark_tainted` and `handle_clear_taint` change the record, read it again and enqueue what they have read (`mark_tainted`
its own record where it reads none), in three steps each. Another handler can come in between: then the frame in hand
differs from the disk, and when no handler is left to send a newer one the master keeps what it says
(`clear_overtakes_mark`). That is the only way the two sides come to differ (`agrees_unless_stale`).
-/
namespace FaultForge.System

open Lts Agent Master

/-! ## Both sides -/

structure TaintSystem where
  agent : Supervisor
  registry : Registry

/-- `handle_taint_status` (dispatch.rs:282), as far as the registry goes. -/
def receive (host : Hostname) (registry : Registry) : AgentMessage → Registry
  | .taintStatus tainted _ _ => setTaint registry host tainted
  | _ => registry

def flag (registry : Registry) (host : Hostname) : Bool :=
  match registry.lookup host with
  | some info => info.tainted
  | none => false

/-- A frame taken from the channel is delivered to the master. -/
def taintStep (X : Ext) (host : Hostname) (s : TaintSystem) (label : AgentLabel) : Option TaintSystem :=
  (agentStep X s.agent label).map fun agent =>
    { agent
      registry := match label with
        | .drain => (s.agent.ctx.out.head?.map (receive host s.registry)).getD s.registry
        | _ => s.registry }

/-- A run starts with a registered host and a flag that is right. -/
def taintLts (X : Ext) (host : Hostname) : System TaintSystem AgentLabel where
  init s := (agentLts X).init s.agent ∧ (s.registry.lookup host).isSome ∧
    flag s.registry host = s.agent.ctx.taint.isSome
  step := taintStep X host

/-! ## Handlers -/

/-- The task is in `mark_tainted`, after its write. -/
def marking (t : Task) : Bool :=
  match t.pc with
  | .reread .. => true
  | .send frame _ => isTaintStatus frame
  | _ => false

inductive Handler
  | mark (id : String)
  | clear (i : Nat)
deriving DecidableEq, Repr

/-- The handler is between its first step and the end of its send. -/
def Busy (a : Supervisor) : Handler → Prop
  | .mark id => ∃ t, a.instances.lookup id = some t ∧ marking t = true
  | .clear i => ∃ c, a.clears[i]? = some c ∧ c ≠ .done

def InProgress (a : Supervisor) : Prop := ∃ h, Busy a h

def handler : AgentLabel → Option Handler
  | .task id _ => some (.mark id)
  | .clear i _ => some (.clear i)
  | _ => none

/-- What the frame says that the handler of `label` is about to enqueue. -/
def inHand (a : Supervisor) : AgentLabel → Option Bool
  | .task id _ =>
    match (a.instances.lookup id).map Task.pc with
    | some (.send (.taintStatus tainted _ _) _) => some tainted
    | _ => none
  | .clear i _ =>
    match a.clears[i]? with
    | some (.send (.taintStatus tainted _ _)) => some tainted
    | _ => none
  | _ => none

/-- The only handler in progress enqueues a frame that says something else than the disk. -/
def Stale (a : Supervisor) (label : AgentLabel) : Prop :=
  ∃ tainted, inHand a label = some tainted ∧ tainted ≠ a.ctx.taint.isSome ∧
    ∀ h, Busy a h → some h = handler label

/-- The registry once every frame on the channel has been delivered. -/
def TaintSystem.settled (s : TaintSystem) (host : Hostname) : Registry :=
  s.agent.ctx.out.foldl (receive host) s.registry

/-- Once no handler is in progress and every frame has been delivered, the flag is the record. -/
def TaintSystem.Agrees (s : TaintSystem) (host : Hostname) : Prop :=
  ¬ InProgress s.agent → flag (s.settled host) host = s.agent.ctx.taint.isSome

/-- File operations succeed. -/
def filesWork (_ : TaintSystem) : AgentLabel → Bool
  | .task _ (.io (some _)) | .clear _ (.io (some _)) | .clear _ (.joinError _) => false
  | _ => true

/-! ## The registry -/

section
variable {host : Hostname} {r : Registry}

theorem receive_registered (h : (r.lookup host).isSome) (frame : AgentMessage) :
    ((receive host r frame).lookup host).isSome := by
  obtain ⟨info, hi⟩ := Option.isSome_iff_exists.1 h
  cases frame with
  | taintStatus tainted reason ts =>
    simp only [receive, setTaint, hi, AList.lookup_insert]
    rfl
  | _ => exact h

theorem flag_receive (h : (r.lookup host).isSome) (frame : AgentMessage) :
    flag (receive host r frame) host = match frame with
      | .taintStatus tainted _ _ => tainted
      | _ => flag r host := by
  obtain ⟨info, hi⟩ := Option.isSome_iff_exists.1 h
  cases frame with
  | taintStatus tainted reason ts => simp only [flag, receive, setTaint, hi, AList.lookup_insert]
  | _ => rfl

theorem settled_registered (h : (r.lookup host).isSome) (out : List AgentMessage) :
    ((out.foldl (receive host) r).lookup host).isSome := by
  induction out generalizing r with
  | nil => exact h
  | cons frame out ih => exact ih (receive_registered h frame)

end

/-! ## What a handler does in a step -/

/-- A step of an instance, as far as the taint goes. -/
inductive TaintMove (ctx : Ctx) (t : Task) (ctx' : Ctx) (t' : Task) : Prop
  /-- The write or the re-read. -/
  | busy : (∀ frame after, t.pc ≠ .send frame after) → marking t' = true → TaintMove ctx t ctx' t'
  | sends (frame : AgentMessage) (after : After) : t.pc = .send frame after →
      ctx' = { ctx with out := ctx.out ++ [frame] } → marking t' = false → TaintMove ctx t ctx' t'
  | quiet : (∀ frame after, t.pc ≠ .send frame after) → marking t = false → ctx'.out = ctx.out →
      ctx'.taint = ctx.taint → TaintMove ctx t ctx' t'

theorem taintMove_of_step {X : Ext} {ctx ctx' : Ctx} {t t' : Task} {obs : List Obs}
    (h : TaskStep X ctx t ctx' t' obs) : TaintMove ctx t ctx' t' := by
  have quiet : ∀ {pc : Pc}, t.pc = pc → (∀ frame after, pc ≠ .send frame after) →
      (match pc with
        | .reread .. => true
        | .send frame _ => isTaintStatus frame
        | _ => false) = false → ctx'.out = ctx.out → ctx'.taint = ctx.taint → TaintMove ctx t ctx' t' := by
    intro pc hpc hsend hmark hout htaint
    subst hpc
    exact .quiet hsend hmark hout htaint
  cases h with
  | @send frame after hpc => exact .sends frame after hpc rfl (by cases after <;> rfl)
  | mark error hpc => exact .busy (by simp [hpc]) rfl
  | @reread record nowMs hpc =>
    refine .busy (by simp [hpc]) ?_
    cases ctx.taint <;> rfl
  | start hpc | setupDone _ hpc | emit hpc | invoke hpc | write hpc | writeFailed _ hpc | remove hpc | removeFailed hpc
  | next hpc | finish hpc | activate hpc | wedged hpc | spawn hpc | refused hpc | stopRunning hpc | exit _ hpc
  | lost _ hpc | forward hpc | forwardSkip hpc | forwarded hpc | arm _ _ hpc | rearm hpc =>
    exact quiet hpc (by simp) rfl rfl rfl
  | stop cause stopRx hpc =>
    rcases hpc with hpc | ⟨d, c, hpc⟩ <;> exact quiet hpc (by simp) rfl rfl rfl

/-- A step of a `ClearTaint` task: it goes on, or it has enqueued its frame. -/
theorem clearStep_taint {ctx ctx' : Ctx} {c c' : ClearTask} {choice : Choice}
    (h : clearStep ctx c choice = some (ctx', c')) :
    (c' ≠ .done ∧ (∀ frame, c ≠ .send frame) ∧ ∀ frame, c' = .send frame → isTaintStatus frame = true) ∨
      ∃ frame, c = .send frame ∧ c' = .done ∧ ctx' = { ctx with out := ctx.out ++ [frame] } := by
  have report : ∀ (current : Option TaintRecord) (now : Int), isTaintStatus (taintStatusFrame current now) = true := by
    intro current now
    cases current <;> rfl
  unfold clearStep at h
  split at h
  next => cases h; exact .inl ⟨by simp, by simp, by simp⟩
  next => cases h; exact .inl ⟨by simp, by simp, fun frame he => by cases he; exact report _ _⟩
  next => cases h; exact .inl ⟨by simp, by simp, fun frame he => by cases he; exact report _ _⟩
  next => cases h; exact .inl ⟨by simp, by simp, fun frame he => by cases he; exact report _ _⟩
  next frame =>
    obtain ⟨ctx₁, hsend, he⟩ := Option.map_eq_some_iff.1 h
    obtain ⟨-, rfl⟩ := trySend_some hsend
    cases he
    exact .inr ⟨frame, rfl, rfl, rfl⟩
  next => cases h

/-! ## Who is busy -/

theorem busy_insert (a : Supervisor) (ctx : Ctx) (log : List (String × Obs)) (id : String) (t : Task) (h : Handler) :
    Busy { a with ctx, instances := a.instances.insert id t, log } h ↔
      if h = .mark id then marking t = true else Busy a h := by
  cases h with
  | clear i => simp [Busy]
  | mark id' =>
    by_cases hid : id' = id
    · subst hid
      simp [Busy, AList.lookup_insert]
    · rw [if_neg (by simp [hid])]
      simp only [Busy, AList.lookup_insert_ne hid]

theorem busy_set (a : Supervisor) (ctx : Ctx) {i : Nat} {c : ClearTask} (hc : a.clears[i]? = some c) (c' : ClearTask)
    (h : Handler) :
    Busy { a with ctx, clears := a.clears.set i c' } h ↔ if h = .clear i then c' ≠ .done else Busy a h := by
  have hlt : i < a.clears.length := (List.getElem?_eq_some_iff.1 hc).1
  cases h with
  | mark id => simp [Busy]
  | clear j =>
    by_cases hj : j = i
    · subst hj
      simp [Busy, hlt]
    · rw [if_neg (by simp [hj])]
      simp only [Busy, List.getElem?_set, if_neg (Ne.symm hj)]

theorem busy_dispatch {a : Supervisor} {h : Handler} (hb : Busy a h) (f : ServerMessage) : Busy (dispatch a f) h := by
  have keep : ∀ (id : String) (t : Task), (∀ t', a.instances.lookup id = some t' → marking t = marking t') →
      Busy { a with instances := a.instances.insert id t } h := by
    intro id t ht
    refine (busy_insert a a.ctx a.log id t h).2 ?_
    split
    next he =>
      subst he
      obtain ⟨t', hl, hm⟩ := hb
      rw [ht t' hl]
      exact hm
    next => exact hb
  cases f with
  | runFault run =>
    simp only [dispatch, handleRunFault]
    split
    · exact hb
    · split
      next => exact hb
      next hnew => exact keep _ _ fun t' hl => by simp [hl] at hnew
  | abortFault id =>
    simp only [dispatch, handleAbortFault]
    split
    next t ht => exact keep _ _ fun t' hl => by rw [ht] at hl; cases hl; rfl
    next => exact hb
  | clearTaint =>
    cases h with
    | mark id => exact hb
    | clear i =>
      obtain ⟨c, hc, hne⟩ := hb
      have hlt : i < a.clears.length := (List.getElem?_eq_some_iff.1 hc).1
      exact ⟨c, by simp only [dispatch]; rw [List.getElem?_append_left hlt]; exact hc, hne⟩
  | heartbeatAck | registerAck => exact hb

theorem mem_clears_dispatch {a : Supervisor} {frame : AgentMessage} (f : ServerMessage)
    (h : .send frame ∈ (dispatch a f).clears) : .send frame ∈ a.clears := by
  by_cases hf : f = .clearTaint
  · subst hf
    simpa [dispatch] using h
  · rwa [dispatch_clears a hf] at h

/-! ## Every step -/

/-- What holds in every state, stale frames or not. -/
structure TaintSystem.Sane (s : TaintSystem) (host : Hostname) : Prop where
  registered : (s.registry.lookup host).isSome
  clears : ∀ frame, .send frame ∈ s.agent.clears → isTaintStatus frame = true

section
variable {X : Ext} {host : Hostname} {s s' : TaintSystem} {label : AgentLabel}

/-- A step that leaves the record and the settled registry alone, and no handler behind. -/
theorem TaintSystem.Agrees.quiet (h : s.Agrees host) (hbusy : InProgress s.agent → InProgress s'.agent)
    (hset : s'.settled host = s.settled host) (htaint : s'.agent.ctx.taint.isSome = s.agent.ctx.taint.isSome) :
    s'.Agrees host := by
  intro hidle
  rw [hset, htaint]
  exact h fun hp => hidle (hbusy hp)

theorem not_stale (h : inHand s.agent label = none) : ¬ Stale s.agent label := by
  rintro ⟨tainted, hin, -⟩
  rw [h] at hin
  cases hin

/-- The end of a handler: the two sides agree exactly when its frame was not stale. -/
theorem agrees_sent {frame : AgentMessage} {tainted : Bool} (hs : (s.registry.lookup host).isSome)
    (hreg : s'.registry = s.registry) (hout : s'.agent.ctx.out = s.agent.ctx.out ++ [frame])
    (htaint : s'.agent.ctx.taint = s.agent.ctx.taint) (hin : inHand s.agent label = some tainted)
    (hframe : ∃ reason ts, frame = .taintStatus tainted reason ts)
    (hidle : InProgress s'.agent ↔ ∃ h, Busy s.agent h ∧ some h ≠ handler label) :
    s'.Agrees host ↔ ¬ Stale s.agent label := by
  obtain ⟨reason, ts, rfl⟩ := hframe
  have hset : flag (s'.settled host) host = tainted := by
    unfold TaintSystem.settled
    rw [hout, hreg, List.foldl_append, List.foldl_cons, List.foldl_nil, flag_receive (settled_registered hs _)]
  unfold TaintSystem.Agrees Stale
  rw [hset, htaint, hidle]
  constructor
  · rintro hag ⟨tainted', hin', hne, hlast⟩
    obtain rfl := Option.some.inj (hin.symm.trans hin')
    refine hne (hag ?_)
    rintro ⟨h, hb, hother⟩
    exact hother (hlast h hb)
  · intro hfresh hlast
    by_contra hne
    refine hfresh ⟨tainted, hin, hne, fun h hb => ?_⟩
    by_contra hother
    exact hlast ⟨h, hb, hother⟩

/-- A step of an instance. -/
theorem taint_task {id : String} {choice : Choice} (hs : s.Sane host) (hag : s.Agrees host)
    (h : stepInstance X s.agent id choice = some s'.agent) (hreg : s'.registry = s.registry) :
    s'.Sane host ∧ (s'.Agrees host ↔ ¬ Stale s.agent (.task id choice)) := by
  obtain ⟨t, ctx, t', obs, ht, hstep, ha⟩ := stepInstance_some h
  have hsane : s'.Sane host := ⟨by rw [hreg]; exact hs.registered, by rw [ha]; exact hs.clears⟩
  have hbusy : ∀ h, Busy s'.agent h ↔ if h = .mark id then marking t' = true else Busy s.agent h := by
    intro h
    rw [ha]
    exact busy_insert _ _ _ _ _ h
  have hin : ∀ {pc : Pc}, t.pc = pc → inHand s.agent (.task id choice) = match some pc with
      | some (.send (.taintStatus tainted _ _) _) => some tainted
      | _ => none := by
    rintro pc rfl
    simp only [inHand, ht, Option.map_some]
  have idle : (∀ frame after, t.pc ≠ .send frame after) → inHand s.agent (.task id choice) = none := by
    intro hpc
    rw [hin rfl]
    split
    next tainted reason ts after he => exact absurd (Option.some.inj he) (hpc _ _)
    next => rfl
  -- the handlers of the other instances are not touched
  have others : marking t = false → InProgress s.agent → InProgress s'.agent := by
    rintro hm ⟨h, hb⟩
    refine ⟨h, (hbusy h).2 ?_⟩
    split
    next he =>
      subst he
      obtain ⟨t₁, hl, hm₁⟩ := hb
      rw [ht] at hl
      cases hl
      rw [hm] at hm₁
      cases hm₁
    next => exact hb
  refine ⟨hsane, ?_⟩
  cases taintMove_of_step (taskStep_cases hstep) with
  | busy hpc hm =>
    have hprog : InProgress s'.agent := ⟨.mark id, (hbusy _).2 (by rw [if_pos rfl]; exact hm)⟩
    exact ⟨fun _ => not_stale (idle hpc), fun _ hidle => absurd hprog hidle⟩
  | quiet hpc hm hout htaint =>
    refine ⟨fun _ => not_stale (idle hpc), fun _ => hag.quiet (others hm) ?_ ?_⟩
    · rw [TaintSystem.settled, hreg, ha]
      simp only [hout]
      rfl
    · rw [ha]
      simp only [htaint]
  | sends frame after hpc hctx hm =>
    subst hctx
    cases frame with
    | taintStatus tainted reason ts =>
      refine agrees_sent hs.registered hreg (by rw [ha]) (by rw [ha]) (hin hpc) ⟨reason, ts, rfl⟩ ?_
      constructor
      · rintro ⟨h, hb⟩
        have hb' := (hbusy h).1 hb
        split at hb'
        next he =>
          rw [hm] at hb'
          cases hb'
        next he => exact ⟨h, hb', fun hh => he (Option.some.inj hh)⟩
      · rintro ⟨h, hb, hne⟩
        refine ⟨h, (hbusy h).2 ?_⟩
        rw [if_neg fun he => hne (by rw [he]; rfl)]
        exact hb
    | _ =>
      have hmt : marking t = false := by simp only [marking, hpc]; rfl
      refine ⟨fun _ => not_stale (hin hpc), fun _ => hag.quiet (others hmt) ?_ (by rw [ha])⟩
      rw [TaintSystem.settled, hreg, ha]
      simp only [List.foldl_append]
      rfl

/-- A step of a `ClearTaint` task. -/
theorem taint_clear {i : Nat} {choice : Choice} (hs : s.Sane host)
    (h : stepClear s.agent i choice = some s'.agent) (hreg : s'.registry = s.registry) :
    s'.Sane host ∧ (s'.Agrees host ↔ ¬ Stale s.agent (.clear i choice)) := by
  obtain ⟨c, ctx, c', hc, hstep, ha⟩ := stepClear_some h
  have hbusy : ∀ h, Busy s'.agent h ↔ if h = .clear i then c' ≠ .done else Busy s.agent h := by
    intro h
    rw [ha]
    exact busy_set _ _ hc c' h
  have hmem : ∀ frame, .send frame ∈ s'.agent.clears → .send frame ∈ s.agent.clears ∨ c' = .send frame := by
    intro frame hf
    rw [ha] at hf
    rcases List.mem_or_eq_of_mem_set hf with hf | hf
    · exact .inl hf
    · exact .inr hf.symm
  rcases clearStep_taint hstep with ⟨hnot, hidle, hframe⟩ | ⟨frame, rfl, rfl, rfl⟩
  · refine ⟨⟨by rw [hreg]; exact hs.registered, fun frame hf => ?_⟩, ?_⟩
    · rcases hmem frame hf with hf | hf
      · exact hs.clears frame hf
      · exact hframe frame hf
    · have hprog : InProgress s'.agent := ⟨.clear i, (hbusy _).2 (by rw [if_pos rfl]; exact hnot)⟩
      refine ⟨fun _ => not_stale ?_, fun _ hi => absurd hprog hi⟩
      simp only [inHand, hc]
      split
      next tainted reason ts he => exact absurd (Option.some.inj he) (hidle _)
      next => rfl
  · have htaint := hs.clears frame (List.mem_of_getElem? hc)
    refine ⟨⟨by rw [hreg]; exact hs.registered, fun f hf => ?_⟩, ?_⟩
    · rcases hmem f hf with hf | hf
      · exact hs.clears f hf
      · cases hf
    · obtain ⟨tainted, reason, ts, rfl⟩ : ∃ tainted reason ts, frame = .taintStatus tainted reason ts := by
        cases frame with
        | taintStatus tainted reason ts => exact ⟨tainted, reason, ts, rfl⟩
        | _ => cases htaint
      refine agrees_sent hs.registered hreg (by rw [ha]) (by rw [ha]) (by simp [inHand, hc]) ⟨reason, ts, rfl⟩ ?_
      constructor
      · rintro ⟨h, hb⟩
        have hb' := (hbusy h).1 hb
        split at hb'
        next he => exact absurd rfl hb'
        next he => exact ⟨h, hb', fun hh => he (Option.some.inj hh)⟩
      · rintro ⟨h, hb, hne⟩
        refine ⟨h, (hbusy h).2 ?_⟩
        rw [if_neg fun he => hne (by rw [he]; rfl)]
        exact hb

/-- **A step keeps the agreement exactly when it enqueues no stale frame.** -/
theorem taint_step (hs : s.Sane host) (hag : s.Agrees host) (h : taintStep X host s label = some s') :
    s'.Sane host ∧ (s'.Agrees host ↔ ¬ Stale s.agent label) := by
  obtain ⟨agent, hstep, rfl⟩ := Option.map_eq_some_iff.1 h
  cases label with
  | task id choice => exact taint_task hs hag hstep rfl
  | clear i choice => exact taint_clear hs hstep rfl
  | frame f =>
    obtain rfl := Option.some.inj hstep
    refine ⟨⟨hs.registered, fun frame hf => hs.clears frame (mem_clears_dispatch f hf)⟩,
      fun _ => not_stale rfl, fun _ => hag.quiet ?_ ?_ ?_⟩
    · rintro ⟨h, hb⟩
      exact ⟨h, busy_dispatch hb f⟩
    · simp only [TaintSystem.settled, dispatch_ctx]
    · simp only [dispatch_ctx]
  | drain =>
    simp only [agentStep] at hstep
    split at hstep
    next => cases hstep
    next frame out hout =>
      obtain rfl := Option.some.inj hstep
      simp only [hout, List.head?_cons, Option.map_some, Option.getD_some]
      refine ⟨⟨receive_registered hs.registered frame, hs.clears⟩, fun _ => not_stale rfl, fun _ => ?_⟩
      refine hag.quiet ?_ ?_ rfl
      · rintro ⟨h, hb⟩
        exact ⟨h, by cases h <;> exact hb⟩
      · simp only [TaintSystem.settled, hout, List.foldl_cons]
  | conn | tick =>
    obtain rfl := Option.some.inj hstep
    refine ⟨⟨hs.registered, hs.clears⟩, fun _ => not_stale rfl, fun _ => hag.quiet ?_ rfl rfl⟩
    rintro ⟨h, hb⟩
    exact ⟨h, by cases h <;> exact hb⟩

end

/-! ## Every run -/

theorem taint_init {X : Ext} {host : Hostname} {s : TaintSystem} (h : (taintLts X host).init s) :
    s.Sane host ∧ s.Agrees host := by
  obtain ⟨⟨b, hb⟩, hreg, hflag⟩ := h
  refine ⟨⟨hreg, fun frame hf => ?_⟩, fun _ => ?_⟩
  · rw [hb] at hf
    cases hf
  · unfold TaintSystem.settled
    rw [hb] at hflag ⊢
    exact hflag

/-- **Master and agent agree on the taint** in every run without a stale frame: whenever no handler is in progress and
every frame has been delivered. From such a state a step keeps the agreement exactly when it enqueues no stale frame. -/
theorem agrees_unless_stale {X : Ext} {host : Hostname} {s : TaintSystem}
    (h : ReachIf (taintLts X host) (fun s label => ¬ Stale s.agent label) s) :
    (¬ InProgress s.agent → s.agent.ctx.out = [] → flag s.registry host = s.agent.ctx.taint.isSome) ∧
      ∀ label s', (taintLts X host).step s label = some s' → (s'.Agrees host ↔ ¬ Stale s.agent label) := by
  have hinv : s.Sane host ∧ s.Agrees host := by
    refine h.inv (I := fun _ => True) (P := fun s => s.Sane host ∧ s.Agrees host) (fun _ _ => trivial)
      (fun _ hi => taint_init hi) ?_
    rintro s label s' - ⟨hs, hag⟩ hfresh hstep
    obtain ⟨hs', hiff⟩ := taint_step hs hag hstep
    exact ⟨hs', hiff.2 hfresh⟩
  refine ⟨fun hidle hout => ?_, fun label s' hstep => (taint_step hinv.1 hinv.2 hstep).2⟩
  have hag := hinv.2 hidle
  unfold TaintSystem.settled at hag
  rw [hout] at hag
  exact hag

/-! ## Two runs -/

def idle (a : Supervisor) : Bool :=
  a.instances.entries.all (fun e => !marking e.2) && a.clears.all fun c => c = .done

theorem idle_sound {a : Supervisor} (h : idle a = true) : ¬ InProgress a := by
  obtain ⟨htasks, hclears⟩ := Bool.and_eq_true_iff.1 h
  rintro ⟨h, hb⟩
  cases h with
  | mark id =>
    obtain ⟨t, hl, hm⟩ := hb
    have hnot := List.all_eq_true.1 htasks ⟨id, t⟩ (AList.mem_lookup_iff.1 hl)
    simp [hm] at hnot
  | clear i =>
    obtain ⟨c, hc, hne⟩ := hb
    exact hne (of_decide_eq_true (List.all_eq_true.1 hclears c (List.mem_of_getElem? hc)))

/-- What is about to be enqueued is what is on the disk. -/
def fresh (s : TaintSystem) (label : AgentLabel) : Bool :=
  match inHand s.agent label with
  | some tainted => tainted == s.agent.ctx.taint.isSome
  | none => true

theorem fresh_sound {s : TaintSystem} {label : AgentLabel} (h : fresh s label = true) : ¬ Stale s.agent label := by
  rintro ⟨tainted, hin, hne, -⟩
  unfold fresh at h
  rw [hin] at h
  exact hne (eq_of_beq h)

def sampleTaint : TaintSystem where
  agent := .boot plainExt sampleBoot
  registry := (∅ : Registry).insert web01 ⟨1000, false⟩

theorem sampleTaint_init : (taintLts plainExt web01).init sampleTaint :=
  ⟨⟨sampleBoot, rfl⟩, rfl, rfl⟩

/-- An instance is about to mark the host. -/
def untilMark : List AgentLabel :=
  [.frame (.runFault sampleRun)] ++ brokenChoices.map (.task sampleRun.instanceId)

def marks : List AgentLabel := ([.io none, .go, .go] : List Choice).map (.task sampleRun.instanceId)

def drains : List AgentLabel := [.drain, .drain, .drain, .drain, .drain, .drain]

/-- A mark and, after it, a `ClearTaint`: the flag follows both. -/
theorem agrees_unless_stale_cleared :
    ∃ s : TaintSystem, flag s.registry web01 = s.agent.ctx.taint.isSome ∧ s.agent.ctx.taint = none ∧
      s.agent.clears = [.done] := by
  obtain ⟨s, hs, hp⟩ := reachIf_of_run (L := taintLts plainExt web01) (G := fun s label => ¬ Stale s.agent label)
    (g := fresh) (fun _ _ => fresh_sound)
    (fun s => idle s.agent && (decide (s.agent.ctx.out = []) && (decide (s.agent.ctx.taint = none) &&
      decide (s.agent.clears = [.done]))))
    sampleTaint_init (untilMark ++ marks ++ [.frame .clearTaint, .clear 0 (.io none), .clear 0 .go, .clear 0 .go] ++
      drains) (by decide +kernel)
  simp only [Bool.and_eq_true, decide_eq_true_eq] at hp
  obtain ⟨hidle, hout, htaint, hclears⟩ := hp
  exact ⟨s, (agrees_unless_stale hs).1 (idle_sound hidle) hout, htaint, hclears⟩

/-- The clear reads a clean disk, then the mark is written and reported, then the clear reports what it has read: the
host is quarantined and the master does not know. -/
theorem clear_overtakes_mark :
    ∃ s : TaintSystem, ReachIf (taintLts plainExt web01) (fun s label => filesWork s label = true) s ∧
      ¬ InProgress s.agent ∧ s.agent.ctx.out = [] ∧ s.agent.ctx.taint.isSome = true ∧
      flag s.registry web01 = false := by
  obtain ⟨s, hs, hp⟩ := reachIf_of_run (L := taintLts plainExt web01) (G := fun s label => filesWork s label = true)
    (g := filesWork) (fun _ _ hg => hg)
    (fun s => idle s.agent && (decide (s.agent.ctx.out = []) && (s.agent.ctx.taint.isSome &&
      decide (flag s.registry web01 = false))))
    sampleTaint_init (untilMark ++ [.frame .clearTaint, .clear 0 (.io none), .clear 0 .go] ++ marks ++ [.clear 0 .go] ++
      drains) (by decide +kernel)
  simp only [Bool.and_eq_true, decide_eq_true_eq] at hp
  obtain ⟨hidle, hout, htaint, hflag⟩ := hp
  exact ⟨s, hs, idle_sound hidle, hout, htaint, hflag⟩

end FaultForge.System
