import FaultForge.Agent.Custody

/-!
# What the agent tells of one instance (supervisor.rs:264-299, 417-424, 650-668)

The loop of an instance sets the view, then performs the effects of the step, one of which may be a status. `telling` is
what a task still has to enqueue of this: every change of the view is told, with the state it changes to and once
(`TaskStep.tells`). A report tells the view as it is (`reportFrame_tells`). No other frame tells anything.
-/
namespace FaultForge.Agent

open Lts

/-! ## Frames -/

/-- The statuses of a frame. -/
def AgentMessage.statuses : AgentMessage → List InstanceStatus
  | .instanceStatus status => [status]
  | .instanceReport statuses => statuses
  | _ => []

/-- The state that a status reports of instance `id`, if it is about it. -/
def stateFor (id : String) (status : InstanceStatus) : Option InstanceState :=
  if status.instanceId = id then (fromWireI32 status.state).toOption else none

def tells (id : String) (frame : AgentMessage) : List InstanceState :=
  (AgentMessage.statuses frame).filterMap (stateFor id)

def Effect.tells : Effect → Option InstanceState
  | .emitStatus state _ => some state
  | _ => none

/-- What the task still has to enqueue: the status in its send, and those among the effects left. -/
def Task.telling (t : Task) : List InstanceState :=
  (match t.pc with
    | .send frame _ => Agent.tells t.id frame
    | _ => []) ++ t.effects.filterMap Effect.tells

theorem tells_status (id : String) (state : InstanceState) (reason : Option String) (digest : String) (now : Int) :
    tells id (statusFrame id state reason digest now) = [state] := by
  simp [tells, statusFrame, AgentMessage.statuses, stateFor, fromWireI32_toWireI32, Except.toOption]

theorem tells_event (id id' line : String) : tells id (.faultEvent id' line) = [] := rfl

theorem taintStatusFrame_statuses (current : Option TaintRecord) (now : Int) :
    AgentMessage.statuses (taintStatusFrame current now) = [] := by
  cases current <;> rfl

/-- Frames whose statuses are about another instance tell nothing. -/
theorem tells_other {id : String} {frame : AgentMessage}
    (h : ∀ status ∈ AgentMessage.statuses frame, status.instanceId ≠ id) : tells id frame = [] := by
  refine List.filterMap_eq_nil_iff.2 fun status hs => ?_
  rw [stateFor, if_neg (h status hs)]

/-! ## The machine -/

/-- A step changes the state that is shown and tells the new one, or it does neither. -/
inductive Tells (s : State) (r : State × List Effect) : Prop
  | still : r.1.instanceState = s.instanceState → r.2.filterMap Effect.tells = [] → Tells s r
  | moves : s.isTerminal = false → r.2.filterMap Effect.tells = [r.1.instanceState] → Tells s r

theorem rebuildPreflight_shown (which : Phase) (stop : Option StopCause) :
    (rebuildPreflight which stop).instanceState = .preflight := by
  cases which <;> rfl

theorem stepPreflight_tells (which : Phase) (stop : Option StopCause) (e : Event) :
    Tells (rebuildPreflight which stop) (stepPreflight which stop e) := by
  have hlive : (rebuildPreflight which stop).isTerminal = false := by cases which <;> rfl
  have shown := rebuildPreflight_shown which
  unfold stepPreflight
  split
  · exact .still (by rw [shown, shown]) rfl
  · split
    · exact .moves hlive rfl
    · cases which <;> exact .still rfl rfl
  · exact .moves hlive rfl
  · exact .moves hlive rfl
  · exact .moves hlive rfl
  · exact .still rfl rfl

theorem recoveryFailure_tells (rec : Recovery) (detail : String) :
    Tells (.recovering rec) (recoveryFailure rec detail) := by
  unfold recoveryFailure
  split
  · exact .moves rfl rfl
  · exact .still rfl rfl

theorem stepRecovering_tells (rec : Recovery) (e : Event) : Tells (.recovering rec) (stepRecovering rec e) := by
  have failure : ∀ (command : PluginCommand) detail, Tells (.recovering rec)
      (if command = rec.current then recoveryFailure rec detail else (.recovering rec, [])) := by
    intro command detail
    split
    · exact recoveryFailure_tells rec detail
    · exact .still rfl rfl
  unfold stepRecovering
  split
  · exact .still rfl rfl
  · split
    · split
      · cases rec.outcome <;> exact .moves rfl rfl
      · exact .still rfl rfl
    · exact .still rfl rfl
  · exact failure _ _
  · exact failure _ _
  · exact failure _ _
  · exact .still rfl rfl

/-- **What a step of the machine tells.** -/
theorem step_tells (s : State) (e : Event) : Tells s (step s e) := by
  cases s with
  | pending =>
    show Tells _ (stepPending e)
    unfold stepPending
    split
    · exact .moves rfl rfl
    · exact .moves rfl rfl
    · exact .moves rfl rfl
    · exact .still rfl rfl
  | preflightInstall stop => exact stepPreflight_tells .install stop e
  | preflightRuntime stop => exact stepPreflight_tells .runtime stop e
  | writingJournal stop =>
    show Tells _ (stepWritingJournal stop e)
    unfold stepWritingJournal
    split
    · exact .still rfl rfl
    · split <;> exact .moves rfl rfl
    · exact .moves rfl rfl
    · exact .still rfl rfl
  | injecting stop =>
    show Tells _ (stepInjecting stop e)
    unfold stepInjecting
    split
    · exact .still rfl rfl
    · split <;> exact .moves rfl rfl
    · exact .moves rfl rfl
    · exact .moves rfl rfl
    · exact .moves rfl rfl
    · exact .moves rfl rfl
    · exact .still rfl rfl
  | active =>
    cases e with
    | stopRequested cause => exact .moves rfl rfl
    | _ => exact .still rfl rfl
  | recovering rec => exact stepRecovering_tells rec e
  | done | aborted | error => exact .still rfl rfl

/-! ## The task -/

/-- The view shows the state, and a frame that waits for room is about the instance itself. -/
structure Task.Candid (t : Task) : Prop where
  view : t.view.state = t.state.instanceState
  own : ∀ frame after, t.pc = .send frame after → ∀ status ∈ AgentMessage.statuses frame, status.instanceId = t.id

/-- What a step of a task does to its view, to what it has to tell, and to the channel. -/
inductive Task.Told (t t' : Task) (more : List AgentMessage) : Prop
  /-- The view stays; what has been enqueued is told. -/
  | still : t'.view.state = t.view.state → more.flatMap (tells t.id) ++ t'.telling = t.telling → Told t t' more
  /-- The view changes, and the new state is all there is to tell. -/
  | moves : t.view.state.isTerminal = false → more = [] → t.telling = [] → t'.telling = [t'.view.state] → Told t t' more

theorem State.instanceState_isTerminal (s : State) : s.instanceState.isTerminal = s.isTerminal := by
  cases s <;> rfl

section
variable {X : Ext} {ctx ctx' : Ctx} {t t' : Task} {obs : List Obs}

/-- Where the task is not in a send, what it has to tell is in its effects. -/
theorem Task.telling_of (h : ∀ frame after, t.pc ≠ .send frame after) :
    t.telling = t.effects.filterMap Effect.tells := by
  unfold Task.telling
  split
  next frame after hpc => exact absurd hpc (h frame after)
  next => rfl

theorem Task.telling_send {frame : AgentMessage} {after : After} (h : t.pc = .send frame after) :
    t.telling = tells t.id frame ++ t.effects.filterMap Effect.tells := by
  unfold Task.telling
  rw [h]

theorem consume_told {now : Int} {event : Event} {queue : List Event} (hc : t.Candid)
    (hpc : ∀ frame after, t.pc ≠ .send frame after) (heff : t.effects = []) :
    t.Told (consume now t event queue) [] := by
  have htell : t.telling = [] := by rw [Task.telling_of hpc, heff]; rfl
  have htell' : (consume now t event queue).telling = (step t.state event).2.filterMap Effect.tells :=
    Task.telling_of fun frame after h => by cases h
  have hview : (consume now t event queue).view.state = (step t.state event).1.instanceState := rfl
  rcases step_tells t.state event with ⟨hs, he⟩ | ⟨hlive, he⟩
  · exact .still (by rw [hview, hs, hc.view]) (by rw [htell', he, htell]; rfl)
  · refine .moves ?_ rfl htell (by rw [htell', he, hview])
    rw [hc.view, State.instanceState_isTerminal, hlive]

/-- The stop channel tells nothing. -/
theorem Task.Told.of_stopRx {stopRx : List StopCause} {more : List AgentMessage}
    (h : ({ t with stopRx } : Task).Told t' more) : t.Told t' more := by
  cases h with
  | still hv ht => exact .still hv ht
  | moves hlive hm ht ht' => exact .moves hlive hm ht ht'

/-- A step that leaves view and effects as they are, outside a send. -/
theorem told_idle (hv : t'.view = t.view) (he : t'.effects.filterMap Effect.tells = t.effects.filterMap Effect.tells)
    (hpc : ∀ frame after, t.pc ≠ .send frame after) (hpc' : ∀ frame after, t'.pc ≠ .send frame after) :
    t.Told t' [] :=
  .still (by rw [hv]) (by rw [Task.telling_of hpc, Task.telling_of hpc', he]; rfl)

/-- A step that begins a send of a frame without statuses. -/
theorem told_send {frame : AgentMessage} {after : After} (hv : t'.view = t.view) (he : t'.effects = t.effects)
    (hpc : ∀ frame after, t.pc ≠ .send frame after) (hpc' : t'.pc = .send frame after)
    (hf : tells t'.id frame = []) : t.Told t' [] :=
  .still (by rw [hv]) (by rw [Task.telling_of hpc, Task.telling_send hpc', hf, he]; rfl)

/-- **What a step of a task tells.** -/
theorem TaskStep.told (h : TaskStep X ctx t ctx' t' obs) (hs : t.Shape) (hc : t.Candid) :
    ∃ more, ctx'.out = ctx.out ++ more ∧ t.Told t' more := by
  have quiet : t.Told t' [] → ctx'.out = ctx.out → ∃ more, ctx'.out = ctx.out ++ more ∧ t.Told t' more :=
    fun ht ho => ⟨[], ho.trans (List.append_nil _).symm, ht⟩
  cases h with
  | start hpc =>
    have hshape := hs
    unfold Task.Shape at hshape
    rw [hpc] at hshape
    obtain ⟨hstate, -, heff⟩ := hshape
    have hview : t.view.state = .pending := by rw [hc.view, hstate]; rfl
    refine quiet (.moves (by rw [hview]; rfl) rfl ?_ ?_) rfl
    · rw [Task.telling_of (by simp [hpc]), heff]
      rfl
    · rw [Task.telling_send rfl]
      show tells t.id _ ++ t.effects.filterMap Effect.tells = [t.view.state]
      rw [tells_status, heff, hview]
      rfl
  | @send frame after hpc hroom =>
    refine ⟨[frame], rfl, .still rfl ?_⟩
    rw [Task.telling_send hpc, Task.telling_of fun f a ha => by cases after <;> cases ha]
    simp
  | @emit state reason rest hpc heff =>
    refine quiet (.still rfl ?_) rfl
    rw [Task.telling_of (t := t) (by simp [hpc]), Task.telling_send rfl, heff]
    show [] ++ (tells t.id _ ++ rest.filterMap Effect.tells) = _
    rw [tells_status]
    rfl
  | next hpc heff _ => exact quiet (consume_told hc (by simp [hpc]) heff) rfl
  | wedged hpc heff _ _ _ => exact quiet (consume_told hc (by simp [hpc]) heff) rfl
  | stop cause stopRx hpc =>
    obtain ⟨-, -, heff⟩ := hs.active hpc
    have hidle : ∀ frame after, t.pc ≠ .send frame after := by
      rintro frame after he
      rcases hpc with hpc | ⟨d, c, hpc⟩ <;> rw [hpc] at he <;> cases he
    have htold : ({ t with stopRx } : Task).Told
        (consume ctx.now { t with stopRx } (.stopRequested cause) t.queue) [] :=
      consume_told ⟨hc.view, hc.own⟩ hidle heff
    exact quiet htold.of_stopRx rfl
  | invoke hpc heff => exact quiet (told_idle rfl (by rw [heff]; rfl) (by simp [hpc]) (by simp)) rfl
  | write hpc heff | writeFailed _ hpc heff =>
    exact quiet (told_idle rfl (by rw [heff]; rfl) (by simp [hpc]) (by simp [Task.push])) rfl
  | remove hpc heff | removeFailed hpc heff =>
    exact quiet (told_idle rfl (by rw [heff]; rfl) (by simp [hpc]) (by simp [hpc])) rfl
  | mark error hpc heff =>
    exact quiet (told_idle rfl (by rw [heff]; rfl) (by simp [hpc]) (by simp)) (ctx.mark_out _ _)
  | forward hpc hl =>
    obtain ⟨text, rfl⟩ := Telemetry.frame_event hl
    exact quiet (told_send rfl rfl (by simp [hpc]) rfl (tells_event _ _ _)) rfl
  | reread hpc =>
    refine quiet (told_send rfl rfl (by simp [hpc]) rfl ?_) rfl
    rw [tells, taintStatusFrame_statuses]
    rfl
  | refused hpc _ | lost _ hpc | forwarded hpc =>
    exact quiet (told_idle rfl rfl (by simp [hpc]) (by simp [Task.push])) rfl
  | stopRunning hpc _ => exact quiet (told_idle rfl rfl (by simp [hpc]) (by simp [hpc])) rfl
  | arm _ _ hpc | rearm hpc | spawn hpc | exit _ hpc | forwardSkip hpc _ | setupDone _ hpc _ =>
    exact quiet (told_idle rfl rfl (by simp [hpc]) (by simp)) rfl
  | finish hpc _ _ _ | activate hpc _ _ _ => exact quiet (told_idle rfl rfl (by simp [hpc]) (by simp)) rfl

theorem consume_candid (now : Int) (t : Task) (event : Event) (queue : List Event) :
    (consume now t event queue).Candid :=
  ⟨rfl, fun frame after h => by cases h⟩

theorem TaskStep.candid (h : TaskStep X ctx t ctx' t' obs) (hc : t.Candid) :
    t'.Candid ∧ (ctx'.out = ctx.out ∨ ∃ frame, ctx'.out = ctx.out ++ [frame] ∧
      ∀ status ∈ AgentMessage.statuses frame, status.instanceId = t.id) := by
  have sends : ∀ {frame : AgentMessage}, (∀ status ∈ AgentMessage.statuses frame, status.instanceId = t.id) →
      ∀ f after after', Pc.send frame after' = .send f after →
        ∀ status ∈ AgentMessage.statuses f, status.instanceId = t.id :=
    fun hf f after after' he => by cases he; exact hf
  have status : ∀ {state : InstanceState} {reason : Option String},
      ∀ s ∈ AgentMessage.statuses (statusFrame t.id state reason t.run.pluginDigest ctx.now), s.instanceId = t.id :=
    fun s hs => by obtain rfl := List.mem_singleton.1 hs; rfl
  cases h with
  | start => exact ⟨⟨hc.view, fun f after he => sends status f after _ he⟩, .inl rfl⟩
  | emit => exact ⟨⟨hc.view, fun f after he => sends status f after _ he⟩, .inl rfl⟩
  | @send frame after hpc =>
    refine ⟨⟨hc.view, fun f a he => ?_⟩, .inr ⟨frame, rfl, hc.own frame after hpc⟩⟩
    cases after <;> cases he
  | mark error => exact ⟨⟨hc.view, fun f after he => by cases he⟩, .inl (ctx.mark_out _ _)⟩
  | forward hf hl =>
    obtain ⟨text, rfl⟩ := Telemetry.frame_event hl
    exact ⟨⟨hc.view, fun f after he => sends (fun s hs => by cases hs) f after _ he⟩, .inl rfl⟩
  | @reread record nowMs =>
    refine ⟨⟨hc.view, fun f after he => sends (fun s hs => ?_) f after _ he⟩, .inl rfl⟩
    rw [taintStatusFrame_statuses] at hs
    cases hs
  | stopRunning hrun => exact ⟨⟨hc.view, fun f after he => by rw [hrun] at he; cases he⟩, .inl rfl⟩
  | next | wedged | stop => exact ⟨consume_candid _ _ _ _, .inl rfl⟩
  | remove hl | removeFailed hl => exact ⟨⟨hc.view, fun f after he => by rw [hl] at he; cases he⟩, .inl rfl⟩
  | _ => exact ⟨⟨hc.view, fun f after he => by cases he⟩, .inl rfl⟩

theorem Task.spawn_candid (run : RunFault) : (Task.spawn run).Candid := ⟨rfl, fun _ _ h => by cases h⟩

end

/-- Every instance of every reachable agent is in shape and candid. -/
theorem reach_candid {X : Ext} {a : Supervisor} (h : Reach (agentLts X) a) :
    a.Each fun _ t => t.Shape ∧ t.Candid := by
  refine reach_each (fun run => ⟨Task.spawn_shape run, Task.spawn_candid run⟩) ?_ ?_ h
  · rintro seen t stopRx ⟨hs, hc⟩
    exact ⟨hs, hc.view, hc.own⟩
  · rintro seen ctx ctx' t t' obs ⟨hs, hc⟩ hstep
    exact ⟨hstep.shape hs, (hstep.candid hc).1⟩

/-! ## The report -/

/-- The state that the view of an instance shows. An instance that has not been started is as the master minted it. -/
def Supervisor.shows (a : Supervisor) (id : String) : InstanceState :=
  match a.instances.lookup id with
  | some t => t.view.state
  | none => .pending

/-- What the task of an instance still has to enqueue. -/
def Supervisor.telling (a : Supervisor) (id : String) : List InstanceState :=
  match a.instances.lookup id with
  | some t => t.telling
  | none => []

/-- At most one entry of a map has the key. -/
theorem filterMap_entries {β γ : Type} {l : List ((_ : String) × β)} (hn : l.NodupKeys) (id : String)
    (g : β → Option γ) :
    (l.filterMap fun e => if e.1 = id then g e.2 else none) = ((l.dlookup id).bind g).toList := by
  induction l with
  | nil => rfl
  | cons e l ih =>
    obtain ⟨k, b⟩ := e
    obtain ⟨hk, hl⟩ := List.nodupKeys_cons.1 hn
    by_cases he : k = id
    · subst he
      have hnone : l.dlookup k = none := List.dlookup_eq_none.2 hk
      have hrest := ih hl
      rw [hnone] at hrest
      rw [List.dlookup_cons_eq]
      cases hg : g b with
      | none =>
        rw [List.filterMap_cons_none (by simpa using hg), hrest, Option.bind_some, hg]
        rfl
      | some c =>
        rw [List.filterMap_cons_some (by simpa using hg), hrest, Option.bind_some, hg]
        rfl
    · rw [List.filterMap_cons_none (by simp [he]), ih hl, List.dlookup_cons_ne _ _ (Ne.symm he)]

/-- **A report tells the state of a live instance**, and nothing of one that has ended. -/
theorem reportFrame_tells (a : Supervisor) (now : Int) (id : String) :
    tells id (reportFrame a now) = [] ∨
      ((a.shows id).isTerminal = false ∧ tells id (reportFrame a now) = [a.shows id]) := by
  have hlive : ∀ e : (_ : String) × Task, (liveStatus now e.1 e.2.view).bind (stateFor id) =
      if e.1 = id then (if e.2.view.state.isTerminal then none else some e.2.view.state) else none := by
    intro e
    unfold liveStatus
    by_cases ht : e.2.view.state.isTerminal = true
    · simp [ht]
    · rw [if_neg ht, Option.bind_some, stateFor, fromWireI32_toWireI32]
      simp [ht, Except.toOption]
  have hperm : (tells id (reportFrame a now)).Perm
      ((a.instances.lookup id).bind fun t => if t.view.state.isTerminal then none else some t.view.state).toList := by
    have hsort := (List.mergeSort_perm (a.instances.entries.filterMap fun e => liveStatus now e.1 e.2.view)
      fun x y => decide (x.instanceId ≤ y.instanceId)).filterMap (stateFor id)
    rw [List.filterMap_filterMap] at hsort
    simp only [hlive] at hsort
    rw [filterMap_entries a.instances.nodupKeys id
      (fun t : Task => if t.view.state.isTerminal then none else some t.view.state)] at hsort
    exact hsort
  unfold Supervisor.shows
  cases hl : a.instances.lookup id with
  | none =>
    rw [hl] at hperm
    exact .inl (List.perm_nil.1 hperm)
  | some t =>
    rw [hl] at hperm
    cases ht : t.view.state.isTerminal with
    | true =>
      simp only [Option.bind_some, ht, if_true] at hperm
      exact .inl (List.perm_nil.1 hperm)
    | false =>
      simp only [Option.bind_some, ht, Bool.false_eq_true, if_false] at hperm
      exact .inr ⟨rfl, List.perm_singleton.1 hperm⟩

/-! ## The agent -/

/-- What a step does to the view of instance `id`, to what there is to tell of it, and to the channel. -/
inductive Supervisor.Told (id : String) (a a' : Supervisor) (more : List AgentMessage) : Prop
  | still : a'.shows id = a.shows id → more.flatMap (tells id) ++ a'.telling id = a.telling id → Told id a a' more
  | moves : (a.shows id).isTerminal = false → more = [] → a.telling id = [] → a'.telling id = [a'.shows id] →
    Told id a a' more

section
variable {X : Ext} {a a' : Supervisor} {id : String}

theorem Supervisor.shows_lookup {t : Task} (h : a.instances.lookup id = some t) : a.shows id = t.view.state := by
  unfold Supervisor.shows
  rw [h]

theorem Supervisor.telling_lookup {t : Task} (h : a.instances.lookup id = some t) : a.telling id = t.telling := by
  unfold Supervisor.telling
  rw [h]

theorem Supervisor.told_of_lookup (a a' : Supervisor) (h : a'.instances.lookup id = a.instances.lookup id) :
    a'.shows id = a.shows id ∧ a'.telling id = a.telling id := by
  unfold Supervisor.shows Supervisor.telling
  rw [h]
  exact ⟨rfl, rfl⟩

/-- A step of any instance task, as far as `id` goes. -/
theorem stepInstance_told {id' : String} {choice : Choice} (hc : a.Each fun _ t => t.Shape ∧ t.Candid)
    (h : stepInstance X a id' choice = some a') :
    ∃ more, a'.ctx.out = a.ctx.out ++ more ∧ a.Told id a' more := by
  obtain ⟨t, ctx, t', obs, ht, hstep, rfl⟩ := stepInstance_some h
  obtain ⟨hid, hshape, hcandid⟩ := hc.1 id' t ht
  have hstep := taskStep_cases hstep
  by_cases he : id' = id
  · subst he
    obtain ⟨more, hout, htold⟩ := hstep.told hshape hcandid
    have hview := Supervisor.shows_lookup ht
    have htell := Supervisor.telling_lookup ht
    have hlook : (a.instances.insert id' t').lookup id' = some t' := AList.lookup_insert _
    refine ⟨more, hout, ?_⟩
    cases htold with
    | still hv hm =>
      refine .still ?_ ?_
      · rw [Supervisor.shows_lookup hlook, hv, hview]
      · rw [Supervisor.telling_lookup hlook, htell, ← hm, hid]
    | moves hlive hm hn htell' =>
      refine .moves (hview ▸ hlive) hm (htell.trans hn) ?_
      rw [Supervisor.telling_lookup hlook, Supervisor.shows_lookup hlook, htell']
  · have hlook : (a.instances.insert id' t').lookup id = a.instances.lookup id := AList.lookup_insert_ne (Ne.symm he)
    obtain ⟨hv, ht'⟩ := Supervisor.told_of_lookup a
      { a with ctx, instances := a.instances.insert id' t', log := obs.map (fun o => (id', o)) ++ a.log } hlook
    rcases (hstep.candid hcandid).2 with hout | ⟨frame, hout, hown⟩
    · exact ⟨[], hout.trans (List.append_nil _).symm, .still hv (by rw [ht']; rfl)⟩
    · refine ⟨[frame], hout, .still hv ?_⟩
      have hnone : tells id frame = [] := tells_other fun status hs => by
        rw [hown status hs, hid]
        exact he
      rw [ht', List.flatMap_cons, hnone]
      rfl

/-- The frames of a `ClearTaint` task carry no status. -/
def Supervisor.ClearsSilent (a : Supervisor) : Prop :=
  ∀ frame, .send frame ∈ a.clears → AgentMessage.statuses frame = []

theorem clearStep_silent {ctx ctx' : Ctx} {c c' : ClearTask} {choice : Choice}
    (h : clearStep ctx c choice = some (ctx', c')) (hc : ∀ frame, c = .send frame → AgentMessage.statuses frame = []) :
    (∀ frame, c' = .send frame → AgentMessage.statuses frame = []) ∧
      (ctx'.out = ctx.out ∨ ∃ frame, ctx'.out = ctx.out ++ [frame] ∧ AgentMessage.statuses frame = []) := by
  unfold clearStep at h
  split at h
  next => cases h; exact ⟨fun frame he => (by cases he), .inl rfl⟩
  next => cases h; exact ⟨fun frame he => by cases he; exact taintStatusFrame_statuses _ _, .inl rfl⟩
  next => cases h; exact ⟨fun frame he => by cases he; exact taintStatusFrame_statuses _ _, .inl rfl⟩
  next => cases h; exact ⟨fun frame he => by cases he; exact taintStatusFrame_statuses _ _, .inl rfl⟩
  next frame =>
    obtain ⟨ctx₁, hsend, he⟩ := Option.map_eq_some_iff.1 h
    obtain ⟨-, rfl⟩ := trySend_some hsend
    cases he
    exact ⟨fun frame he => (by cases he), .inr ⟨frame, rfl, hc frame rfl⟩⟩
  next => cases h

theorem stepClear_silent {i : Nat} {choice : Choice} (hc : a.ClearsSilent) (h : stepClear a i choice = some a') :
    a'.ClearsSilent ∧ a'.instances = a.instances ∧
      ∃ more, a'.ctx.out = a.ctx.out ++ more ∧ ∀ frame ∈ more, AgentMessage.statuses frame = [] := by
  obtain ⟨c, ctx, c', hget, hstep, rfl⟩ := stepClear_some h
  have hmem : c ∈ a.clears := List.mem_of_getElem? hget
  obtain ⟨hsend, hout⟩ := clearStep_silent hstep fun frame he => hc frame (he ▸ hmem)
  refine ⟨fun frame hf => ?_, rfl, ?_⟩
  · rcases List.mem_or_eq_of_mem_set hf with hf | hf
    · exact hc frame hf
    · exact hsend frame hf.symm
  · rcases hout with hout | ⟨frame, hout, hs⟩
    · exact ⟨[], hout.trans (List.append_nil _).symm, by simp⟩
    · exact ⟨[frame], hout, by simpa using hs⟩

theorem dispatch_silent (hc : a.ClearsSilent) (f : ServerMessage) : (dispatch a f).ClearsSilent := by
  by_cases hf : f = .clearTaint
  · subst hf
    intro frame hm
    rcases List.mem_append.1 hm with hm | hm
    · exact hc frame hm
    · simp at hm
  · intro frame hm
    rw [dispatch_clears a hf] at hm
    exact hc frame hm

theorem reach_silent (h : Reach (agentLts X) a) : a.ClearsSilent := by
  refine h.inv (P := Supervisor.ClearsSilent) ?_ ?_
  · rintro a ⟨b, rfl⟩ frame hf
    cases hf
  · intro a label a' hc hs
    cases label with
    | frame f => obtain rfl := Option.some.inj hs; exact dispatch_silent hc f
    | task id choice => obtain ⟨t, ctx, t', obs, -, -, rfl⟩ := stepInstance_some hs; exact hc
    | clear i choice => exact (stepClear_silent hc hs).1
    | drain =>
      simp only [agentLts, agentStep] at hs
      split at hs
      next => cases hs
      next => obtain rfl := Option.some.inj hs; exact hc
    | conn | tick => obtain rfl := Option.some.inj hs; exact hc

/-- A frame from the master changes no view, and gives nothing to tell. -/
theorem dispatch_told (a : Supervisor) (f : ServerMessage) (id : String) :
    (dispatch a f).shows id = a.shows id ∧ (dispatch a f).telling id = a.telling id := by
  have inserted : ∀ (id' : String) (t' : Task) (instances : AList fun _ : String => Task),
      instances = a.instances.insert id' t' → (id' = id → t'.view.state = a.shows id ∧ t'.telling = a.telling id) →
      Supervisor.shows { a with instances } id = a.shows id ∧
        Supervisor.telling { a with instances } id = a.telling id := by
    rintro id' t' instances rfl hsame
    by_cases he : id' = id
    · have hlook : (a.instances.insert id' t').lookup id = some t' := by rw [he]; exact AList.lookup_insert _
      rw [Supervisor.shows_lookup hlook, Supervisor.telling_lookup hlook]
      exact hsame he
    · exact Supervisor.told_of_lookup _ _ (AList.lookup_insert_ne (Ne.symm he))
  cases f with
  | runFault run =>
    simp only [dispatch, handleRunFault]
    split
    · exact ⟨rfl, rfl⟩
    · split
      next => exact ⟨rfl, rfl⟩
      next hk =>
        refine inserted _ _ _ rfl fun he => ?_
        have hnone : a.instances.lookup id = none := by rw [← he]; simpa using hk
        unfold Supervisor.shows Supervisor.telling
        rw [hnone]
        exact ⟨rfl, rfl⟩
  | abortFault id' =>
    simp only [dispatch, handleAbortFault]
    split
    next t ht =>
      refine inserted _ _ _ rfl fun he => ?_
      subst he
      rw [Supervisor.shows_lookup ht, Supervisor.telling_lookup ht]
      exact ⟨rfl, rfl⟩
    next => exact ⟨rfl, rfl⟩
  | clearTaint | heartbeatAck | registerAck => exact ⟨rfl, rfl⟩

/-! ## The session -/

@[simp] theorem Node.endSession_instances (n : Node) : n.endSession.agent.instances = n.agent.instances := by
  unfold Node.endSession
  by_cases hc : n.agent.ctx.conn = .connected
  · simp only [hc, if_true]
    rfl
  · simp only [hc, if_false]

/-- A session changes no view, and gives nothing to tell. -/
theorem sessionStep_told {n n' : Node} {label : SessionLabel} (h : sessionStep n label = some n') (id : String) :
    n'.agent.shows id = n.agent.shows id ∧ n'.agent.telling id = n.agent.telling id := by
  have same : ∀ {m : Node}, some m = some n' → m.agent.instances = n.agent.instances →
      n'.agent.shows id = n.agent.shows id ∧ n'.agent.telling id = n.agent.telling id := by
    intro m he hm
    obtain rfl := Option.some.inj he
    exact Supervisor.told_of_lookup _ _ (by rw [hm])
  unfold sessionStep at h
  split at h
  next => exact same h rfl
  next => exact same h rfl
  next => exact same h (Node.endSession_instances n)
  next => exact same h rfl
  next => exact same h rfl
  next frame keep next hpc => exact same h (by rw [Node.endSession_instances, n.keepFrame_agent])
  next interval hpc =>
    cases hi : interpretRegisterAck interval with
    | none => rw [hi] at h; exact same h (Node.endSession_instances _)
    | some secs => rw [hi] at h; exact same h rfl
  next => exact same h rfl
  next => exact same h (Node.endSession_instances n)
  next => exact same h rfl
  next => exact same h rfl
  next => split at h <;> exact same h rfl
  next => split at h <;> exact same h rfl
  next f hpc =>
    obtain rfl := Option.some.inj h
    exact dispatch_told n.agent f id
  next => exact same h (Node.endSession_instances n)
  next => exact same h rfl
  next =>
    split at h
    next => cases h
    next => exact same h rfl
  next => cases h

end

end FaultForge.Agent
