import FaultForge.Agent.CrashSafe
import FaultForge.Agent.ReplayCourse
import FaultForge.Agent.Telling

/-!
# What a state was earned with (machine.rs:300-609, supervisor.rs:585-670)

A state that comes after a success rests on it: on the plugin processes that exited 0, in their order. `State.basis`
lists them for a state of the machine, `InstanceState.basis` for a state that an agent shows. `reach_earned` says that
every task has observed what its state, its queued events and its statuses rest on, and `Node.Vouches.step` that a
process sends no status of a state that no task of it has shown.
-/
namespace FaultForge.Agent

open Lts

/-! ## The exits behind a state -/

/-- The process of the command exited 0. -/
def succeeded (command : PluginCommand) : Obs := .exited command (.code 0)

/-- Both preflights and `inject`, newest first. -/
def injectedBasis : List Obs := [succeeded .inject, succeeded .preflight, succeeded .preflight]

/-- The exits that a state of the machine rests on, newest first. -/
def State.basis : State → List Obs
  | .pending | .preflightInstall _ => []
  | .preflightRuntime _ => [succeeded .preflight]
  | .writingJournal _ | .injecting _ => [succeeded .preflight, succeeded .preflight]
  | .active => injectedBasis
  | .recovering rec => if rec.outcome = .error then [] else injectedBasis
  | .done => succeeded .cleanup :: injectedBasis
  | .aborted | .error => []

/-- The exits that a shown state rests on, newest first. `RECOVERING` and `ABORTED` also come from a replay. -/
def InstanceState.basis : InstanceState → List Obs
  | .injecting => [succeeded .preflight, succeeded .preflight]
  | .active => injectedBasis
  | .done => succeeded .cleanup :: injectedBasis
  | .pending | .preflight | .recovering | .aborted | .error => []

/-- The exit that an event reports, if it is a success. -/
def Event.earned : Event → List Obs
  | .commandFinished command .success => [succeeded command]
  | _ => []

theorem State.instanceState_basis (s : State) : (InstanceState.basis s.instanceState).Sublist s.basis := by
  cases s <;> first | exact List.Sublist.refl _ | exact List.nil_sublist _

theorem Event.earned_of_answers {e : Event} (h : e.answers = none ∨ e.answers = some .setup) : e.earned = [] := by
  cases e <;> first | rfl | simp [Event.answers] at h

theorem earned_invocationEvent (X : Ext) (timeoutSecs : UInt64) (command : PluginCommand) (status : ProcessEnd) :
    (invocationEvent X timeoutSecs command status).earned.Sublist [.exited command status] := by
  cases status with
  | code c =>
    by_cases hc : c = 0
    · subst hc
      exact List.Sublist.refl _
    · have hne : classifyExit c ≠ .success := fun h => hc ((classifyExit_success c).1 h)
      have hnone : (Event.commandFinished command (classifyExit c)).earned = [] := by
        unfold Event.earned
        split
        next he => exact absurd (Event.commandFinished.inj he).2 hne
        next => rfl
      rw [invocationEvent, hnone]
      exact List.nil_sublist _
  | timedOut | signalled | failed => exact List.nil_sublist _

section
variable {s s' : State} {e : Event} {effects : List Effect}

theorem startRecovery_basis (cause : StopCause) (reason : Option String) :
    (startRecovery cause reason).1.basis.Sublist injectedBasis := by
  show (if cause.outcome = .error then [] else injectedBasis).Sublist injectedBasis
  split
  · exact List.nil_sublist _
  · exact List.Sublist.refl _

/-- **A step of the machine earns what its event reports.** -/
theorem Trans.basis (h : Trans s e s' effects) (hs : s.Shape) : s'.basis.Sublist (e.earned ++ s.basis) := by
  cases h with
  | absorbed e ht => exact List.sublist_append_right _ _
  | setupOk | setupFailed | stopPending | journalStopped | journalFailed | recoveryFailed => exact List.nil_sublist _
  | preflightStopped which | preflightFailed which => exact List.nil_sublist _
  | stopPreflight which => cases which <;> exact List.Sublist.refl _
  | installOk | runtimeOk | stopJournal | inject | stopInject | injected => exact List.Sublist.refl _
  | injectUnaffected => exact List.nil_sublist _
  | injectAmbiguous => exact List.nil_sublist _
  | injectedStopped cause | stopActive cause => exact startRecovery_basis cause none
  | stopRecovery rec cause =>
    show (if (if cause = .deadman then Outcome.error else rec.outcome) = .error then [] else injectedBasis).Sublist
      (if rec.outcome = .error then [] else injectedBasis)
    by_cases hc : cause = .deadman
    · rw [if_pos hc, if_pos rfl]
      exact List.nil_sublist _
    · rw [if_neg hc]
  | recovered rec hr =>
    have hcur : rec.current = .cleanup := by
      rcases hs with ⟨-, hrem⟩ | ⟨hcur, -⟩
      · rw [hr] at hrem
        cases hrem
      · exact hcur
    rw [hcur]
    cases ho : rec.outcome with
    | done =>
      show (succeeded .cleanup :: injectedBasis).Sublist
        (succeeded .cleanup :: if rec.outcome = .error then [] else injectedBasis)
      rw [ho]
      exact List.Sublist.refl _
    | aborted | error => exact List.nil_sublist _
  | recoveryNext rec next rest => exact List.sublist_append_right _ _
  | recoveryRetry rec => exact List.sublist_append_right _ _

end

/-! ## The tasks -/

/-- A task has observed what its state, the events it carries and the statuses it has still to send rest on. -/
structure Task.Earned (seen : List Obs) (t : Task) : Prop where
  shape : t.Shape
  candid : t.Candid
  recovery : t.state.Shape
  state : t.state.basis.Sublist seen
  result : ∀ event, event ∈ t.queue ∨ t.pc.event = some event → (event.earned ++ t.state.basis).Sublist seen
  telling : ∀ v ∈ t.telling, (InstanceState.basis v).Sublist seen

section
variable {X : Ext} {ctx ctx' : Ctx} {t t' : Task} {obs seen : List Obs}

/-- What a task has observed of its machine and of the results on their way to it. -/
def Task.Grounded (seen : List Obs) (t : Task) : Prop :=
  t.state.Shape ∧ t.state.basis.Sublist seen ∧
    ∀ event, event ∈ t.queue ∨ t.pc.event = some event → (event.earned ++ t.state.basis).Sublist seen

/-- A step that leaves the machine alone, and carries no new success. -/
theorem Task.Grounded.keep (h : t.Grounded seen) (hstate : t'.state = t.state)
    (hresult : ∀ event, event ∈ t'.queue ∨ t'.pc.event = some event →
      (event ∈ t.queue ∨ t.pc.event = some event) ∨ event.earned = []) : t'.Grounded (obs ++ seen) := by
  obtain ⟨hshape, hs, hr⟩ := h
  have grow : ∀ {l : List Obs}, l.Sublist seen → l.Sublist (obs ++ seen) :=
    fun hl => hl.trans (List.sublist_append_right _ _)
  rw [Task.Grounded, hstate]
  refine ⟨hshape, grow hs, fun event he => ?_⟩
  rcases hresult event he with hold | hnone
  · exact grow (hr event hold)
  · rw [hnone]
    exact grow hs

/-- A step of the machine; only stop requests leave events behind them. -/
theorem Task.Grounded.consume (h : t.Grounded seen) {now : Int} {event : Event} {queue : List Event}
    (ht : Trans t.state event (step t.state event).1 (step t.state event).2)
    (he : (event.earned ++ t.state.basis).Sublist seen)
    (hq : queue = [] ∨ event.answers = none ∧ ∀ e ∈ queue, e ∈ t.queue) :
    (Agent.consume now t event queue).Grounded seen := by
  obtain ⟨hshape, hs, hr⟩ := h
  have hbasis : (step t.state event).1.basis.Sublist (event.earned ++ t.state.basis) := ht.basis hshape
  refine ⟨ht.shape hshape, hbasis.trans he, fun e hm => ?_⟩
  rcases hm with hm | hm
  · rcases hq with rfl | ⟨hstop, hq⟩
    · cases hm
    · rw [Event.earned_of_answers (.inl hstop), List.nil_append] at hbasis
      exact ((List.Sublist.refl e.earned).append hbasis).trans (hr e (.inl (hq e hm)))
  · cases hm

theorem TaskStep.grounded (h : TaskStep X ctx t ctx' t' obs) (hs : t.Shape) (hg : t.Grounded seen) :
    t'.Grounded (obs ++ seen) := by
  have same : ∀ {pc : Pc}, pc.event = none →
      ∀ event, event ∈ t.queue ∨ pc.event = some event →
        (event ∈ t.queue ∨ t.pc.event = some event) ∨ event.earned = [] := by
    intro pc hpc event he
    rcases he with he | he
    · exact .inl (.inl he)
    · rw [hpc] at he
      cases he
  have pushed : ∀ {effects : List Effect} {event : Event}, event.earned = [] ∨ t.pc.event = some event →
      ∀ e, e ∈ (({ t with effects } : Task).push event).queue ∨
          (({ t with effects } : Task).push event).pc.event = some e →
        (e ∈ t.queue ∨ t.pc.event = some e) ∨ e.earned = [] := by
    intro effects event hev e he
    rcases he with he | he
    · rcases List.mem_append.1 he with he | he
      · exact .inl (.inl he)
      · obtain rfl := List.mem_singleton.1 he
        exact hev.elim .inr fun hpc => .inl (.inr hpc)
    · cases he
  cases h with
  | start | emit | reread => exact hg.keep rfl (same rfl)
  | setupDone params hpc he =>
    refine hg.keep rfl fun event hm => ?_
    rcases hm with hm | hm
    · obtain rfl := List.mem_singleton.1 hm
      exact .inr (Event.earned_of_answers (.inr he))
    · cases hm
  | @send frame after hpc =>
    refine hg.keep rfl fun event hm => hm.elim (fun hm => .inl (.inl hm)) fun hm => ?_
    cases after with
    | forward rest e =>
      rw [hpc]
      exact .inl (.inr hm)
    | setup | loop => cases hm
  | invoke hpc | spawn hpc | finish hpc | activate hpc | mark _ hpc | arm _ _ hpc | rearm hpc =>
    exact hg.keep rfl (same rfl)
  | remove hpc | removeFailed hpc => exact hg.keep rfl (same (by rw [hpc]; rfl))
  | write hpc heff | writeFailed _ hpc heff => exact hg.keep rfl (pushed (.inl rfl))
  | refused hpc he =>
    obtain ⟨reason, rfl | rfl⟩ := he <;> exact hg.keep rfl (pushed (.inl rfl))
  | lost reason hpc => exact hg.keep rfl (pushed (.inl rfl))
  | forwarded hpc => exact hg.keep rfl (pushed (.inr (by rw [hpc]; rfl)))
  | stopRunning hpc =>
    refine hg.keep rfl fun event hm => ?_
    rcases hm with hm | hm
    · rcases List.mem_cons.1 hm with rfl | hm
      · exact .inr rfl
      · exact .inl (.inl hm)
    · exact .inl (.inr hm)
  | forward hpc | forwardSkip hpc =>
    refine hg.keep rfl fun event hm => hm.elim (fun hm => .inl (.inl hm)) fun hm => .inl (.inr ?_)
    rw [hpc]
    exact hm
  | @exit command _ invocation hpc =>
    obtain ⟨hshape, hbasis, hresult⟩ := hg
    have grow : ∀ {l : List Obs}, l.Sublist seen → l.Sublist (.exited command invocation.status :: seen) :=
      fun hl => hl.trans (List.sublist_cons_self _ _)
    refine ⟨hshape, grow hbasis, fun event hm => ?_⟩
    rcases hm with hm | hm
    · exact grow (hresult event (.inl hm))
    · obtain rfl := Option.some.inj hm
      exact (earned_invocationEvent X ctx.invocationTimeoutSecs command invocation.status).append hbasis
  | @next event queue hpc heff hq =>
    have hl := hs.inLoop hpc
    obtain ⟨-, ha, -⟩ := hl.of_event hq
    refine hg.consume (hl.fits hq) (hg.2.2 event (.inl (hq ▸ List.mem_cons_self))) ?_
    rcases ha.head with ⟨-, -, hnil⟩ | ⟨he, -⟩
    · exact .inl hnil
    · exact .inr ⟨he, fun e hm => hq ▸ List.mem_cons_of_mem _ hm⟩
  | wedged => exact hg.consume (stop_fits _ _) hg.2.1 (.inl rfl)
  | stop cause stopRx =>
    exact Task.Grounded.consume (t := { t with stopRx }) hg (stop_fits _ _) hg.2.1 (.inr ⟨rfl, fun e hm => hm⟩)

theorem TaskStep.earned (h : TaskStep X ctx t ctx' t' obs) (he : t.Earned seen) : t'.Earned (obs ++ seen) := by
  obtain ⟨hs, hc, hrec, hbasis, hresult, htelling⟩ := he
  obtain ⟨hrec', hbasis', hresult'⟩ := h.grounded hs ⟨hrec, hbasis, hresult⟩
  have hc' := (h.candid hc).1
  refine ⟨h.shape hs, hc', hrec', hbasis', hresult', fun v hv => ?_⟩
  obtain ⟨more, -, htold⟩ := h.told hs hc
  cases htold with
  | still _ ht =>
    have hold : v ∈ t.telling := ht ▸ List.mem_append_right _ hv
    exact (htelling v hold).trans (List.sublist_append_right _ _)
  | moves _ _ _ ht =>
    rw [ht, List.mem_singleton] at hv
    rw [hv, hc'.view]
    exact (State.instanceState_basis _).trans hbasis'

theorem Task.spawn_earned (run : RunFault) : (Task.spawn run).Earned [] where
  shape := Task.spawn_shape run
  candid := Task.spawn_candid run
  recovery := trivial
  state := List.Sublist.refl _
  result event h := by rcases h with h | h <;> cases h
  telling v h := by cases h

end

/-- **Every task of every reachable agent has earned what it shows and tells.** -/
theorem reach_earned {X : Ext} {a : Supervisor} (h : Reach (agentLts X) a) : a.Each fun seen t => t.Earned seen := by
  refine reach_each Task.spawn_earned ?_ ?_ h
  · rintro seen t stopRx ⟨hs, hc, hrec, hbasis, hresult, htelling⟩
    exact ⟨hs, ⟨hc.view, hc.own⟩, hrec, hbasis, hresult, htelling⟩
  · rintro seen ctx ctx' t t' obs he hstep
    exact hstep.earned he

section
variable {X : Ext} {a : Supervisor}

theorem shows_earned (h : Reach (agentLts X) a) (id : String) :
    (InstanceState.basis (a.shows id)).Sublist (a.seen id) := by
  unfold Supervisor.shows
  cases hl : a.instances.lookup id with
  | none => exact List.nil_sublist _
  | some t =>
    obtain ⟨-, he⟩ := (reach_earned h).1 id t hl
    show (InstanceState.basis t.view.state).Sublist _
    rw [he.candid.view]
    exact (State.instanceState_basis _).trans he.state

end

/-! ## The frames of a process -/

/-- `Q` of every frame that a process holds. -/
structure Node.Holds (Q : AgentMessage → Prop) (n : Node) : Prop where
  startup : ∀ frame ∈ n.startup, Q frame
  sending : ∀ frame keep next, n.pc = .sending frame keep next → Q frame
  carry : ∀ frame, n.carry = some frame → Q frame
  out : ∀ frame ∈ n.agent.ctx.out, Q frame

section
variable {Q Q' : AgentMessage → Prop} {X : Ext} {n n' : Node}

theorem Node.Holds.mono (h : ∀ frame, Q frame → Q' frame) (hn : n.Holds Q) : n.Holds Q' where
  startup frame hf := h frame (hn.startup frame hf)
  sending frame keep next hpc := h frame (hn.sending frame keep next hpc)
  carry frame hc := h frame (hn.carry frame hc)
  out frame hf := h frame (hn.out frame hf)

/-- **What a session sends is what it holds, or a frame that it makes.** -/
theorem Node.Holds.session (hn : n.Holds Q) (hmakes : ∀ frame next, Makes n frame next → Q frame)
    {label : SessionLabel} (h : sessionStep n label = some n') :
    n'.Holds Q ∧ ∃ frames, n'.sent = n.sent ++ frames ∧ ∀ frame ∈ frames, Q frame := by
  have idle : ∀ {pc : SessionPc}, ¬ pc.Sending → ∀ frame keep next, pc = .sending frame keep next → Q frame :=
    fun hpc frame keep next he => absurd ⟨frame, keep, next, he⟩ hpc
  have unsent : n'.sent = n.sent → ∃ frames, n'.sent = n.sent ++ frames ∧ ∀ frame ∈ frames, Q frame :=
    fun hs => ⟨[], by rw [hs, List.append_nil], by simp⟩
  have hmoved := sessionStep_moved (Custody.start n) h
  generalize (Custody.start n).session n label = c' at hmoved
  cases hmoved with
  | quiet sending hheld hpc hpc' hpump =>
    obtain ⟨hstartup, hcarry, hsent, hout⟩ := Held.mk.inj hheld
    exact ⟨⟨hstartup ▸ hn.startup, idle hpc', hcarry ▸ hn.carry, hout ▸ hn.out⟩, unsent hsent⟩
  | made frame next hheld hpc hpc' hmade =>
    obtain ⟨hstartup, hcarry, hsent, hout⟩ := Held.mk.inj hheld
    refine ⟨⟨hstartup ▸ hn.startup, fun f keep nx he => ?_, hcarry ▸ hn.carry, hout ▸ hn.out⟩, unsent hsent⟩
    rw [hpc'] at he
    cases he
    exact hmakes frame next hmade
  | fromStartup frame startup hq hheld hpc hpc' =>
    obtain ⟨hstartup, hcarry, hsent, hout⟩ := Held.mk.inj hheld
    refine ⟨⟨fun f hf => ?_, fun f keep nx he => ?_, hcarry ▸ hn.carry, hout ▸ hn.out⟩, unsent hsent⟩
    · rw [hstartup] at hf
      exact hn.startup f (hq ▸ List.mem_cons_of_mem _ hf)
    · rw [hpc'] at he
      cases he
      exact hn.startup frame (hq ▸ List.mem_cons_self)
  | fromCarry frame hc hheld hpc hpc' =>
    obtain ⟨hstartup, hcarry, hsent, hout⟩ := Held.mk.inj hheld
    refine ⟨⟨hstartup ▸ hn.startup, fun f keep nx he => ?_, fun f hf => ?_, hout ▸ hn.out⟩, unsent hsent⟩
    · rw [hpc'] at he
      cases he
      exact hn.carry frame hc
    · rw [hcarry] at hf
      cases hf
  | fromOut frame out hq hheld hpc hpc' =>
    obtain ⟨hstartup, hcarry, hsent, hout⟩ := Held.mk.inj hheld
    refine ⟨⟨hstartup ▸ hn.startup, fun f keep nx he => ?_, hcarry ▸ hn.carry, fun f hf => ?_⟩, unsent hsent⟩
    · rw [hpc'] at he
      cases he
      exact hn.out frame (hq ▸ List.mem_cons_self)
    · rw [hout] at hf
      exact hn.out f (hq ▸ List.mem_cons_of_mem _ hf)
  | accepted frame keep next hpc hheld hpc' =>
    obtain ⟨hstartup, hcarry, hsent, hout⟩ := Held.mk.inj hheld
    refine ⟨⟨hstartup ▸ hn.startup, idle (hpc' ▸ SessionPc.not_sending_at _), hcarry ▸ hn.carry, hout ▸ hn.out⟩,
      [frame], hsent, fun f hf => ?_⟩
    obtain rfl := List.mem_singleton.1 hf
    exact hn.sending f keep next hpc
  | returned frame next hpc hheld hpc' =>
    obtain ⟨hstartup, hcarry, hsent, hout⟩ := Held.mk.inj hheld
    refine ⟨⟨fun f hf => ?_, idle (hpc' ▸ SessionPc.not_sending_idle), hcarry ▸ hn.carry, hout ▸ hn.out⟩, unsent hsent⟩
    rw [hstartup] at hf
    rcases List.mem_cons.1 hf with rfl | hf
    · exact hn.sending f true next hpc
    · exact hn.startup f hf
  | dropped frame next hpc _ hheld hpc' =>
    obtain ⟨hstartup, hcarry, hsent, hout⟩ := Held.mk.inj hheld
    exact ⟨⟨hstartup ▸ hn.startup, idle (hpc' ▸ SessionPc.not_sending_idle), hcarry ▸ hn.carry, hout ▸ hn.out⟩,
      unsent hsent⟩
  | carried frame next hpc _ hheld hpc' =>
    obtain ⟨hstartup, hcarry, hsent, hout⟩ := Held.mk.inj hheld
    refine ⟨⟨hstartup ▸ hn.startup, idle (hpc' ▸ SessionPc.not_sending_idle), fun f hf => ?_, hout ▸ hn.out⟩,
      unsent hsent⟩
    rw [hcarry] at hf
    cases hf
    exact hn.sending frame false next hpc

/-! ### The `Register` of a process -/

/-- A `Register` names the host. -/
def OwnRegister (hostname : String) (frame : AgentMessage) : Prop := ∀ name, frame = .register name → name = hostname

theorem ownRegister_emits (hostname : String) : Emits (OwnRegister hostname) :=
  ⟨fun _ _ h => (by cases h), fun _ _ _ h => (by cases h), fun _ _ _ h => (by cases h)⟩

theorem ownRegister_taint (hostname : String) (current : Option TaintRecord) (now : Int) :
    OwnRegister hostname (taintStatusFrame current now) := by
  intro name h
  cases current <;> cases h

theorem Node.endSession_hostname (n : Node) : n.endSession.hostname = n.hostname := by
  unfold Node.endSession
  by_cases hc : n.agent.ctx.conn = .connected
  · simp only [hc, if_true]
    rfl
  · simp only [hc, if_false]

theorem Node.keepFrame_hostname (n : Node) (frame : AgentMessage) (keep : Bool) :
    (n.keepFrame frame keep).hostname = n.hostname := by
  unfold Node.keepFrame
  split
  · rfl
  · split <;> rfl

theorem sessionStep_hostname {label : SessionLabel} (h : sessionStep n label = some n') :
    n'.hostname = n.hostname := by
  have same : ∀ {m : Node}, some m = some n' → m.hostname = n.hostname → n'.hostname = n.hostname :=
    fun he hm => Option.some.inj he ▸ hm
  unfold sessionStep at h
  split at h
  case h_3 | h_9 | h_15 => exact same h (Node.endSession_hostname n)
  case h_6 frame keep next hpc => exact same h ((Node.endSession_hostname _).trans (n.keepFrame_hostname frame keep))
  case h_7 interval hpc =>
    cases hi : interpretRegisterAck interval with
    | none => rw [hi] at h; exact same h (Node.endSession_hostname _)
    | some secs => rw [hi] at h; exact same h rfl
  case h_12 | h_13 => split at h <;> exact same h rfl
  case h_17 =>
    split at h
    · cases h
    · exact same h rfl
  case h_18 => cases h
  all_goals exact same h rfl

/-- The only `Register` of a process is its own. -/
structure Node.Registers (hostname : String) (n : Node) : Prop where
  named : n.hostname = hostname
  holds : n.Holds (OwnRegister hostname)
  frames : n.agent.Frames (OwnRegister hostname)

theorem Node.Registers.boot (X : Ext) (b : Boot) (hostname : String) : (Node.boot X b hostname).Registers hostname where
  named := rfl
  holds := ⟨fun frame hf => b.replay_frames (ownRegister_emits hostname) frame hf, fun _ _ _ h => (by cases h),
    fun _ h => (by cases h), fun _ h => (by cases h)⟩
  frames := Supervisor.boot_frames b

theorem Node.Registers.step {hostname : String} (h : n.Registers hostname) {label : NodeLabel}
    (hs : nodeStep X n label = some n') :
    n'.Registers hostname ∧ ∃ frames, n'.sent = n.sent ++ frames ∧ ∀ frame ∈ frames, OwnRegister hostname frame := by
  obtain ⟨hname, hholds, hframes⟩ := h
  have agent : ∀ {a : Supervisor}, a.Frames (OwnRegister hostname) →
      Node.Registers hostname { n with agent := a } ∧ ∃ frames, n.sent = n.sent ++ frames ∧
        ∀ frame ∈ frames, OwnRegister hostname frame := fun ha =>
    ⟨⟨hname, ⟨hholds.startup, hholds.sending, hholds.carry, ha.out⟩, ha⟩, [], (List.append_nil _).symm, by simp⟩
  cases label with
  | session label =>
    have hstep : sessionStep n label = some n' := hs
    have hmakes : ∀ frame next, Makes n frame next → OwnRegister hostname frame := by
      intro frame next hm name he
      cases hm with
      | register => exact (AgentMessage.register.inj he).symm.trans hname
      | taint => exact ownRegister_taint hostname _ _ name he
      | report | heartbeat => cases he
    obtain ⟨hholds', hsent⟩ := hholds.session hmakes hstep
    refine ⟨⟨(sessionStep_hostname hstep).trans hname, hholds', ?_⟩, hsent⟩
    rcases sessionStep_moves X hstep with he | ⟨label, he⟩
    · rw [he]
      exact hframes
    · exact hframes.step (ownRegister_emits hostname) (fun _ now => ownRegister_taint hostname _ now) he
  | task id choice =>
    obtain ⟨a, ha, rfl⟩ := Option.map_eq_some_iff.1 hs
    exact agent (stepInstance_frames (ownRegister_emits hostname) ha hframes).1
  | clear i choice =>
    obtain ⟨a, ha, rfl⟩ := Option.map_eq_some_iff.1 hs
    exact agent (stepClear_frames (ownRegister_emits hostname) (ownRegister_taint hostname _) ha hframes).1
  | tick now => obtain rfl := Option.some.inj hs; exact agent ⟨hframes.out, hframes.tasks, hframes.clears⟩

end

/-! ### The statuses of a process -/

/-- What a frame tells of an instance passes `P`. -/
def Vouched (P : String → InstanceState → Prop) (frame : AgentMessage) : Prop := ∀ id, ∀ v ∈ tells id frame, P id v

/-- All that a process holds to tell passes `P`. -/
structure Node.Vouches (P : String → InstanceState → Prop) (n : Node) : Prop where
  holds : n.Holds (Vouched P)
  telling : ∀ id, ∀ v ∈ n.agent.telling id, P id v

theorem vouched_silent {P : String → InstanceState → Prop} {frame : AgentMessage}
    (h : AgentMessage.statuses frame = []) : Vouched P frame := by
  intro id v hv
  rw [tells, h] at hv
  cases hv

section
variable {P P' : String → InstanceState → Prop} {X : Ext} {n n' : Node}

theorem Vouched.mono (h : ∀ id v, P id v → P' id v) {frame : AgentMessage} (hf : Vouched P frame) : Vouched P' frame :=
  fun id v hv => h id v (hf id v hv)

theorem Node.Vouches.mono (h : ∀ id v, P id v → P' id v) (hn : n.Vouches P) : n.Vouches P' :=
  ⟨hn.holds.mono fun _ => Vouched.mono h, fun id v hv => h id v (hn.telling id v hv)⟩

/-- Of the frames that a session makes only the report tells anything, and it tells the view. -/
theorem Makes.vouched (hshows : ∀ id, P id (n.agent.shows id)) {frame : AgentMessage} {next : Stage}
    (h : Makes n frame next) : Vouched P frame := by
  cases h with
  | register | heartbeat => exact vouched_silent rfl
  | taint => exact vouched_silent (taintStatusFrame_statuses _ _)
  | report =>
    intro id v hv
    rcases reportFrame_tells n.agent n.registeredMs id with hr | ⟨-, hr⟩
    · rw [hr] at hv
      cases hv
    · rw [hr, List.mem_singleton] at hv
      rw [hv]
      exact hshows id

/-- **What a step of the process does to what it holds to tell.** -/
theorem Node.Vouches.step (hr : Reach (nodeLts X) n) (hn : n.Vouches P) (hmono : ∀ id v, P id v → P' id v)
    (hshows : ∀ id, P' id (n'.agent.shows id)) {label : NodeLabel} (h : nodeStep X n label = some n') :
    n'.Vouches P' ∧ ∃ frames, n'.sent = n.sent ++ frames ∧ ∀ frame ∈ frames, Vouched P' frame := by
  have hn := hn.mono hmono
  have unsent : n'.sent = n.sent → ∃ frames, n'.sent = n.sent ++ frames ∧ ∀ frame ∈ frames, Vouched P' frame :=
    fun hs => ⟨[], by rw [hs, List.append_nil], by simp⟩
  cases label with
  | session label =>
    have hstep : sessionStep n label = some n' := h
    obtain ⟨hholds, hsent⟩ := hn.holds.session
      (fun _ _ hm => hm.vouched fun id => (sessionStep_told hstep id).1 ▸ hshows id) hstep
    exact ⟨⟨hholds, fun id v hv => hn.telling id v ((sessionStep_told hstep id).2 ▸ hv)⟩, hsent⟩
  | tick now =>
    obtain rfl := Option.some.inj h
    exact ⟨⟨⟨hn.holds.startup, hn.holds.sending, hn.holds.carry, hn.holds.out⟩, hn.telling⟩, unsent rfl⟩
  | clear i choice =>
    obtain ⟨a, hstep, rfl⟩ := Option.map_eq_some_iff.1 h
    obtain ⟨-, hinst, more, hout, hquiet⟩ := stepClear_silent (reach_silent (reach_agent hr)) hstep
    refine ⟨⟨⟨hn.holds.startup, hn.holds.sending, hn.holds.carry, fun frame hf => ?_⟩,
      fun id v hv => hn.telling id v ?_⟩, unsent rfl⟩
    · rw [hout] at hf
      rcases List.mem_append.1 hf with hf | hf
      · exact hn.holds.out frame hf
      · exact vouched_silent (hquiet frame hf)
    · rwa [← (Supervisor.told_of_lookup n.agent a (congrArg (AList.lookup id) hinst)).2]
  | task id' choice =>
    obtain ⟨a, hstep, rfl⟩ := Option.map_eq_some_iff.1 h
    have told : ∀ id, ∃ more, a.ctx.out = n.agent.ctx.out ++ more ∧ n.agent.Told id a more :=
      fun id => stepInstance_told (reach_candid (reach_agent hr)) hstep
    refine ⟨⟨⟨hn.holds.startup, hn.holds.sending, hn.holds.carry, fun frame hf id v hv => ?_⟩, fun id v hv => ?_⟩,
      unsent rfl⟩
    · obtain ⟨more, hout, htold⟩ := told id
      rw [hout] at hf
      rcases List.mem_append.1 hf with hf | hf
      · exact hn.holds.out frame hf id v hv
      · cases htold with
        | still _ ht =>
          exact hn.telling id v (ht ▸ List.mem_append_left _ (List.mem_flatMap.2 ⟨frame, hf, hv⟩))
        | moves _ hnone =>
          rw [hnone] at hf
          cases hf
    · obtain ⟨more, -, htold⟩ := told id
      cases htold with
      | still _ ht => exact hn.telling id v (ht ▸ List.mem_append_right _ hv)
      | moves _ _ _ ht =>
        rw [ht, List.mem_singleton] at hv
        rw [hv]
        exact hshows id

/-! ## The frames of the replay -/

/-- What a frame tells rests on nothing. -/
def Unearned (frame : AgentMessage) : Prop := Vouched (fun _ v => InstanceState.basis v = []) frame

theorem status_unearned {entry : JournalEntry} {state : InstanceState} {reason : Option String} {ts : Int}
    (h : InstanceState.basis state = []) : Unearned (entry.status state reason ts) := by
  intro id v hv
  unfold JournalEntry.status at hv
  simp only [tells, statusFrame, AgentMessage.statuses, List.filterMap_cons, List.filterMap_nil, stateFor,
    fromWireI32_toWireI32, Except.toOption] at hv
  split at hv
  next => cases hv
  next w hw =>
    split at hw
    · obtain rfl := Option.some.inj hw
      rwa [List.mem_singleton.1 hv]
    · cases hw

/-- The replay of an entry reports `RECOVERING`, and `ABORTED` or `ERROR` at its end. -/
theorem replayEntry_unearned {timeoutSecs : UInt64} {entry : JournalEntry} {now : Int} {env : Nat → Answer}
    {r : Replayed} (hr : ∀ frame ∈ r.frames, Unearned frame) :
    ∀ frame ∈ (replayEntry X timeoutSecs entry now env r).result.frames, Unearned frame := by
  intro frame hf
  obtain ⟨attempts, ok, h⟩ := replayEntry_course X timeoutSecs entry now env r
  obtain ⟨first, mark, remove, last, reason, telemetry, htell, -, -, -, hframes⟩ := h.reported
  have hfinal : InstanceState.basis (replayEntry X timeoutSecs entry now env r).state.instanceState = [] := by
    rw [h.state, replayOutcome]
    split
    · split <;> rfl
    · rfl
  rw [hframes] at hf
  simp only [List.mem_append, List.mem_cons, List.not_mem_nil, or_false] at hf
  rcases hf with ((hf | rfl | hf) | hf) | rfl
  · exact hr frame hf
  · exact status_unearned rfl
  · obtain ⟨line, rfl⟩ := htell frame hf
    exact vouched_silent rfl
  · cases ok with
    | true => cases hf
    | false =>
      obtain rfl := List.mem_singleton.1 hf
      exact vouched_silent (taintStatusFrame_statuses _ _)
  · exact status_unearned hfinal

theorem replayEntries_unearned {timeoutSecs : UInt64} {now : Int} {entries : List (Except String JournalEntry)}
    {env : Nat → Nat → Answer} {r : Replayed} (hr : ∀ frame ∈ r.frames, Unearned frame) :
    ∀ frame ∈ (replayEntries X timeoutSecs now entries env r).frames, Unearned frame := by
  induction entries generalizing env r with
  | nil => exact hr
  | cons item rest ih =>
    cases item with
    | ok entry => exact ih (replayEntry_unearned hr)
    | error e =>
      refine ih fun frame hf => ?_
      rcases List.mem_append.1 hf with hf | hf
      · exact hr frame (Replayed.mark_frames r _ _ ▸ hf)
      · obtain rfl := List.mem_singleton.1 hf
        exact vouched_silent (taintStatusFrame_statuses _ _)

theorem replay_unearned (b : Boot) : ∀ frame ∈ (b.replay X).frames, Unearned frame := by
  unfold Boot.replay replayJournal
  cases b.entries with
  | error e => simp
  | ok entries => exact replayEntries_unearned (by simp)

/-- A new process holds the statuses of its replay. -/
theorem Node.boot_vouches (b : Boot) (hostname : String) (hP : ∀ id v, InstanceState.basis v = [] → P id v) :
    (Node.boot X b hostname).Vouches P where
  holds := ⟨fun frame hf => (replay_unearned b frame hf).mono hP, fun _ _ _ h => (by cases h),
    fun _ h => (by cases h), fun _ h => (by cases h)⟩
  telling id v h := by cases h

end

end FaultForge.Agent
