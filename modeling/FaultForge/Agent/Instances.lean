import FaultForge.Agent.Session

/-!
# The instances of a process (supervisor.rs:150-262, 543-670)

`nodeStep_instances` says what a step of the process does to its instances, and which frame of the master it takes for
it; `nodeStep_each` is the invariant rule that follows. A task that has been asked to abort carries the request until it
acts on it, and no task makes one up (`taskStep_asked`).
-/
namespace FaultForge.Agent

open Lts

/-! ## What a step does to the instances -/

/-- What a step of the process does to its instances, and to what they have shown. -/
inductive InstancesStep (X : Ext) (a : Supervisor) (label : NodeLabel) (a' : Supervisor) : Prop
  | still : a'.instances = a.instances → a'.log = a.log → InstancesStep X a label a'
  | spawn (run : RunFault) : label = .session (.recv (.runFault run)) →
      a'.instances = a.instances.insert run.instanceId (.spawn run) → a'.log = a.log → InstancesStep X a label a'
  | abort {id : String} {t : Task} : label = .session (.recv (.abortFault id)) → a.instances.lookup id = some t →
      a'.instances = a.instances.insert id { t with stopRx := t.stopRx ++ [.operatorAbort] } → a'.log = a.log →
      InstancesStep X a label a'
  | task {id : String} {t t' : Task} {ctx : Ctx} {choice : Choice} {obs : List Obs} :
      a.instances.lookup id = some t → taskStep X a.ctx t choice = some (ctx, t', obs) →
      a'.instances = a.instances.insert id t' → a'.log = obs.map (fun o => (id, o)) ++ a.log →
      InstancesStep X a label a'

theorem dispatch_instances (X : Ext) (a : Supervisor) (f : ServerMessage) :
    InstancesStep X a (.session (.recv f)) (dispatch a f) := by
  cases f with
  | runFault run =>
    simp only [dispatch, handleRunFault]
    split
    · exact .still rfl rfl
    · split
      · exact .still rfl rfl
      · exact .spawn run rfl rfl rfl
  | abortFault id =>
    simp only [dispatch, handleAbortFault]
    split
    next t ht => exact .abort rfl ht rfl rfl
    next => exact .still rfl rfl
  | clearTaint | heartbeatAck | registerAck => exact .still rfl rfl

section
variable {X : Ext} {n n' : Node} {label : NodeLabel}

theorem sessionStep_instances {label : SessionLabel} (h : sessionStep n label = some n') :
    InstancesStep X n.agent (.session label) n'.agent := by
  have same : ∀ {m : Node}, some m = some n' → m.agent = n.agent → InstancesStep X n.agent (.session label) n'.agent :=
    fun he hm => Option.some.inj he ▸ .still (by rw [hm]) (by rw [hm])
  have ended : ∀ {m : Node}, some m.endSession = some n' → m.agent = n.agent →
      InstancesStep X n.agent (.session label) n'.agent := fun {m} he hm => by
    obtain rfl := Option.some.inj he
    have hkept : m.endSession.agent.instances = m.agent.instances ∧ m.endSession.agent.log = m.agent.log := by
      unfold Node.endSession
      dsimp only
      split <;> exact ⟨rfl, rfl⟩
    exact .still (hkept.1.trans (by rw [hm])) (hkept.2.trans (by rw [hm]))
  unfold sessionStep at h
  split at h
  case h_3 | h_9 | h_15 => exact ended h rfl
  case h_6 frame keep next hpc => exact ended h (n.keepFrame_agent frame keep)
  case h_7 interval hpc =>
    cases hi : interpretRegisterAck interval with
    | none => rw [hi] at h; exact ended h rfl
    | some secs => rw [hi] at h; exact Option.some.inj h ▸ .still rfl rfl
  case h_12 | h_13 => split at h <;> exact same h rfl
  case h_14 f hpc => exact Option.some.inj h ▸ dispatch_instances X n.agent f
  case h_17 =>
    split at h
    · cases h
    · exact Option.some.inj h ▸ .still rfl rfl
  case h_18 => cases h
  all_goals exact same h rfl

theorem nodeStep_instances (h : nodeStep X n label = some n') : InstancesStep X n.agent label n'.agent := by
  cases label with
  | session label => exact sessionStep_instances h
  | task id choice =>
    obtain ⟨a, ha, rfl⟩ := Option.map_eq_some_iff.1 h
    obtain ⟨t, ctx, t', obs, ht, hstep, rfl⟩ := stepInstance_some ha
    exact .task ht hstep rfl rfl
  | clear i choice =>
    obtain ⟨a, ha, rfl⟩ := Option.map_eq_some_iff.1 h
    obtain ⟨c, ctx, c', -, -, rfl⟩ := stepClear_some ha
    exact .still rfl rfl
  | tick now => obtain rfl := Option.some.inj h; exact .still rfl rfl

theorem nodeStep_seen (h : nodeStep X n label = some n') (id : String) :
    (n.agent.seen id).Sublist (n'.agent.seen id) := by
  unfold Supervisor.seen
  cases nodeStep_instances h with
  | still _ hlog | spawn _ _ _ hlog | abort _ _ _ hlog => rw [hlog]
  | task _ _ _ hlog =>
    rw [hlog, List.filter_append, List.map_append]
    exact List.sublist_append_right _ _

/-- **The rule for the instances of a process**: `P` of a task that the master has ordered, kept by an abort that it has
sent and by the steps of the task. -/
theorem nodeStep_each {P P' : String → Task → Prop} (h : nodeStep X n label = some n')
    (hP : ∀ id t, n.agent.instances.lookup id = some t → P id t) (hmono : ∀ id t, P id t → P' id t)
    (hspawn : ∀ run, label = .session (.recv (.runFault run)) → P' run.instanceId (.spawn run))
    (habort : ∀ id t, label = .session (.recv (.abortFault id)) → P id t →
      P' id { t with stopRx := t.stopRx ++ [.operatorAbort] })
    (htask : ∀ id ctx ctx' t t' choice obs, P id t → taskStep X ctx t choice = some (ctx', t', obs) → P' id t') :
    ∀ id t, n'.agent.instances.lookup id = some t → P' id t := by
  have insert : ∀ {id : String} {t : Task},
      n'.agent.instances = n.agent.instances.insert id t → P' id t →
      ∀ id' t', n'.agent.instances.lookup id' = some t' → P' id' t' := by
    intro id t he ht id' t' hl
    rw [he] at hl
    by_cases hid : id' = id
    · subst hid
      rw [AList.lookup_insert] at hl
      exact Option.some.inj hl ▸ ht
    · rw [AList.lookup_insert_ne hid] at hl
      exact hmono id' t' (hP id' t' hl)
  cases nodeStep_instances h with
  | still he =>
    intro id t hl
    rw [he] at hl
    exact hmono id t (hP id t hl)
  | spawn run hlabel he => exact insert he (hspawn run hlabel)
  | abort hlabel ht he => exact insert he (habort _ _ hlabel (hP _ _ ht))
  | task ht hstep he => exact insert he (htask _ _ _ _ _ _ _ (hP _ _ ht) hstep)

end

/-! ## Abort requests -/

/-- The stop that a state waits to act on. -/
def State.stop : State → Option StopCause
  | .preflightInstall stop | .preflightRuntime stop | .writingJournal stop | .injecting stop => stop
  | _ => none

/-- The task has been asked to abort, and has not acted on it yet. -/
def Task.Asked (t : Task) : Prop :=
  .operatorAbort ∈ t.stopRx ∨ .stopRequested .operatorAbort ∈ t.queue ∨ t.state.stop = some .operatorAbort

section
variable {X : Ext} {ctx ctx' : Ctx} {t t' : Task} {choice : Choice} {obs : List Obs}

theorem or_operatorAbort {stop : Option StopCause} {cause : StopCause}
    (h : stop.or (some cause) = some .operatorAbort) : stop = some .operatorAbort ∨ cause = .operatorAbort := by
  cases stop with
  | none => exact .inr (Option.some.inj h)
  | some c => exact .inl h

theorem stepPreflight_stop (which : Phase) (stop : Option StopCause) (e : Event)
    (h : (stepPreflight which stop e).1.stop = some .operatorAbort) :
    stop = some .operatorAbort ∨ e = .stopRequested .operatorAbort := by
  have rebuild : ∀ stop, (rebuildPreflight which stop).stop = stop := fun _ => by cases which <;> rfl
  unfold stepPreflight at h
  split at h
  next cause =>
    rw [rebuild] at h
    exact (or_operatorAbort h).imp_right (congrArg Event.stopRequested)
  next =>
    split at h
    · cases h
    · cases which <;> cases h
  iterate 3 cases h
  next => exact .inl ((rebuild stop).symm.trans h)

theorem stepRecovering_stop (rec : Recovery) (e : Event) : (stepRecovering rec e).1.stop = none := by
  unfold stepRecovering recoveryFailure
  split
  · rfl
  · split
    · split
      · cases rec.outcome <;> rfl
      · rfl
    · rfl
  all_goals first | rfl | (split <;> first | rfl | (split <;> rfl))

/-- The machine waits to act on a stop that it has been asked for. -/
theorem step_stop (s : State) (e : Event) (h : (step s e).1.stop = some .operatorAbort) :
    s.stop = some .operatorAbort ∨ e = .stopRequested .operatorAbort := by
  cases s with
  | pending =>
    simp only [step, stepPending] at h
    split at h <;> cases h
  | preflightInstall stop => exact stepPreflight_stop .install stop e h
  | preflightRuntime stop => exact stepPreflight_stop .runtime stop e h
  | writingJournal stop =>
    simp only [step, stepWritingJournal] at h
    split at h
    next cause => exact (or_operatorAbort h).imp_right (congrArg Event.stopRequested)
    next => split at h <;> cases h
    next => cases h
    next => exact .inl h
  | injecting stop =>
    simp only [step, stepInjecting] at h
    split at h
    next cause => exact (or_operatorAbort h).imp_right (congrArg Event.stopRequested)
    next => split at h <;> cases h
    iterate 4 cases h
    next => exact .inl h
  | active => cases e <;> cases h
  | recovering rec =>
    replace h : (stepRecovering rec e).1.stop = _ := h
    rw [stepRecovering_stop] at h
    cases h
  | done | aborted | error => cases h

theorem consume_asked {now : Int} {event : Event} {queue : List Event} (h : (consume now t event queue).Asked) :
    .operatorAbort ∈ t.stopRx ∨ .stopRequested .operatorAbort ∈ queue ∨ t.state.stop = some .operatorAbort ∨
      event = .stopRequested .operatorAbort :=
  h.imp_right (Or.imp_right (step_stop t.state event))

/-- A step takes stops out of the channel and puts none in. -/
theorem taskStep_stopRx (h : taskStep X ctx t choice = some (ctx', t', obs)) : t'.stopRx.Sublist t.stopRx := by
  have moved : ∀ {t₁ : Task}, some (ctx, t₁, []) = some (ctx', t', obs) → t₁.stopRx.Sublist t.stopRx →
      t'.stopRx.Sublist t.stopRx := by
    intro t₁ he hsub
    obtain ⟨-, he⟩ := Prod.mk.inj (Option.some.inj he)
    exact (Prod.mk.inj he).1 ▸ hsub
  have waiting : t.pc = .waiting → t'.stopRx.Sublist t.stopRx := by
    intro hpc
    simp only [taskStep, hpc] at h
    cases choice with
    | go =>
      dsimp only at h
      split at h <;> exact moved h (List.Sublist.refl _)
    | _ => cases h
  have armed : ∀ deadlineMs cause, t.pc = .armed deadlineMs cause → t'.stopRx.Sublist t.stopRx := by
    intro deadlineMs cause hpc
    simp only [taskStep, hpc] at h
    cases choice with
    | fire =>
      dsimp only at h
      split at h
      · exact moved h (List.Sublist.refl _)
      · cases h
    | changed =>
      dsimp only at h
      exact moved h (List.Sublist.refl _)
    | recvStop =>
      dsimp only at h
      split at h
      next hrx => exact moved h (hrx ▸ List.sublist_cons_self _ _)
      next => cases h
    | _ => cases h
  cases taskStep_cases h with
  | stopRunning hpc hrx => exact hrx ▸ List.sublist_cons_self _ _
  | stop cause stopRx hpc =>
    rcases hpc with hpc | ⟨deadlineMs, c, hpc⟩
    · exact waiting hpc
    · exact armed deadlineMs c hpc
  | _ => exact List.Sublist.refl _

/-- **A step of a task makes up no abort request.** -/
theorem taskStep_asked (h : taskStep X ctx t choice = some (ctx', t', obs)) (hs : t.Shape) (ha : t'.Asked) :
    t.Asked := by
  rcases ha with ha | ha
  · exact .inl ((taskStep_stopRx h).mem ha)
  have pushed : ∀ (effects : List Effect) {event : Event}, event.answers ≠ none →
      (.stopRequested .operatorAbort ∈ (({ t with effects } : Task).push event).queue ∨
        (({ t with effects } : Task).push event).state.stop = some .operatorAbort) → t.Asked := by
    intro effects event he ha
    rcases ha with ha | ha
    · rcases List.mem_append.1 ha with ha | ha
      · exact .inr (.inl ha)
      · rw [← List.mem_singleton.1 ha] at he
        exact absurd rfl he
    · exact .inr (.inr ha)
  cases taskStep_cases h with
  | setupDone params hpc he =>
    rcases ha with ha | ha
    · rw [← List.mem_singleton.1 ha] at he
      cases he
    · exact .inr (.inr ha)
  | write | writeFailed => exact pushed _ (by simp [Event.answers]) ha
  | refused hpc he => obtain ⟨reason, rfl | rfl⟩ := he <;> exact pushed _ (by simp [Event.answers]) ha
  | lost => exact pushed _ (by simp [Event.answers]) ha
  | @forwarded event hpc =>
    have hf : t.InFlight event.answers := by simpa only [Task.Shape, hpc] using hs
    exact pushed t.effects hf.2.1 ha
  | @next event queue hpc heff hq =>
    rcases consume_asked (.inr ha) with ha | ha | ha | rfl
    · exact .inl ha
    · exact .inr (.inl (hq ▸ List.mem_cons_of_mem _ ha))
    · exact .inr (.inr ha)
    · exact .inr (.inl (hq ▸ List.mem_cons_self))
  | wedged hpc heff hq hterm hact => exact absurd (hs.unwedged hpc heff hq hterm) hact
  | @stopRunning _ _ cause stopRx hpc hrx =>
    rcases ha with ha | ha
    · rcases List.mem_cons.1 ha with he | ha
      · obtain rfl := Event.stopRequested.inj he
        exact .inl (hrx ▸ List.mem_cons_self)
      · exact .inr (.inl ha)
    · exact .inr (.inr ha)
  | stop cause stopRx hpc =>
    obtain ⟨hact, hq, -⟩ := hs.active hpc
    rcases ha with ha | ha
    · exact .inr (.inl ha)
    · replace ha : (step t.state (.stopRequested cause)).1.stop = some .operatorAbort := ha
      rw [hact] at ha
      cases ha
  | _ => exact .inr ha

end

end FaultForge.Agent
