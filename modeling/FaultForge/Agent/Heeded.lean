import FaultForge.Agent.CrashSafe

/-!
# A stop before inject (supervisor.rs:425-523, 642-668; machine.rs:310-362, 474-519)

The machine keeps a stop that comes before `inject` and aborts with it, "a stop that arrived mid-write, honoured before
injecting" (machine.rs:116) included. The shell reads the stop channel only while a plugin process runs: what arrives
after the runtime preflight, while telemetry is forwarded, the journal is written or the digest is checked again, stays
unread, and so does what the `select!` passes over when the process ends. `abort_unread` is such a run.
**`abort_heeded`** says that a stop prevents `inject` in every run in which the digest check does not let `inject`
through while an `OperatorAbort` is unread (`overlooks`).

| here | what it says |
| --- | --- |
| `Task.Heeds` | where a stop is, and that `inject` is still ahead or given up |
| `TaskStep.heeds` | a step of the task that spawns no `inject` keeps it |
| `Filed` | the entry is on disk only while the machine will still remove it |
-/
namespace FaultForge.Agent

open Lts

/-! ## Before inject -/

def State.early : State → Bool
  | .pending | .preflightInstall _ | .preflightRuntime _ | .writingJournal _ => true
  | _ => false

def State.isInjecting : State → Bool
  | .injecting _ => true
  | _ => false

def Pc.verifying : Pc → Bool
  | .verify .. => true
  | _ => false

/-- The `inject` process is still to be spawned: the machine has not asked for it, or the shell has not come to it, or
its digest is being checked. -/
def Task.ahead (t : Task) : Bool :=
  t.state.early || (t.state.isInjecting && (!t.effects.isEmpty || t.pc.verifying))

/-- The digest check lets `inject` through while an `OperatorAbort` has not been read, or its task is lost; or the
removal of the journal entry fails. -/
def overlooks (c : Instance) : InstanceLabel → Bool
  | .task choice =>
    match c.task.pc, choice, c.task.effects with
    | .verify .inject _, .resolved result, _ =>
      c.task.stopRx.contains .operatorAbort && (gate c.task.run.pluginDigest result).isOk
    | .verify .inject _, .joinError _, _ => true
    | .loop, .io (some _), .removeJournal :: _ => true
    | _, _, _ => false
  | _ => false

/-- An instance, and whether an `OperatorAbort` was placed on its stop channel before its `inject` process was
spawned. -/
def abortLts (X : Ext) : System (Watched Instance Bool) InstanceLabel :=
  watch (instanceLts X) (fun _ => false) fun c placed label _ => match label with
    | .stop .operatorAbort => placed || !c.seen.contains (.spawned .inject)
    | _ => placed

/-- `inject` is never spawned, and the instance ends `ABORTED` without a journal entry. -/
def Heeded (w : Watched Instance Bool) : Prop :=
  w.seen = true → .spawned .inject ∉ w.state.seen ∧
    (w.state.task.pc = .finished → w.state.task.state = .aborted ∧ (w.state.stale = false → w.state.entry = none))

/-! ## Where a stop is -/

/-- `inject` has not been spawned; `placed` says whether there is a stop to heed. -/
inductive Task.Heeds (placed : Bool) (t : Task) : Prop
  | ahead : (placed = true → .operatorAbort ∈ t.stopRx) → t.ahead = true → Heeds placed t
  | queued (which : Phase) (stop : Option StopCause) (cause : StopCause) : t.state = rebuildPreflight which stop →
      .stopRequested cause ∈ t.queue → Heeds placed t
  | noted (which : Phase) (cause : StopCause) : t.state = rebuildPreflight which (some cause) → Heeds placed t
  /-- The digest check has refused to spawn `inject`. -/
  | refused (stop : Option StopCause) (reason : String) : t.state = .injecting stop →
      .invokeRejected .inject reason ∈ t.queue → Heeds placed t
  | aborted : t.state = .aborted → Heeds placed t

section
variable {X : Ext} {ctx ctx' : Ctx} {t t' : Task} {obs : List Obs} {placed : Bool}

theorem State.early_command {s : State} {command : PluginCommand} (h : s.early = true)
    (ha : s.awaits = some (.command command)) :
    command = .preflight ∧ ∃ which stop, s = rebuildPreflight which stop := by
  cases s with
  | preflightInstall stop =>
    obtain rfl := Awaited.command.inj (Option.some.inj ha)
    exact ⟨rfl, .install, stop, rfl⟩
  | preflightRuntime stop =>
    obtain rfl := Awaited.command.inj (Option.some.inj ha)
    exact ⟨rfl, .runtime, stop, rfl⟩
  | pending | writingJournal => cases ha
  | _ => cases h

theorem State.isInjecting_iff {s : State} : s.isInjecting = true ↔ ∃ stop, s = .injecting stop := by
  cases s <;> simp [State.isInjecting]

theorem Task.ahead_iff : t.ahead = true ↔
    t.state.early = true ∨ (∃ stop, t.state = .injecting stop) ∧ (t.effects ≠ [] ∨ t.pc.verifying = true) := by
  simp [Task.ahead, State.isInjecting_iff]

theorem Task.not_ahead (he : t.state.early = false) (hi : t.state.isInjecting = false) : t.ahead = false := by
  simp [Task.ahead, he, hi]

/-- In the loop with nothing to perform, `inject` has not been asked for. -/
theorem Task.ahead_idle (h : t.ahead = true) (heff : t.effects = []) (hpc : t.pc.verifying = false) :
    t.state.early = true := by
  rcases Task.ahead_iff.1 h with he | ⟨-, hne | hv⟩
  · exact he
  · exact absurd heff hne
  · rw [hpc] at hv
    cases hv

theorem Task.ahead_move (h : t.ahead = true) (hstate : t'.state = t.state)
    (hmore : t.effects ≠ [] ∨ t.pc.verifying = true → t'.effects ≠ [] ∨ t'.pc.verifying = true) : t'.ahead = true := by
  rw [Task.ahead_iff] at h ⊢
  rw [hstate]
  exact h.imp_right fun hi => ⟨hi.1, hmore hi.2⟩

/-- A step that keeps the state and the channel, and every event of the queue. -/
theorem Task.Heeds.move (h : t.Heeds placed) (hstate : t'.state = t.state) (hqueue : t.queue ⊆ t'.queue)
    (hrx : t'.stopRx = t.stopRx) (hahead : t.ahead = true → t'.ahead = true) : t'.Heeds placed := by
  cases h with
  | ahead hm ha => exact .ahead (hrx ▸ hm) (hahead ha)
  | queued which stop cause hs hq => exact .queued which stop cause (hstate.trans hs) (hqueue hq)
  | noted which cause hs => exact .noted which cause (hstate.trans hs)
  | refused stop reason hs hq => exact .refused stop reason (hstate.trans hs) (hqueue hq)
  | aborted hs => exact .aborted (hstate.trans hs)

/-- An effect that asks for nothing is never the last one before `inject`. -/
theorem Task.InLoop.ahead_pop (h : t.InLoop) {effect : Effect} {rest : List Effect} (heff : t.effects = effect :: rest)
    (hasks : effect.asks = none) (ha : t.ahead = true) {pc : Pc} :
    ({ t with effects := rest, pc } : Task).ahead = true := by
  rcases Task.ahead_iff.1 ha with he | ⟨⟨stop, hs⟩, -⟩
  · exact Task.ahead_iff.2 (.inl he)
  · refine Task.ahead_iff.2 (.inr ⟨⟨stop, hs⟩, .inl ?_⟩)
    rintro (rfl : rest = [])
    obtain ⟨-, hl⟩ := h.of_effect heff
    have hlast := hl.tail hasks
    rw [hs] at hlast
    cases hlast

/-! ## The machine -/

theorem Trans.early {s s' : State} {e : Event} {effects : List Effect} (h : Trans s e s' effects)
    (hs : s.early = true) :
    s'.early = true ∨ ((∃ stop, s' = .injecting stop) ∧ effects ≠ []) ∨ s' = .aborted := by
  cases h with
  | absorbed e ht => cases s <;> simp [State.early, State.isTerminal] at hs ht
  | stopPreflight which | preflightStopped which | preflightFailed which =>
    cases which <;> first | exact .inl rfl | exact .inr (.inr rfl)
  | inject => exact .inr (.inl ⟨⟨none, rfl⟩, by simp⟩)
  | setupOk | installOk | runtimeOk | stopJournal => exact .inl rfl
  | setupFailed | stopPending | journalStopped | journalFailed => exact .inr (.inr rfl)
  | _ => cases hs

theorem step_stop_preflight (which : Phase) (stop : Option StopCause) (cause : StopCause) :
    (step (rebuildPreflight which stop) (.stopRequested cause)).1 = rebuildPreflight which (stop.or (some cause)) := by
  cases which <;> rfl

/-- A recorded stop stays recorded until the preflight ends, and then the instance is aborted. -/
theorem step_noted (which : Phase) (cause : StopCause) (e : Event) :
    (step (rebuildPreflight which (some cause)) e).1 = rebuildPreflight which (some cause) ∨
      (step (rebuildPreflight which (some cause)) e).1 = .aborted := by
  have hstep : step (rebuildPreflight which (some cause)) e = stepPreflight which (some cause) e := by
    cases which <;> rfl
  rw [hstep]
  unfold stepPreflight
  split
  · exact .inl rfl
  · exact .inr rfl
  · exact .inr rfl
  · exact .inr rfl
  · exact .inr rfl
  · exact .inl rfl

/-! ## The task -/

theorem consume_heeds {now : Int} {event : Event} {queue : List Event} (hl : t.InLoop) (hpc : t.pc = .loop)
    (heff : t.effects = []) (hq : t.queue = event :: queue) (h : t.Heeds placed) :
    (consume now t event queue).Heeds placed := by
  obtain ⟨-, hlast, -⟩ := hl.of_event hq
  cases h with
  | ahead hm ha =>
    have hearly : t.state.early = true := t.ahead_idle ha heff (by rw [hpc]; rfl)
    rcases (hl.fits hq).early hearly with he | ⟨hi, hne⟩ | hab
    · exact .ahead hm (Task.ahead_iff.2 (.inl he))
    · exact .ahead hm (Task.ahead_iff.2 (.inr ⟨hi, .inl hne⟩))
    · exact .aborted hab
  | queued which stop cause hs hmem =>
    rw [hq] at hmem
    cases event with
    | stopRequested c =>
      have hstate : (consume now t (.stopRequested c) queue).state = rebuildPreflight which (stop.or (some c)) := by
        show (step t.state _).1 = _
        rw [hs]
        exact step_stop_preflight which stop c
      cases stop with
      | none => exact .noted which c hstate
      | some c' => exact .noted which c' hstate
    | _ =>
      -- A result is the last event, so the stop cannot be behind it.
      rcases hlast.head with ⟨-, -, hnil⟩ | ⟨hstop, -⟩
      · rw [hnil] at hmem
        simp at hmem
      · cases hstop
  | noted which cause hs =>
    have hstate : (consume now t event queue).state = (step (rebuildPreflight which (some cause)) event).1 := by
      show (step t.state event).1 = _
      rw [hs]
    rcases step_noted which cause event with hn | ha
    · exact .noted which cause (hstate.trans hn)
    · exact .aborted (hstate.trans ha)
  | refused stop reason hs hmem =>
    rw [hq] at hmem
    have hstate : (consume now t event queue).state = (stepInjecting stop event).1 := by
      show (step t.state event).1 = _
      rw [hs]
      rfl
    rcases List.mem_cons.1 hmem with rfl | hmem'
    · exact .aborted hstate
    · rcases hlast.head with ⟨-, -, hnil⟩ | ⟨hstop, -⟩
      · rw [hnil] at hmem'
        cases hmem'
      · cases event with
        | stopRequested c => exact .refused _ reason hstate hmem'
        | _ => cases hstop
  | aborted hs =>
    refine .aborted ?_
    show (step t.state event).1 = _
    rw [hs]
    rfl

/-- How the digest check before `inject` ends: in a refusal, or with no abort unread. -/
def Answered (t t' : Task) (obs : List Obs) : Prop :=
  ∀ p, t.pc = .verify .inject p → (∃ reason, t' = t.push (.invokeRejected .inject reason)) ∨
    (.operatorAbort ∉ t.stopRx ∧ .spawned .inject ∈ obs)

theorem answered_of_not_overlooks {c : Instance} {choice : Choice} (hg : overlooks c (.task choice) = false)
    (h : taskStep X c.ctx c.task choice = some (ctx', t', obs)) : Answered c.task t' obs := by
  intro p hpc
  simp only [overlooks, hpc] at hg
  simp only [taskStep, hpc] at h
  cases choice with
  | resolved result =>
    dsimp only at h hg
    cases hgate : gate c.task.run.pluginDigest result with
    | ok plugin =>
      rw [hgate] at h hg
      obtain ⟨rfl, rfl, rfl⟩ : c.ctx = ctx' ∧ { c.task with pc := .running .inject p } = t' ∧
        [Obs.spawned .inject] = obs := by simpa using h
      refine .inr ⟨?_, List.mem_singleton_self _⟩
      simpa [Except.isOk, Except.toBool] using hg
    | error reason =>
      rw [hgate] at h
      obtain ⟨-, rfl, -⟩ : c.ctx = ctx' ∧ c.task.push (.invokeRejected .inject reason) = t' ∧ [] = obs := by
        simpa using h
      exact .inl ⟨reason, rfl⟩
  | joinError msg => cases hg
  | _ => cases h

/-- The check runs for the command that the state awaits. -/
theorem Task.InFlight.injecting {command : PluginCommand} (h : t.InFlight (some (.command command)))
    {stop : Option StopCause} (hs : t.state = .injecting stop) : command = .inject := by
  obtain ⟨haw, -⟩ := h
  rw [hs] at haw
  exact (Awaited.command.inj (Option.some.inj haw)).symm

/-- **A step that spawns no `inject` keeps a stop.** -/
theorem TaskStep.heeds (h : TaskStep X ctx t ctx' t' obs) (hs : t.Shape) (hr : Answered t t' obs)
    (hns : .spawned .inject ∉ obs) (hh : t.Heeds placed) : t'.Heeds placed := by
  have idle : ∀ {t' : Task}, t'.state = t.state → t'.effects = t.effects → t.pc.verifying = false →
      t.ahead = true → t'.ahead = true := fun hst he hv ha =>
    t.ahead_move ha hst fun hm => hm.elim (fun hne => .inl (he ▸ hne)) fun hv' => by rw [hv] at hv'; cases hv'
  cases h with
  | start hpc => exact hh.move rfl (List.Subset.refl _) rfl (idle rfl rfl (by rw [hpc]; rfl))
  | @send frame after hpc _ => exact hh.move rfl (List.Subset.refl _) rfl (idle rfl rfl (by rw [hpc]; rfl))
  | setupDone params hpc he =>
    obtain ⟨-, hq, -⟩ : t.state = .pending ∧ t.queue = [] ∧ t.effects = [] := by simpa only [Task.Shape, hpc] using hs
    exact hh.move rfl (by rw [hq]; exact List.nil_subset _) rfl (idle rfl rfl (by rw [hpc]; rfl))
  | emit hpc heff => exact hh.move rfl (List.Subset.refl _) rfl fun ha => (hs.inLoop hpc).ahead_pop heff rfl ha
  | invoke hpc heff =>
    exact hh.move rfl (List.Subset.refl _) rfl fun ha => t.ahead_move ha rfl fun _ => .inr rfl
  | write hpc heff | writeFailed error hpc heff =>
    obtain ⟨stop, hst⟩ := (hs.inLoop hpc).awaits_journal heff
    have hearly : t.state.early = true := by rw [hst]; rfl
    exact hh.move rfl (List.subset_append_left _ _) rfl fun _ => Task.ahead_iff.2 (.inl hearly)
  | remove hpc heff | removeFailed hpc heff =>
    exact hh.move rfl (List.Subset.refl _) rfl fun ha => (hs.inLoop hpc).ahead_pop heff rfl ha
  | mark error hpc heff => exact hh.move rfl (List.Subset.refl _) rfl fun ha => (hs.inLoop hpc).ahead_pop heff rfl ha
  | next hpc heff hq => exact consume_heeds (hs.inLoop hpc) hpc heff hq hh
  | finish hpc heff hq _ | activate hpc heff hq _ =>
    exact hh.move rfl (List.Subset.refl _) rfl (idle rfl rfl (by rw [hpc]; rfl))
  | wedged hpc heff hq hterm hact => exact absurd (hs.unwedged hpc heff hq hterm) hact
  | @spawn command phase hpc =>
    have hf : t.InFlight (some (.command command)) := by simpa only [Task.Shape, hpc] using hs
    cases hh with
    | ahead hm ha =>
      rcases Task.ahead_iff.1 ha with he | ⟨⟨stop, hst⟩, -⟩
      · exact .ahead hm (Task.ahead_iff.2 (.inl he))
      · obtain rfl := hf.injecting hst
        exact absurd (List.mem_singleton_self _) hns
    | queued which stop cause hst hq => exact .queued which stop cause hst hq
    | noted which cause hst => exact .noted which cause hst
    | refused stop reason hst hq => exact .refused stop reason hst hq
    | aborted hst => exact .aborted hst
  | @refused command phase event hpc he =>
    have hf : t.InFlight (some (.command command)) := by simpa only [Task.Shape, hpc] using hs
    cases hh with
    | ahead hm ha =>
      rcases Task.ahead_iff.1 ha with hearly | ⟨⟨stop, hst⟩, -⟩
      · exact .ahead hm (Task.ahead_iff.2 (.inl hearly))
      · obtain rfl := hf.injecting hst
        rcases hr phase hpc with ⟨reason, ht'⟩ | ⟨-, hsp⟩
        · refine .refused stop reason hst ?_
          rw [ht']
          exact List.mem_append_right _ (List.mem_singleton_self _)
        · cases hsp
    | queued which stop cause hst hq => exact .queued which stop cause hst (List.mem_append_left _ hq)
    | noted which cause hst => exact .noted which cause hst
    | refused stop reason hst hq => exact .refused stop reason hst (List.mem_append_left _ hq)
    | aborted hst => exact .aborted hst
  | @stopRunning command phase cause stopRx hpc hrx =>
    have hf : t.InFlight (some (.command command)) := by simpa only [Task.Shape, hpc] using hs
    obtain ⟨haw, -, -, heff, -⟩ := hf
    cases hh with
    | ahead hm ha =>
      have hearly : t.state.early = true := t.ahead_idle ha heff (by rw [hpc]; rfl)
      obtain ⟨-, which, stop, hst⟩ := State.early_command hearly haw
      exact .queued which stop cause hst List.mem_cons_self
    | queued which stop cause hst hq => exact .queued which stop cause hst (List.mem_cons_of_mem _ hq)
    | noted which cause hst => exact .noted which cause hst
    | refused stop reason hst hq => exact .refused stop reason hst (List.mem_cons_of_mem _ hq)
    | aborted hst => exact .aborted hst
  | exit invocation hpc => exact hh.move rfl (List.Subset.refl _) rfl (idle rfl rfl (by rw [hpc]; rfl))
  | lost reason hpc => exact hh.move rfl (List.subset_append_left _ _) rfl (idle rfl rfl (by rw [hpc]; rfl))
  | forward hpc _ | forwardSkip hpc _ =>
    exact hh.move rfl (List.Subset.refl _) rfl (idle rfl rfl (by rw [hpc]; rfl))
  | forwarded hpc => exact hh.move rfl (List.subset_append_left _ _) rfl (idle rfl rfl (by rw [hpc]; rfl))
  | arm d c hpc | rearm hpc => exact hh.move rfl (List.Subset.refl _) rfl (idle rfl rfl (by rw [hpc]; rfl))
  | stop cause stopRx hpc =>
    obtain ⟨hact, -, -⟩ := hs.active hpc
    cases hh with
    | ahead hm ha =>
      rw [Task.not_ahead (by rw [hact]; rfl) (by rw [hact]; rfl)] at ha
      cases ha
    | queued which _ _ hst | noted which _ hst => rw [hact] at hst; cases which <;> cases hst
    | refused _ _ hst | aborted hst => rw [hact] at hst; cases hst
  | reread hpc => exact hh.move rfl (List.Subset.refl _) rfl (idle rfl rfl (by rw [hpc]; rfl))

/-- A task that keeps a stop does not spawn `inject`. -/
theorem TaskStep.not_spawned (h : TaskStep X ctx t ctx' t' obs) (hs : t.Shape) (hr : Answered t t' obs)
    (hh : t.Heeds true) : .spawned .inject ∉ obs := by
  cases h with
  | @spawn command phase hpc =>
    intro hm
    obtain rfl : command = .inject := by simpa using Eq.symm (Obs.spawned.inj (List.mem_singleton.1 hm))
    obtain ⟨haw, -, -, -, hq⟩ : t.InFlight (some (.command .inject)) := by simpa only [Task.Shape, hpc] using hs
    cases hh with
    | ahead hrx ha =>
      rcases hr phase hpc with ⟨reason, he⟩ | ⟨hno, -⟩
      · cases congrArg Task.pc he
      · exact hno (hrx rfl)
    | queued which stop _ hst | noted which _ hst => rw [hst, rebuildPreflight_awaits] at haw; cases haw
    | refused stop reason hst hmem => cases hq _ hmem
    | aborted hst => rw [hst] at haw; cases haw
  | _ => simp

end

/-! ## The journal entry -/

/-- There is no entry on disk before the write, and a machine that aborts removes what it wrote. -/
def Filed (entry : Option JournalEntry) (t : Task) : Prop :=
  match t.state with
  | .pending | .preflightInstall _ | .preflightRuntime _ => entry = none
  | .writingJournal _ => entry = none ∨ .journalWritten ∈ t.queue
  | .aborted => entry = none ∨ .removeJournal ∈ t.effects
  | _ => True

section
variable {X : Ext} {ctx ctx' : Ctx} {t t' : Task} {obs : List Obs} {entry : Option JournalEntry}

theorem Filed.none : Filed none t := by
  unfold Filed
  split
  · rfl
  · rfl
  · rfl
  · exact .inl rfl
  · exact .inl rfl
  · trivial

theorem Filed.move (h : Filed entry t) (hstate : t'.state = t.state) (hqueue : t.queue ⊆ t'.queue)
    (heff : .removeJournal ∈ t.effects → .removeJournal ∈ t'.effects) : Filed entry t' := by
  unfold Filed at *
  rw [hstate]
  split at h
  · exact h
  · exact h
  · exact h
  · exact h.imp_right fun hq => hqueue hq
  · exact h.imp_right heff
  · trivial

theorem Filed.preflight {which : Phase} {stop : Option StopCause} (hs : t.state = rebuildPreflight which stop) :
    Filed entry t ↔ entry = .none := by
  unfold Filed
  rw [hs]
  cases which <;> exact Iff.rfl

/-- One turn of the loop. -/
theorem consume_filed {now : Int} {event : Event} {queue : List Event} (hl : t.InLoop)
    (heff : t.effects = []) (hq : t.queue = event :: queue) (h : Filed entry t) :
    Filed entry (consume now t event queue) := by
  obtain ⟨-, hlast, -⟩ := hl.of_event hq
  have hfit := hl.fits hq
  generalize hs' : (step t.state event).1 = s' at hfit
  generalize he' : (step t.state event).2 = effects at hfit
  have hstate : (consume now t event queue).state = s' := hs'
  have heffects : (consume now t event queue).effects = effects := he'
  have hqueue : (consume now t event queue).queue = queue := rfl
  generalize consume now t event queue = t' at hstate heffects hqueue ⊢
  generalize hs : t.state = s at hfit
  unfold Filed at h ⊢
  rw [hstate, heffects, hqueue]
  rw [hs, hq, heff] at h
  cases hfit with
  | absorbed e ht =>
    cases s' with
    | aborted => exact h
    | done | error => trivial
    | _ => cases ht
  | setupOk | installOk | runtimeOk => first | exact h | exact .inl h
  | setupFailed | stopPending => exact .inl h
  | stopPreflight which => cases which <;> exact h
  | preflightStopped which | preflightFailed which => cases which <;> exact .inl h
  | stopJournal stop cause =>
    refine h.imp_right fun hm => ?_
    rcases List.mem_cons.1 hm with he | hm
    · cases he
    · exact hm
  | journalFailed stop reason =>
    refine .inl (h.resolve_right fun hm => ?_)
    rcases hlast.head with ⟨-, -, rfl⟩ | ⟨he, -⟩
    · cases List.mem_singleton.1 hm
    · cases he
  | journalStopped | injectUnaffected => exact .inr List.mem_cons_self
  | recovered rec _ => cases rec.outcome <;> first | trivial | exact .inr List.mem_cons_self
  | _ => trivial

/-- **Every step but a failed removal keeps it.** -/
theorem TaskStep.filed (h : TaskStep X ctx t ctx' t' obs) (hs : t.Shape) (hok : .removed false ∉ obs)
    (hf : Filed (ctx.journal.lookup t.id) t) : Filed (ctx'.journal.lookup t'.id) t' := by
  cases h with
  | setupDone params hpc he =>
    obtain ⟨-, hq, -⟩ : t.state = .pending ∧ t.queue = [] ∧ t.effects = [] := by simpa only [Task.Shape, hpc] using hs
    exact hf.move rfl (by rw [hq]; exact List.nil_subset _) id
  | emit hpc heff | invoke hpc heff => exact hf.move rfl (List.Subset.refl _) (by rw [heff]; simp)
  | @write rest hpc heff =>
    obtain ⟨stop, hst⟩ := (hs.inLoop hpc).awaits_journal heff
    have hst' : (({ t with effects := rest } : Task).push .journalWritten).state = .writingJournal stop := hst
    unfold Filed
    rw [hst']
    exact .inr (List.mem_append_right _ (List.mem_singleton_self _))
  | writeFailed error hpc heff => exact hf.move rfl (List.subset_append_left _ _) (by rw [heff]; simp [Task.push])
  | remove hpc heff =>
    have hgone : (ctx.journal.erase t.id).lookup t.id = none := AList.lookup_erase _ _
    show Filed ((ctx.journal.erase t.id).lookup t.id) _
    rw [hgone]
    exact Filed.none
  | removeFailed => exact absurd (List.mem_singleton_self _) hok
  | mark error hpc heff =>
    show Filed ((ctx.mark _ error).journal.lookup t.id) _
    rw [ctx.mark_journal]
    exact hf.move rfl (List.Subset.refl _) (by rw [heff]; simp)
  | next hpc heff hq => exact consume_filed (hs.inLoop hpc) heff hq hf
  | wedged hpc heff hq hterm hact => exact absurd (hs.unwedged hpc heff hq hterm) hact
  | stop cause stopRx hpc =>
    obtain ⟨hact, -, -⟩ := hs.active hpc
    unfold Filed
    rw [consume_stopped hact]
    trivial
  | refused | lost | forwarded => exact hf.move rfl (List.subset_append_left _ _) id
  | stopRunning => exact hf.move rfl (List.subset_cons_self _ _) id
  | _ => exact hf.move rfl (List.Subset.refl _) id

end

/-! ## Runs -/

variable {X : Ext}

/-- What holds of an instance and its stop in every run of the theorem. -/
structure Spared (w : Watched Instance Bool) : Prop where
  shape : w.state.task.Shape
  filed : w.state.stale = false → Filed w.state.entry w.state.task
  unspawned : w.seen = true → .spawned .inject ∉ w.state.seen
  heeds : .spawned .inject ∉ w.state.seen → w.state.task.Heeds w.seen

theorem removed_ok {c : Instance} {choice : Choice} {ctx' : Ctx} {t' : Task} {obs : List Obs}
    (hg : overlooks c (.task choice) = false) (h : taskStep X c.ctx c.task choice = some (ctx', t', obs)) :
    .removed false ∉ obs := by
  intro hm
  have hcases := taskStep_cases h
  cases hcases with
  | removeFailed hpc heff =>
    simp only [taskStep, hpc, heff] at h
    simp only [overlooks, hpc, heff] at hg
    cases choice with
    | io error =>
      cases error with
      | none => simp [perform] at h
      | some e => cases hg
    | _ => cases h
  | _ => simp at hm

theorem Spared.start {run : RunFault} {c : Instance} (htask : c.task = .spawn run) (hstale : c.stale = c.entry.isSome) :
    Spared ⟨c, false⟩ where
  shape := by rw [htask]; exact Task.spawn_shape run
  filed hfresh := by
    have hnone : c.entry = none := by rw [hstale] at hfresh; simpa using hfresh
    show Filed c.entry c.task
    rw [hnone]
    exact Filed.none
  unspawned h := by cases h
  heeds _ := .ahead (fun h => by cases h) (Task.ahead_iff.2 (.inl (by rw [htask]; rfl)))

section
variable {w : Watched Instance Bool} {c : Instance}

/-- A step of the task. -/
theorem Spared.task (h : Spared w) {choice : Choice} (hg : overlooks w.state (.task choice) = false) {ctx' : Ctx}
    {t' : Task} {obs : List Obs} (hstep : taskStep X w.state.ctx w.state.task choice = some (ctx', t', obs)) :
    Spared ⟨{ w.state with ctx := ctx', task := t', seen := obs ++ w.state.seen }, w.seen⟩ := by
  have hcases := taskStep_cases hstep
  have hans := answered_of_not_overlooks hg hstep
  refine ⟨hcases.shape h.shape, fun hfresh => hcases.filed h.shape (removed_ok hg hstep) (h.filed hfresh), ?_, ?_⟩
  · intro hseen hm
    rcases List.mem_append.1 hm with hm | hm
    · have hh := h.heeds (h.unspawned hseen)
      rw [show w.seen = true from hseen] at hh
      exact hcases.not_spawned h.shape hans hh hm
    · exact h.unspawned hseen hm
  · intro hns
    have hobs : .spawned .inject ∉ obs := fun hm => hns (List.mem_append_left _ hm)
    exact hcases.heeds h.shape hans hobs (h.heeds fun hm => hns (List.mem_append_right _ hm))

/-- A stop is placed; `placed` says whether it is one to heed. -/
theorem Spared.stop (h : Spared w) (cause : StopCause) {placed : Bool}
    (hplaced : placed = true → w.seen = true ∨ (cause = .operatorAbort ∧ .spawned .inject ∉ w.state.seen)) :
    Spared ⟨{ w.state with task := { w.state.task with stopRx := w.state.task.stopRx ++ [cause] } }, placed⟩ := by
  refine ⟨h.shape, h.filed, ?_, ?_⟩
  · intro hseen
    rcases hplaced hseen with hw | ⟨-, hns⟩
    · exact h.unspawned hw
    · exact hns
  · intro hns
    cases h.heeds hns with
    | ahead hm ha =>
      refine .ahead (fun hp => ?_) ha
      rcases hplaced hp with hw | ⟨rfl, -⟩
      · exact List.mem_append_left _ (hm hw)
      · exact List.mem_append_right _ (List.mem_singleton_self _)
    | queued which stop c hst hq => exact .queued which stop c hst hq
    | noted which c hst => exact .noted which c hst
    | refused stop reason hst hq => exact .refused stop reason hst hq
    | aborted hst => exact .aborted hst

theorem Spared.step {w' : Watched Instance Bool} {label : InstanceLabel} (h : Spared w)
    (hg : overlooks w.state label = false) (hstep : (abortLts X).step w label = some w') : Spared w' := by
  obtain ⟨c', placed'⟩ := w'
  obtain ⟨hc, hseen⟩ := watch_step_some.1 hstep
  dsimp only at hc hseen
  simp only [instanceLts] at hc
  split at hc
  case isTrue => cases hc
  case isFalse =>
    cases label with
    | task choice =>
      obtain ⟨⟨ctx', t', obs⟩, ht, rfl⟩ := Option.map_eq_some_iff.1 hc
      subst hseen
      exact h.task hg ht
    | stop cause =>
      obtain rfl := Option.some.inj hc
      refine h.stop cause fun hp => ?_
      rw [hseen] at hp
      cases cause with
      | operatorAbort =>
        rcases Bool.or_eq_true_iff.1 hp with hw | hns
        · exact .inl hw
        · exact .inr ⟨rfl, by simpa using hns⟩
      | _ => exact .inl hp
    | interfere i =>
      obtain ⟨ctx', hi, rfl⟩ := Option.map_eq_some_iff.1 hc
      subst hseen
      refine ⟨h.shape, fun hfresh => ?_, h.unspawned, h.heeds⟩
      show Filed (ctx'.journal.lookup w.state.task.id) w.state.task
      rw [(Interference.frame hi).1]
      exact h.filed hfresh
    | crash =>
      obtain rfl := Option.some.inj hc
      subst hseen
      exact ⟨h.shape, h.filed, h.unspawned, h.heeds⟩

end

/-- **A stop before `inject` prevents `inject`** in every run in which nothing is overlooked: once an `OperatorAbort`
was placed before the spawn, `inject` is not spawned, and an instance that has ended is `ABORTED`, its entry gone. -/
theorem abort_heeded {X : Ext} {w : Watched Instance Bool}
    (h : ReachIf (abortLts X) (fun w label => overlooks w.state label = false) w) : Heeded w := by
  have hs : Spared w := by
    refine ReachIf.inv (I := fun _ => True) (fun _ _ => trivial) ?_ (fun _ _ _ _ h hg => h.step hg) h
    rintro ⟨c, placed⟩ ⟨⟨run, htask, -, hstale, -⟩, hseen⟩
    obtain rfl : placed = false := hseen
    exact Spared.start htask hstale
  intro hseen
  have hns := hs.unspawned hseen
  refine ⟨hns, fun hpc => ?_⟩
  obtain ⟨hterm, hq, heff⟩ : w.state.task.state.isTerminal ∧ w.state.task.queue = [] ∧ w.state.task.effects = [] := by
    simpa only [Task.Shape, hpc] using hs.shape
  have hab : w.state.task.state = .aborted := by
    cases hs.heeds hns with
    | ahead _ ha =>
      have hearly := Task.ahead_idle ha heff (by rw [hpc]; rfl)
      cases hst : w.state.task.state with
      | aborted => rfl
      | done | error => rw [hst] at hearly; cases hearly
      | _ => rw [hst] at hterm; cases hterm
    | queued which _ _ _ hm => rw [hq] at hm; cases hm
    | noted which _ hst => rw [hst] at hterm; cases which <;> cases hterm
    | refused _ _ _ hm => rw [hq] at hm; cases hm
    | aborted hst => exact hst
  refine ⟨hab, fun hfresh => ?_⟩
  have hf := hs.filed hfresh
  unfold Filed at hf
  rw [hab, heff] at hf
  exact hf.resolve_right (by simp)

/-- The abort comes while the runtime preflight runs, and is read. -/
def abortLabels : List InstanceLabel :=
  (injectChoices.take 13).map .task ++ [.stop .operatorAbort] ++
    [.recvStop, .exit ⟨[], "", .code 0⟩, .go, .go, .go, .go, .go, .go].map .task

theorem abort_heeded_preflight : ∃ w : Watched Instance Bool, w.seen = true ∧ w.state.task.pc = .finished ∧
    .spawned .inject ∉ w.state.seen ∧ w.state.task.state = .aborted ∧ w.state.entry = none := by
  let p : Watched Instance Bool → Bool := fun w =>
    w.seen && decide (w.state.task.pc = .finished) && !w.state.stale
  obtain ⟨w, hw, hp⟩ := reachIf_of_run (L := abortLts plainExt) (g := fun w label => !overlooks w.state label)
    (fun _ _ h => by simpa using h) p (s := ⟨sampleInstance, false⟩) ⟨⟨sampleRun, rfl, rfl, rfl, rfl⟩, rfl⟩ abortLabels
    (by decide +kernel)
  simp only [p, Bool.and_eq_true, Bool.not_eq_true', decide_eq_true_eq] at hp
  obtain ⟨⟨hseen, hpc⟩, hfresh⟩ := hp
  obtain ⟨hns, hend⟩ := abort_heeded hw hseen
  exact ⟨w, hseen, hpc, hns, (hend hpc).1, (hend hpc).2 hfresh⟩

/-- The abort comes before the journal is written: nothing reads the channel until `inject` runs. -/
def unreadLabels : List InstanceLabel :=
  (injectChoices.take 16).map .task ++ [.stop .operatorAbort] ++ (injectChoices.drop 16).map .task

theorem abort_unread : ∃ w : Watched Instance Bool, Reach (abortLts plainExt) w ∧ ¬ Heeded w := by
  let p : Watched Instance Bool → Bool := fun w => w.seen && decide (.spawned .inject ∈ w.state.seen)
  obtain ⟨w, hw, hp⟩ := reach_of_run (L := abortLts plainExt) p (s := ⟨sampleInstance, false⟩)
    ⟨⟨sampleRun, rfl, rfl, rfl, rfl⟩, rfl⟩ unreadLabels (by decide +kernel)
  simp only [p, Bool.and_eq_true, decide_eq_true_eq] at hp
  exact ⟨w, hw, fun hh => (hh hp.1).1 hp.2⟩

end FaultForge.Agent
