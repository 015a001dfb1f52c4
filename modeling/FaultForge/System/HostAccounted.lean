import FaultForge.System.Lifetimes

/-!
# The host over all lifetimes of the agent

`Honest` is what the exit codes of a plugin promise (fault/src/protocol.rs:218). With an honest plugin:

* **`host_accounted`**: whenever the host is not clean, the entry or the taint record is on disk.
* **`end_is_clean`**: an instance that ended `DONE` or `ABORTED`, in its task or in a replay, left a clean host.

`Kept` ties the host to the task, `ReplayKept` to a replay, and `Site.Accounted` hands it over at each crash and
restart. As in `crash_safe`, the write of `Taint::mark` succeeds and nobody clears the taint (`SiteAssumed`).
-/
namespace FaultForge.Agent

open Lts
open NoopMarker (PluginInput)

variable {ι σ : Type}

/-- What the exit codes of a plugin promise of the inputs `given`. -/
structure Honest (P : Plugin ι σ) (given : PluginInput → Prop) (clean : σ → Prop) : Prop where
  unaffected : ∀ i input host, given input → clean host → (P.exec i .inject input host).1 = .code 20 →
    clean (P.exec i .inject input host).2
  harmless : ∀ i command input host, given input → command ≠ .inject → clean host →
    clean (P.exec i command input host).2
  cleaned : ∀ i input host, given input → (P.exec i .cleanup input host).1 = .code 0 →
    clean (P.exec i .cleanup input host).2

/-- The write of `Taint::mark` succeeds, and no `ClearTaint` is issued. -/
def siteAssumed (s : Site σ) : SiteLabel ι → Bool
  | .task choice _ =>
    match s.life with
    | .running c => assumed c (.task choice)
    | _ => true
  | .interfere .clear => false
  | .restart _ (.unreadable _ (some _)) => false
  | .turn answer _ =>
    match s.life with
    | .replaying _ _ r =>
      match r.effects with
      | .markTainted _ :: _ => answer.error.isNone
      | _ => true
    | _ => true
  | _ => true

def SiteAssumed (s : Site σ) (label : SiteLabel ι) : Prop := siteAssumed s label = true

/-! ## The task and the host -/

/-- `inject` is still to take effect, if it ever will. -/
def Task.Early (t : Task) : Prop :=
  t.state.afterInject = false ∨ (∃ stop, t.state = .injecting stop) ∧
    (t.effects ≠ [] ∨ (∃ c p, t.pc = .verify c p) ∨ ∃ c p, t.pc = .running c p)

/-- What the host is to a task: dirty only through an `inject` that nothing has taken back. -/
structure Kept (clean : σ → Prop) (seen : List Obs) (host : σ) (t : Task) : Prop where
  early : t.Early → clean host ∧ ∀ status, .exited .inject status ∉ seen ∧ .exited .cleanup status ∉ seen
  dirty : ¬ clean host → .spawned .inject ∈ seen ∧ .exited .inject (.code 20) ∉ seen ∧
    .exited .cleanup (.code 0) ∉ seen
  spawned : ∀ command phase, t.pc = .running command phase → .spawned command ∈ seen
  settled : t.state = .done ∨ t.state = .aborted → clean host

section
variable {X : Ext} {ctx ctx' : Ctx} {t t' : Task} {obs seen : List Obs} {choice : Choice} {command : PluginCommand}
  {phase : Phase} {entry : Option JournalEntry} {tainted stale : Bool}

/-- Before `INJECTING` the only command is `preflight`. -/
theorem awaits_early {s : State} (h : s.awaits = some (.command command)) (hs : s.afterInject = false) :
    command = .preflight := by
  cases s <;> simp_all [State.awaits, State.afterInject]

theorem awaits_inject {s : State} (h : s.awaits = some (.command .inject)) (hs : s.Shape) :
    ∃ stop, s = .injecting stop := by
  cases s with
  | injecting stop => exact ⟨stop, rfl⟩
  | recovering rec => exact absurd (by simpa [State.awaits] using h) (Recovery.Shape.ne_inject hs)
  | _ => simp [State.awaits] at h

theorem TaskStep.to_verify (h : TaskStep X ctx t ctx' t' obs) (hpc : t'.pc = .verify command phase) :
    t.effects ≠ [] := by
  cases h with
  | invoke _ heff => simp [heff]
  | @send frame after _ _ => cases after <;> simp [After.pc] at hpc
  | remove hpc' | removeFailed hpc' => simp [hpc'] at hpc
  | stopRunning hpc' => simp [hpc'] at hpc
  | _ => simp [consume, Task.push] at hpc

theorem TaskStep.to_running (h : TaskStep X ctx t ctx' t' obs) (hpc : t'.pc = .running command phase) :
    t.pc = .verify command phase ∧ obs = [.spawned command] ∨ t.pc = .running command phase := by
  cases h with
  | spawn hpc' => obtain ⟨rfl, rfl⟩ := Pc.running.inj hpc; exact .inl ⟨hpc', rfl⟩
  | stopRunning hpc' => exact .inr hpc
  | @send frame after _ _ => cases after <;> simp [After.pc] at hpc
  | remove hpc' | removeFailed hpc' => simp [hpc'] at hpc
  | _ => simp [consume, Task.push] at hpc

/-- Only a running process exits. -/
theorem TaskStep.exits (h : TaskStep X ctx t ctx' t' obs) {status : ProcessEnd} (hm : .exited command status ∈ obs) :
    ∃ phase, t.pc = .running command phase := by
  cases h with
  | exit invocation hpc =>
    obtain ⟨rfl, -⟩ := Obs.exited.inj (List.mem_singleton.1 hm)
    exact ⟨_, hpc⟩
  | _ => simp at hm

/-- A step of the machine starts and ends in the loop or in `wait_for_stop`. -/
theorem hears_pc {event : Event} (h : t.hears ctx choice = some event)
    (hstep : taskStep X ctx t choice = some (ctx', t', obs)) : t'.pc = .loop := by
  unfold Task.hears at h
  split at h
  next hpc =>
    simp only [taskStep, hpc] at hstep
    split at h
    next heff hq => simp only [heff, hq] at hstep; cases hstep; rfl
    next heff hq =>
      split at h
      · cases h
      next hn =>
        obtain ⟨hterm, hact⟩ := not_or.1 hn
        simp only [heff, hq] at hstep
        rw [if_neg hterm, if_neg hact] at hstep
        cases hstep
        rfl
    next => cases h
  next hpc =>
    simp only [taskStep, hpc] at hstep
    split at h
    next cause hw => simp only [hw] at hstep; cases hstep; rfl
    next => cases h
  next hpc =>
    simp only [taskStep, hpc] at hstep
    split at hstep
    · cases hstep; rfl
    · cases hstep
  next hpc =>
    simp only [taskStep, hpc] at hstep
    split at hstep
    · cases hstep; rfl
    · cases hstep
  next => cases h

/-- No step leads back before `inject`. -/
theorem early_back (hshape : t.Shape) (hstep : taskStep X ctx t choice = some (ctx', t', obs))
    (he : t'.Early) : t.Early := by
  have hcases := taskStep_cases hstep
  have hf := taskStep_follows hstep
  cases hh : t.hears ctx choice with
  | none =>
    rw [hh] at hf
    obtain ⟨hst, heff⟩ := hf
    rw [Task.Early, hst] at he
    rcases he with he | ⟨hinj, he | ⟨c, p, he⟩ | ⟨c, p, he⟩⟩
    · exact .inl he
    · exact .inr ⟨hinj, .inl (by rw [heff]; simp [he])⟩
    · exact .inr ⟨hinj, .inl (hcases.to_verify he)⟩
    · rcases hcases.to_running he with ⟨hv, -⟩ | hr
      · exact .inr ⟨hinj, .inr (.inl ⟨c, p, hv⟩)⟩
      · exact .inr ⟨hinj, .inr (.inr ⟨c, p, hr⟩)⟩
  | some event =>
    rw [hh] at hf
    have hst : t'.state = (step t.state event).1 := congrArg Prod.fst hf.1
    have heff : t'.effects = (step t.state event).2 := congrArg Prod.snd hf.1
    obtain ⟨-, hfit⟩ := hshape.hears hh
    have htr := step_trans t.state event (hfit.imp_right fun h => .inl h.1)
    rw [Task.Early, hst, heff, hears_pc hh hstep] at he
    rcases he with he | ⟨⟨stop, hinj⟩, he | ⟨c, p, he⟩ | ⟨c, p, he⟩⟩
    · left
      cases ha : t.state.afterInject with
      | false => rfl
      | true => rw [htr.afterInject ha] at he; cases he
    · rcases htr.injecting hinj with hw | ⟨-, hnil⟩
      · left
        rw [hw]
        rfl
      · exact absurd hnil he
    · cases he
    · cases he

/-- The machine comes to `DONE` or `ABORTED` only over a clean host. -/
theorem Kept.settles {clean : σ → Prop} {host : σ} (hk : Kept clean seen host t) (hshape : t.Shape)
    (hsafe : Safe seen entry tainted stale t) {event : Event} (hh : t.hears ctx choice = some event)
    (he : (step t.state event).1 = .done ∨ (step t.state event).1 = .aborted) : clean host := by
  obtain ⟨-, hfit⟩ := hshape.hears hh
  have htr := step_trans t.state event (hfit.imp_right fun h => .inl h.1)
  have hterm' : (step t.state event).1.isTerminal := by rcases he with he | he <;> rw [he] <;> rfl
  cases hterm : t.state.isTerminal with
  | true =>
    obtain ⟨hsame, -⟩ := htr.of_terminal hterm
    exact hk.settled (hsame ▸ he)
  | false =>
    cases ha : t.state.afterInject with
    | false => exact (hk.early (.inl ha)).1
    | true =>
      -- the way out is an answer, and what it says was seen or keeps `inject` from being seen
      have hin : event.answers ≠ none → event ∈ t.queue := fun hne =>
        (hears_mem hh).resolve_right hne
      rcases htr.terminal_cases ha hterm hterm' with ⟨rfl | ⟨r, rfl⟩, -⟩ | ⟨rec, hrec, hrem, rfl⟩ |
        ⟨-, -, -, -, -, herr, -⟩
      · obtain ⟨code, hc, hex⟩ := hsafe.result _ (hin (by simp [Event.answers])) _ _ rfl
        rw [(classifyExit_injectFailed code).1 hc] at hex
        exact Classical.byContradiction fun hd => (hk.dirty hd).2.1 hex
      · obtain ⟨stop, hinj⟩ := htr.inject_rejected hsafe.recovery hterm
        have hnot := hsafe.unstarted stop hinj (.inr (.inr ⟨r, hin (by simp [Event.answers])⟩))
        exact Classical.byContradiction fun hd => hnot (hk.dirty hd).1
      · obtain ⟨code, hc, hex⟩ := hsafe.result _ (hin (by simp [Event.answers])) _ _ rfl
        have hcur : rec.current = .cleanup := by
          have hrs : rec.Shape := by simpa [hrec, State.Shape] using hsafe.recovery
          rcases hrs with ⟨-, hrem'⟩ | ⟨hcur, -⟩
          · simp [hrem] at hrem'
          · exact hcur
        rw [(classifyExit_success code).1 hc, hcur] at hex
        exact Classical.byContradiction fun hd => (hk.dirty hd).2.2 hex
      · rw [herr] at he
        simp at he

/-- A step that leaves the host alone. -/
theorem Kept.quiet {clean : σ → Prop} {host : σ} (hk : Kept clean seen host t) (hshape : t.Shape)
    (hsafe : Safe seen entry tainted stale t) (hstep : taskStep X ctx t choice = some (ctx', t', obs))
    (hno : ∀ command status, .exited command status ∉ obs) : Kept clean (obs ++ seen) host t' where
  early he := by
    obtain ⟨hclean, hex⟩ := hk.early (early_back hshape hstep he)
    exact ⟨hclean, fun status => by simpa [hno] using hex status⟩
  dirty hd := by
    obtain ⟨hsp, h20, h0⟩ := hk.dirty hd
    exact ⟨List.mem_append_right _ hsp, by simpa [hno] using h20, by simpa [hno] using h0⟩
  spawned command phase hpc := by
    rcases (taskStep_cases hstep).to_running hpc with ⟨-, rfl⟩ | hr
    · simp
    · exact List.mem_append_right _ (hk.spawned command phase hr)
  settled he := by
    have hf := taskStep_follows hstep
    cases hh : t.hears ctx choice with
    | none =>
      rw [hh] at hf
      exact hk.settled (hf.1 ▸ he)
    | some event =>
      rw [hh] at hf
      have hst : t'.state = (Agent.step t.state event).1 := congrArg Prod.fst hf.1
      rw [hst] at he
      exact hk.settles hshape hsafe hh he

/-- A process that has run, whether or not its end is reported. -/
theorem Kept.ran {P : Plugin ι σ} {given : PluginInput → Prop} {clean : σ → Prop} {host : σ} {i : ι}
    (hk : Kept clean seen host t) (hP : Honest P given clean) (hf : t.InFlight (some (.command command)))
    (hpc : t.pc = .running command phase) (hshape : t.state.Shape)
    (hgiven : given (t.launch command phase).input)
    (hobs : obs = [] ∨ obs = [.exited command (P.exec i command (t.launch command phase).input host).1])
    (hst : t'.state = t.state) (heff : t'.effects = t.effects) (hv : ∀ c p, t'.pc ≠ .verify c p)
    (hr : ∀ c p, t'.pc ≠ .running c p) :
    Kept clean (obs ++ seen) (P.exec i command (t.launch command phase).input host).2 t' where
  early he := by
    rw [Task.Early, hst, heff] at he
    rcases he with he | ⟨-, he | ⟨c, p, he⟩ | ⟨c, p, he⟩⟩
    · obtain rfl := awaits_early hf.1 he
      obtain ⟨hclean, hex⟩ := hk.early (.inl he)
      refine ⟨hP.harmless i _ _ host hgiven (by simp) hclean, fun status => ?_⟩
      rcases hobs with rfl | rfl <;> simpa using hex status
    · exact absurd hf.2.2.2.1 he
    · exact absurd he (hv c p)
    · exact absurd he (hr c p)
  dirty hd := by
    by_cases hc : command = .inject
    · subst hc
      obtain ⟨hclean, hex⟩ := hk.early (.inr ⟨awaits_inject hf.1 hshape, .inr (.inr ⟨_, _, hpc⟩)⟩)
      have hcode : (P.exec i .inject (t.launch .inject phase).input host).1 ≠ .code 20 := fun h20 =>
        hd (hP.unaffected i _ host hgiven hclean h20)
      refine ⟨List.mem_append_right _ (hk.spawned _ _ hpc), ?_, ?_⟩
      · rcases hobs with rfl | rfl
        · exact (hex _).1
        · simpa [hcode.symm] using (hex _).1
      · rcases hobs with rfl | rfl <;> simpa using (hex _).2
    · obtain ⟨hsp, h20, h0⟩ := hk.dirty fun hclean => hd (hP.harmless i _ _ host hgiven hc hclean)
      refine ⟨List.mem_append_right _ hsp, ?_, ?_⟩
      · rcases hobs with rfl | rfl
        · exact h20
        · simpa [Ne.symm hc] using h20
      · rcases hobs with rfl | rfl
        · exact h0
        · refine fun hm => (List.mem_cons.1 hm).elim (fun he => ?_) h0
          obtain ⟨rfl, he⟩ := Obs.exited.inj he
          exact hd (hP.cleaned i _ host hgiven he.symm)
  spawned c p he := absurd he (hr c p)
  settled he := by
    have hlive := hf.live
    rw [hst] at he
    rcases he with he | he <;> rw [he] at hlive <;> cases hlive

/-- **A step of the task keeps it.** -/
theorem Kept.step {P : Plugin ι σ} {given : PluginInput → Prop} {clean : σ → Prop} {host host' : σ} {i : ι}
    (hk : Kept clean seen host t) (hP : Honest P given clean) (hshape : t.Shape)
    (hsafe : Safe seen entry tainted stale t)
    (hgiven : ∀ command phase, t.pc = .running command phase → given (t.launch command phase).input)
    (hstep : taskStep X ctx t choice = some (ctx', t', obs)) (hset : P.settle i t choice host = some host') :
    Kept clean (obs ++ seen) host' t' := by
  by_cases hrun : ∃ command phase, t.pc = .running command phase
  · obtain ⟨command, phase, hpc⟩ := hrun
    have hf : t.InFlight (some (.command command)) := by simpa only [Task.Shape, hpc] using hshape
    cases choice with
    | recvStop =>
      obtain rfl : host = host' := by simpa [Plugin.settle, hpc] using hset
      have hobs : obs = [] := by
        simp only [taskStep, hpc] at hstep
        split at hstep <;> cases hstep
        rfl
      exact hk.quiet hshape hsafe hstep (by simp [hobs])
    | exit invocation =>
      simp only [taskStep, hpc] at hstep
      simp only [Plugin.settle, hpc] at hset
      split at hset
      next hstatus =>
        cases hset
        cases hstep
        exact hk.ran hP hf hpc hsafe.recovery (hgiven _ _ hpc) (.inr (by rw [hstatus])) rfl rfl (by simp) (by simp)
      next => cases hset
    | joinError msg =>
      simp only [taskStep, hpc] at hstep
      simp only [Plugin.settle, hpc] at hset
      cases hset
      cases hstep
      exact hk.ran hP hf hpc hsafe.recovery (hgiven _ _ hpc) (.inl rfl) rfl rfl (by simp [Task.push])
        (by simp [Task.push])
    | _ => simp [taskStep, hpc] at hstep
  · obtain rfl : host = host' := by
      simp only [Plugin.settle] at hset
      split at hset
      next hpc => exact absurd ⟨_, _, hpc⟩ hrun
      next hpc => exact absurd ⟨_, _, hpc⟩ hrun
      next => exact Option.some.inj hset
    refine hk.quiet hshape hsafe hstep fun command status hm => hrun ?_
    exact ⟨command, (taskStep_cases hstep).exits hm⟩

end

/-! ## The replay and the host -/

/-- The inputs that an instance of `run` may be given. -/
def Given (X : Ext) (run : RunFault) (input : PluginInput) : Prop :=
  input.instanceId = run.instanceId ∧ X.parseParams run.paramsJson = .ok input.params

theorem Launch.Of.given {X : Ext} {run : RunFault} {startMs : Int} {l : Launch} (h : l.Of X run startMs) :
    Given X run l.input :=
  ⟨h.instanceId, h.params⟩

/-- What the host is to a replay. -/
structure ReplayKept (clean : σ → Prop) (id : String) (host : σ) (r : Replay) : Prop where
  replaying : r.state.Replaying
  commands : ∀ command phase, .invoke command phase ∈ r.effects → Recovers command
  held : clean host ∨ (r.result.journal.lookup id).isSome ∨ r.result.taint.isSome
  cleaned : .commandFinished .cleanup .success ∈ r.queue → clean host
  removal : .removeJournal ∈ r.effects → r.state.isTerminal
  ended : r.state.isTerminal → clean host ∨ r.result.taint.isSome ∨
    ∃ reason rest, r.effects = .markTainted reason :: rest
  settled : r.state = .done ∨ r.state = .aborted → clean host

/-- A replay ends by a successful `cleanup` or by the taint. -/
theorem stepRecovering_ends {rec : Recovery} {event : Event} (hs : rec.Shape)
    (h : (stepRecovering rec event).1.isTerminal) :
    event = .commandFinished .cleanup .success ∨
      (stepRecovering rec event).1 = .error ∧
        ∃ reason rest, (stepRecovering rec event).2 = .markTainted reason :: rest := by
  have hfail : ∀ detail, (recoveryFailure rec detail).1.isTerminal →
      (recoveryFailure rec detail).1 = .error ∧
        ∃ reason rest, (recoveryFailure rec detail).2 = .markTainted reason :: rest := by
    intro detail ht
    unfold recoveryFailure at ht ⊢
    split
    · exact ⟨rfl, _, _, rfl⟩
    · next hr => rw [if_neg hr] at ht; cases ht
  cases event with
  | stopRequested cause => cases cause <;> cases h
  | setupOk | setupFailed | journalWritten | journalWriteFailed => cases h
  | invocationFailed c reason | invokeRejected c reason =>
    simp only [stepRecovering] at h ⊢
    by_cases hc : c = rec.current
    · rw [if_pos hc] at h ⊢
      exact .inr (hfail _ h)
    · rw [if_neg hc] at h
      cases h
  | commandFinished c d =>
    cases d with
    | success =>
      simp only [stepRecovering] at h ⊢
      by_cases hc : c = rec.current
      · rw [if_pos hc] at h ⊢
        rcases hs with ⟨-, hrem⟩ | ⟨hcur, -⟩
        · rw [hrem] at h
          cases h
        · exact .inl (by rw [hc, hcur])
      · rw [if_neg hc] at h
        cases h
    | preflightFailed | injectFailed | recoveryFailed | unexpected =>
      simp only [stepRecovering] at h ⊢
      by_cases hc : c = rec.current
      · rw [if_pos hc] at h ⊢
        exact .inr (hfail _ h)
      · rw [if_neg hc] at h
        cases h

section
variable {X : Ext} {clean : σ → Prop} {id : String} {host : σ} {entry : JournalEntry} {answer : Answer}
  {r r' : Replay} {timeoutSecs : UInt64}

/-- One step of the machine in a replay. -/
theorem ReplayKept.consume (hk : ReplayKept clean id host r) {event : Event} {queue : List Event}
    (heff : r.effects = []) (hq : r.queue = event :: queue) :
    ReplayKept clean id host { r with state := (step r.state event).1, queue, effects := (step r.state event).2 } := by
  obtain ⟨hrep, -, hcmd⟩ := hk.replaying.step event
  have hback : .commandFinished .cleanup .success ∈ queue → clean host := fun hm =>
    hk.cleaned (hq ▸ List.mem_cons_of_mem _ hm)
  cases hs : r.state with
  | recovering rec =>
    have hshape : rec.Shape := by simpa [hs, State.Replaying] using hk.replaying
    have hend : (stepRecovering rec event).1.isTerminal → clean host ∨
        (stepRecovering rec event).1 = .error ∧
          ∃ reason rest, (stepRecovering rec event).2 = .markTainted reason :: rest := by
      intro ht
      rcases stepRecovering_ends hshape ht with rfl | he
      · exact .inl (hk.cleaned (hq ▸ List.mem_cons_self))
      · exact .inr he
    rw [hs] at hrep hcmd
    refine ⟨hrep, hcmd, hk.held, hback, fun hm => ?_, fun ht => (hend ht).imp_right fun he => .inr he.2, fun he => ?_⟩
    · -- only the last step of a recovery asks for the removal
      have hsteps := stepRecovering_cases rec event
      simp only [Agent.step] at hm ⊢
      revert hm
      generalize stepRecovering rec event = out at hsteps
      cases hsteps with
      | recovered _ => exact fun _ => rec.outcome.state_isTerminal
      | failed => exact fun _ => rfl
      | recorded | next | retry => intro hm; simp at hm
    · have ht : (stepRecovering rec event).1.isTerminal := by
        rcases he with he | he <;> simp only [Agent.step] at he <;> rw [he] <;> rfl
      rcases hend ht with hclean | ⟨herr, -⟩
      · exact hclean
      · simp only [Agent.step] at he
        rw [herr] at he
        simp at he
  | done | aborted =>
    have hclean := hk.settled (by simp [hs])
    exact ⟨rfl, by simp [Agent.step], hk.held, hback, by simp [Agent.step], fun _ => .inl hclean, fun _ => hclean⟩
  | error =>
    have hended := hk.ended (by rw [hs]; rfl)
    rw [heff] at hended
    refine ⟨rfl, by simp [Agent.step], hk.held, hback, by simp [Agent.step], fun _ => ?_, fun he => ?_⟩
    · rcases hended with h | h | ⟨_, _, h⟩
      · exact .inl h
      · exact .inr (.inl h)
      · cases h
    · simp [Agent.step] at he
  | _ =>
    have hrep₀ := hk.replaying
    rw [hs] at hrep₀
    cases hrep₀

/-- An effect is performed, perhaps by a process that leaves the host `host'`. -/
theorem ReplayKept.perform {host' : σ} {effect : Effect} {rest : List Effect} (hk : ReplayKept clean id host r)
    (heff : r.effects = effect :: rest)
    (hmark : ∀ reason, effect = .markTainted reason → answer.error = none) (hhost : clean host → clean host')
    (hclean : ∀ command phase, effect = .invoke command phase →
      (replayInvoke X timeoutSecs entry command answer).1 = .commandFinished .cleanup .success → clean host') :
    ReplayKept clean id host' (replayEffect X timeoutSecs entry answer { r with effects := rest } effect) := by
  have hcmd : ∀ command phase, .invoke command phase ∈ rest → Recovers command := fun command phase hm =>
    hk.commands command phase (heff ▸ List.mem_cons_of_mem _ hm)
  have hrem : .removeJournal ∈ rest → r.state.isTerminal := fun hm => hk.removal (heff ▸ List.mem_cons_of_mem _ hm)
  have hheld := hk.held.imp_left hhost
  have hsettled := fun he => hhost (hk.settled he)
  have hended : (∀ reason, effect ≠ .markTainted reason) → r.state.isTerminal →
      clean host' ∨ r.result.taint.isSome := by
    intro hne ht
    rcases hk.ended ht with h | h | ⟨reason, rest', h⟩
    · exact .inl (hhost h)
    · exact .inr h
    · exact absurd (List.cons.inj (heff.symm.trans h)).1 (hne reason)
  cases effect with
  | emitStatus state reason =>
    exact ⟨hk.replaying, hcmd, hheld, fun hm => hhost (hk.cleaned hm), hrem,
      fun ht => (hended (by simp) ht).imp_right .inl, hsettled⟩
  | writeJournal =>
    exact ⟨hk.replaying, hcmd, hheld, fun hm => hhost (hk.cleaned hm), hrem,
      fun ht => (hended (by simp) ht).imp_right .inl, hsettled⟩
  | invoke command phase =>
    refine ⟨hk.replaying, hcmd, hheld, fun hm => ?_, hrem, fun ht => (hended (by simp) ht).imp_right .inl, hsettled⟩
    rcases List.mem_append.1 hm with hm | hm
    · exact hhost (hk.cleaned hm)
    · exact hclean command phase rfl (List.mem_singleton.1 hm).symm
  | removeJournal =>
    have hterm : r.state.isTerminal := hk.removal (by rw [heff]; exact List.mem_cons_self)
    have hsafe := hended (by simp) hterm
    simp only [replayEffect]
    split
    · exact ⟨hk.replaying, hcmd, hsafe.imp_right .inr, fun hm => hhost (hk.cleaned hm), hrem,
        fun _ => hsafe.imp_right .inl, hsettled⟩
    · exact ⟨hk.replaying, hcmd, hheld, fun hm => hhost (hk.cleaned hm), hrem, fun _ => hsafe.imp_right .inl, hsettled⟩
  | markTainted reason =>
    have htaint : (r.result.mark ⟨reason, answer.now, entry.instanceId⟩ answer.error).taint.isSome := by
      rw [hmark reason rfl]
      unfold Replayed.mark
      cases ht : r.result.taint <;> simp [ht]
    exact ⟨hk.replaying, hcmd, .inr (.inr htaint), fun hm => hhost (hk.cleaned hm), hrem,
      fun _ => .inr (.inl htaint), hsettled⟩

/-- A turn that starts no process. -/
theorem ReplayKept.turn (hk : ReplayKept clean id host r) (h : replayTurn X timeoutSecs entry answer r = some r')
    (hmark : ∀ reason rest, r.effects = .markTainted reason :: rest → answer.error = none)
    (hl : r.launch entry answer = none) : ReplayKept clean id host r' := by
  unfold replayTurn at h
  split at h
  next effect rest heff =>
    obtain rfl := Option.some.inj h
    refine hk.perform heff (fun reason he => hmark reason rest (he ▸ heff)) (fun h => h) fun command phase he hev => ?_
    subst he
    simp only [Replay.launch, heff] at hl
    simp only [replayInvoke] at hev
    split at hl
    next => cases hl
    next hg => simp [hg] at hev
  next heff =>
    split at h
    next => cases h
    next event queue hq =>
      obtain rfl := Option.some.inj h
      exact hk.consume heff hq

/-- A turn that runs one. -/
theorem ReplayKept.process {P : Plugin ι σ} {given : PluginInput → Prop} {i : ι} {launch : Launch}
    (hk : ReplayKept clean id host r) (hP : Honest P given clean) (hgiven : given launch.input)
    (h : replayTurn X timeoutSecs entry answer r = some r') (hl : r.launch entry answer = some launch)
    (hstatus : answer.invocation.status = (P.exec i launch.command launch.input host).1) :
    ReplayKept clean id (P.exec i launch.command launch.input host).2 r' := by
  obtain ⟨command, phase, rest, heff, rfl, plugin, hg⟩ := Replay.launch_some hl
  have hne : command ≠ .inject := by
    rcases hk.commands command phase (heff ▸ List.mem_cons_self) with rfl | rfl <;> simp
  unfold replayTurn at h
  simp only [heff] at h
  obtain rfl := Option.some.inj h
  refine hk.perform heff (by simp) (hP.harmless i _ _ host hgiven hne) fun c p he hev => ?_
  obtain ⟨rfl, rfl⟩ := Effect.invoke.inj he
  simp only [replayInvoke, hg, hstatus, JournalEntry.launch] at hev
  cases hst : (P.exec i command (entry.launch command phase).input host).1 with
  | code k =>
    simp only [JournalEntry.launch] at hst
    rw [hst] at hev
    obtain ⟨rfl, hk0⟩ := Event.commandFinished.inj hev
    obtain rfl := (classifyExit_success k).1 hk0
    exact hP.cleaned i _ host hgiven hst
  | timedOut | signalled | failed =>
    simp only [JournalEntry.launch] at hst
    rw [hst] at hev
    simp [invocationEvent] at hev

theorem ReplayKept.start {ctx : Ctx} {now : Int}
    (hheld : clean host ∨ (ctx.journal.lookup id).isSome ∨ ctx.taint.isSome) :
    ReplayKept clean id host
      { state := (State.replayRecovery (replayOutcome now entry) "recovered after agent restart").1, queue := [],
        effects := (State.replayRecovery (replayOutcome now entry) "recovered after agent restart").2,
        result := ⟨ctx.journal, ctx.taint, [], []⟩ } where
  replaying := .inl ⟨rfl, rfl⟩
  commands command phase hm := by
    obtain ⟨rfl, -⟩ : command = .abort ∧ phase = .runtime := by simpa [State.replayRecovery] using hm
    exact .inl rfl
  held := hheld
  cleaned hm := by cases hm
  removal hm := by simp [State.replayRecovery] at hm
  ended ht := by cases ht
  settled he := by rcases he with he | he <;> cases he

end

/-! ## The host over all lifetimes -/

/-- The host is clean, or its state is on record. -/
def Site.Accounted (X : Ext) (run : RunFault) (clean : σ → Prop) (s : Site σ) : Prop :=
  match s.life with
  | .running c => ReachIf (instanceLts X) Assumed c ∧ Kept clean c.seen s.host c.task
  | .replaying _ _ r => ReplayKept clean run.instanceId s.host r
  | .idle ctx | .down ctx => clean s.host ∨ (ctx.journal.lookup run.instanceId).isSome ∨ ctx.taint.isSome

section
variable {X : Ext} {P : Plugin ι σ} {run : RunFault} {clean : σ → Prop} {s s' : Site σ} {label : SiteLabel ι}

/-- In its task, an instance that left the host dirty has its entry or the taint on disk. -/
theorem Kept.held {c : Instance} {host : σ} (hk : Kept clean c.seen host c.task)
    (hr : ReachIf (instanceLts X) Assumed c) (hrun : c.task.run = run) :
    clean host ∨ (c.ctx.journal.lookup run.instanceId).isSome ∨ c.ctx.taint.isSome := by
  refine (Classical.em (clean host)).imp_right fun hd => ?_
  obtain ⟨hsp, h20, h0⟩ := hk.dirty hd
  obtain ⟨-, hsafe⟩ := reachIf_safe hr
  subst hrun
  cases hterm : c.task.state.isTerminal with
  | false => exact .inl (hsafe.journaled (.inl ⟨hsafe.injected hsp, hterm⟩))
  | true =>
    rcases hsafe.final hterm hsp with h | h | h | ⟨-, -, -, h⟩
    · exact absurd h h20
    · exact absurd h h0
    · exact .inr h
    · exact .inl h

/-- So does one whose process is taken down with the agent. -/
theorem Kept.cut {c : Instance} {host : σ} (hP : Honest P (Given X run) clean) (hk : Kept clean c.seen host c.task)
    (hr : ReachIf (instanceLts X) Assumed c)
    (hcar : Carries X run (c.ctx.journal.lookup run.instanceId) s.launched c.task) (i : Option ι) :
    clean (P.cut (Lifetime.running c).process i host) ∨ (c.ctx.journal.lookup run.instanceId).isSome ∨
      c.ctx.taint.isSome := by
  obtain ⟨hshape, hsafe⟩ := reachIf_safe hr
  have hheld := hk.held hr hcar.run_eq
  unfold Plugin.cut
  split
  next launch i' hp =>
    simp only [Lifetime.process] at hp
    split at hp
    next command phase hpc =>
      obtain rfl := Option.some.inj hp
      have hf : c.task.InFlight (some (.command command)) := by simpa only [Task.Shape, hpc] using hshape
      have hgiven : Given X run (c.task.launch command phase).input := by
        have hp := hf.briefed hcar.briefed
        rw [hcar.run_eq] at hp
        exact ⟨by simp [Task.launch, Task.id, hcar.run_eq], hp⟩
      by_cases hc : command = .inject
      · subst hc
        obtain ⟨stop, hst⟩ := awaits_inject hf.1 hsafe.recovery
        have hentry := hsafe.journaled (.inl ⟨by rw [hst]; rfl, by rw [hst]; rfl⟩)
        rw [Instance.entry, Task.id, hcar.run_eq] at hentry
        exact .inr (.inl hentry)
      · exact hheld.imp_left (hP.harmless i' _ _ host hgiven hc)
    next => cases hp
  next => exact hheld

theorem ReplayKept.cut {entry : JournalEntry} {ctx : Ctx} {r : Replay} {host : σ} {startMs : Int}
    (hP : Honest P (Given X run) clean) (hk : ReplayKept clean run.instanceId host r) (he : entry.Of X run startMs)
    (i : Option ι) :
    clean (P.cut (Lifetime.replaying entry ctx r).process i host) ∨
      (r.result.journal.lookup run.instanceId).isSome ∨ r.result.taint.isSome := by
  unfold Plugin.cut
  split
  next launch i' hp =>
    simp only [Lifetime.process] at hp
    split at hp
    next command phase rest heff =>
      obtain rfl := Option.some.inj hp
      have hne : command ≠ .inject := by
        rcases hk.commands command phase (heff ▸ List.mem_cons_self) with rfl | rfl <;> simp
      exact hk.held.imp_left (hP.harmless i' _ _ host (he command phase).given hne)
    next => cases hp
  next => exact hk.held

theorem Site.Accounted.restart {now : Int} {ctx : Ctx} {listing : Listing} {host : σ} {launched : List Launch}
    (hheld : clean host ∨ (ctx.journal.lookup run.instanceId).isSome ∨ ctx.taint.isSome) :
    Site.Accounted X run clean ⟨Agent.restart run.instanceId now ctx listing, host, launched⟩ := by
  cases listing with
  | failed => exact hheld
  | unreadable error markError =>
    simp only [Agent.restart]
    split
    · show clean host ∨ _ ∨ _
      rw [Ctx.mark_journal]
      exact hheld.imp_right (Or.imp_right (ctx.mark_taint _ _))
    · exact hheld
  | read =>
    simp only [Agent.restart]
    split
    · exact hheld
    · exact ReplayKept.start hheld

theorem Site.Accounted.step {seen : Option Int} (hP : Honest P (Given X run) clean) (ha : s.Accounted X run clean)
    (hagrees : s.Agrees X run seen) (hg : SiteAssumed s label) (h : (siteLts X P run).step s label = some s') :
    s'.Accounted X run clean := by
  cases siteStep_cases h with
  | @task c c' choice i host hlife hc hset =>
    simp only [Site.Accounted, Site.Agrees, hlife] at ha hagrees
    obtain ⟨hr, hk⟩ := ha
    obtain ⟨hshape, hsafe⟩ := reachIf_safe hr
    have hassumed : assumed c (.task choice) = true := by simpa [SiteAssumed, siteAssumed, hlife] using hg
    obtain ⟨obs, hstep, hseen⟩ := instance_step hc
    refine ⟨.step hr hassumed hc, ?_⟩
    simp only [hseen]
    refine hk.step hP hshape hsafe (fun command phase hpc => ?_) hstep hset
    have hf : c.task.InFlight (some (.command command)) := by simpa only [Task.Shape, hpc] using hshape
    exact (hagrees.2.1.launch_of (reach_dated hagrees.1) (by simp [hpc]) (hf.briefed hagrees.2.1.briefed) _ _).given
  | @stop c c' cause hlife hc =>
    simp only [Site.Accounted, hlife] at ha
    obtain ⟨hr, hk⟩ := ha
    have hassumed : Assumed c (.stop cause) := rfl
    have hr' := ReachIf.step hr hassumed hc
    obtain rfl := instance_stop hc
    exact ⟨hr', hk.early, hk.dirty, hk.spawned, hk.settled⟩
  | @interfere c c' i hlife hc =>
    simp only [Site.Accounted, hlife] at ha
    obtain ⟨hr, hk⟩ := ha
    have hassumed : Assumed c (.interfere i) := by cases i <;> first | rfl | cases hg
    have hr' := ReachIf.step hr hassumed hc
    obtain ⟨ctx', -, rfl⟩ := instance_interfere hc
    exact ⟨hr', hk⟩
  | ended hlife =>
    simp only [Site.Accounted, hlife] at ha
    exact ha.held
  | @turn entry ctx r r' answer i hlife hturn hl =>
    simp only [Site.Accounted, hlife] at ha
    refine ha.turn hturn (fun reason rest heff => ?_) hl
    simpa [SiteAssumed, siteAssumed, hlife, heff] using hg
  | process hlife hturn hl hstatus =>
    simp only [Site.Accounted, Site.Agrees, hlife] at ha hagrees
    obtain ⟨-, ⟨startMs, -, hentry⟩, -⟩ := hagrees
    obtain ⟨command, phase, -, -, rfl, -⟩ := Replay.launch_some hl
    exact ha.process hP (hentry command phase).given hturn hl hstatus
  | @idle ctx ctx' i hlife hi | @down ctx ctx' i hlife hi =>
    simp only [Site.Accounted, hlife] at ha
    obtain ⟨hentry, htaint⟩ := Interference.frame hi
    have hne : i ≠ .clear := by rintro rfl; cases hg
    show clean s.host ∨ _ ∨ _
    rw [hentry]
    exact ha.imp_right (Or.imp_right (htaint hne))
  | restart hlife =>
    simp only [Site.Accounted, hlife] at ha
    exact .restart ha
  | @crash i =>
    cases hlife : s.life with
    | running c =>
      simp only [Site.Accounted, Site.Agrees, hlife] at ha hagrees
      exact ha.2.cut hP ha.1 hagrees.2.1 i
    | replaying entry ctx r =>
      simp only [Site.Accounted, Site.Agrees, hlife] at ha hagrees
      obtain ⟨-, ⟨startMs, -, hentry⟩, -⟩ := hagrees
      exact ha.cut hP hentry i
    | idle ctx | down ctx =>
      simp only [Site.Accounted, hlife] at ha
      exact ha

theorem reachIf_accounted (hP : Honest P (Given X run) clean)
    (h : ReachIf ((siteLts X P run).startIn fun s => clean s.host) SiteAssumed s) :
    (∃ seen, s.Agrees X run seen) ∧ s.Accounted X run clean := by
  have hreach : ∀ s, Reach ((siteLts X P run).startIn fun s => clean s.host) s → ∃ seen, s.Agrees X run seen := by
    intro s hs
    obtain ⟨seen, hwatched⟩ : ∃ seen, Reach (startedLts X P run) ⟨s, seen⟩ := hs.of_startIn.watched
    exact ⟨seen, reach_agrees hwatched⟩
  refine ⟨hreach s h.reach, ?_⟩
  refine h.inv hreach ?_ fun s label s' ⟨_, hagrees⟩ ha hg hs => ha.step hP hagrees hg hs
  rintro ⟨life, host, launched⟩ ⟨⟨rfl, ctx, rfl, hfree⟩, hclean⟩
  have hentry : (⟨ctx, .spawn run, [], false, false⟩ : Instance).entry.isSome = false := by
    simp [Instance.entry, Task.id, Task.spawn, hfree]
  refine ⟨.init ⟨run, rfl, rfl, hentry.symm, rfl⟩, ?_⟩
  exact {
    early := fun _ => ⟨hclean, by simp⟩
    dirty := fun hd => absurd hclean hd
    spawned := fun _ _ hpc => by simp [Task.spawn] at hpc
    settled := fun _ => hclean }

/-- The machine that has the instance, in its task or in a replay. -/
def Lifetime.machine : Lifetime → Option State
  | .running c => some c.task.state
  | .replaying _ _ r => some r.state
  | _ => none

theorem Site.Accounted.held {seen : Option Int} (ha : s.Accounted X run clean) (hagrees : s.Agrees X run seen) :
    clean s.host ∨ (s.life.ctx.journal.lookup run.instanceId).isSome ∨ s.life.ctx.taint.isSome := by
  cases hlife : s.life with
  | running c =>
    simp only [Site.Accounted, Site.Agrees, hlife] at ha hagrees
    exact ha.2.held ha.1 hagrees.2.1.run_eq
  | replaying entry ctx r =>
    simp only [Site.Accounted, hlife] at ha
    exact ReplayKept.held ha
  | idle ctx | down ctx =>
    simp only [Site.Accounted, hlife] at ha
    exact ha

theorem Site.Accounted.settled (ha : s.Accounted X run clean)
    (hend : s.life.machine = some .done ∨ s.life.machine = some .aborted) : clean s.host := by
  cases hlife : s.life with
  | running c =>
    simp only [Site.Accounted, hlife] at ha
    rw [hlife] at hend
    exact ha.2.settled (hend.imp Option.some.inj Option.some.inj)
  | replaying entry ctx r =>
    simp only [Site.Accounted, hlife] at ha
    rw [hlife] at hend
    exact ReplayKept.settled ha (hend.imp Option.some.inj Option.some.inj)
  | idle ctx | down ctx => simp [hlife, Lifetime.machine] at hend

/-- **No lifetime forgets the host**: with an honest plugin, at every point of every run over any number of crashes,
the host is clean, or the entry or the taint record is on disk. -/
theorem host_accounted (hP : Honest P (Given X run) clean)
    (h : ReachIf ((siteLts X P run).startIn fun s => clean s.host) SiteAssumed s) :
    clean s.host ∨ (s.life.ctx.journal.lookup run.instanceId).isSome ∨ s.life.ctx.taint.isSome := by
  obtain ⟨⟨seen, hagrees⟩, ha⟩ := reachIf_accounted hP h
  exact ha.held hagrees

/-- **`DONE` and `ABORTED` are truthful**: the host is clean when a task or a replay has come to one of them. -/
theorem end_is_clean (hP : Honest P (Given X run) clean)
    (h : ReachIf ((siteLts X P run).startIn fun s => clean s.host) SiteAssumed s)
    (hend : s.life.machine = some .done ∨ s.life.machine = some .aborted) : clean s.host :=
  (reachIf_accounted hP h).2.settled hend

end

/-! ## A crash during `inject`, and the replay after it -/

theorem switchPlugin_honest (given : PluginInput → Prop) : Honest switchPlugin given fun on => on = false where
  unaffected _ _ _ _ _ h := by cases h
  harmless _ command _ _ _ hne h := by cases command <;> first | exact absurd rfl hne | exact h | rfl
  cleaned _ _ _ _ _ := rfl

theorem host_accounted_sample :
    ∃ s : Site Bool, s.host = true ∧
      ((s.life.ctx.journal.lookup sampleRun.instanceId).isSome ∨ s.life.ctx.taint.isSome) := by
  obtain ⟨s, hs, hon⟩ := reachIf_of_run (G := SiteAssumed) (g := siteAssumed) (fun _ _ h => h) (fun s => s.host)
    sampleSite_init crashLabels (by decide +kernel)
  exact ⟨s, hon, (host_accounted (switchPlugin_honest _) hs).resolve_left (by simp [hon])⟩

theorem end_is_clean_sample :
    ∃ s : Site Bool, s.life.machine = some .aborted ∧ s.launched.length = 5 ∧ s.host = false := by
  obtain ⟨s, hs, hp⟩ := reachIf_of_run (G := SiteAssumed) (g := siteAssumed) (fun _ _ h => h)
    (fun s => decide (s.life.machine = some .aborted) && decide (s.launched.length = 5))
    sampleSite_init (crashLabels ++ replayLabels) (by decide +kernel)
  simp only [Bool.and_eq_true, decide_eq_true_eq] at hp
  exact ⟨s, hp.1, hp.2, end_is_clean (switchPlugin_honest _) hs (.inr hp.1)⟩

end FaultForge.Agent
