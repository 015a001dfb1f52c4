import FaultForge.Agent.MachineRun

/-!
# How a run ends

Recovery is started for one cause (`start_recovery`, machine.rs:276-297), whose outcome is fixed there; a dead-man
stop escalates it while recovery runs (machine.rs:366-370), and a double failure of a recovery command overrides it
(`recovery_failure`, machine.rs:422-449). `Course` says where a run stands between these, `step` by `step`, and
`terminal_classified` reads the end of every run off its trace.

| here | there |
| --- | --- |
| `Entered` | the cause given to `start_recovery`: the stop recorded, or `Deadman` for a doubtful `inject` |
| `DeadmanSeen` | `StopRequested { Deadman }` in `step_recovering` |
| `Tainted` | `Effect::MarkTainted` in `recovery_failure` |
-/
namespace FaultForge.Agent

open Lts

/-! ## What a trace says about its end -/

def Tainted (trace : List Tick) : Prop := ∃ t ∈ trace, ∃ reason, .markTainted reason ∈ t.effects

/-- Recovery was started for `cause`. -/
def Entered (trace : List Tick) (cause : StopCause) : Prop :=
  ∃ t ∈ trace, t.EntersRecovery ∧ t.recoveryCause = some cause

def Tick.SeesDeadman (t : Tick) : Prop := t.pre.isRecovering ∧ t.event = .stopRequested .deadman

/-- The dead-man passed while recovery was running. -/
def DeadmanSeen (trace : List Tick) : Prop := ∃ t ∈ trace, t.SeesDeadman

/-- A step outside recovery: it starts none, runs none of its commands and taints nothing. -/
structure Tick.Calm (t : Tick) : Prop where
  enters : ¬ t.EntersRecovery
  deadman : ¬ t.SeesDeadman
  taint : ∀ reason, .markTainted reason ∉ t.effects
  abort : ¬ t.Invokes .abort
  cleanup : ¬ t.Invokes .cleanup

/-- Recovery was started for one cause, and `outcome` is what that cause and a dead-man seen since make of it. -/
def Decided (trace : List Tick) (outcome : Outcome) : Prop :=
  ∃ cause, (∀ c, Entered trace c ↔ c = cause) ∧
    (DeadmanSeen trace → outcome = .error) ∧ (¬ DeadmanSeen trace → outcome = cause.outcome)

section
variable {t : Tick} {trace : List Tick}

theorem tainted_cons : Tainted (t :: trace) ↔ (∃ reason, .markTainted reason ∈ t.effects) ∨ Tainted trace := by
  simp [Tainted]

theorem entered_cons {cause : StopCause} :
    Entered (t :: trace) cause ↔ (t.EntersRecovery ∧ t.recoveryCause = some cause) ∨ Entered trace cause := by
  simp [Entered]

theorem deadmanSeen_cons : DeadmanSeen (t :: trace) ↔ t.SeesDeadman ∨ DeadmanSeen trace := by
  simp [DeadmanSeen]

/-- A step that starts no recovery and sees no dead-man decides nothing. -/
theorem Decided.keep {outcome : Outcome} (h : Decided trace outcome) (hent : ¬ t.EntersRecovery)
    (hdead : ¬ t.SeesDeadman) : Decided (t :: trace) outcome := by
  obtain ⟨cause, hcause, hseen, hunseen⟩ := h
  refine ⟨cause, fun c => ?_, ?_, ?_⟩
  · simp [entered_cons, hent, hcause]
  · simpa [deadmanSeen_cons, hdead] using hseen
  · simpa [deadmanSeen_cons, hdead] using hunseen

/-- A dead-man in recovery makes the outcome `ERROR`. -/
theorem Decided.escalate {outcome : Outcome} (h : Decided trace outcome) (hdead : t.SeesDeadman) :
    Decided (t :: trace) .error := by
  obtain ⟨cause, hcause, -, -⟩ := h
  have hent : ¬ t.EntersRecovery := by
    rintro ⟨hout, -⟩
    simp [hdead.1] at hout
  refine ⟨cause, fun c => ?_, fun _ => rfl, fun hno => ?_⟩
  · simp [entered_cons, hent, hcause]
  · exact absurd (deadmanSeen_cons.2 (.inl hdead)) hno

/-- The step that starts recovery, after a calm trace. -/
theorem Decided.enter {cause : StopCause} (hcalm : ∀ u ∈ trace, u.Calm) (hent : t.EntersRecovery)
    (hcause : t.recoveryCause = some cause) : Decided (t :: trace) cause.outcome := by
  have hnone : ∀ c, ¬ Entered trace c := fun c ⟨u, hu, he, _⟩ => (hcalm u hu).enters he
  have hdead : ¬ DeadmanSeen (t :: trace) := by
    rw [deadmanSeen_cons]
    rintro (hd | ⟨u, hu, hd⟩)
    · simpa [hent.1] using hd.1
    · exact (hcalm u hu).deadman hd
  refine ⟨cause, fun c => ?_, fun hd => absurd hd hdead, fun _ => rfl⟩
  rw [entered_cons, hcause]
  constructor
  · rintro (⟨-, hc⟩ | hc)
    · exact (Option.some.inj hc).symm
    · exact absurd hc (hnone c)
  · rintro rfl
    exact .inl ⟨hent, rfl⟩

end

/-! ## What a step does to the verdict -/

section
variable {s s' : State} {e : Event} {effects : List Effect}

theorem Trans.calm (h : Trans s e s' effects) (hs : s.isRecovering = false) (hs' : s'.isRecovering = false) :
    (⟨s, e, s', effects⟩ : Tick).Calm := by
  have htaint : ∀ reason, .markTainted reason ∉ effects := by
    intro reason hmem
    cases h with
    | recoveryFailed => simp [State.isRecovering] at hs
    | _ => simp [startRecovery] at hmem
  have hinvoke : ∀ command, command = .abort ∨ command = .cleanup →
      ¬ (⟨s, e, s', effects⟩ : Tick).Invokes command := by
    rintro command hc ⟨phase, hmem⟩
    cases h with
    | injectedStopped | injectAmbiguous | stopActive => simp [startRecovery, State.isRecovering] at hs'
    | recoveryNext | recoveryRetry => simp [State.isRecovering] at hs
    | _ => rcases hc with rfl | rfl <;> simp at hmem
  exact ⟨fun hent => (by simpa [hs'] using hent.2), fun hdead => (by simpa [hs] using hdead.1), htaint,
    hinvoke .abort (.inl rfl), hinvoke .cleanup (.inr rfl)⟩

/-- Outside recovery the machine ends in `ABORTED` only, before `inject` or with the host unaffected. -/
theorem Trans.spared (h : Trans s e s' effects) (hlive : s.isTerminal = false) (hs : s.isRecovering = false)
    (hterm : s'.isTerminal) :
    s' = .aborted ∧ (s.afterInject = false ∨ (⟨s, e, s', effects⟩ : Tick).HostUnaffected) := by
  cases h with
  | absorbed e ht => simp [hlive] at ht
  | injectUnaffected stop reason he => exact ⟨rfl, .inr ⟨he, rfl⟩⟩
  | setupFailed | stopPending | journalStopped | journalFailed => exact ⟨rfl, .inl rfl⟩
  | preflightStopped which | preflightFailed which => cases which <;> exact ⟨rfl, .inl rfl⟩
  | stopPreflight which => cases which <;> simp [rebuildPreflight, State.isTerminal] at hterm
  | recovered | recoveryFailed => simp [State.isRecovering] at hs
  | _ => simp [State.isTerminal, startRecovery] at hterm

/-- A step inside a recovery: a stop, the next command or a retry, the end it was heading for, or a taint. -/
theorem Trans.in_recovery (h : Trans s e s' effects) {rec : Recovery} (hs : s = .recovering rec) :
    (∃ cause, e = .stopRequested cause ∧ effects = [] ∧
      s' = .recovering { rec with outcome := if cause = .deadman then .error else rec.outcome }) ∨
    (e ≠ .stopRequested .deadman ∧ (∀ reason, .markTainted reason ∉ effects) ∧
      ((∃ rec', s' = .recovering rec' ∧ rec'.outcome = rec.outcome) ∨ s' = rec.outcome.state)) ∨
    (s' = .error ∧ ∃ reason, .markTainted reason ∈ effects) := by
  cases h with
  | stopRecovery r cause =>
    obtain rfl := State.recovering.inj hs
    exact .inl ⟨cause, rfl, rfl, rfl⟩
  | recoveryNext r next rest =>
    obtain rfl := State.recovering.inj hs
    exact .inr (.inl ⟨by simp, by simp, .inl ⟨_, rfl, rfl⟩⟩)
  | recoveryRetry r hf =>
    obtain rfl := State.recovering.inj hs
    exact .inr (.inl ⟨fun he => by simpa [he, Event.answers] using hf.answers, by simp, .inl ⟨_, rfl, rfl⟩⟩)
  | recovered r =>
    obtain rfl := State.recovering.inj hs
    exact .inr (.inl ⟨by simp, by simp, .inr rfl⟩)
  | recoveryFailed r reason => exact .inr (.inr ⟨rfl, reason, by simp⟩)
  | absorbed e ht => simp [hs, State.isTerminal] at ht
  | stopPreflight which | preflightStopped which | preflightFailed which =>
    cases which <;> simp [rebuildPreflight] at hs
  | _ => cases hs

end

/-! ## The course of a run -/

/-- Where a run stands: before recovery, in it, or at one of the three kinds of end. -/
inductive Course : State → List Tick → Prop
  | before {s : State} {trace : List Tick} : s.isTerminal = false → s.isRecovering = false →
      (∀ t ∈ trace, t.Calm) → Course s trace
  | recovering {rec : Recovery} {trace : List Tick} : Decided trace rec.outcome → ¬ Tainted trace →
      Course (.recovering rec) trace
  | recovered {outcome : Outcome} {trace : List Tick} : Decided trace outcome → ¬ Tainted trace →
      Course outcome.state trace
  | quarantined {trace : List Tick} : Tainted trace → (∃ cause, Entered trace cause) → Course .error trace
  | spared {trace : List Tick} : (∀ t ∈ trace, t.Calm) →
      (¬ Injected trace ∨ ∃ t ∈ trace, t.HostUnaffected) → Course .aborted trace

section
variable {t : Tick} {trace : List Tick}

theorem Tick.Calm.cons (ht : t.Calm) (h : ∀ u ∈ trace, u.Calm) : ∀ u ∈ t :: trace, u.Calm :=
  List.forall_mem_cons.2 ⟨ht, h⟩

/-- A terminal state absorbs every event. -/
theorem Course.absorb {s : State} {e : Event} (h : Course s trace) (hterm : s.isTerminal) :
    Course s (⟨s, e, s, []⟩ :: trace) := by
  have hcalm : (⟨s, e, s, []⟩ : Tick).Calm := by
    have hs : s.isRecovering = false := by cases s <;> simp_all [State.isTerminal, State.isRecovering]
    exact (Trans.absorbed e hterm).calm hs hs
  cases h with
  | before hlive => simp [hlive] at hterm
  | recovering => simp [State.isTerminal] at hterm
  | recovered hd hu => exact .recovered (hd.keep hcalm.enters hcalm.deadman) (by simpa [tainted_cons] using hu)
  | quarantined ht hent =>
    obtain ⟨cause, hc⟩ := hent
    exact .quarantined (tainted_cons.2 (.inr ht)) ⟨cause, entered_cons.2 (.inr hc)⟩
  | spared hc hun =>
    refine .spared (hcalm.cons hc) (hun.imp ?_ ?_)
    · rintro hno ⟨u, hu, phase, hp⟩
      rcases List.mem_cons.1 hu with rfl | hu
      · cases hp
      · exact hno ⟨u, hu, phase, hp⟩
    · rintro ⟨u, hu, hun⟩
      exact ⟨u, List.mem_cons_of_mem _ hu, hun⟩

/-- A step from outside recovery. -/
theorem Course.depart {s s' : State} {e : Event} {effects : List Effect} (h : Trans s e s' effects)
    (hlive : s.isTerminal = false) (hs : s.isRecovering = false) (hcalm : ∀ u ∈ trace, u.Calm)
    (hinj : s.afterInject = false → ¬ Injected trace) : Course s' (⟨s, e, s', effects⟩ :: trace) := by
  cases hs' : s'.isRecovering with
  | true =>
    obtain ⟨cause, reason, hcause, -, hpost⟩ := h.enter_recovery hs hs'
    have hnew := Decided.enter hcalm ⟨hs, hs'⟩ hcause
    obtain ⟨rfl, rfl⟩ := Prod.mk.inj hpost
    refine .recovering hnew ?_
    rw [tainted_cons]
    rintro (⟨r, hr⟩ | ⟨u, hu, r, hr⟩)
    · simp at hr
    · exact (hcalm u hu).taint r hr
  | false =>
    have hnew := (h.calm hs hs').cons hcalm
    cases hterm : s'.isTerminal with
    | false => exact .before hterm hs' hnew
    | true =>
      obtain ⟨rfl, hun⟩ := h.spared hlive hs hterm
      refine .spared hnew (hun.imp (fun hearly => ?_) fun hun => ⟨_, List.mem_cons_self, hun⟩)
      rintro ⟨u, hu, phase, hp⟩
      rcases List.mem_cons.1 hu with rfl | hu
      · simpa [Effect.asks] using h.no_ask_of_terminal hterm _ hp
      · exact hinj hearly ⟨u, hu, phase, hp⟩

/-- A step inside recovery. -/
theorem Course.recover {rec : Recovery} {s' : State} {e : Event} {effects : List Effect}
    (h : Trans (.recovering rec) e s' effects) (hdec : Decided trace rec.outcome) (hun : ¬ Tainted trace) :
    Course s' (⟨.recovering rec, e, s', effects⟩ :: trace) := by
  have hent : ¬ (⟨.recovering rec, e, s', effects⟩ : Tick).EntersRecovery := by
    rintro ⟨hout, -⟩
    cases hout
  have hclean (hno : ∀ reason, .markTainted reason ∉ effects) :
      ¬ Tainted (⟨.recovering rec, e, s', effects⟩ :: trace) := by
    rw [tainted_cons]
    rintro (⟨reason, hr⟩ | ht)
    · exact hno reason hr
    · exact hun ht
  rcases h.in_recovery rfl with ⟨cause, rfl, rfl, rfl⟩ | ⟨he, hno, hnext⟩ | ⟨rfl, reason, hr⟩
  · refine .recovering ?_ (hclean (by simp))
    by_cases hc : cause = .deadman
    · subst hc
      exact hdec.escalate ⟨rfl, rfl⟩
    · rw [if_neg hc]
      exact hdec.keep hent fun hd => hc (Event.stopRequested.inj hd.2)
  · have hkeep := hdec.keep hent fun hd => he hd.2
    rcases hnext with ⟨rec', rfl, hsame⟩ | rfl
    · exact .recovering (hsame ▸ hkeep) (hclean hno)
    · exact .recovered hkeep (hclean hno)
  · obtain ⟨cause, hcause, -⟩ := hdec
    exact .quarantined (tainted_cons.2 (.inl ⟨reason, hr⟩)) ⟨cause, entered_cons.2 (.inr ((hcause cause).2 rfl))⟩

end

theorem reach_course {c : Config} (h : Reach machineLts c) : Course c.state c.trace := by
  induction h with
  | init hc =>
    rw [show _ = Config.start from hc]
    exact .before rfl rfl (by simp [Config.start])
  | @step c c' e hr hs ih =>
    have ht := (reach_inv hr).trans hs
    obtain ⟨-, hstate, -, htrace⟩ := machineLts_step hs
    rw [hstate, htrace]
    cases hterm : c.state.isTerminal with
    | true =>
      obtain ⟨hsame, hnone⟩ := ht.of_terminal hterm
      rw [hsame, hnone]
      exact ih.absorb hterm
    | false =>
      generalize hst : c.state = s at ih ht hterm ⊢
      cases ih with
      | before hlive hs hcalm =>
        refine Course.depart ht hlive hs hcalm fun hearly hi => ?_
        have := reach_afterInject hr hi
        simp [hst, hearly] at this
      | recovering hdec hun => exact Course.recover ht hdec hun
      | recovered => simp [Outcome.state_isTerminal] at hterm
      | quarantined | spared => cases hterm

/-! ## The classification -/

theorem Decided.error_iff {trace : List Tick} {outcome : Outcome} (h : Decided trace outcome) :
    outcome = .error ↔ Entered trace .deadman ∨ DeadmanSeen trace := by
  obtain ⟨cause, hcause, hseen, hunseen⟩ := h
  by_cases hd : DeadmanSeen trace
  · simp [hd, hseen hd]
  · rw [hunseen hd, hcause]
    cases cause <;> simp [StopCause.outcome, hd]

theorem Decided.done_iff {trace : List Tick} {outcome : Outcome} (h : Decided trace outcome)
    (hseen : ¬ DeadmanSeen trace) : outcome = .done ↔ Entered trace .durationElapsed := by
  obtain ⟨cause, hcause, -, hunseen⟩ := h
  rw [hunseen hseen, hcause]
  cases cause <;> simp [StopCause.outcome]

@[simp] theorem Outcome.state_eq_error {o : Outcome} : o.state = .error ↔ o = .error := by
  cases o <;> simp [Outcome.state]

@[simp] theorem Outcome.state_eq_done {o : Outcome} : o.state = .done ↔ o = .done := by
  cases o <;> simp [Outcome.state]

/-- What makes the end of a run `ERROR`. -/
def Failed (trace : List Tick) : Prop := Tainted trace ∨ Entered trace .deadman ∨ DeadmanSeen trace

theorem not_failed_of_calm {trace : List Tick} (hcalm : ∀ t ∈ trace, t.Calm) : ¬ Failed trace := by
  rintro (⟨t, ht, reason, hr⟩ | ⟨t, ht, hent, -⟩ | ⟨t, ht, hdead⟩)
  · exact (hcalm t ht).taint reason hr
  · exact (hcalm t ht).enters hent
  · exact (hcalm t ht).deadman hdead

/-- The end of a run is `ERROR`, or else `DONE` or `ABORTED`, as its trace says. -/
theorem Course.error_iff {s : State} {trace : List Tick} (h : Course s trace) (hterm : s.isTerminal) :
    s = .error ↔ Failed trace := by
  cases h with
  | before hlive => simp [hlive] at hterm
  | recovering => cases hterm
  | recovered hdec hun => simp [hdec.error_iff, Failed, hun]
  | quarantined ht => simp [Failed, ht]
  | spared hcalm => simp [not_failed_of_calm hcalm]

theorem Course.done_iff {s : State} {trace : List Tick} (h : Course s trace) (hterm : s.isTerminal)
    (hok : ¬ Failed trace) : s = .done ↔ Entered trace .durationElapsed := by
  cases h with
  | before hlive => simp [hlive] at hterm
  | recovering => cases hterm
  | recovered hdec hun => rw [Outcome.state_eq_done, hdec.done_iff fun hd => hok (.inr (.inr hd))]
  | quarantined ht => exact absurd (.inl ht) hok
  | spared hcalm =>
    refine ⟨fun h => (by cases h), ?_⟩
    rintro ⟨t, ht, hent, -⟩
    exact absurd hent (hcalm t ht).enters

/-- A run that never entered recovery. -/
theorem Course.spared_of {s : State} {trace : List Tick} (h : Course s trace) (hterm : s.isTerminal)
    (hnever : ∀ t ∈ trace, ¬ t.EntersRecovery) :
    s = .aborted ∧ (∀ t ∈ trace, t.Calm) ∧ (¬ Injected trace ∨ ∃ t ∈ trace, t.HostUnaffected) := by
  have hno : ∀ cause, ¬ Entered trace cause := fun cause ⟨t, ht, hent, _⟩ => hnever t ht hent
  cases h with
  | before hlive => simp [hlive] at hterm
  | recovering => cases hterm
  | recovered hdec =>
    obtain ⟨cause, hcause, -⟩ := hdec
    exact absurd ((hcause cause).2 rfl) (hno cause)
  | quarantined _ hent =>
    obtain ⟨cause, hcause⟩ := hent
    exact absurd hcause (hno cause)
  | spared hcalm hun => exact ⟨rfl, hcalm, hun⟩

/-- **How a run ends**: in `ERROR` exactly when the host was tainted, recovery was started for the dead-man, or the
dead-man passed during recovery; otherwise in `DONE` exactly when recovery was started at the end of the duration,
and else in `ABORTED`. A run that never entered recovery ends in `ABORTED`, with `inject` never invoked or its host
unaffected, and with no `abort` or `cleanup`. -/
theorem terminal_classified {c : Config} (h : Reach machineLts c) (hterm : c.state.isTerminal) :
    (c.state = .error ↔ Tainted c.trace ∨ Entered c.trace .deadman ∨ DeadmanSeen c.trace) ∧
    (¬ (Tainted c.trace ∨ Entered c.trace .deadman ∨ DeadmanSeen c.trace) →
      (c.state = .done ↔ Entered c.trace .durationElapsed) ∧
      (c.state = .aborted ↔ ¬ Entered c.trace .durationElapsed)) ∧
    ((∀ t ∈ c.trace, ¬ t.EntersRecovery) →
      c.state = .aborted ∧ (¬ Injected c.trace ∨ ∃ t ∈ c.trace, t.HostUnaffected) ∧
      ∀ t ∈ c.trace, ¬ t.Invokes .abort ∧ ¬ t.Invokes .cleanup) := by
  have hcourse := reach_course h
  refine ⟨hcourse.error_iff hterm, fun hok => ?_, fun hnever => ?_⟩
  · have hdone := hcourse.done_iff hterm hok
    have herror : c.state ≠ .error := fun he => hok ((hcourse.error_iff hterm).1 he)
    refine ⟨hdone, ?_⟩
    rw [← hdone]
    cases hs : c.state with
    | done | aborted => simp
    | error => exact absurd hs herror
    | _ => simp [hs, State.isTerminal] at hterm
  · obtain ⟨hs, hcalm, hun⟩ := hcourse.spared_of hterm hnever
    exact ⟨hs, hun, fun t ht => ⟨(hcalm t ht).abort, (hcalm t ht).cleanup⟩⟩

/-- An operator abort is honoured, and the dead-man passes while `abort` runs. -/
def escalatedRun : List Event :=
  [.setupOk, .commandFinished .preflight .success, .commandFinished .preflight .success, .journalWritten,
   .commandFinished .inject .success, .stopRequested .operatorAbort, .stopRequested .deadman,
   .commandFinished .abort .success, .commandFinished .cleanup .success]

def escalatedConfig : Config := (run machineLts .start escalatedRun).getD .start

theorem terminal_classified_escalated :
    escalatedConfig.state = .error ∧
      (escalatedConfig.state = .error ↔
        Tainted escalatedConfig.trace ∨ Entered escalatedConfig.trace .deadman ∨
          DeadmanSeen escalatedConfig.trace) := by
  have hrun : run machineLts .start escalatedRun = some escalatedConfig := by decide
  have hr : Reach machineLts escalatedConfig := Reach.run (.init rfl) hrun
  exact ⟨by decide, (terminal_classified hr (by decide)).1⟩

end FaultForge.Agent
