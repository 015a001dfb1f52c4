import FaultForge.Agent.Supervisor

/-!
# The journal entry and the announcement

The spec removes the journal entry "only after the instance's terminal `InstanceStatus` has been queued"
(agent-fault-runtime, "The journal is written before inject"). Every transition of the machine that removes the entry
asks for it before the terminal status, so the law holds of a run of events exactly when none of them ends a journaled
instance (`announced_iff`); a crash between the two effects leaves neither (`removed_unannounced`).
-/
namespace FaultForge.Agent

open Lts

/-- How a machine is started: by `run_instance`, or by `replay_entry` for a journaled instance. -/
inductive Start
  | fresh
  | replay (outcome : Outcome) (reason : String)

def Start.state : Start → State
  | .fresh => .pending
  | .replay outcome reason => (State.replayRecovery outcome reason).1

def Start.effects : Start → List Effect
  | .fresh => []
  | .replay outcome reason => (State.replayRecovery outcome reason).2

def State.after (s : State) (events : List Event) : State := events.foldl (fun s e => (step s e).1) s

/-- All effects of a run of events, in the order in which they are performed. -/
def State.performs (s : State) : List Event → List Effect
  | [] => []
  | e :: events => (step s e).2 ++ (step s e).1.performs events

def Effect.announces : Effect → Bool
  | .emitStatus state _ => state.isTerminal
  | _ => false

/-- In every prefix of the effects the entry is removed only after the terminal status was queued. -/
def Announced (effects : List Effect) : Prop :=
  ∀ done, done <+: effects → .removeJournal ∈ done → ∃ effect ∈ done, effect.announces = true

/-- The event ends an instance that has a journal entry. -/
def endsJournaled : State → Event → Bool
  | .writingJournal (some _), .journalWritten => true
  | .injecting _, .commandFinished .inject .injectFailed => true
  | .injecting _, .invokeRejected _ _ => true
  | .recovering rec, .commandFinished command .success => command = rec.current && rec.remaining.isEmpty
  | .recovering rec, .commandFinished command _ => command = rec.current && rec.retried
  | .recovering rec, .invocationFailed command _ => command = rec.current && rec.retried
  | .recovering rec, .invokeRejected command _ => command = rec.current && rec.retried
  | _, _ => false

/-! ## One step -/

/-- What a step asks for, as far as the entry and the announcement go. -/
inductive Asks (s : State) (e : Event) : Prop
  /-- Neither the entry nor the announcement. -/
  | neither : endsJournaled s e = false → .removeJournal ∉ (step s e).2 →
    (∀ effect ∈ (step s e).2, effect.announces = false) → Asks s e
  /-- Only the announcement: the instance ends without an entry. -/
  | announces : endsJournaled s e = false → .removeJournal ∉ (step s e).2 → (step s e).1.isTerminal = true → Asks s e
  | removes (before : List Effect) (status : Effect) : endsJournaled s e = true → s.isTerminal = false →
    (step s e).2 = before ++ [.removeJournal, status] → (∀ effect ∈ before, effect.announces = false) →
    (step s e).1.isTerminal = true → Asks s e

/-- A step that asks for nothing of the kind. -/
theorem asks_neither {s s' : State} {e : Event} {effects : List Effect} (h : step s e = (s', effects))
    (he : endsJournaled s e = false) (hr : .removeJournal ∉ effects)
    (ha : ∀ effect ∈ effects, effect.announces = false) : Asks s e := by
  refine .neither he ?_ ?_ <;> rw [h] <;> assumption

/-- A step that ends an instance without an entry. -/
theorem asks_aborted {s : State} {e : Event} {reason : String} (h : step s e = abortedWith reason)
    (he : endsJournaled s e = false) : Asks s e :=
  .announces he (by rw [h]; simp [abortedWith]) (by rw [h]; rfl)

theorem asks_removes {s s' : State} {e : Event} (before : List Effect) (status : Effect)
    (h : step s e = (s', before ++ [.removeJournal, status])) (he : endsJournaled s e = true)
    (hlive : s.isTerminal = false) (hb : ∀ effect ∈ before, effect.announces = false) (hterm : s'.isTerminal = true) :
    Asks s e :=
  .removes before status he hlive (by rw [h]) hb (by rw [h]; exact hterm)

theorem asks_startRecovery {s : State} {e : Event} (cause : StopCause) (reason : Option String)
    (h : step s e = startRecovery cause reason) (he : endsJournaled s e = false) : Asks s e := by
  refine .neither he ?_ ?_ <;> rw [h] <;> simp [startRecovery, Effect.announces, InstanceState.isTerminal]

theorem asks_pending (e : Event) : Asks .pending e := by
  cases e with
  | setupOk => exact asks_neither rfl rfl (by simp) (by simp [Effect.announces, InstanceState.isTerminal])
  | setupFailed | stopRequested => exact asks_aborted rfl rfl
  | _ => exact asks_neither rfl rfl (by simp) (by simp)

theorem asks_preflight (which : Phase) (stop : Option StopCause) (e : Event) :
    Asks (rebuildPreflight which stop) e := by
  have hstep : step (rebuildPreflight which stop) e = stepPreflight which stop e := by cases which <;> rfl
  have hends : endsJournaled (rebuildPreflight which stop) e = false := by cases which <;> rfl
  have stays : stepPreflight which stop e = (rebuildPreflight which stop, []) →
      Asks (rebuildPreflight which stop) e := fun h => asks_neither (hstep.trans h) hends (by simp) (by simp)
  have aborts : ∀ reason, stepPreflight which stop e = abortedWith reason → Asks (rebuildPreflight which stop) e :=
    fun reason h => asks_aborted (hstep.trans h) hends
  cases e with
  | stopRequested cause => exact asks_neither hstep hends (by simp) (by simp)
  | setupOk | setupFailed | journalWritten | journalWriteFailed => exact stays rfl
  | invocationFailed c reason | invokeRejected c reason =>
    cases c with
    | preflight => exact aborts _ rfl
    | _ => exact stays rfl
  | commandFinished c d =>
    cases c with
    | preflight =>
      cases d with
      | success =>
        cases stop with
        | some cause => exact aborts _ rfl
        | none => cases which <;> exact asks_neither rfl rfl (by simp) (by simp [Effect.announces])
      | _ => exact aborts _ rfl
    | _ => exact stays rfl

theorem asks_writingJournal (stop : Option StopCause) (e : Event) : Asks (.writingJournal stop) e := by
  cases e with
  | journalWritten =>
    cases stop with
    | some cause => exact asks_removes [] _ rfl rfl rfl (by simp) rfl
    | none => exact asks_neither rfl rfl (by simp) (by simp [Effect.announces, InstanceState.isTerminal])
  | journalWriteFailed => exact asks_aborted rfl (by cases stop <;> rfl)
  | _ => exact asks_neither rfl (by cases stop <;> rfl) (by simp) (by simp)

theorem asks_injecting (stop : Option StopCause) (e : Event) : Asks (.injecting stop) e := by
  have stays : ∀ {s'}, step (.injecting stop) e = (s', []) → endsJournaled (.injecting stop) e = false →
      Asks (.injecting stop) e := fun h he => asks_neither h he (by simp) (by simp)
  cases e with
  | stopRequested | setupOk | setupFailed | journalWritten | journalWriteFailed => exact stays rfl rfl
  | invocationFailed => exact asks_startRecovery .deadman (some _) rfl rfl
  | invokeRejected => exact asks_removes [] _ rfl rfl rfl (by simp) rfl
  | commandFinished c d =>
    cases c with
    | inject =>
      cases d with
      | success =>
        cases stop with
        | some cause => exact asks_startRecovery cause none rfl rfl
        | none => exact asks_neither rfl rfl (by simp) (by simp [Effect.announces, InstanceState.isTerminal])
      | injectFailed => exact asks_removes [] _ rfl rfl rfl (by simp) rfl
      | _ => exact asks_startRecovery .deadman (some _) rfl rfl
    | _ => exact stays rfl rfl

theorem asks_recovering (rec : Recovery) (e : Event) : Asks (.recovering rec) e := by
  have stays : ∀ {s'}, step (.recovering rec) e = (s', []) → endsJournaled (.recovering rec) e = false →
      Asks (.recovering rec) e := fun h he => asks_neither h he (by simp) (by simp)
  -- a failure of the command that is running, or of another one
  have failure : ∀ command detail,
      step (.recovering rec) e = (if command = rec.current then recoveryFailure rec detail else (.recovering rec, [])) →
      endsJournaled (.recovering rec) e = (decide (command = rec.current) && rec.retried) →
      Asks (.recovering rec) e := by
    intro command detail h he
    by_cases hc : command = rec.current
    · rw [if_pos hc] at h
      unfold recoveryFailure at h
      cases hr : rec.retried with
      | true =>
        rw [if_pos hr] at h
        exact asks_removes [_] _ h (by simp [he, hc, hr]) rfl (by simp [Effect.announces]) rfl
      | false =>
        rw [hr, if_neg Bool.false_ne_true] at h
        exact asks_neither h (by simp [he, hr]) (by simp) (by simp [Effect.announces])
    · rw [if_neg hc] at h
      exact stays h (by simp [he, hc])
  cases e with
  | stopRequested cause => cases cause <;> exact stays rfl rfl
  | setupOk | setupFailed | journalWritten | journalWriteFailed => exact stays rfl rfl
  | invocationFailed c reason => exact failure c reason rfl rfl
  | invokeRejected c reason => exact failure c reason rfl rfl
  | commandFinished c d =>
    cases d with
    | success =>
      by_cases hc : c = rec.current
      · subst hc
        cases hr : rec.remaining with
        | nil =>
          have h : step (.recovering rec) (.commandFinished rec.current .success) =
              (rec.outcome.state, [.removeJournal, .emitStatus rec.outcome.terminalState rec.reason]) := by
            simp only [step, stepRecovering, hr, if_pos]
          refine asks_removes [] _ h ?_ rfl (by simp) (by cases rec.outcome <;> rfl)
          · simp [endsJournaled, hr]
        | cons next rest =>
          have h : step (.recovering rec) (.commandFinished rec.current .success) =
              (.recovering { rec with current := next, remaining := rest, retried := false },
                [.invoke next .runtime]) := by
            simp only [step, stepRecovering, hr, if_pos]
          refine asks_neither h ?_ (by simp) (by simp [Effect.announces])
          · simp [endsJournaled, hr]
      · have h : step (.recovering rec) (.commandFinished c .success) = (.recovering rec, []) := by
          simp only [step, stepRecovering, if_neg hc]
        exact stays h (by simp [endsJournaled, hc])
    | _ => exact failure c _ rfl rfl

/-- **What a step asks for.** -/
theorem asks (s : State) (e : Event) : Asks s e := by
  cases s with
  | pending => exact asks_pending e
  | preflightInstall stop => exact asks_preflight .install stop e
  | preflightRuntime stop => exact asks_preflight .runtime stop e
  | writingJournal stop => exact asks_writingJournal stop e
  | injecting stop => exact asks_injecting stop e
  | recovering rec => exact asks_recovering rec e
  | active =>
    cases e with
    | stopRequested cause => exact asks_startRecovery cause none rfl rfl
    | _ => exact asks_neither rfl rfl (by simp) (by simp)
  | done | aborted | error => exact asks_neither rfl rfl (by simp) (by simp)

/-! ## Runs of events -/

theorem performs_append (s : State) (before after : List Event) :
    s.performs (before ++ after) = s.performs before ++ (s.after before).performs after := by
  induction before generalizing s with
  | nil => rfl
  | cons e before ih =>
    rw [List.cons_append, State.performs, State.performs, ih, List.append_assoc]
    rfl

theorem after_terminal {s : State} (h : s.isTerminal = true) (events : List Event) : s.after events = s := by
  induction events with
  | nil => rfl
  | cons e events ih =>
    have hs : (step s e).1 = s := by
      cases s with
      | done | aborted | error => rfl
      | _ => cases h
    show (step s e).1.after events = s
    rw [hs, ih]

/-- While an instance is live, nothing has been announced. -/
theorem performs_live {s : State} {events : List Event} (h : (s.after events).isTerminal = false) :
    ∀ effect ∈ s.performs events, effect.announces = false := by
  induction events generalizing s with
  | nil => simp [State.performs]
  | cons e events ih =>
    have hlive : (step s e).1.isTerminal = true → False := by
      intro hterm
      have hafter : s.after (e :: events) = (step s e).1 := after_terminal hterm events
      rw [hafter, hterm] at h
      cases h
    intro effect hm
    rcases List.mem_append.1 hm with hm | hm
    · cases asks s e with
      | neither _ _ ha => exact ha effect hm
      | announces _ _ hterm => exact (hlive hterm).elim
      | removes _ _ _ _ _ _ hterm => exact (hlive hterm).elim
    · exact ih h effect hm

/-- Where an entry is removed, a journaled instance ends. -/
theorem performs_removes {s : State} {events : List Event} (h : .removeJournal ∈ s.performs events) :
    ∃ before e after, events = before ++ e :: after ∧ endsJournaled (s.after before) e = true := by
  induction events generalizing s with
  | nil => cases h
  | cons e events ih =>
    rcases List.mem_append.1 h with hm | hm
    · cases asks s e with
      | neither _ hno _ => exact absurd hm hno
      | announces _ hno _ => exact absurd hm hno
      | removes _ _ he => exact ⟨[], e, events, rfl, he⟩
    · obtain ⟨before, e', after, rfl, he⟩ := ih hm
      exact ⟨e :: before, e', after, rfl, he⟩

theorem Start.effects_plain (start : Start) :
    .removeJournal ∉ start.effects ∧ ∀ effect ∈ start.effects, effect.announces = false := by
  cases start <;> simp [Start.effects, State.replayRecovery, Effect.announces, InstanceState.isTerminal]

/-- **The announcement comes first exactly in the runs that never end a journaled instance.** -/
theorem announced_iff (start : Start) (events : List Event) :
    Announced (start.effects ++ start.state.performs events) ↔
      ∀ before e after, events = before ++ e :: after → endsJournaled (start.state.after before) e = false := by
  obtain ⟨hkeep, hplain⟩ := start.effects_plain
  constructor
  · rintro h before e after rfl
    by_contra hends
    cases asks (start.state.after before) e with
    | neither he => exact hends he
    | announces he => exact hends he
    | removes pre status _ hlive heff hpre _ =>
      -- the prefix that ends with the removal
      have hprefix : start.effects ++ start.state.performs before ++ pre ++ [.removeJournal] <+:
          start.effects ++ start.state.performs (before ++ e :: after) := by
        refine ⟨status :: (step (start.state.after before) e).1.performs after, ?_⟩
        rw [performs_append, State.performs, heff]
        simp
      obtain ⟨effect, hm, ha⟩ := h _ hprefix (by simp)
      have hno : effect.announces = false := by
        simp only [List.mem_append, List.mem_singleton] at hm
        rcases hm with ((hm | hm) | hm) | rfl
        · exact hplain effect hm
        · exact performs_live hlive effect hm
        · exact hpre effect hm
        · rfl
      rw [hno] at ha
      cases ha
  · intro h done hdone hm
    have hmem := hdone.subset hm
    rcases List.mem_append.1 hmem with hm | hm
    · exact absurd hm hkeep
    · obtain ⟨before, e, after, he, hends⟩ := performs_removes hm
      rw [h before e after he] at hends
      cases hends

/-! ## A run on fixed inputs -/

def refusedEvents : List Event :=
  [.setupOk, .commandFinished .preflight .success, .commandFinished .preflight .success, .journalWritten,
    .commandFinished .inject .injectFailed]

def refusedChoices : List Choice := injectChoices ++ [.exit ⟨[], "", .code 20⟩, .go, .go, .io none]

/-- `inject` exits with 20; the entry has been removed, and the status is still to be queued. -/
def refusedLabels : List AgentLabel :=
  [.conn .connected, .frame (.runFault sampleRun)] ++ refusedChoices.map (.task sampleRun.instanceId)

/-- What a crash at this point leaves: no entry, and no terminal status in the queue. -/
def forgotten (a : Supervisor) : Bool :=
  (a.seen sampleRun.instanceId).contains (.spawned .inject) && (a.ctx.journal.lookup sampleRun.instanceId).isNone &&
    a.ctx.out.all fun
      | .instanceStatus status => status.state < toWireI32 .done
      | _ => true

theorem removed_unannounced :
    ¬ Announced (Start.fresh.effects ++ Start.fresh.state.performs refusedEvents) ∧
      ∃ a, Reach (agentLts plainExt) a ∧ forgotten a = true := by
  refine ⟨fun h => ?_, reach_of_run forgotten (L := agentLts plainExt) (s := .boot plainExt sampleBoot)
    ⟨sampleBoot, rfl⟩ refusedLabels (by decide +kernel)⟩
  -- all effects but the last one
  obtain ⟨effect, hm, ha⟩ := h ((Start.fresh.state.performs refusedEvents).dropLast) (List.dropLast_prefix _)
    (by decide +kernel)
  have hnone : ((Start.fresh.state.performs refusedEvents).dropLast).all (fun effect => !effect.announces) = true := by
    decide +kernel
  have := List.all_eq_true.1 hnone effect hm
  rw [ha] at this
  cases this

end FaultForge.Agent
