import FaultForge.Agent.Announce
import FaultForge.Agent.AnyEvents
import FaultForge.Agent.Telling

/-!
# The statuses of a run (machine.rs:136-184, 264-609)

Every transition writes its statuses by hand, and several machine states share one wire state. On any events, a step
emits the state it changes to, once, and nothing when the wire state stays (`step_shows`); the wire state only advances.
So what a run has emitted is an ascent that ends where the machine is (`statuses_ascend`), for a fresh instance and for
a replayed one.
-/
namespace FaultForge.Agent

/-- `PREFLIGHT`, `INJECTING`, `ACTIVE`, `RECOVERING`, then a terminal state. -/
def InstanceState.rank : InstanceState → Nat
  | .pending => 0
  | .preflight => 1
  | .injecting => 2
  | .active => 3
  | .recovering => 4
  | .done | .aborted | .error => 5

/-- What the effects emit, in order. -/
def statuses (effects : List Effect) : List InstanceState := effects.filterMap Effect.tells

/-! ## One step -/

/-- The step emits the wire state it changes to, and it advances. -/
structure Shows (s s' : State) (effects : List Effect) : Prop where
  emits : statuses effects = if s'.instanceState = s.instanceState then [] else [s'.instanceState]
  advances : s'.instanceState ≠ s.instanceState →
    InstanceState.rank s.instanceState < InstanceState.rank s'.instanceState

theorem Shows.same {s s' : State} {effects : List Effect} (h : s'.instanceState = s.instanceState)
    (he : statuses effects = []) : Shows s s' effects :=
  ⟨by rw [if_pos h, he], fun hne => absurd h hne⟩

theorem Shows.moves {s s' : State} {effects : List Effect}
    (h : InstanceState.rank s.instanceState < InstanceState.rank s'.instanceState)
    (he : statuses effects = [s'.instanceState]) : Shows s s' effects := by
  refine ⟨?_, fun _ => h⟩
  rw [if_neg, he]
  intro hs
  rw [hs] at h
  exact Nat.lt_irrefl _ h

theorem Trans.shows {s s' : State} {e : Event} {effects : List Effect} (h : Trans s e s' effects) :
    Shows s s' effects := by
  cases h with
  | absorbed | installOk | runtimeOk | stopJournal | stopInject | stopRecovery | recoveryNext | recoveryRetry =>
    exact .same rfl rfl
  | stopPreflight which => cases which <;> exact .same rfl rfl
  | preflightStopped which | preflightFailed which =>
    refine .moves ?_ rfl
    rw [rebuildPreflight_shown]
    exact (by decide : InstanceState.rank .preflight < InstanceState.rank .aborted)
  | recovered rec =>
    cases ho : rec.outcome <;> exact .moves (by simp [State.instanceState, InstanceState.rank, Outcome.state]) rfl
  | setupOk | setupFailed | stopPending | journalStopped | journalFailed | inject | injected | injectedStopped
  | injectUnaffected | injectAmbiguous | stopActive | recoveryFailed =>
    exact .moves (by simp [State.instanceState, InstanceState.rank, startRecovery]) rfl

/-- **What a step shows**, on any event. -/
theorem step_shows (s : State) (e : Event) : Shows s (step s e).1 (step s e).2 := by
  rcases step_any s e with h | ⟨-, h⟩ | ⟨-, h⟩
  · exact h.shows
  · rw [h]
    exact .same rfl rfl
  · exact h.shows

/-! ## A run -/

/-- From `state` on, the states ascend, and `last` is the last of them, or `state` itself when there is none. -/
structure Ascends (state last : InstanceState) (emitted : List InstanceState) : Prop where
  ordered : emitted.Pairwise fun a b => InstanceState.rank a < InstanceState.rank b
  above : ∀ s ∈ emitted, InstanceState.rank state < InstanceState.rank s
  last : emitted.getLastD state = last

theorem Ascends.cons {state s last : InstanceState} {emitted : List InstanceState}
    (hlt : InstanceState.rank state < InstanceState.rank s) (h : Ascends s last emitted) :
    Ascends state last (s :: emitted) where
  ordered := List.pairwise_cons.2 ⟨h.above, h.ordered⟩
  above := by
    intro a ha
    rcases List.mem_cons.1 ha with rfl | ha
    · exact hlt
    · exact hlt.trans (h.above a ha)
  last := by
    rw [List.getLastD_cons]
    exact h.last

theorem performs_ascend (s : State) (events : List Event) :
    Ascends s.instanceState (s.after events).instanceState (statuses (s.performs events)) := by
  induction events generalizing s with
  | nil => exact ⟨.nil, by simp [statuses, State.performs], rfl⟩
  | cons e events ih =>
    have hshow := step_shows s e
    have hrest := ih (step s e).1
    have hsplit : statuses (s.performs (e :: events)) =
        statuses (step s e).2 ++ statuses ((step s e).1.performs events) := List.filterMap_append
    rw [hsplit, hshow.emits]
    by_cases hsame : (step s e).1.instanceState = s.instanceState
    · rw [if_pos hsame, List.nil_append, ← hsame]
      exact hrest
    · rw [if_neg hsame]
      exact hrest.cons (hshow.advances hsame)

/-- No state ranks above a terminal one. -/
theorem rank_le_terminal {s : InstanceState} (h : s.isTerminal) (a : InstanceState) :
    InstanceState.rank a ≤ InstanceState.rank s := by
  cases s <;> first | (cases a <;> decide) | cases h

/-- A terminal state in an ascent is its last, and there is no other. -/
theorem Ascends.terminal {state last s : InstanceState} {before after : List InstanceState}
    (h : Ascends state last (before ++ s :: after)) (hs : s.isTerminal) :
    after = [] ∧ ∀ a ∈ before, a.isTerminal = false := by
  obtain ⟨-, hafter, hbefore⟩ := List.pairwise_append.1 h.ordered
  constructor
  · refine List.eq_nil_iff_forall_not_mem.2 fun a ha => ?_
    exact absurd ((List.pairwise_cons.1 hafter).1 a ha) (Nat.not_lt.2 (rank_le_terminal hs a))
  · intro a ha
    refine Bool.eq_false_iff.2 fun hterm => ?_
    exact absurd (hbefore a ha s List.mem_cons_self) (Nat.not_lt.2 (rank_le_terminal hterm s))

/-- All that a run emits, with what its start emits. -/
def Start.emits (start : Start) (events : List Event) : List InstanceState :=
  statuses (start.effects ++ start.state.performs events)

theorem Start.ascends (start : Start) (events : List Event) :
    Ascends .pending (start.state.after events).instanceState (start.emits events) := by
  have hsplit : start.emits events = statuses start.effects ++ statuses (start.state.performs events) :=
    List.filterMap_append
  have h := performs_ascend start.state events
  rw [hsplit]
  cases start with
  | fresh => exact h
  | replay outcome reason => exact h.cons (by decide)

/-- **The status track is faithful**, for a fresh instance and for a replayed one, whatever is fed to the machine: a
step emits the wire state exactly when it changes, the states emitted advance, a terminal one is the only one of its
kind and the last, and the last is the state the machine is in. -/
theorem statuses_ascend (start : Start) (events : List Event) :
    (∀ t ∈ feed start.state events, statuses t.effects =
      if t.post.instanceState = t.pre.instanceState then [] else [t.post.instanceState]) ∧
    (start.emits events).Pairwise (fun a b => InstanceState.rank a < InstanceState.rank b) ∧
    (∀ s ∈ start.emits events, s ≠ .pending) ∧
    (∀ before s after, start.emits events = before ++ s :: after → s.isTerminal →
      after = [] ∧ ∀ a ∈ before, a.isTerminal = false) ∧
    (start.emits events).getLastD .pending = (start.state.after events).instanceState := by
  have h := start.ascends events
  refine ⟨fun t ht => ?_, h.ordered, ?_, ?_, h.last⟩
  · have hstep := feed_tick ht
    have hshow := step_shows t.pre t.event
    rw [← hstep] at hshow
    exact hshow.emits
  · rintro s hs rfl
    exact absurd (h.above _ hs) (Nat.lt_irrefl _)
  · intro before s after hsplit hs
    exact Ascends.terminal (hsplit ▸ h) hs

end FaultForge.Agent
