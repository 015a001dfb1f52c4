/-!
# Labelled transition systems

A system is a set of initial states and a partial step function: `step s a` is the state after label `a`,
`none` when `a` is not enabled in `s`. Nondeterminism is in the labels, so a run is a list of labels and
can be evaluated (`run`).

* `Reach` — the states of all runs; `Reach.inv` is the invariant rule (initial + preserved by every step).
* `ReachIf G` — the states of the runs whose steps all meet `G` (a predicate on the state before the step and
  the label); `ReachIf.inv` is its invariant rule, which may use `G` and an invariant already proved.
* `reach_of_run` — a run that evaluates gives a reachable state, used to settle a statement on a concrete run.
* `Reach.map` — a projection under which every step becomes no step or one step of another system.
* `System.startIn` — a system with fewer initial states.
* `watch` — a system with a value that follows its steps (what has been said or done so far) and never decides any.
-/
namespace Lts

structure System (σ α : Type) where
  init : σ → Prop
  step : σ → α → Option σ

variable {σ α τ β γ : Type} {L : System σ α} {M : System τ β}

inductive Reach (L : System σ α) : σ → Prop
  | init {s : σ} : L.init s → Reach L s
  | step {s s' : σ} {a : α} : Reach L s → L.step s a = some s' → Reach L s'

/-- States of the runs all of whose steps satisfy `G`. -/
inductive ReachIf (L : System σ α) (G : σ → α → Prop) : σ → Prop
  | init {s : σ} : L.init s → ReachIf L G s
  | step {s s' : σ} {a : α} : ReachIf L G s → G s a → L.step s a = some s' → ReachIf L G s'

theorem ReachIf.reach {G : σ → α → Prop} {s : σ} (h : ReachIf L G s) : Reach L s := by
  induction h with
  | init hi => exact .init hi
  | step _ _ hs ih => exact .step ih hs

theorem ReachIf.mono {G G' : σ → α → Prop} (hG : ∀ s a, G s a → G' s a) {s : σ} (h : ReachIf L G s) :
    ReachIf L G' s := by
  induction h with
  | init hi => exact .init hi
  | step _ hg hs ih => exact .step ih (hG _ _ hg) hs

/-- The invariant rule. -/
theorem Reach.inv {P : σ → Prop} (h0 : ∀ s, L.init s → P s)
    (hstep : ∀ s a s', P s → L.step s a = some s' → P s') {s : σ} (h : Reach L s) : P s := by
  induction h with
  | init hi => exact h0 _ hi
  | step _ hs ih => exact hstep _ _ _ ih hs

/-- The invariant rule for guarded runs: a step may use its guard and any invariant `I` of all runs. -/
theorem ReachIf.inv {G : σ → α → Prop} {I P : σ → Prop} (hI : ∀ s, Reach L s → I s)
    (h0 : ∀ s, L.init s → P s)
    (hstep : ∀ s a s', I s → P s → G s a → L.step s a = some s' → P s') {s : σ} (h : ReachIf L G s) : P s := by
  induction h with
  | init hi => exact h0 _ hi
  | step hr hg hs ih => exact hstep _ _ _ (hI _ hr.reach) ih hg hs

/-- The invariant rule on top of an invariant already proved. -/
theorem Reach.inv_of {I P : σ → Prop} (hI : ∀ s, Reach L s → I s) (h0 : ∀ s, L.init s → P s)
    (hstep : ∀ s a s', I s → P s → L.step s a = some s' → P s') {s : σ} (h : Reach L s) : P s := by
  induction h with
  | init hi => exact h0 _ hi
  | step hr hs ih => exact hstep _ _ _ (hI _ hr) ih hs

/-- The steps of a list of labels, in order; `none` when one of them is not enabled. -/
def run (L : System σ α) : σ → List α → Option σ
  | s, [] => some s
  | s, a :: as => (L.step s a).bind (run L · as)

theorem run_append (s : σ) (as bs : List α) : run L s (as ++ bs) = (run L s as).bind (run L · bs) := by
  induction as generalizing s with
  | nil => rfl
  | cons a as ih =>
    simp only [List.cons_append, run]
    cases L.step s a with
    | none => rfl
    | some s1 => simpa using ih s1

theorem Reach.run {s s' : σ} {as : List α} (h : Reach L s) (hr : run L s as = some s') : Reach L s' := by
  induction as generalizing s with
  | nil => simp only [Lts.run, Option.some.injEq] at hr; exact hr ▸ h
  | cons a as ih =>
    simp only [Lts.run] at hr
    cases hs : L.step s a with
    | none => simp [hs] at hr
    | some s1 => exact ih (.step h hs) (by simpa [hs] using hr)

/-- A run that evaluates to a state with `p` gives a reachable state with `p`. -/
theorem reach_of_run (p : σ → Bool) {s : σ} (hs : L.init s) (as : List α)
    (h : (run L s as).map p = some true) : ∃ s', Reach L s' ∧ p s' = true := by
  cases hr : run L s as with
  | none => simp [hr] at h
  | some s' =>
    simp only [hr, Option.map_some, Option.some.injEq] at h
    exact ⟨s', .run (.init hs) hr, h⟩

/-- The steps of a list of labels, each of which must pass the guard `g`. -/
def runIf (L : System σ α) (g : σ → α → Bool) : σ → List α → Option σ
  | s, [] => some s
  | s, a :: as => if g s a then (L.step s a).bind (runIf L g · as) else none

theorem ReachIf.run {G : σ → α → Prop} {g : σ → α → Bool} (hg : ∀ s a, g s a = true → G s a) {s s' : σ} {as : List α}
    (h : ReachIf L G s) (hr : runIf L g s as = some s') : ReachIf L G s' := by
  induction as generalizing s with
  | nil => simp only [runIf, Option.some.injEq] at hr; exact hr ▸ h
  | cons a as ih =>
    simp only [runIf] at hr
    split at hr
    case isFalse => cases hr
    case isTrue ha =>
      cases hs : L.step s a with
      | none => simp [hs] at hr
      | some s1 => exact ih (.step h (hg s a ha) hs) (by simpa [hs] using hr)

/-- A guarded run that evaluates to a state with `p` gives a state reachable under the guard with `p`. -/
theorem reachIf_of_run {G : σ → α → Prop} {g : σ → α → Bool} (hg : ∀ s a, g s a = true → G s a) (p : σ → Bool)
    {s : σ} (hs : L.init s) (as : List α) (h : (runIf L g s as).map p = some true) :
    ∃ s', ReachIf L G s' ∧ p s' = true := by
  cases hr : runIf L g s as with
  | none => simp [hr] at h
  | some s' =>
    simp only [hr, Option.map_some, Option.some.injEq] at h
    exact ⟨s', .run hg (.init hs) hr, h⟩

/-- A projection under which every step is matched by at most one step maps reachable states to reachable ones. -/
theorem Reach.map {f : σ → τ} (h0 : ∀ s, L.init s → M.init (f s))
    (hstep : ∀ s a s', Reach L s → L.step s a = some s' → f s' = f s ∨ ∃ b, M.step (f s) b = some (f s'))
    {s : σ} (h : Reach L s) : Reach M (f s) := by
  induction h with
  | init hi => exact .init (h0 _ hi)
  | step hr hs ih =>
    rcases hstep _ _ _ hr hs with he | ⟨b, hb⟩
    · exact he ▸ ih
    · exact .step ih hb

/-- `L`, started only where `I` holds. -/
def System.startIn (L : System σ α) (I : σ → Prop) : System σ α where
  init s := L.init s ∧ I s
  step := L.step

theorem Reach.of_startIn {I : σ → Prop} {s : σ} (h : Reach (L.startIn I) s) : Reach L s := by
  induction h with
  | init hi => exact .init hi.1
  | step _ hs ih => exact .step ih hs

/-! ## Watching a run -/

/-- A state and what has been seen of the run that led to it. -/
structure Watched (σ γ : Type) where
  state : σ
  seen : γ

/-- `L`, with a value that starts as `start` and follows every step. -/
def watch (L : System σ α) (start : σ → γ) (follow : σ → γ → α → σ → γ) : System (Watched σ γ) α where
  init w := L.init w.state ∧ w.seen = start w.state
  step w a := (L.step w.state a).map fun s' => ⟨s', follow w.state w.seen a s'⟩

section
variable {start : σ → γ} {follow : σ → γ → α → σ → γ} {w w' : Watched σ γ} {a : α}

theorem watch_step_some : (watch L start follow).step w a = some w' ↔
    L.step w.state a = some w'.state ∧ w'.seen = follow w.state w.seen a w'.state := by
  obtain ⟨s', g'⟩ := w'
  simp only [watch, Option.map_eq_some_iff, Watched.mk.injEq]
  constructor
  · rintro ⟨s, hs, rfl, rfl⟩
    exact ⟨hs, rfl⟩
  · rintro ⟨hs, rfl⟩
    exact ⟨s', hs, rfl, rfl⟩

/-- Watching adds no states. -/
theorem Reach.unwatched (h : Reach (watch L start follow) w) : Reach L w.state := by
  induction h with
  | init hi => exact .init hi.1
  | step _ hs ih => exact .step ih (watch_step_some.1 hs).1

/-- Watching loses no states. -/
theorem Reach.watched {s : σ} (h : Reach L s) : ∃ g, Reach (watch L start follow) ⟨s, g⟩ := by
  induction h with
  | @init s hi => exact ⟨start s, .init ⟨hi, rfl⟩⟩
  | @step s s' a _ hs ih =>
    obtain ⟨g, hg⟩ := ih
    exact ⟨follow s g a s', .step hg (watch_step_some.2 ⟨hs, rfl⟩)⟩

end

end Lts
