import Mathlib.Data.List.Basic

/-!
# Calls that a crash may cut short

Calls are made one after the other on a store that outlives the process. A call returns, fails, or is cut short by a
crash, after which the next one finds what is left. It is atomic when it has its effect if it returned, none if it
failed, and all of it or none if it was cut short.

* `Effective` — the calls of a history that had their effect; a call that was cut short may be one of them or not.
* `run_effective` — what every call makes of the effective calls before it, a run makes of all of them.
-/
namespace Crash

inductive Ended (ε : Type)
  | done
  | failed (e : ε)
  | crashed

variable {κ η σ ε : Type}

inductive Effective : List (κ × Ended ε) → List κ → Prop
  | nil : Effective [] []
  | done {c : κ} {history : List (κ × Ended ε)} {calls : List κ} :
      Effective history calls → Effective ((c, .done) :: history) (c :: calls)
  | failed {c : κ} {e : ε} {history : List (κ × Ended ε)} {calls : List κ} :
      Effective history calls → Effective ((c, .failed e) :: history) calls
  | lost {c : κ} {history : List (κ × Ended ε)} {calls : List κ} :
      Effective history calls → Effective ((c, .crashed) :: history) calls
  | kept {c : κ} {history : List (κ × Ended ε)} {calls : List κ} :
      Effective history calls → Effective ((c, .crashed) :: history) (c :: calls)

/-- The calls, each with what the host does to it. -/
def run (exec : κ → η → σ → Ended ε × σ) : List (κ × η) → σ → List (κ × Ended ε) × σ
  | [], s => ([], s)
  | (c, h) :: rest, s =>
    let (outcome, s) := exec c h s
    let (history, s) := run exec rest s
    ((c, outcome) :: history, s)

/-- `R calls s`: the store is what the effective calls make of it. -/
def Atomic (exec : κ → η → σ → Ended ε × σ) (R : List κ → σ → Prop) (c : κ) (h : η) : Prop :=
  ∀ past s, R past s →
    match exec c h s with
    | (.done, s') => R (past ++ [c]) s'
    | (.failed _, s') => R past s'
    | (.crashed, s') => R past s' ∨ R (past ++ [c]) s'

variable {exec : κ → η → σ → Ended ε × σ} {R : List κ → σ → Prop}

/-- A run of atomic calls. -/
theorem run_effective {steps : List (κ × η)} (ha : ∀ x ∈ steps, Atomic exec R x.1 x.2) {past : List κ} {s : σ}
    (h : R past s) :
    ∃ calls, Effective (run exec steps s).1 calls ∧ R (past ++ calls) (run exec steps s).2 := by
  induction steps generalizing past s with
  | nil => exact ⟨[], .nil, (List.append_nil past).symm ▸ h⟩
  | cons x rest ih =>
    obtain ⟨c, host⟩ := x
    have hrest : ∀ x ∈ rest, Atomic exec R x.1 x.2 := fun x hx => ha x (List.mem_cons_of_mem _ hx)
    have hstep := ha (c, host) List.mem_cons_self past s h
    dsimp only at hstep
    simp only [run]
    -- the call is one of the effective ones, or the rest of the run goes on as if it had not been made
    have hkept : R (past ++ [c]) (exec c host s).2 →
        ∃ calls, Effective (run exec rest (exec c host s).2).1 calls ∧
          R (past ++ c :: calls) (run exec rest (exec c host s).2).2 := fun hr => by
      simpa using ih hrest hr
    rcases he : exec c host s with ⟨outcome, s'⟩
    rw [he] at hstep hkept
    cases outcome with
    | done =>
      obtain ⟨calls, heff, hr⟩ := hkept hstep
      exact ⟨c :: calls, .done heff, hr⟩
    | failed e =>
      obtain ⟨calls, heff, hr⟩ := ih hrest hstep
      exact ⟨calls, .failed heff, hr⟩
    | crashed =>
      rcases hstep with hstep | hstep
      · obtain ⟨calls, heff, hr⟩ := ih hrest hstep
        exact ⟨calls, .lost heff, hr⟩
      · obtain ⟨calls, heff, hr⟩ := hkept hstep
        exact ⟨c :: calls, .kept heff, hr⟩

theorem Effective.mem {history : List (κ × Ended ε)} {calls : List κ} (h : Effective history calls) :
    ∀ c ∈ calls, c ∈ history.map Prod.fst := by
  induction h with
  | nil => exact fun c hc => hc
  | done _ ih | kept _ ih =>
    intro c hc
    rcases List.mem_cons.1 hc with rfl | hc
    · exact List.mem_cons_self
    · exact List.mem_cons_of_mem _ (ih c hc)
  | failed _ ih | lost _ ih => exact fun c hc => List.mem_cons_of_mem _ (ih c hc)

theorem run_calls (exec : κ → η → σ → Ended ε × σ) (steps : List (κ × η)) (s : σ) :
    (run exec steps s).1.map Prod.fst = steps.map Prod.fst := by
  induction steps generalizing s with
  | nil => rfl
  | cons x rest ih => simp [run, ih]

end Crash
