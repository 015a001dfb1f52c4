import Mathlib.Algebra.Ring.Nat

/-!
# Tasks over a shared state

A pool is a shared state and a list of tasks; a task is the list of acts it still has to do, first one first. A step
lets one task do its first act: `exec s p a` gives the shared state after it, the acts put in the place of `a`, and the
tasks it starts; `none` when the act has to wait. Atomicity is in the acts: what a program does under one lock, or
between two awaits, is one act, and any other task may step in between.

* `step_some` — what a step is; `Each.step` — the rule for a fact about every pending act.
* `weigh` — what all pending acts weigh together; `weigh_step` is its exact account, for counting arguments.
* `solo` — a task on its own; `Solo.trans` composes stretches of it.
-/
namespace Tasks

structure Pool (σ α : Type) where
  shared : σ
  tasks : List (List α)

structure Effect (σ α : Type) where
  shared : σ
  acts : List α
  spawned : List (List α)

variable {σ α : Type} {exec : σ → Nat → α → Option (Effect σ α)} {m m' : Pool σ α} {p : Nat}

def step (exec : σ → Nat → α → Option (Effect σ α)) (m : Pool σ α) (p : Nat) : Option (Pool σ α) :=
  match m.tasks[p]? with
  | some (a :: rest) => (exec m.shared p a).map fun r => ⟨r.shared, m.tasks.set p (r.acts ++ rest) ++ r.spawned⟩
  | _ => none

theorem step_some (h : step exec m p = some m') : ∃ a rest r, m.tasks[p]? = some (a :: rest) ∧
    exec m.shared p a = some r ∧ m' = ⟨r.shared, m.tasks.set p (r.acts ++ rest) ++ r.spawned⟩ := by
  unfold step at h
  split at h
  next a rest ht =>
    obtain ⟨r, hr, rfl⟩ := Option.map_eq_some_iff.1 h
    exact ⟨a, rest, r, ht, hr, rfl⟩
  next => cases h

theorem step_of_exec {a : α} {rest : List α} {r : Effect σ α} (ht : m.tasks[p]? = some (a :: rest))
    (hr : exec m.shared p a = some r) :
    step exec m p = some ⟨r.shared, m.tasks.set p (r.acts ++ rest) ++ r.spawned⟩ := by
  simp only [step, ht, hr, Option.map_some]

/-- The tasks after a step: the one that moved, those that stayed, and the new ones. -/
theorem get_step {tasks more : List (List α)} {task task' : List α} {q : Nat}
    (h : (tasks.set p task' ++ more)[q]? = some task) :
    (q = p ∧ task = task') ∨ (q ≠ p ∧ tasks[q]? = some task) ∨ task ∈ more := by
  by_cases hq : q < (tasks.set p task').length
  · rw [List.getElem?_append_left hq, List.getElem?_set] at h
    by_cases hp : p = q
    · rw [if_pos hp] at h
      split at h
      · exact .inl ⟨hp.symm, (Option.some.inj h).symm⟩
      · cases h
    · rw [if_neg hp] at h
      exact .inr (.inl ⟨Ne.symm hp, h⟩)
  · rw [List.getElem?_append_right (by omega)] at h
    exact .inr (.inr (List.mem_of_getElem? h))

/-! ## Facts about every pending act -/

/-- `Ok` holds of every pending act. -/
def Each (Ok : α → Prop) (tasks : List (List α)) : Prop := ∀ task ∈ tasks, ∀ a ∈ task, Ok a

section
variable {Ok Ok' : α → Prop} {tasks : List (List α)} {task : List α}

theorem Each.mono (h : Each Ok tasks) (hs : ∀ a, Ok a → Ok' a) : Each Ok' tasks :=
  fun task ht a ha => hs a (h task ht a ha)

theorem Each.append (h : Each Ok tasks) {more : List (List α)} (hm : Each Ok more) : Each Ok (tasks ++ more) := by
  intro task ht
  rcases List.mem_append.1 ht with ht | ht
  · exact h task ht
  · exact hm task ht

theorem Each.set (h : Each Ok tasks) (ht : ∀ a ∈ task, Ok a) : Each Ok (tasks.set p task) := by
  intro t hm
  rcases List.mem_or_eq_of_mem_set hm with hm | rfl
  · exact h t hm
  · exact ht

theorem Each.get (h : Each Ok tasks) (ht : tasks[p]? = some task) : ∀ a ∈ task, Ok a :=
  h task (List.mem_of_getElem? ht)

/-- What an act leaves keeps `Ok'`, so every pending act does. -/
theorem Each.step {a : α} {rest : List α} {r : Effect σ α} (h : Each Ok tasks) (ht : tasks[p]? = some (a :: rest))
    (hs : ∀ a, Ok a → Ok' a) (hacts : ∀ b ∈ r.acts, Ok' b) (hspawned : Each Ok' r.spawned) :
    Each Ok' (tasks.set p (r.acts ++ rest) ++ r.spawned) := by
  refine ((h.mono hs).set fun b hb => ?_).append hspawned
  rcases List.mem_append.1 hb with hb | hb
  · exact hacts b hb
  · exact hs b (h.get ht b (List.mem_cons_of_mem _ hb))

end

/-! ## Weights -/

/-- What one task weighs. -/
def load (w : α → Nat) (task : List α) : Nat := (task.map w).sum

/-- What all pending acts weigh together. -/
def weigh (w : α → Nat) (tasks : List (List α)) : Nat := (tasks.map (load w)).sum

section
variable {w : α → Nat} {tasks more : List (List α)} {task task' : List α}

@[simp] theorem load_nil : load w [] = 0 := rfl

@[simp] theorem load_cons (a : α) (task : List α) : load w (a :: task) = w a + load w task := rfl

@[simp] theorem load_append (task task' : List α) : load w (task ++ task') = load w task + load w task' := by
  simp [load]

@[simp] theorem weigh_nil : weigh w [] = 0 := rfl

@[simp] theorem weigh_cons (task : List α) (tasks : List (List α)) :
    weigh w (task :: tasks) = load w task + weigh w tasks := rfl

@[simp] theorem weigh_append (tasks more : List (List α)) :
    weigh w (tasks ++ more) = weigh w tasks + weigh w more := by
  simp [weigh]

theorem weigh_set (h : tasks[p]? = some task) (task' : List α) :
    weigh w (tasks.set p task') + load w task = weigh w tasks + load w task' := by
  induction tasks generalizing p with
  | nil => cases h
  | cons t tasks ih =>
    cases p with
    | zero =>
      obtain rfl := Option.some.inj h
      simp only [List.set_cons_zero, weigh_cons]
      omega
    | succ p =>
      have hp := ih (p := p) h
      simp only [List.set_cons_succ, weigh_cons]
      omega

/-- The account of a step. -/
theorem weigh_step {a : α} {rest : List α} {r : Effect σ α} (h : tasks[p]? = some (a :: rest)) :
    weigh w (tasks.set p (r.acts ++ rest) ++ r.spawned) + w a =
      weigh w tasks + load w r.acts + weigh w r.spawned := by
  have hset := weigh_set (w := w) h (r.acts ++ rest)
  simp only [load_cons, load_append, weigh_append] at *
  omega

theorem load_eq_zero (h : ∀ a ∈ task, w a = 0) : load w task = 0 := by
  induction task with
  | nil => rfl
  | cons a task ih =>
    rw [load_cons, h a List.mem_cons_self, ih fun b hb => h b (List.mem_cons_of_mem _ hb)]

theorem load_pos {a : α} (ha : a ∈ task) (hw : 0 < w a) : 0 < load w task := by
  induction task with
  | nil => cases ha
  | cons b task ih =>
    rw [load_cons]
    rcases List.mem_cons.1 ha with rfl | ha
    · omega
    · have := ih ha
      omega

theorem exists_of_load_pos (h : 0 < load w task) : ∃ a ∈ task, 0 < w a := by
  induction task with
  | nil => cases h
  | cons b task ih =>
    by_cases hb : 0 < w b
    · exact ⟨b, List.mem_cons_self, hb⟩
    · rw [load_cons] at h
      obtain ⟨a, ha, hw⟩ := ih (by omega)
      exact ⟨a, List.mem_cons_of_mem _ ha, hw⟩

theorem exists_of_weigh_pos (h : 0 < weigh w tasks) : ∃ task ∈ tasks, ∃ a ∈ task, 0 < w a := by
  induction tasks with
  | nil => cases h
  | cons task tasks ih =>
    by_cases ht : 0 < load w task
    · exact ⟨task, List.mem_cons_self, exists_of_load_pos ht⟩
    · rw [weigh_cons] at h
      obtain ⟨t, hm, ha⟩ := ih (by omega)
      exact ⟨t, List.mem_cons_of_mem _ hm, ha⟩

theorem weigh_pos (h : tasks[p]? = some task) (hl : 0 < load w task) : 0 < weigh w tasks := by
  have := weigh_set (w := w) h []
  simp only [load_nil] at this
  omega

end

/-! ## One task on its own -/

/-- `n` steps of task `p`, and of no other. -/
def solo (exec : σ → Nat → α → Option (Effect σ α)) (p : Nat) : Nat → Pool σ α → Option (Pool σ α)
  | 0, m => some m
  | n + 1, m => (step exec m p).bind (solo exec p n)

theorem solo_add (n k : Nat) (m : Pool σ α) : solo exec p (n + k) m = (solo exec p n m).bind (solo exec p k) := by
  induction n generalizing m with
  | zero => rw [Nat.zero_add]; rfl
  | succ n ih =>
    rw [Nat.succ_add, solo, solo]
    cases step exec m p with
    | none => rfl
    | some m' => exact ih m'

/-- Task `p` alone takes `m` to `m'`. -/
def Solo (exec : σ → Nat → α → Option (Effect σ α)) (p : Nat) (m m' : Pool σ α) : Prop :=
  ∃ n, solo exec p n m = some m'

theorem Solo.refl (m : Pool σ α) : Solo exec p m m := ⟨0, rfl⟩

theorem Solo.head {m'' : Pool σ α} (h : step exec m p = some m') (hs : Solo exec p m' m'') : Solo exec p m m'' := by
  obtain ⟨n, hn⟩ := hs
  exact ⟨n + 1, by rw [solo, h]; exact hn⟩

theorem Solo.trans {m'' : Pool σ α} (h : Solo exec p m m') (hs : Solo exec p m' m'') : Solo exec p m m'' := by
  obtain ⟨n, hn⟩ := h
  obtain ⟨k, hk⟩ := hs
  exact ⟨n + k, by rw [solo_add, hn]; exact hk⟩

end Tasks
