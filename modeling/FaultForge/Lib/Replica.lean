/-!
# A copy that follows a source by messages

A source changes its value and sends every new value; now and then it sends a snapshot of the value it has, which may
overtake older messages. The copy takes the value of each message that reaches it, until that value is final.
`Follows` relates the value of the source, the values in flight in the order in which they were sent, and the copy.

* `Follows.update`, `Follows.snapshot`, `Follows.deliver` — what the source, the channel and the copy do keeps it.
* `Follows.converged` — with nothing in flight the copy has the value of the source, if that is final or if the messages
  have arrived in order.
* `Follows.settled` — a final value of the copy is the value of the source.
-/
namespace Replica

variable {α : Type}

/-- What the copy makes of a message. -/
def absorb (final : α → Bool) (copy v : α) : α := if final copy then copy else v

structure Follows (final : α → Bool) (source : α) (flight : List α) (copy : α) (inOrder : Bool) : Prop where
  /-- While the messages arrive in order, the youngest of them has the value of the source. -/
  last : inOrder = true → (copy :: flight).getLast? = some source
  finals : ∀ v ∈ copy :: flight, final v = true → v = source
  /-- A final value is not lost. -/
  held : final source = true → source ∈ copy :: flight

variable {final : α → Bool} {source copy v : α} {flight l r : List α} {inOrder : Bool}

theorem Follows.start (v : α) : Follows final v [] v true :=
  ⟨fun _ => rfl, fun _ hv _ => List.mem_singleton.1 hv, fun _ => List.mem_cons_self⟩

theorem Follows.weaken (h : Follows final source flight copy inOrder) {inOrder' : Bool}
    (ho : inOrder' = true → inOrder = true) : Follows final source flight copy inOrder' :=
  ⟨fun h' => h.last (ho h'), h.finals, h.held⟩

/-- Only a source that is not final changes. -/
theorem Follows.update (h : Follows final source flight copy inOrder) (hlive : final source = false) (v : α) :
    Follows final v (flight ++ [v]) copy inOrder := by
  have hnone : ∀ u ∈ copy :: flight, final u = false := by
    intro u hu
    cases hf : final u with
    | false => rfl
    | true => rw [h.finals u hu hf, hlive] at hf; cases hf
  refine ⟨fun _ => ?_, fun u hu hf => ?_, fun _ => ?_⟩
  · rw [← List.cons_append]
    exact List.getLast?_concat
  · rw [← List.cons_append] at hu
    rcases List.mem_append.1 hu with hu | hu
    · rw [hnone u hu] at hf
      cases hf
    · exact List.mem_singleton.1 hu
  · exact List.mem_cons_of_mem _ (List.mem_append_right _ (List.mem_singleton_self v))

/-- A snapshot is put before some of the messages that are in flight. -/
theorem Follows.snapshot (h : Follows final source (l ++ r) copy inOrder) :
    Follows final source (l ++ source :: r) copy inOrder := by
  have hmem : ∀ u, u ∈ copy :: (l ++ source :: r) ↔ u = source ∨ u ∈ copy :: (l ++ r) := by
    intro u
    simp only [List.mem_cons, List.mem_append]
    constructor
    · rintro (h | h | h | h) <;> simp [h]
    · rintro (h | h | h | h) <;> simp [h]
  refine ⟨fun ho => ?_, fun u hu hf => ?_, fun _ => (hmem source).2 (.inl rfl)⟩
  · have hlast := h.last ho
    rw [← List.cons_append] at hlast ⊢
    cases r with
    | nil => exact List.getLast?_concat
    | cons w r =>
      rw [List.getLast?_append] at hlast
      rw [List.getLast?_append, List.getLast?_cons_cons]
      exact hlast
  · exact ((hmem u).1 hu).elim id fun hu => h.finals u hu hf

/-- A message reaches the copy; it is in order if it is the oldest in flight. -/
theorem Follows.deliver (h : Follows final source (l ++ v :: r) copy inOrder) {oldest : Bool}
    (hold : oldest = true → l = []) : Follows final source (l ++ r) (absorb final copy v) (inOrder && oldest) := by
  have hsub : ∀ u ∈ l ++ r, u ∈ copy :: (l ++ v :: r) := by
    intro u hu
    refine List.mem_cons_of_mem _ ?_
    rcases List.mem_append.1 hu with hu | hu
    · exact List.mem_append_left _ hu
    · exact List.mem_append_right _ (List.mem_cons_of_mem _ hu)
  have hv : v ∈ copy :: (l ++ v :: r) := List.mem_cons_of_mem _ (List.mem_append_right _ List.mem_cons_self)
  unfold absorb
  cases hc : final copy with
  | true =>
    have hcopy : copy = source := h.finals copy List.mem_cons_self hc
    rw [if_pos rfl]
    refine ⟨fun ho => ?_, fun u hu => ?_, fun _ => hcopy ▸ List.mem_cons_self⟩
    · obtain ⟨ho, hfirst⟩ := Bool.and_eq_true_iff.1 ho
      obtain rfl := hold hfirst
      have hlast := h.last ho
      cases r with
      | nil => rw [hcopy]; rfl
      | cons w r =>
        simp only [List.nil_append, List.getLast?_cons_cons] at hlast ⊢
        exact hlast
    · rcases List.mem_cons.1 hu with rfl | hu
      · exact h.finals u List.mem_cons_self
      · exact h.finals u (hsub u hu)
  | false =>
    rw [if_neg Bool.false_ne_true]
    refine ⟨fun ho => ?_, fun u hu => ?_, fun hf => ?_⟩
    · obtain ⟨ho, hfirst⟩ := Bool.and_eq_true_iff.1 ho
      obtain rfl := hold hfirst
      have hlast := h.last ho
      rw [List.nil_append, List.getLast?_cons_cons] at hlast
      exact hlast
    · rcases List.mem_cons.1 hu with rfl | hu
      · exact h.finals u hv
      · exact h.finals u (hsub u hu)
    · have hne : source ≠ copy := fun he => by rw [he, hc] at hf; cases hf
      have hmem := (List.mem_cons.1 (h.held hf)).resolve_left hne
      rcases List.mem_append.1 hmem with hm | hm
      · exact List.mem_cons_of_mem _ (List.mem_append_left _ hm)
      · rcases List.mem_cons.1 hm with rfl | hm
        · exact List.mem_cons_self
        · exact List.mem_cons_of_mem _ (List.mem_append_right _ hm)

theorem Follows.converged (h : Follows final source [] copy inOrder) (ho : final source = true ∨ inOrder = true) :
    copy = source := by
  rcases ho with hf | ho
  · exact (List.mem_singleton.1 (h.held hf)).symm
  · exact Option.some.inj (h.last ho)

theorem Follows.settled (h : Follows final source flight copy inOrder) (hf : final copy = true) : copy = source :=
  h.finals copy List.mem_cons_self hf

end Replica
