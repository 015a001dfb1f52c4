import Mathlib.Algebra.Order.Ring.Int

/-!
# Signed 64-bit integers, as a range of `Int`

* `Fits` — the values of the type.
* `add`, `sub`, `mul`, `div` — the operators where an overflow is an error (`none`); `add_of_fits` and its like say when
  they are exact.
* `bmod_eq_iff` — a cast that keeps the low 64 bits is exact on the values that fit, and on no others.
-/
namespace I64

def Fits (x : Int) : Prop := -2 ^ 63 ≤ x ∧ x < 2 ^ 63

instance : DecidablePred Fits := fun _ => inferInstanceAs (Decidable (_ ∧ _))

def checked (x : Int) : Option Int := if Fits x then some x else none

def add (x y : Int) : Option Int := checked (x + y)

def sub (x y : Int) : Option Int := checked (x - y)

def mul (x y : Int) : Option Int := checked (x * y)

/-- Division rounds towards zero. -/
def div (x y : Int) : Option Int := if y = 0 then none else checked (x.tdiv y)

section
variable {x y : Int}

theorem checked_of_fits (h : Fits x) : checked x = some x := if_pos h

theorem add_of_fits (h : Fits (x + y)) : add x y = some (x + y) := checked_of_fits h

theorem sub_of_fits (h : Fits (x - y)) : sub x y = some (x - y) := checked_of_fits h

theorem mul_of_fits (h : Fits (x * y)) : mul x y = some (x * y) := checked_of_fits h

theorem div_of_fits (hy : y ≠ 0) (h : Fits (x.tdiv y)) : div x y = some (x.tdiv y) := by
  unfold div
  rw [if_neg hy, checked_of_fits h]

theorem fits_of_le (h0 : 0 ≤ x) (h : x < 2 ^ 63) : Fits x := ⟨by omega, h⟩

/-- The low 64 bits of a value are the value exactly where it fits. -/
theorem bmod_eq_iff : x.bmod (2 ^ 64) = x ↔ Fits x := by
  have hlo : -2 ^ 63 ≤ x.bmod (2 ^ 64) := Int.le_bmod (by decide)
  have hhi : x.bmod (2 ^ 64) < 2 ^ 63 := Int.bmod_lt (by decide)
  constructor
  · intro h
    rw [h] at hlo hhi
    exact ⟨hlo, hhi⟩
  · rintro ⟨h0, h1⟩
    exact Int.bmod_eq_of_le (by omega) (by omega)

end

/-- A loop of checked operations none of which overflows. -/
theorem mapM_some {α β : Type} {f : α → Option β} {g : α → β} {l : List α} (h : ∀ a ∈ l, f a = some (g a)) :
    l.mapM f = some (l.map g) := by
  induction l with
  | nil => rfl
  | cons a l ih =>
    have hl : l.mapM f = some (l.map g) := ih fun b hb => h b (List.mem_cons_of_mem _ hb)
    rw [List.mapM_cons, h a List.mem_cons_self, hl]
    rfl

end I64
