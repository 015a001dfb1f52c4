import Mathlib.Data.List.Basic

/-!
# Pipes

* `Pipe` — what has been taken out of a pipe and what is still in it; all that was ever written to it is the one
  followed by the other (`Pipe.wrote`), so what was taken is a prefix of it.
* `Holders` — who holds an end of a pipe: the process it was made for, and those the end was passed on to. An end that
  nobody holds is never held again (`Holders.act_any`).
-/
namespace Pipes

variable {α : Type}

structure Pipe (α : Type) where
  took : List α
  content : List α

namespace Pipe

variable (p : Pipe α)

def empty : Pipe α := ⟨[], []⟩

def wrote : List α := p.took ++ p.content

def put (xs : List α) : Pipe α := { p with content := p.content ++ xs }

def take (n : Nat) : Pipe α := ⟨p.took ++ p.content.take n, p.content.drop n⟩

@[simp] theorem put_wrote (xs : List α) : (p.put xs).wrote = p.wrote ++ xs := by
  simp [wrote, put]

@[simp] theorem take_wrote (n : Nat) : (p.take n).wrote = p.wrote := by
  simp [wrote, take]

theorem took_prefix : p.took <+: p.wrote := List.prefix_append _ _

theorem took_of_drained {p : Pipe α} (h : p.content = []) : p.took = p.wrote := by
  simp [wrote, h]

end Pipe

/-! ## The ends -/

structure Holders where
  /-- The process the pipe was made for. -/
  own : Bool
  /-- How many others. -/
  heirs : Nat
deriving DecidableEq, Repr

inductive HolderAct
  | pass
  | close
  | heirCloses
deriving DecidableEq, Repr

namespace Holders

variable {h h' : Holders}

def nobody : Holders := ⟨false, 0⟩

def sole : Holders := ⟨true, 0⟩

def any (h : Holders) : Bool := h.own || decide (0 < h.heirs)

def act (h : Holders) : HolderAct → Option Holders
  | .pass => if h.any then some { h with heirs := h.heirs + 1 } else none
  | .close => if h.own then some { h with own := false } else none
  | .heirCloses => if 0 < h.heirs then some { h with heirs := h.heirs - 1 } else none

/-- The process the pipe was made for has ended. -/
def exit (h : Holders) : Holders := { h with own := false }

theorem act_any {a : HolderAct} (ha : h.act a = some h') : h.any = true := by
  cases a with
  | pass =>
    simp only [act] at ha
    split at ha
    case isTrue hany => exact hany
    case isFalse => cases ha
  | close =>
    simp only [act] at ha
    split at ha
    case isTrue hown => simp [any, hown]
    case isFalse => cases ha
  | heirCloses =>
    simp only [act] at ha
    split at ha
    case isTrue hheirs => simp [any, hheirs]
    case isFalse => cases ha

theorem exit_any (hany : h.any = false) : h.exit.any = false := (Bool.or_eq_false_iff.1 hany).2

end Holders

end Pipes
