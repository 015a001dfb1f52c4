import FaultForge.Fault.Params
import FaultForge.Lib.I64

/-!
# What `serde` derives for a record

`#[derive(Serialize)]` writes a struct as an object of its fields, `#[derive(Deserialize)]` reads it from an object by
the names of its fields, whatever else is in it, or from an array by their positions. A reader is a function to
`Option`; the text of a decoding error is not modelled.

| here | there |
| --- | --- |
| `Value.int`, `Value.option` | `Serialize` of an `i64`, an `Option` |
| `Value.asI64` .. `Value.asVec` | `Deserialize` of the type named |
| `Value.fieldsOr`, `Value.fields` | `visit_map` and `visit_seq` of a derived struct |
| `required`, `optional`, `defaulted` | a field, one of type `Option`, one with `#[serde(default)]` |
-/
namespace FaultForge

variable {α β : Type}

/-! ## Writing -/

def Value.int (n : Int) : Value := if 0 ≤ n then .unsigned (.ofNat n.toNat) else .negative (.ofInt n)

def Value.option (f : α → Value) : Option α → Value
  | none => .null
  | some a => f a

/-! ## Reading -/

def Value.asString : Value → Option String
  | .string s => some s
  | _ => none

def Value.asBool : Value → Option Bool
  | .bool b => some b
  | _ => none

def Value.asI64 : Value → Option Int
  | .unsigned n => if n.toNat < 2 ^ 63 then some n.toNat else none
  | .negative n => some n.toInt
  | _ => none

def Value.asU32 : Value → Option UInt32
  | .unsigned n => if n.toNat < 2 ^ 32 then some n.toUInt32 else none
  | _ => none

def Value.asUsize : Value → Option Nat
  | .unsigned n => some n.toNat
  | _ => none

def Value.asOption (f : Value → Option α) : Value → Option (Option α)
  | .null => some none
  | v => (f v).map some

def Value.asVec (f : Value → Option α) : Value → Option (List α)
  | .array items => items.mapM f
  | _ => none

/-- A `Map<String, Value>`: of two entries with one key, the later one stays. -/
def Value.asMap : Value → Option Params
  | .object fields => some (fields.foldl (fun params field => params.insert field.1 field.2) ∅)
  | _ => none

/-- The fields of a struct, in its order; none of them may come twice. An array may end before the last `defaults` of
them, which are the ones with `#[serde(default)]`. -/
def Value.fieldsOr (defaults : Nat) (names : List String) : Value → Option (List (Option Value))
  | .object fields =>
    if ((fields.map Prod.fst).filter fun key => decide (key ∈ names)).Nodup then
      some (names.map fun name => fields.lookup name)
    else none
  | .array items =>
    if items.length ≤ names.length ∧ names.length ≤ items.length + defaults then
      some (items.map some ++ List.replicate (names.length - items.length) none)
    else none
  | _ => none

/-- The fields of a struct without defaults. -/
def Value.fields (names : List String) (v : Value) : Option (List (Option Value)) := v.fieldsOr 0 names

def required (f : Value → Option α) (v : Option Value) : Option α := v.bind f

def optional (f : Value → Option α) : Option Value → Option (Option α)
  | none => some none
  | some v => v.asOption f

def defaulted (f : Value → Option α) (default : α) : Option Value → Option α
  | none => some default
  | some v => f v

/-! ## Round trips -/

@[simp] theorem asString_string (s : String) : (Value.string s).asString = some s := rfl

@[simp] theorem asBool_bool (b : Bool) : (Value.bool b).asBool = some b := rfl

theorem asI64_int {n : Int} (h : I64.Fits n) : (Value.int n).asI64 = some n := by
  obtain ⟨hlo, hhi⟩ := h
  unfold Value.int
  split
  next hn =>
    have hnat : (UInt64.ofNat n.toNat).toNat = n.toNat := UInt64.toNat_ofNat_of_lt' (by simp only [UInt64.size]; omega)
    simp only [Value.asI64, hnat]
    rw [if_pos (by omega)]
    exact congrArg some (Int.toNat_of_nonneg hn)
  next hn =>
    simp only [Value.asI64]
    exact congrArg some (Int64.toInt_ofInt_of_le (by omega) (by omega))

theorem asU32_unsigned (n : UInt32) : (Value.unsigned n.toUInt64).asU32 = some n := by
  simp [Value.asU32, n.toNat_lt]

theorem asUsize_unsigned {n : Nat} (h : n < 2 ^ 64) : (Value.unsigned (.ofNat n)).asUsize = some n := by
  simp only [Value.asUsize]
  rw [UInt64.toNat_ofNat_of_lt' h]

/-- Nothing but an absent value is written as `null`. -/
theorem optional_option {f : Value → Option α} {g : α → Value} (h : ∀ a, f (g a) = some a) (hnull : ∀ a, g a ≠ .null)
    (o : Option α) : optional f (some (Value.option g o)) = some o := by
  cases o with
  | none => rfl
  | some a =>
    show (g a).asOption f = _
    have hg := h a
    unfold Value.asOption
    split
    next he => exact absurd he (hnull a)
    next => rw [hg]; rfl

theorem asVec_array {f : Value → Option β} {g : α → Value} {k : α → β} {l : List α}
    (h : ∀ a ∈ l, f (g a) = some (k a)) : (Value.array (l.map g)).asVec f = some (l.map k) := by
  show (l.map g).mapM f = _
  rw [List.mapM_map]
  exact I64.mapM_some h

end FaultForge
