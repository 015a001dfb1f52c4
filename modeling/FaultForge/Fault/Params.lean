import Mathlib.Algebra.Ring.Int.Defs
import Mathlib.Data.List.AList
import FaultForge.Fault.Protocol
import FaultForge.Lib.Text

/-!
# Parameters and manifests (crates/fault: params.rs, digest.rs, manifest.rs)

A `serde_json::Map` and a `BTreeMap` are Mathlib's `AList` (entries with distinct keys); the order of the
entries stands for the iteration order. Of a manifest, only what the agent or the master reads is kept.
-/
namespace FaultForge

/-! ## JSON values -/

/-- `serde_json::Value`; a number is what `Number` tells apart: a `u64`, a negative `i64`, or a float (its bits). -/
inductive Value
  | null
  | bool (b : Bool)
  | unsigned (n : UInt64)
  | negative (n : Int64)
  | float (bits : UInt64)
  | string (s : String)
  | array (items : List Value)
  | object (fields : List (String × Value))
deriving Repr

abbrev Params := AList fun _ : String => Value

/-! ## The parameter schema -/

/-- `ParamType` (params.rs:12). -/
inductive ParamType | string | int | bool
deriving DecidableEq, Repr

/-- The `Debug` text of a `ParamType`. -/
def ParamType.debug : ParamType → String
  | .string => "String"
  | .int => "Int"
  | .bool => "Bool"

/-- `ParamType::matches` (params.rs:27). -/
def ParamType.matches : ParamType → Value → Bool
  | .string, .string _ => true
  | .int, .unsigned _ | .int, .negative _ => true
  | .bool, .bool _ => true
  | _, _ => false

abbrev ParamsSchema := AList fun _ : String => ParamType

inductive ParamsError
  | missing (name : String)
  | undeclared (name : String)
  | typeMismatch (name : String) (expected : ParamType)
deriving DecidableEq, Repr

/-- The `Display` text of a `ParamsError`. -/
def ParamsError.toString : ParamsError → String
  | .missing name => s!"missing required parameter: {name}"
  | .undeclared name => s!"undeclared parameter: {name}"
  | .typeMismatch name expected => s!"parameter '{name}' has the wrong type, expected {expected.debug}"

/-- What the second loop of `validate_params` finds wrong with one declared parameter. -/
def checkDeclared (params : Params) (name : String) (expected : ParamType) : Option ParamsError :=
  match params.lookup name with
  | none => some (.missing name)
  | some value => if expected.matches value then none else some (.typeMismatch name expected)

/-- `validate_params` (params.rs:70): undeclared keys first, then each declared parameter in schema order. -/
def validateParams (schema : ParamsSchema) (params : Params) : Except ParamsError Unit :=
  match params.keys.find? (fun key => !decide (key ∈ schema)) with
  | some key => .error (.undeclared key)
  | none =>
    match schema.entries.findSome? fun entry => checkDeclared params entry.1 entry.2 with
    | some error => .error error
    | none => .ok ()

/-! ## What `validate_params` decides -/

/-- The integer that a JSON number is; a float is none. -/
def Value.integer : Value → Option Int
  | .unsigned n => some n.toNat
  | .negative n => some n.toInt
  | _ => none

/-- The declared type of a value: a string, an integer that a `u64` or an `i64` holds, or a boolean. -/
inductive ParamType.HasType : ParamType → Value → Prop
  | string (s : String) : HasType .string (.string s)
  | int {value : Value} (z : Int) : value.integer = some z →
      (0 ≤ z ∧ z < 2 ^ 64) ∨ (-2 ^ 63 ≤ z ∧ z < 2 ^ 63) → HasType .int value
  | bool (b : Bool) : HasType .bool (.bool b)

/-- The parameters have the keys of the schema, each with a value of its type. -/
structure ParamsSchema.Conforms (schema : ParamsSchema) (params : Params) : Prop where
  keys : ∀ key, key ∈ params ↔ key ∈ schema
  types : ∀ key expected value, schema.lookup key = some expected → params.lookup key = some value →
    expected.HasType value

theorem ParamType.matches_iff (t : ParamType) (value : Value) : t.matches value = true ↔ t.HasType value := by
  constructor
  · intro h
    unfold ParamType.matches at h
    split at h
    next s => exact .string s
    next n => exact .int n.toNat rfl (.inl ⟨Int.natCast_nonneg _, mod_cast n.toNat_lt⟩)
    next n => exact .int n.toInt rfl (.inr ⟨n.le_toInt, n.toInt_lt⟩)
    next b => exact .bool b
    next => cases h
  · rintro (s | ⟨z, hz, -⟩ | b)
    · rfl
    · cases value <;> first | rfl | cases hz
    · rfl

section
variable {schema : ParamsSchema} {params : Params} {key : String} {expected : ParamType}

theorem checkDeclared_eq_none : checkDeclared params key expected = none ↔
    ∃ value, params.lookup key = some value ∧ expected.HasType value := by
  unfold checkDeclared
  cases hl : params.lookup key with
  | none => simp
  | some value =>
    by_cases hm : expected.matches value = true
    · simp [hm, (expected.matches_iff value).1 hm]
    · simp [hm, mt (expected.matches_iff value).2 hm]

theorem checkDeclared_eq_some {e : ParamsError} (h : checkDeclared params key expected = some e) :
    (params.lookup key = none ∧ e = .missing key) ∨
      ∃ value, params.lookup key = some value ∧ ¬ expected.HasType value ∧ e = .typeMismatch key expected := by
  unfold checkDeclared at h
  cases hl : params.lookup key with
  | none =>
    rw [hl] at h
    exact .inl ⟨rfl, (Option.some.inj h).symm⟩
  | some value =>
    simp only [hl] at h
    split at h
    next => cases h
    next hm => exact .inr ⟨value, rfl, mt (expected.matches_iff value).2 hm, (Option.some.inj h).symm⟩

/-- The first loop finds a key that is not declared, if there is one. -/
theorem findUndeclared_eq_none :
    params.keys.find? (fun key => !decide (key ∈ schema)) = none ↔ ∀ key ∈ params, key ∈ schema := by
  rw [List.find?_eq_none]
  exact forall₂_congr fun key _ => by simp

/-- The second loop finds nothing when every declared parameter is there with its type. -/
theorem findDeclared_eq_none :
    (schema.entries.findSome? fun entry => checkDeclared params entry.1 entry.2) = none ↔
      ∀ key expected, schema.lookup key = some expected →
        ∃ value, params.lookup key = some value ∧ expected.HasType value := by
  rw [List.findSome?_eq_none_iff]
  constructor
  · intro h key expected hl
    exact checkDeclared_eq_none.1 (h ⟨key, expected⟩ (AList.mem_lookup_iff.1 hl))
  · intro h entry hm
    exact checkDeclared_eq_none.2 (h entry.1 entry.2 (AList.mem_lookup_iff.2 hm))

theorem validateParams_ok_iff : validateParams schema params = .ok () ↔ schema.Conforms params := by
  have hloops : validateParams schema params = .ok () ↔
      params.keys.find? (fun key => !decide (key ∈ schema)) = none ∧
        (schema.entries.findSome? fun entry => checkDeclared params entry.1 entry.2) = none := by
    unfold validateParams
    cases params.keys.find? fun key => !decide (key ∈ schema) with
    | some key => simp
    | none => cases schema.entries.findSome? fun entry => checkDeclared params entry.1 entry.2 <;> simp
  rw [hloops, findUndeclared_eq_none, findDeclared_eq_none]
  constructor
  · rintro ⟨hsub, htyped⟩
    refine ⟨fun key => ⟨hsub key, fun hk => ?_⟩, fun key expected value hs hp => ?_⟩
    · obtain ⟨expected, hs⟩ := Option.isSome_iff_exists.1 (AList.lookup_isSome.2 hk)
      obtain ⟨value, hp, -⟩ := htyped key expected hs
      exact AList.lookup_isSome.1 (by rw [hp]; rfl)
    · obtain ⟨value', hp', ht⟩ := htyped key expected hs
      obtain rfl := Option.some.inj (hp.symm.trans hp')
      exact ht
  · rintro ⟨hkeys, htypes⟩
    refine ⟨fun key => (hkeys key).1, fun key expected hs => ?_⟩
    have hk : key ∈ params := (hkeys key).2 (AList.lookup_isSome.1 (by rw [hs]; rfl))
    obtain ⟨value, hp⟩ := Option.isSome_iff_exists.1 (AList.lookup_isSome.2 hk)
    exact ⟨value, hp, htypes key expected value hs hp⟩

/-- Where an error of `validate_params` comes from. -/
theorem validateParams_error {e : ParamsError} (h : validateParams schema params = .error e) :
    (∃ key ∈ params, key ∉ schema ∧ e = .undeclared key) ∨
      (∀ key ∈ params, key ∈ schema) ∧ ∃ key expected, schema.lookup key = some expected ∧
        ((params.lookup key = none ∧ e = .missing key) ∨
          ∃ value, params.lookup key = some value ∧ ¬ expected.HasType value ∧ e = .typeMismatch key expected) := by
  unfold validateParams at h
  cases hu : params.keys.find? fun key => !decide (key ∈ schema) with
  | some key =>
    rw [hu] at h
    obtain rfl := Except.error.inj h
    have hno := List.find?_some hu
    exact .inl ⟨key, List.mem_of_find?_eq_some hu, by simpa using hno, rfl⟩
  | none =>
    rw [hu] at h
    refine .inr ⟨findUndeclared_eq_none.1 hu, ?_⟩
    cases hd : schema.entries.findSome? fun entry => checkDeclared params entry.1 entry.2 with
    | none =>
      simp only [hd] at h
      cases h
    | some e' =>
      simp only [hd] at h
      obtain rfl := Except.error.inj h
      obtain ⟨entry, hm, he⟩ := List.exists_of_findSome?_eq_some hd
      exact ⟨entry.1, entry.2, AList.mem_lookup_iff.2 hm, checkDeclared_eq_some he⟩

/-- Conformance is about what the maps hold, not about the order of their entries. -/
theorem ParamsSchema.Conforms.perm {schema' : ParamsSchema} {params' : Params} (h : schema.Conforms params)
    (hs : schema.entries.Perm schema'.entries) (hp : params.entries.Perm params'.entries) :
    schema'.Conforms params' where
  keys key := by
    rw [← AList.mem_of_perm hp, ← AList.mem_of_perm hs]
    exact h.keys key
  types key expected value hl hl' := by
    rw [← AList.perm_lookup hs] at hl
    rw [← AList.perm_lookup hp] at hl'
    exact h.types key expected value hl hl'

end

/-- **`validate_params` decides conformance**, names what is wrong, and succeeds in whatever order the maps are
iterated. -/
theorem validateParams_decides (schema : ParamsSchema) (params : Params) :
    (validateParams schema params = .ok () ↔ schema.Conforms params) ∧
      (∀ key, validateParams schema params = .error (.undeclared key) → key ∈ params ∧ key ∉ schema) ∧
      (∀ key, validateParams schema params = .error (.missing key) →
        key ∈ schema ∧ key ∉ params ∧ ∀ key' ∈ params, key' ∈ schema) ∧
      (∀ key expected, validateParams schema params = .error (.typeMismatch key expected) →
        schema.lookup key = some expected ∧ ∃ value, params.lookup key = some value ∧ ¬ expected.HasType value) ∧
      ∀ (schema' : ParamsSchema) (params' : Params), schema.entries.Perm schema'.entries →
        params.entries.Perm params'.entries →
          (validateParams schema params = .ok () ↔ validateParams schema' params' = .ok ()) := by
  refine ⟨validateParams_ok_iff, fun key h => ?_, fun key h => ?_, fun key expected h => ?_,
    fun schema' params' hs hp => ?_⟩
  · rcases validateParams_error h with ⟨_, hk, hno, ⟨⟩⟩ | ⟨-, _, _, -, ⟨-, ⟨⟩⟩ | ⟨_, -, -, ⟨⟩⟩⟩
    exact ⟨hk, hno⟩
  · rcases validateParams_error h with ⟨_, -, -, ⟨⟩⟩ | ⟨hsub, _, _, hs, ⟨hp, ⟨⟩⟩ | ⟨_, -, -, ⟨⟩⟩⟩
    exact ⟨AList.lookup_isSome.1 (by rw [hs]; rfl), AList.lookup_eq_none.1 hp, hsub⟩
  · rcases validateParams_error h with ⟨_, -, -, ⟨⟩⟩ | ⟨-, _, _, hs, ⟨-, ⟨⟩⟩ | ⟨value, hp, hno, ⟨⟩⟩⟩
    exact ⟨hs, value, hp, hno⟩
  · rw [validateParams_ok_iff, validateParams_ok_iff]
    exact ⟨fun h => h.perm hs hp, fun h => h.perm hs.symm hp.symm⟩

/-! ## Digests -/

/-- 64 lowercase hexadecimal characters. -/
def isDigest (s : String) : Bool :=
  s.toList.length == 64 && s.toList.all fun c => c.isDigit || ('a' ≤ c && c ≤ 'f')

structure Digest where
  val : String
  valid : isDigest val
deriving DecidableEq

inductive DigestError
  | wrongLength (n : Nat)
  | notLowercaseHex
deriving DecidableEq, Repr

def DigestError.toString : DigestError → String
  | .wrongLength n => s!"digest must be 64 hex characters, got {n}"
  | .notLowercaseHex => "digest must be lowercase hexadecimal"

/-- `Digest::parse` (digest.rs:27). Its length test counts bytes. -/
def Digest.parse (s : String) : Except DigestError Digest :=
  if Text.utf8Len s.toList ≠ 64 then .error (.wrongLength (Text.utf8Len s.toList))
  else if h : isDigest s then .ok ⟨s, h⟩
  else .error .notLowercaseHex

/-! ## Manifests -/

/-- `Manifest` (manifest.rs): the identity, the entrypoint, the schema and the duration cap. -/
structure Manifest where
  name : String
  version : String
  entrypoint : String
  paramsSchema : ParamsSchema
  maxDurationSecs : UInt32

end FaultForge
