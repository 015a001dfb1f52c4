import FaultForge.Lib.Text
import FaultForge.Fault.Protocol

/-!
# The wire contract (crates/proto)

Validated hostnames (proto/src/lib.rs:42-120), the wire spelling of instance states (fault/src/proto.rs), and
the frames of the one bidirectional stream (proto/faultforge.proto). An unset or unknown payload is `none`.
-/
namespace FaultForge

open Text

/-! ## Hostnames -/

def MAX_HOSTNAME_LEN : Nat := 253
def MAX_LABEL_LEN : Nat := 63

/-- The condition of `validate_label` (lib.rs:70). A byte of a character outside ASCII is in neither class, so the
bytes can be read by characters. -/
def validateLabel (label : List Char) : Bool :=
  1 ≤ utf8Len label && utf8Len label ≤ MAX_LABEL_LEN && label.head? != some '-' && label.getLast? != some '-' &&
    label.all fun c => isAsciiAlphanumeric c || c == '-'

def isHostname (cs : List Char) : Bool :=
  !cs.isEmpty && utf8Len cs ≤ MAX_HOSTNAME_LEN && (cs.splitOn '.').all validateLabel

/-- `Hostname` (lib.rs:65): a value exists only for a valid name. -/
structure Hostname where
  val : String
  valid : isHostname val.toList
deriving DecidableEq

inductive HostnameError
  | empty
  | tooLong (n : Nat)
  | invalidLabel (label : String)
deriving DecidableEq, Repr

theorem isHostname_of {cs : List Char} (he : cs.isEmpty = false) (hl : ¬ utf8Len cs > MAX_HOSTNAME_LEN)
    (hf : (cs.splitOn '.').find? (fun label => !validateLabel label) = none) :
    isHostname (String.ofList cs).toList := by
  have hall : ∀ label ∈ cs.splitOn '.', validateLabel label = true := by simpa using hf
  simp only [isHostname, String.toList_ofList, he, List.all_eq_true.2 hall]
  simpa using hl

/-- `Hostname::parse` (lib.rs:101). -/
def Hostname.parse (s : String) : Except HostnameError Hostname :=
  let cs := trim s.toList
  if he : cs.isEmpty then .error .empty
  else if hl : utf8Len cs > MAX_HOSTNAME_LEN then .error (.tooLong (utf8Len cs))
  else
    match hf : (cs.splitOn '.').find? fun label => !validateLabel label with
    | some label => .error (.invalidLabel (String.ofList label))
    | none => .ok ⟨String.ofList cs, isHostname_of (by simpa using he) hl hf⟩

/-! ## The grammar -/

/-- `[A-Za-z0-9-]`. -/
def IsLabelChar (c : Char) : Prop :=
  ('A' ≤ c ∧ c ≤ 'Z') ∨ ('a' ≤ c ∧ c ≤ 'z') ∨ ('0' ≤ c ∧ c ≤ '9') ∨ c = '-'

/-- One label of a name: at most 63 bytes, no hyphen at either end. -/
structure IsLabel (label : List Char) : Prop where
  bytes : 1 ≤ utf8Len label ∧ utf8Len label ≤ 63
  chars : ∀ c ∈ label, IsLabelChar c
  first : label.head? ≠ some '-'
  last : label.getLast? ≠ some '-'

/-- A host name: labels with single dots between them, 253 bytes in all. -/
structure Rfc1123 (cs : List Char) : Prop where
  bytes : 1 ≤ utf8Len cs ∧ utf8Len cs ≤ 253
  labels : Separated '.' IsLabel cs

theorem isLabelChar_iff {c : Char} : (isAsciiAlphanumeric c || c == '-') = true ↔ IsLabelChar c := by
  simp only [isAsciiAlphanumeric, Char.isDigit, IsLabelChar, Bool.or_eq_true, Bool.and_eq_true, decide_eq_true_eq,
    beq_iff_eq, Char.le_def, ge_iff_le]
  tauto

theorem validateLabel_iff {label : List Char} : validateLabel label = true ↔ IsLabel label := by
  simp only [validateLabel, Bool.and_eq_true, decide_eq_true_eq, bne_iff_ne, List.all_eq_true, isLabelChar_iff]
  constructor
  · rintro ⟨⟨⟨⟨hpos, hmax⟩, hfirst⟩, hlast⟩, hchars⟩
    exact ⟨⟨hpos, hmax⟩, hchars, hfirst, hlast⟩
  · intro h
    exact ⟨⟨⟨⟨h.bytes.1, h.bytes.2⟩, h.first⟩, h.last⟩, h.chars⟩

theorem IsLabel.no_dot {label : List Char} (h : IsLabel label) : '.' ∉ label := fun hm => by
  have hc := h.chars '.' hm
  revert hc
  unfold IsLabelChar
  decide

theorem Rfc1123.chars {cs : List Char} (h : Rfc1123 cs) : ∀ c ∈ cs, IsLabelChar c ∨ c = '.' := by
  intro c hc
  rcases h.labels.mem hc with rfl | ⟨label, hlabel, hm⟩
  · exact .inr rfl
  · exact .inl (hlabel.chars c hm)

theorem nameChar_not_whitespace {c : Char} (h : IsLabelChar c ∨ c = '.') : isWhitespace c = false := by
  simp [IsLabelChar, isWhitespace, Char.le_def, UInt32.le_iff_toNat_le, ← Char.toNat_inj] at *
  omega

/-- The checks of `parse` on the trimmed text are the grammar. -/
theorem isHostname_iff {cs : List Char} : isHostname cs = true ↔ Rfc1123 cs := by
  have hlabels : (∀ label ∈ cs.splitOn '.', validateLabel label = true) ↔ Separated '.' IsLabel cs := by
    rw [separated_iff fun _ h => h.no_dot]
    simp only [validateLabel_iff]
  simp only [isHostname, Bool.and_eq_true, Bool.not_eq_true', List.isEmpty_eq_false_iff, decide_eq_true_eq,
    List.all_eq_true, hlabels, ← utf8Len_pos]
  constructor
  · rintro ⟨⟨hpos, hmax⟩, hsep⟩
    exact ⟨⟨hpos, hmax⟩, hsep⟩
  · exact fun h => ⟨h.bytes, h.labels⟩

/-- `parse` succeeds with the trimmed text, where that is a name. -/
theorem Hostname.parse_ok_iff {s : String} {hostname : Hostname} :
    Hostname.parse s = .ok hostname ↔ hostname.val.toList = trim s.toList := by
  constructor
  · intro hp
    unfold Hostname.parse at hp
    dsimp only at hp
    split at hp
    next => cases hp
    next =>
      split at hp
      next => cases hp
      next =>
        split at hp
        next => cases hp
        next => rw [← Except.ok.inj hp, String.toList_ofList]
  · intro hval
    have hvalid := hostname.valid
    simp only [hval, isHostname, Bool.and_eq_true, Bool.not_eq_true', decide_eq_true_eq, List.all_eq_true] at hvalid
    obtain ⟨⟨hne, hlen⟩, hlabels⟩ := hvalid
    unfold Hostname.parse
    dsimp only
    split
    next he => rw [he] at hne; cases hne
    next =>
      split
      next hl => exact absurd hlen (Nat.not_le.2 hl)
      next =>
        split
        next label hf =>
          have hbad := List.find?_some hf
          rw [hlabels label (List.mem_of_find?_eq_some hf)] at hbad
          cases hbad
        next =>
          cases hostname
          simp only [← hval, String.ofList_toList]

/-- Every hostname is spelled without white space, so parsing it again changes nothing. -/
theorem Hostname.trim_val (hostname : Hostname) : trim hostname.val.toList = hostname.val.toList :=
  trim_eq_self fun c hc => nameChar_not_whitespace ((isHostname_iff.1 hostname.valid).chars c hc)

theorem Hostname.parse_val (hostname : Hostname) : Hostname.parse hostname.val = .ok hostname :=
  Hostname.parse_ok_iff.2 hostname.trim_val.symm

/-! ## Instance states on the wire -/

/-- `to_wire_i32` (proto.rs:53). -/
def toWireI32 : InstanceState → Int
  | .pending => 1
  | .preflight => 2
  | .injecting => 3
  | .active => 4
  | .recovering => 5
  | .done => 6
  | .aborted => 7
  | .error => 8

inductive WireStateError
  | unspecified
  | unknown (raw : Int)
deriving DecidableEq, Repr

/-- `from_wire_i32` (proto.rs:63). -/
def fromWireI32 (raw : Int) : Except WireStateError InstanceState :=
  if raw = 0 then .error .unspecified
  else if raw = 1 then .ok .pending
  else if raw = 2 then .ok .preflight
  else if raw = 3 then .ok .injecting
  else if raw = 4 then .ok .active
  else if raw = 5 then .ok .recovering
  else if raw = 6 then .ok .done
  else if raw = 7 then .ok .aborted
  else if raw = 8 then .ok .error
  else .error (.unknown raw)

theorem fromWireI32_toWireI32 (s : InstanceState) : fromWireI32 (toWireI32 s) = .ok s := by
  cases s <;> rfl

/-! ## Frames, agent to master -/

/-- `InstanceStatus`: an agent-authoritative lifecycle transition. -/
structure InstanceStatus where
  instanceId : String
  state : Int
  tsUnixMs : Int
  reason : String
  pluginDigest : String
deriving DecidableEq, Repr

/-- `AgentMessage`, with its payload. -/
inductive AgentMessage
  | register (hostname : String)
  | heartbeat
  | faultEvent (instanceId ndjsonLine : String)
  | instanceStatus (status : InstanceStatus)
  | instanceReport (statuses : List InstanceStatus)
  | taintStatus (tainted : Bool) (reason : String) (tsUnixMs : Int)
deriving DecidableEq, Repr

/-! ## Frames, master to agent -/

/-- `RunFault`: everything the agent needs to run one fault instance. -/
structure RunFault where
  instanceId : String
  pluginName : String
  pluginVersion : String
  pluginDigest : String
  paramsJson : String
  durationSecs : UInt32
  graceSecs : UInt32
deriving DecidableEq, Repr

/-- `ServerMessage`, with its payload. -/
inductive ServerMessage
  | registerAck (serverTimeUnixMs : Int) (heartbeatIntervalSecs : UInt32)
  | heartbeatAck (serverTimeUnixMs : Int)
  | runFault (run : RunFault)
  | abortFault (instanceId : String)
  | clearTaint
deriving DecidableEq, Repr

end FaultForge
