import Mathlib.Data.List.Induction
import FaultForge.Agent.Journal
import FaultForge.Fault.Catalog
import FaultForge.Lib.Crash
import FaultForge.Lib.Files

/-!
# The journal on disk (journal.rs:72-155)

`Journal::write` fills a temporary file, syncs it and renames it to the entry; `Journal::remove` unlinks the entry;
`Journal::list` reads every `.json` file. The directory is flat, since an accepted instance id is one file name. At
every step of a call the host answers that it runs, that it is refused, or that the process dies there; what a file that
was not synced holds after that is anything. Rename and unlink are atomic, and `serde_json` reads back what it wrote.

`journal_crash_atomic` says that the directory is the map that the effective calls make: one entry for each id whose
last effective call was a write.

| here | there |
| --- | --- |
| `Journal`, `Journal.path` | journal.rs:74, 88 |
| `Journal.write` | journal.rs:99, over `tempfile` and `serde_json::to_writer` |
| `Journal.remove` | journal.rs:117 |
| `Journal.list`, `Journal.collect` | journal.rs:135 |
| `FileName.extension` | `Path::extension` |
-/
namespace FaultForge.Agent

open Text Files Crash

/-! ## Names -/

/-- One component of a path. -/
def isFileName (cs : List Char) : Bool :=
  !cs.isEmpty && cs != ['.'] && cs != ['.', '.'] && cs.all fun c => c != '/' && c.toNat != 0

structure FileName where
  val : String
  single : isFileName val.toList = true
deriving DecidableEq

/-- What stands after the last dot, where something stands before it. -/
def FileName.extension (name : FileName) : Option String :=
  match splitOnce '.' name.val.toList.reverse with
  | none => none
  | some (_, []) => none
  | some (last, _ :: _) => some (String.ofList last.reverse)

/-- `Journal::list` reads the file. -/
def FileName.IsEntry (name : FileName) : Prop := name.extension = some "json"

instance : DecidablePred FileName.IsEntry := fun name => inferInstanceAs (Decidable (name.extension = some "json"))

abbrev InstanceId : Type := { s : String // validInstanceId s = true }

/-- The random part of a temporary file's name. -/
abbrev TempSuffix : Type := { s : String // s.toList.all isAsciiAlphanumeric = true }

theorem fileChar_of_id {c : Char}
    (h : (isAsciiAlphanumeric c || c == '.' || c == '_' || c == ':' || c == '-') = true) :
    (c != '/' && c.toNat != 0) = true := by
  simp [isAsciiAlphanumeric, Char.isDigit, Char.le_def, UInt32.le_iff_toNat_le, ← Char.toNat_inj] at *
  omega

/-- The short names are the ones to look out for. -/
theorem isFileName_of {cs : List Char} (hlen : 2 < cs.length) (h : ∀ c ∈ cs, (c != '/' && c.toNat != 0) = true) :
    isFileName cs = true := by
  have hne : ∀ ds : List Char, ds.length ≤ 2 → cs ≠ ds := by
    rintro ds hds rfl
    omega
  simp only [isFileName, Bool.and_eq_true, Bool.not_eq_true', List.isEmpty_eq_false_iff, bne_iff_ne]
  exact ⟨⟨⟨hne [] (by simp), hne ['.'] (by simp)⟩, hne ['.', '.'] (by simp)⟩, List.all_eq_true.2 h⟩

theorem isFileName_entry (id : InstanceId) : isFileName (id.1 ++ ".json").toList = true := by
  obtain ⟨s, hs⟩ := id
  simp only [validInstanceId, Bool.and_eq_true, List.all_eq_true] at hs
  have hend : ∀ c ∈ ".json".toList, (c != '/' && c.toNat != 0) = true := by simp
  rw [String.toList_append]
  refine isFileName_of (by simp) fun c hc => ?_
  rcases List.mem_append.1 hc with hc | hc
  · exact fileChar_of_id (hs.2 c hc)
  · exact hend c hc

theorem isFileName_temp (suffix : TempSuffix) : isFileName (".tmp" ++ suffix.1).toList = true := by
  obtain ⟨s, hs⟩ := suffix
  have hstart : ∀ c ∈ ".tmp".toList, (c != '/' && c.toNat != 0) = true := by simp
  rw [String.toList_append]
  refine isFileName_of (by simp) fun c hc => ?_
  rcases List.mem_append.1 hc with hc | hc
  · exact hstart c hc
  · exact fileChar_of_id (by simp [List.all_eq_true.1 hs c hc])

def entryName (id : InstanceId) : FileName := ⟨id.1 ++ ".json", isFileName_entry id⟩

def tempName (suffix : TempSuffix) : FileName := ⟨".tmp" ++ suffix.1, isFileName_temp suffix⟩

theorem entryName_inj {id id' : InstanceId} (h : entryName id = entryName id') : id = id' := by
  have hl := congrArg (fun name : FileName => name.val.toList) h
  simp only [entryName, String.toList_append] at hl
  exact Subtype.ext (String.toList_inj.1 (List.append_cancel_right hl))

/-- An id has at least one character, so its file has the extension. -/
theorem entryName_isEntry (id : InstanceId) : (entryName id).IsEntry := by
  obtain ⟨s, hs⟩ := id
  have hne : s.toList.reverse ≠ [] := by
    rintro he
    have hnil : s = "" := by simpa using he
    rw [hnil] at hs
    exact absurd hs (by decide)
  obtain ⟨c, cs, hrev⟩ := List.exists_cons_of_ne_nil hne
  have hsplit : splitOnce '.' (s ++ ".json").toList.reverse = some (['n', 'o', 's', 'j'], s.toList.reverse) := by
    rw [String.toList_append, List.reverse_append]
    rfl
  unfold FileName.IsEntry FileName.extension
  simp only [entryName, hsplit, hrev]
  rfl

/-- The only dot of a temporary file's name is its first character. -/
theorem tempName_not_entry (suffix : TempSuffix) : ¬ (tempName suffix).IsEntry := by
  obtain ⟨s, hs⟩ := suffix
  have hdot : '.' ∉ s.toList.reverse ++ ['p', 'm', 't'] := by
    intro hm
    rcases List.mem_append.1 hm with hm | hm
    · exact absurd (List.all_eq_true.1 hs '.' (List.mem_reverse.1 hm)) (by decide)
    · revert hm
      decide
  have hsplit : splitOnce '.' (".tmp" ++ s).toList.reverse = some (s.toList.reverse ++ ['p', 'm', 't'], []) := by
    have hrev : (".tmp" ++ s).toList.reverse = (s.toList.reverse ++ ['p', 'm', 't']) ++ '.' :: [] := by
      rw [String.toList_append, List.reverse_append, List.append_assoc]
      rfl
    rw [hrev, splitOnce_append hdot]
  unfold FileName.IsEntry FileName.extension
  simp only [tempName, hsplit]
  simp

/-! ## The directory -/

abbrev Bytes := List UInt8

structure File where
  content : Bytes
  synced : Bool

/-- `<data_dir>/instances`, none while it does not exist. -/
abbrev Store := Option (FileName → Option File)

def Store.files (s : Store) : FileName → Option File := s.getD fun _ => none

/-- What a crash leaves: a file that was not synced may hold anything. -/
def Store.restart (s : Store) (lost : FileName → Bytes) : Store :=
  s.map fun files name => (files name).map fun file => if file.synced then file else ⟨lost name, true⟩

/-! ## Calls -/

/-- The host at one step of a call. -/
inductive Reply
  | runs
  | refuses (r : Refusal)
  /-- The process dies before the step. -/
  | crashes

/-- The host during one call. -/
structure Host where
  createDirAll : Reply
  createTemp : Reply
  suffix : TempSuffix
  write : Reply
  /-- How much is in the file when the write does not run to its end. -/
  written : Nat
  sync : Reply
  rename : Reply
  dropTemp : Reply
  unlink : Reply
  /-- The process lives on until the call returns. -/
  returns : Bool
  lost : FileName → Bytes

/-- An entry of the version this agent writes, with an id that it accepts. -/
structure ValidEntry where
  entry : JournalEntry
  current : entry.version = JOURNAL_VERSION
  accepted : validInstanceId entry.instanceId = true

def ValidEntry.id (e : ValidEntry) : InstanceId := ⟨e.entry.instanceId, e.accepted⟩

inductive Call
  | write (e : ValidEntry)
  | remove (id : InstanceId)

def Call.id : Call → InstanceId
  | .write e => e.id
  | .remove id => id

structure Journal where
  dir : String

def Journal.new (dataDir : String) : Journal := ⟨joinPath dataDir "instances"⟩

/-- `Path::join` with the name of an entry. -/
def Journal.path (j : Journal) (name : FileName) : String := joinPath j.dir name.val

/-- `Drop for NamedTempFile`, on the way out with an error: its own is ignored. -/
def dropTempFile (h : Host) (files : FileName → Option File) (r : Refusal) : Ended IoError × Store :=
  match h.dropTemp with
  | .runs => (.failed r.error, some (Function.update files (tempName h.suffix) none))
  | .refuses _ => (.failed r.error, some files)
  | .crashes => (.crashed, some files)

/-- `Journal::write`. -/
def Journal.write (toWriter : JournalEntry → Bytes) (h : Host) (e : ValidEntry) (s : Store) :
    Ended IoError × Store :=
  match h.createDirAll with
  | .refuses r => (.failed r.error, s)
  | .crashes => (.crashed, s)
  | .runs =>
    let files := s.files
    match h.createTemp with
    | .refuses r => (.failed r.error, some files)
    | .crashes => (.crashed, some files)
    | .runs =>
      let tmp := tempName h.suffix
      -- `tempfile` tries other names first; this is the one it gives up on
      if (files tmp).isSome then (.failed (.os .alreadyExists), some files)
      else
        let bytes := toWriter e.entry
        let part := Function.update files tmp (some ⟨bytes.take h.written, false⟩)
        match h.write with
        | .refuses r => dropTempFile h part r
        | .crashes => (.crashed, some part)
        | .runs =>
          let full := Function.update files tmp (some ⟨bytes, false⟩)
          match h.sync with
          | .refuses r => dropTempFile h full r
          | .crashes => (.crashed, some full)
          | .runs =>
            let full := Function.update files tmp (some ⟨bytes, true⟩)
            match h.rename with
            | .refuses r => dropTempFile h full r
            | .crashes => (.crashed, some full)
            | .runs =>
              (.done, some (Function.update (Function.update full tmp none) (entryName e.id) (some ⟨bytes, true⟩)))

/-- `Journal::remove`: a file that is already gone is fine. -/
def Journal.remove (h : Host) (id : InstanceId) (s : Store) : Ended IoError × Store :=
  match h.unlink with
  | .refuses r => (.failed r.error, s)
  | .crashes => (.crashed, s)
  | .runs => (.done, s.map fun files => Function.update files (entryName id) none)

def Journal.call (toWriter : JournalEntry → Bytes) (h : Host) (s : Store) : Call → Ended IoError × Store
  | .write e => Journal.write toWriter h e s
  | .remove id => Journal.remove h id s

/-- One call, and the restart after a crash. -/
def Journal.exec (toWriter : JournalEntry → Bytes) (c : Call) (h : Host) (s : Store) : Ended IoError × Store :=
  let (outcome, s) := Journal.call toWriter h s c
  match outcome, h.returns with
  | .crashed, _ | _, false => (.crashed, s.restart h.lost)
  | outcome, true => (outcome, s)

/-! ## Listing -/

section
variable (j : Journal) (content : Bytes → Content)

/-- `fs::read`, and `serde_json` as `content`. -/
def behind (read : FileName → Except String Bytes) (name : FileName) : Content :=
  match read name with
  | .ok bytes => content bytes
  | .error source => .unreadable source

/-- The loop of `Journal::list` over what `read_dir` yields. -/
def Journal.collect (read : FileName → Except String Bytes) :
    List (Except IoError FileName) → Except IoError (List (Except String JournalEntry))
  | [] => .ok []
  | .error e :: _ => .error e
  | .ok name :: rest =>
    if name.IsEntry then
      (Journal.collect read rest).map (readEntry (j.path name) (behind content read name) :: ·)
    else Journal.collect read rest

/-- `Journal::list`. -/
def Journal.list (readDir : Except IoError (List (Except IoError FileName))) (read : FileName → Except String Bytes) :
    Except IoError (List (Except String JournalEntry)) :=
  match readDir with
  | .error e => if e.kind = .notFound then .ok [] else .error e
  | .ok dirents =>
    (j.collect content read dirents).map fun entries => entries.mergeSort fun x y => decide (sortKey x ≤ sortKey y)

end

/-- A file as the model of the replay has it. -/
structure Presents (j : Journal) (content : Bytes → Content) (read : FileName → Except String Bytes)
    (name : FileName) (file : JournalFile) : Prop where
  path : file.path = j.path name
  stem : file.stem.isSome ↔ name.IsEntry
  content : file.content = behind content read name
  error : file.error = none

/-- The replay's listing of the same files. -/
theorem list_journalDir {j : Journal} {content : Bytes → Content} {read : FileName → Except String Bytes}
    {names : List FileName} {files : List JournalFile} (h : List.Forall₂ (Presents j content read) names files) :
    ∃ entries, j.list content (.ok (names.map .ok)) read = .ok entries ∧
      (JournalDir.listed files).list = .ok entries := by
  have hcollect : ∃ entries, j.collect content read (names.map .ok) = .ok entries ∧ listFiles files = .ok entries := by
    induction h with
    | nil => exact ⟨[], rfl, rfl⟩
    | @cons name file names files hfile _ ih =>
      obtain ⟨entries, hcollect, hlist⟩ := ih
      rw [List.map_cons, Journal.collect, listFiles, hfile.error]
      dsimp only
      cases hs : file.stem with
      | none =>
        have hno : ¬ name.IsEntry := fun hn => by simpa [hs] using hfile.stem.2 hn
        exact ⟨entries, (if_neg hno).trans hcollect, hlist⟩
      | some stem =>
        have hyes : name.IsEntry := hfile.stem.1 (by simp [hs])
        refine ⟨file.read :: entries, ?_, by rw [hlist]; rfl⟩
        rw [if_pos hyes, hcollect, JournalFile.read, hfile.path, hfile.content]
        rfl
  obtain ⟨entries, hc, hl⟩ := hcollect
  refine ⟨entries.mergeSort fun x y => decide (sortKey x ≤ sortKey y), ?_, ?_⟩
  · simp only [Journal.list, hc, Except.map]
  · simp only [JournalDir.list, hl, Except.map]

/-- What the directory is read as, in whatever order, when no read fails. -/
structure Store.Shows (s : Store) (readDir : Except IoError (List (Except IoError FileName)))
    (read : FileName → Except String Bytes) : Prop where
  missing : s = none → ∃ e, readDir = .error e ∧ e.kind = .notFound
  listed : ∀ files, s = some files → ∃ names : List FileName, readDir = .ok (names.map .ok) ∧ names.Nodup ∧
    ∀ name, name ∈ names ↔ (files name).isSome
  read : ∀ name file, s.files name = some file → read name = .ok file.content

/-! ## The map that the calls make -/

/-- What a call leaves at its id. -/
def Call.entry : Call → Option ValidEntry
  | .write e => some e
  | .remove _ => none

/-- What the last call on an id left there. -/
def latest (calls : List Call) (id : InstanceId) : Option ValidEntry :=
  (calls.filter fun c => c.id = id).getLast?.bind Call.entry

theorem latest_append (calls : List Call) (c : Call) (id : InstanceId) :
    latest (calls ++ [c]) id = if c.id = id then c.entry else latest calls id := by
  unfold latest
  rw [List.filter_append]
  by_cases h : c.id = id
  · simp [h]
  · simp [h]

theorem latest_id {calls : List Call} {id : InstanceId} {e : ValidEntry} (h : latest calls id = some e) :
    e.id = id := by
  obtain ⟨c, hc, he⟩ := Option.bind_eq_some_iff.1 h
  have hmem := List.mem_filter.1 (List.mem_of_getLast? hc)
  cases c with
  | write e' =>
    obtain rfl := Option.some.inj he
    exact of_decide_eq_true hmem.2
  | remove => cases he

theorem latest_mem {calls : List Call} {id : InstanceId} {e : ValidEntry} (h : latest calls id = some e) :
    .write e ∈ calls := by
  obtain ⟨c, hc, he⟩ := Option.bind_eq_some_iff.1 h
  have hmem := List.mem_filter.1 (List.mem_of_getLast? hc)
  cases c with
  | write e' =>
    obtain rfl := Option.some.inj he
    exact hmem.1
  | remove => cases he

/-- The same in the model of an instance's task, which keeps `Ctx.journal`. -/
def Call.onMap (journal : AList fun _ : String => JournalEntry) : Call → AList fun _ : String => JournalEntry
  | .write e => journal.insert e.entry.instanceId e.entry
  | .remove id => journal.erase id.1

theorem lookup_onMap (calls : List Call) (id : InstanceId) :
    (calls.foldl Call.onMap ∅).lookup id.1 = (latest calls id).map ValidEntry.entry := by
  induction calls using List.reverseRecOn with
  | nil => rfl
  | append_singleton calls c ih =>
    rw [List.foldl_append, List.foldl_cons, List.foldl_nil, latest_append]
    by_cases h : c.id = id
    · subst h
      cases c with
      | write e => simp [Call.onMap, Call.entry, Call.id, ValidEntry.id]
      | remove id => simp [Call.onMap, Call.entry, Call.id]
    · rw [if_neg h, ← ih]
      have hne : id.1 ≠ c.id.1 := fun heq => h (Subtype.ext heq.symm)
      cases c with
      | write e => exact AList.lookup_insert_ne hne
      | remove id' => exact AList.lookup_erase_ne hne

section
variable {toWriter : JournalEntry → Bytes} {s s' : Store} {files : FileName → Option File}

/-- The file of an entry. -/
def ValidEntry.file (toWriter : JournalEntry → Bytes) (e : ValidEntry) : File := ⟨toWriter e.entry, true⟩

/-- The directory once a call has had its effect. -/
def Call.effect (toWriter : JournalEntry → Bytes) (c : Call) (files : FileName → Option File) :
    FileName → Option File :=
  Function.update files (entryName c.id) (c.entry.map (ValidEntry.file toWriter))

/-- The entries in the directory are those that the calls have left, on disk to the last byte. -/
structure Stored (toWriter : JournalEntry → Bytes) (calls : List Call) (s : Store) : Prop where
  held : ∀ id, s.files (entryName id) = (latest calls id).map (ValidEntry.file toWriter)
  only : ∀ name, name.IsEntry → s.files name ≠ none → ∃ id, name = entryName id

/-- Two directories that differ in temporary files. -/
def SameEntries (f g : FileName → Option File) : Prop := ∀ name, name.IsEntry → g name = f name

theorem sameEntries_temp (files : FileName → Option File) (suffix : TempSuffix) (file : Option File) :
    SameEntries files (Function.update files (tempName suffix) file) := by
  intro name hn
  rw [Function.update_of_ne]
  rintro rfl
  exact tempName_not_entry suffix hn

theorem Stored.same {calls : List Call} (h : Stored toWriter calls s) (hs : SameEntries s.files s'.files) :
    Stored toWriter calls s' where
  held id := (hs _ (entryName_isEntry id)).trans (h.held id)
  only name hn hne := h.only name hn (hs name hn ▸ hne)

theorem Stored.call {calls : List Call} {c : Call} (h : Stored toWriter calls s)
    (hs : SameEntries (c.effect toWriter s.files) s'.files) : Stored toWriter (calls ++ [c]) s' where
  held id := by
    rw [hs _ (entryName_isEntry id), latest_append, Call.effect, Function.update_apply, h.held id]
    by_cases hid : c.id = id
    · rw [if_pos (congrArg entryName hid.symm), if_pos hid]
    · rw [if_neg fun heq => hid (entryName_inj heq).symm, if_neg hid]
  only name hn hne := by
    rw [hs name hn, Call.effect, Function.update_apply] at hne
    split at hne
    next heq => exact ⟨c.id, heq⟩
    next => exact h.only name hn hne

/-- A crash loses no entry: each was synced before it got its name. -/
theorem Stored.restart {calls : List Call} (h : Stored toWriter calls s) (lost : FileName → Bytes) :
    Stored toWriter calls (s.restart lost) := by
  have hfiles : ∀ name, (s.restart lost).files name =
      (s.files name).map fun file => if file.synced then file else ⟨lost name, true⟩ := by
    intro name
    cases s <;> rfl
  refine h.same fun name hn => ?_
  rw [hfiles]
  cases hf : s.files name with
  | none => rfl
  | some file =>
    obtain ⟨id, rfl⟩ := h.only name hn (by simp [hf])
    obtain ⟨e, -, rfl⟩ := Option.map_eq_some_iff.1 ((h.held id).symm.trans hf)
    rfl

/-! ## Each call -/

theorem SameEntries.trans {f g k : FileName → Option File} (h : SameEntries f g) (h' : SameEntries g k) :
    SameEntries f k := fun name hn => (h' name hn).trans (h name hn)

theorem SameEntries.update {f g : FileName → Option File} (h : SameEntries f g) (name : FileName)
    (file : Option File) : SameEntries (Function.update f name file) (Function.update g name file) := by
  intro name' hn
  rw [Function.update_apply, Function.update_apply, h name' hn]

/-- What a call has done when it ends in `o`: its effect, or nothing to any entry. -/
def Ends (toWriter : JournalEntry → Bytes) (c : Call) (s : Store) (o : Ended IoError) (s' : Store) : Prop :=
  o = .done ∧ SameEntries (c.effect toWriter s.files) s'.files ∨ o ≠ .done ∧ SameEntries s.files s'.files

theorem dropTempFile_ends {c : Call} {h : Host} {r : Refusal} (hs : SameEntries s.files files) :
    Ends toWriter c s (dropTempFile h files r).1 (dropTempFile h files r).2 := by
  unfold dropTempFile
  cases h.dropTemp with
  | runs => exact .inr ⟨by simp, hs.trans (sameEntries_temp files h.suffix none)⟩
  | refuses r' => exact .inr ⟨by simp, hs⟩
  | crashes => exact .inr ⟨by simp, hs⟩

theorem write_ends (toWriter : JournalEntry → Bytes) (h : Host) (e : ValidEntry) (s : Store) :
    Ends toWriter (.write e) s (Journal.write toWriter h e s).1 (Journal.write toWriter h e s).2 := by
  have hsame : SameEntries s.files s.files := fun _ _ => rfl
  have htemp : ∀ file, SameEntries s.files (Function.update s.files (tempName h.suffix) file) :=
    fun file => sameEntries_temp s.files h.suffix file
  unfold Journal.write
  cases h.createDirAll with
  | refuses r => exact .inr ⟨by simp, hsame⟩
  | crashes => exact .inr ⟨by simp, hsame⟩
  | runs =>
    cases h.createTemp with
    | refuses r => exact .inr ⟨by simp, hsame⟩
    | crashes => exact .inr ⟨by simp, hsame⟩
    | runs =>
      dsimp only
      split
      · exact .inr ⟨by simp, hsame⟩
      cases h.write with
      | refuses r => exact dropTempFile_ends (htemp _)
      | crashes => exact .inr ⟨by simp, htemp _⟩
      | runs =>
        cases h.sync with
        | refuses r => exact dropTempFile_ends (htemp _)
        | crashes => exact .inr ⟨by simp, htemp _⟩
        | runs =>
          cases h.rename with
          | refuses r => exact dropTempFile_ends (htemp _)
          | crashes => exact .inr ⟨by simp, htemp _⟩
          | runs =>
            -- apart from the name it moves to, the rename touches a temporary file
            have hgone := (htemp (some ⟨toWriter e.entry, true⟩)).trans (sameEntries_temp _ h.suffix none)
            exact .inl ⟨rfl, hgone.update (entryName e.id) (some (e.file toWriter))⟩

theorem remove_ends (toWriter : JournalEntry → Bytes) (h : Host) (id : InstanceId) (s : Store) :
    Ends toWriter (.remove id) s (Journal.remove h id s).1 (Journal.remove h id s).2 := by
  unfold Journal.remove
  cases h.unlink with
  | refuses r => exact .inr ⟨by simp, fun _ _ => rfl⟩
  | crashes => exact .inr ⟨by simp, fun _ _ => rfl⟩
  | runs =>
    refine .inl ⟨rfl, fun name _ => ?_⟩
    cases s with
    | some files => rfl
    | none => exact (Function.update_apply _ _ _ _).trans (ite_self _) |>.symm

/-- A crash before, at or after any step included. -/
theorem exec_atomic (toWriter : JournalEntry → Bytes) (c : Call) (h : Host) :
    Atomic (Journal.exec toWriter) (Stored toWriter) c h := by
  intro past s hst
  have hends : Ends toWriter c s (Journal.call toWriter h s c).1 (Journal.call toWriter h s c).2 := by
    cases c with
    | write e => exact write_ends toWriter h e s
    | remove id => exact remove_ends toWriter h id s
  unfold Journal.exec
  rcases hcall : Journal.call toWriter h s c with ⟨o, s'⟩
  rw [hcall] at hends
  dsimp only
  have hstored : o = .done ∧ Stored toWriter (past ++ [c]) s' ∨ o ≠ .done ∧ Stored toWriter past s' :=
    hends.imp (fun ⟨ho, hs⟩ => ⟨ho, hst.call hs⟩) fun ⟨ho, hs⟩ => ⟨ho, hst.same hs⟩
  have hcrashed : Stored toWriter past (s'.restart h.lost) ∨ Stored toWriter (past ++ [c]) (s'.restart h.lost) :=
    hstored.symm.imp (fun hs => hs.2.restart h.lost) fun hs => hs.2.restart h.lost
  cases hr : h.returns with
  | false =>
    cases o <;> exact hcrashed
  | true =>
    cases o with
    | done => exact (hstored.resolve_right fun hs => hs.1 rfl).2
    | failed e => exact (hstored.resolve_left fun hs => by cases hs.1).2
    | crashed => exact hcrashed

end

/-! ## Listing what is stored -/

section
variable (j : Journal) {toWriter : JournalEntry → Bytes} {content : Bytes → Content}
  {read : FileName → Except String Bytes} {calls : List Call} {s : Store}

/-- The loop over some of the directory reads the entries among them. -/
theorem collect_stored (hst : Stored toWriter calls s)
    (hserde : ∀ id e, latest calls id = some e →
      content (toWriter e.entry) = .json (some e.entry.version) (.ok e.entry))
    (hread : ∀ name file, s.files name = some file → read name = .ok file.content) {names : List FileName}
    (hnd : names.Nodup) (hthere : ∀ name ∈ names, (s.files name).isSome) :
    ∃ entries : List ValidEntry,
      j.collect content read (names.map .ok) = .ok (entries.map fun e => .ok e.entry) ∧
        (entries.map ValidEntry.id).Nodup ∧
        ∀ e, e ∈ entries ↔ latest calls e.id = some e ∧ entryName e.id ∈ names := by
  induction names with
  | nil => exact ⟨[], rfl, .nil, fun e => by simp⟩
  | cons name rest ih =>
    obtain ⟨hname, hrest⟩ := List.nodup_cons.1 hnd
    obtain ⟨entries, hcollect, hids, hmem⟩ := ih hrest fun n hn => hthere n (List.mem_cons_of_mem _ hn)
    rw [List.map_cons]
    unfold Journal.collect
    by_cases hentry : name.IsEntry
    · obtain ⟨file, hfile⟩ := Option.isSome_iff_exists.1 (hthere name List.mem_cons_self)
      obtain ⟨id, rfl⟩ := hst.only name hentry (by simp [hfile])
      obtain ⟨e, he, rfl⟩ := Option.map_eq_some_iff.1 ((hst.held id).symm.trans hfile)
      obtain rfl := latest_id he
      have hok : readEntry (j.path (entryName e.id)) (content (toWriter e.entry)) = .ok e.entry := by
        rw [hserde e.id e he]
        simp [readEntry, e.current]
      refine ⟨e :: entries, ?_, ?_, fun e' => ?_⟩
      · have hbehind : behind content read (entryName e.id) = content (toWriter e.entry) := by
          rw [behind, hread _ _ hfile]
          rfl
        rw [if_pos hentry, hbehind, hok, hcollect]
        rfl
      · refine List.nodup_cons.2 ⟨fun hm => ?_, hids⟩
        obtain ⟨e', he', hid⟩ := List.mem_map.1 hm
        exact hname (hid ▸ ((hmem e').1 he').2)
      · rw [List.mem_cons, hmem, List.mem_cons]
        constructor
        · rintro (rfl | ⟨hl, hm⟩)
          · exact ⟨he, .inl rfl⟩
          · exact ⟨hl, .inr hm⟩
        · rintro ⟨hl, heq | hm⟩
          · rw [entryName_inj heq, he] at hl
            exact .inl (Option.some.inj hl).symm
          · exact .inr ⟨hl, hm⟩
    · refine ⟨entries, (if_neg hentry).trans hcollect, hids, fun e => ?_⟩
      rw [hmem, List.mem_cons]
      refine and_congr_right fun _ => ⟨.inr, fun h => h.resolve_left fun heq => hentry (heq ▸ entryName_isEntry e.id)⟩

/-- Reading the whole directory. -/
theorem list_stored (hst : Stored toWriter calls s)
    (hserde : ∀ id e, latest calls id = some e →
      content (toWriter e.entry) = .json (some e.entry.version) (.ok e.entry))
    {readDir : Except IoError (List (Except IoError FileName))} (hshow : s.Shows readDir read) :
    ∃ entries : List ValidEntry, j.list content readDir read = .ok (entries.map fun e => .ok e.entry) ∧
      (entries.map fun e => e.entry.instanceId).Pairwise (· < ·) ∧ ∀ e, e ∈ entries ↔ latest calls e.id = some e := by
  cases hs : s with
  | none =>
    obtain ⟨e, rfl, hk⟩ := hshow.missing hs
    refine ⟨[], by simp [Journal.list, hk], .nil, fun e => ⟨nofun, fun he => ?_⟩⟩
    have hnone := hst.held e.id
    rw [hs, he] at hnone
    cases hnone
  | some files =>
    obtain ⟨names, rfl, hnd, hnames⟩ := hshow.listed files hs
    have hfiles : s.files = files := by rw [hs]; rfl
    obtain ⟨entries, hcollect, hids, hmem⟩ := collect_stored j hst hserde hshow.read hnd fun name hn => by
      rw [hfiles]
      exact (hnames name).1 hn
    have hnames' : ∀ e, latest calls e.id = some e → entryName e.id ∈ names := fun e he => by
      rw [hnames, ← hfiles, hst.held, he]
      rfl
    let le : ValidEntry → ValidEntry → Bool := fun x y => decide (x.entry.instanceId ≤ y.entry.instanceId)
    have hsort : (entries.mergeSort le).map (fun e => (.ok e.entry : Except String JournalEntry)) =
        (entries.map fun e => .ok e.entry).mergeSort fun x y => decide (sortKey x ≤ sortKey y) :=
      List.map_mergeSort fun _ _ _ _ => rfl
    refine ⟨entries.mergeSort le, ?_, ?_, fun e => ?_⟩
    · simp only [Journal.list, hcollect, Except.map, hsort]
    · have hkeys : (entries.map fun e => e.entry.instanceId) = (entries.map ValidEntry.id).map Subtype.val := by
        rw [List.map_map]
        rfl
      exact mergeSort_keys (fun e : ValidEntry => e.entry.instanceId) (hkeys ▸ hids.map Subtype.val_injective)
    · rw [List.mem_mergeSort, hmem]
      exact ⟨fun h => h.1, fun he => ⟨he, hnames' e he⟩⟩

/-- **The journal is a crash-atomic map.** After any calls on a directory that held no entries, cut short by crashes
wherever, `list` gives for each id whose last effective call was a write that entry and no other, in the order of the
ids. A call that was cut short counts as one that was made or as one that was not. -/
theorem journal_crash_atomic {steps : List (Call × Host)} {s₀ : Store}
    (hfresh : ∀ name : FileName, name.IsEntry → s₀.files name = none)
    (hserde : ∀ x ∈ steps, ∀ e, x.1 = .write e →
      content (toWriter e.entry) = .json (some e.entry.version) (.ok e.entry))
    {readDir : Except IoError (List (Except IoError FileName))}
    (hshow : (run (Journal.exec toWriter) steps s₀).2.Shows readDir read) :
    ∃ calls, Effective (run (Journal.exec toWriter) steps s₀).1 calls ∧
      ∃ entries : List ValidEntry, j.list content readDir read = .ok (entries.map fun e => .ok e.entry) ∧
        (entries.map fun e => e.entry.instanceId).Pairwise (· < ·) ∧
        ∀ e, e ∈ entries ↔ latest calls e.id = some e := by
  have hstart : Stored toWriter [] s₀ :=
    ⟨fun id => hfresh _ (entryName_isEntry id), fun name hn hne => absurd (hfresh name hn) hne⟩
  obtain ⟨calls, heff, hst⟩ := run_effective (fun x _ => exec_atomic toWriter x.1 x.2) hstart
  refine ⟨calls, heff, list_stored j hst (fun id e he => ?_) hshow⟩
  have hmem := heff.mem _ (latest_mem he)
  rw [run_calls] at hmem
  obtain ⟨x, hx, hcall⟩ := List.mem_map.1 hmem
  exact hserde x hx e hcall

end

/-! ## A write that is cut short and made again -/

def savedEntry : ValidEntry := ⟨sampleEntry, rfl, by decide +kernel⟩

/-- `serde_json` on an entry without parameters. -/
def savedBytes (e : JournalEntry) : Bytes :=
  ("\x7b\"version\":" ++ toString e.version ++ ",\"instance_id\":\"" ++ e.instanceId ++ "\",\"plugin_name\":\"" ++
    e.pluginName ++ "\",\"plugin_version\":\"" ++ e.pluginVersion ++ "\",\"plugin_digest\":\"" ++ e.pluginDigest ++
    "\",\"params\":\x7b\x7d,\"started_unix_ms\":" ++ toString e.startedUnixMs ++ ",\"duration_secs\":" ++
    toString e.durationSecs ++ ",\"grace_secs\":" ++ toString e.graceSecs ++ ",\"deadline_unix\":" ++
    toString e.deadlineUnix ++ "\x7d").toList.map fun c => c.toNat.toUInt8

def savedContent (bytes : Bytes) : Content :=
  if bytes = savedBytes savedEntry.entry then .json (some JOURNAL_VERSION) (.ok savedEntry.entry)
  else .notJson "EOF while parsing a string at line 1 column 7"

/-- Every step runs, with this suffix. -/
def smoothHost (suffix : TempSuffix) : Host :=
  ⟨.runs, .runs, suffix, .runs, 0, .runs, .runs, .runs, .runs, true, fun _ => []⟩

def firstSuffix : TempSuffix := ⟨"8kQ2xa", by decide +kernel⟩

def secondSuffix : TempSuffix := ⟨"Zp01Ld", by decide +kernel⟩

/-- The first write dies seven bytes into its temporary file. -/
def cutSteps : List (Call × Host) :=
  [(.write savedEntry, { smoothHost firstSuffix with write := .crashes, written := 7 }),
    (.write savedEntry, smoothHost secondSuffix)]

def cutStore : Store := (run (Journal.exec savedBytes) cutSteps none).2

def firstTemp : FileName := tempName firstSuffix

def secondTemp : FileName := tempName secondSuffix

def savedName : FileName := entryName savedEntry.id

def cutNames : List FileName := [firstTemp, savedName]

def cutRead (name : FileName) : Except String Bytes :=
  match cutStore.files name with
  | some file => .ok file.content
  | none => .error "No such file or directory (os error 2)"

/-- A write that runs through, in the end only the entry is new. -/
theorem exec_smooth (toWriter : JournalEntry → Bytes) (e : ValidEntry) {suffix : TempSuffix} {s : Store}
    (hfree : s.files (tempName suffix) = none) :
    (Journal.exec toWriter (.write e) (smoothHost suffix) s).2.files =
      Function.update s.files (entryName e.id) (some (e.file toWriter)) := by
  have hgone : Function.update (Function.update s.files (tempName suffix) (some ⟨toWriter e.entry, true⟩))
      (tempName suffix) none = s.files := by
    rw [Function.update_idem, ← hfree, Function.update_eq_self]
  simp only [Journal.exec, Journal.call, Journal.write, smoothHost, hfree, Option.isSome_none, Bool.false_eq_true,
    if_false, hgone]
  rfl

/-- One that dies in its temporary file. -/
theorem exec_cut (toWriter : JournalEntry → Bytes) (e : ValidEntry) (suffix : TempSuffix) (n : Nat) :
    (Journal.exec toWriter (.write e) { smoothHost suffix with write := .crashes, written := n } none).2.files =
      Function.update (fun _ => none) (tempName suffix) (some ⟨[], true⟩) := by
  funext name
  change ((Function.update (fun _ => none) (tempName suffix) (some ⟨(toWriter e.entry).take n, false⟩) name).map
    fun file : File => if file.synced then file else ⟨[], true⟩) = _
  rw [Function.update_apply, Function.update_apply]
  split <;> rfl

/-- What the first write left and what the second one made. -/
theorem cutStore_files (name : FileName) : (cutStore.files name).isSome ↔ name = firstTemp ∨ name = savedName := by
  have hcut := exec_cut savedBytes savedEntry firstSuffix 7
  have hne : secondTemp ≠ firstTemp := by decide +kernel
  have hfiles : cutStore.files = Function.update (Function.update (fun _ => none) firstTemp (some ⟨[], true⟩))
      savedName (some (savedEntry.file savedBytes)) := by
    have hfree : (Journal.exec savedBytes (.write savedEntry)
        { smoothHost firstSuffix with write := .crashes, written := 7 } none).2.files secondTemp = none := by
      rw [hcut]
      exact Function.update_of_ne hne _ _
    have hsmooth := exec_smooth savedBytes savedEntry hfree
    rw [hcut] at hsmooth
    exact hsmooth
  rw [hfiles, Function.update_apply, Function.update_apply]
  by_cases h : name = savedName
  · simp [h]
  · by_cases h' : name = firstTemp
    · rw [if_neg h, if_pos h']
      exact iff_of_true rfl (.inl h')
    · simp [h, h']

theorem cutStore_shows : cutStore.Shows (.ok (cutNames.map .ok)) cutRead where
  missing h := by cases h
  listed files h := by
    have hfiles : cutStore.files = files := by rw [h]; rfl
    refine ⟨cutNames, rfl, by decide +kernel, fun name => ?_⟩
    rw [← hfiles, cutStore_files, cutNames, List.mem_pair]
  read name file h := by simp only [cutRead, h]

/-- The entry is listed and the temporary file that was left is not. -/
theorem journal_crash_atomic_cut :
    ∃ calls, Effective (run (Journal.exec savedBytes) cutSteps none).1 calls ∧
      ∃ entries : List ValidEntry,
        (Journal.new "/var/lib/faultforge").list savedContent (.ok (cutNames.map .ok)) cutRead =
          .ok (entries.map fun e => .ok e.entry) ∧
        (entries.map fun e => e.entry.instanceId).Pairwise (· < ·) ∧
        ∀ e, e ∈ entries ↔ latest calls e.id = some e := by
  refine journal_crash_atomic _ (fun _ _ => rfl) (fun x hx e he => ?_) cutStore_shows
  obtain rfl : e = savedEntry := by
    rcases List.mem_pair.1 hx with rfl | rfl <;> exact (Call.write.inj he).symm
  rw [savedContent, if_pos rfl]
  rfl

end FaultForge.Agent
