import FaultForge.Agent.JournalStore
import FaultForge.Lib.Lts

/-!
# The quarantine record on disk (taint.rs)

`Taint::mark` reads the record, and where there is none fills a temporary file, syncs it and renames it to
`tainted.json`; `Taint::clear` unlinks it. Every instance task calls `mark` on a thread of its own, so any number of
calls may be under way: one step here is one call to the file system by one of them, and the process may die between any
two. As in the journal's model, rename and unlink are atomic, and what was not synced is lost in a crash.

* `taint_linearizable` — the record is one that was given to `mark`, to the last byte, or none; and it is there exactly
  when the last call to take effect was a `mark`. What a `mark` may go by is a read that is refused where there is no
  record: it takes that for a record (`mark_forgotten_unread`).
* `taint_first_kept` — where no two `mark` overlap, the record is what the supervisor's model makes of the calls, one
  after the other: the first one is kept (`first_taint_overwritten` without that).

| here | there |
| --- | --- |
| `Taint.current` | taint.rs:41 |
| `callStep` from `.reading` | `Taint::mark` :70, over `tempfile` and `serde_json::to_writer` |
| `callStep` at `.unlinking` | `Taint::clear` :94 |
-/
namespace FaultForge.Agent

open Text Files Crash Lts

/-- What is asked of the store. -/
inductive TaintCall
  | mark (record : TaintRecord)
  | clear

def TaintCall.IsMark : TaintCall → Prop
  | .mark _ => True
  | .clear => False

/-- What the supervisor's model makes of it. -/
def TaintCall.onCtx (ctx : Ctx) : TaintCall → Ctx
  | .mark record => ctx.mark record none
  | .clear => { ctx with taint := none }

/-- What is in the temporary file when it is renamed. -/
def TaintCall.bytes (toWriter : TaintRecord → Bytes) : TaintCall → Bytes
  | .mark record => toWriter record
  | .clear => []

def taintName : FileName := ⟨"tainted.json", by decide +kernel⟩

/-- `Taint::current`, with the answer of the host to `fs::read`, and `serde_json` as `fromSlice`. -/
def Taint.current (fromSlice : Bytes → Except String TaintRecord) (refusal : Option Refusal) (file : Option File) :
    Option TaintRecord :=
  match refusal, file with
  | some r, _ => some ⟨s!"taint record unreadable: {r.error.text}", 0, ""⟩
  | none, none => none
  | none, some file =>
    match fromSlice file.content with
    | .ok record => some record
    | .error e => some ⟨s!"taint record corrupt: {e}", 0, ""⟩

theorem Taint.current_isSome (fromSlice : Bytes → Except String TaintRecord) (refusal : Option Refusal)
    (file : Option File) : (Taint.current fromSlice refusal file).isSome = (refusal.isSome || file.isSome) := by
  cases refusal with
  | some r => rfl
  | none =>
    cases file with
    | none => rfl
    | some file =>
      simp only [Taint.current]
      split <;> rfl

/-! ## Calls under way -/

inductive CallPc
  /-- Not called yet. -/
  | idle
  | reading
  | creating
  /-- About to open a temporary file. -/
  | opening
  | writing (tmp : TempSuffix)
  | syncing (tmp : TempSuffix)
  | persisting (tmp : TempSuffix)
  /-- `Drop for NamedTempFile`, on the way out with an error. -/
  | dropping (tmp : TempSuffix) (e : IoError)
  | unlinking
  | returned (result : Except IoError Unit)
  /-- The process died meanwhile. -/
  | dead

/-- The temporary file of the call. -/
def CallPc.tmp : CallPc → Option TempSuffix
  | .writing tmp | .syncing tmp | .persisting tmp | .dropping tmp _ => some tmp
  | _ => none

/-- The host's answer to one step. -/
inductive HostAnswer
  | runs
  | refuses (r : Refusal)
  /-- A temporary file of this name is opened. -/
  | named (tmp : TempSuffix)
  /-- Every name that was tried is taken. -/
  | taken
  /-- The write is refused after so many bytes. -/
  | wrote (n : Nat) (r : Refusal)

def TaintCall.begin : TaintCall → CallPc
  | .mark _ => .reading
  | .clear => .unlinking

/-- The read that a `mark` starts with. -/
def Taint.check (fromSlice : Bytes → Except String TaintRecord) (dir : Store) (refusal : Option Refusal) : CallPc :=
  if (Taint.current fromSlice refusal (dir.files taintName)).isSome then .returned (.ok ()) else .creating

/-- One step of a call: the directory, and where the call is then. -/
def callStep (toWriter : TaintRecord → Bytes) (fromSlice : Bytes → Except String TaintRecord) (call : TaintCall)
    (dir : Store) (pc : CallPc) (answer : HostAnswer) : Option (Store × CallPc) :=
  match pc, answer with
  | .reading, .runs => some (dir, Taint.check fromSlice dir none)
  | .reading, .refuses r => some (dir, Taint.check fromSlice dir (some r))
  | .creating, .runs => some (some dir.files, .opening)
  | .creating, .refuses r => some (dir, .returned (.error r.error))
  | .opening, .refuses r => some (dir, .returned (.error r.error))
  | .opening, .taken => some (dir, .returned (.error (.os .alreadyExists)))
  | .opening, .named tmp =>
    if (dir.files (tempName tmp)).isSome then none
    else some (some (Function.update dir.files (tempName tmp) (some ⟨[], false⟩)), .writing tmp)
  | .writing tmp, .runs =>
    some (some (Function.update dir.files (tempName tmp) (some ⟨call.bytes toWriter, false⟩)), .syncing tmp)
  | .writing tmp, .wrote n r =>
    some (some (Function.update dir.files (tempName tmp) (some ⟨(call.bytes toWriter).take n, false⟩)),
      .dropping tmp r.error)
  | .syncing tmp, .runs =>
    some (some (Function.update dir.files (tempName tmp) (some ⟨call.bytes toWriter, true⟩)), .persisting tmp)
  | .syncing tmp, .refuses r => some (dir, .dropping tmp r.error)
  | .persisting tmp, .refuses r => some (dir, .dropping tmp r.error)
  | .persisting tmp, .runs =>
    some (some (Function.update (Function.update dir.files (tempName tmp) none) taintName (dir.files (tempName tmp))),
      .returned (.ok ()))
  | .dropping tmp e, .runs => some (some (Function.update dir.files (tempName tmp) none), .returned (.error e))
  | .dropping _ e, .refuses _ => some (dir, .returned (.error e))
  | .unlinking, .runs =>
    some (dir.map fun files => Function.update files taintName none, .returned (.ok ()))
  | .unlinking, .refuses r => some (dir, .returned (.error r.error))
  | _, _ => none

/-- The directory, the calls, and those that have taken effect, in that order, for the statements only. -/
structure TaintDisk (ι : Type) where
  dir : Store
  pc : ι → CallPc
  log : List ι

inductive DiskLabel (ι : Type)
  | begin (i : ι)
  | step (i : ι) (answer : HostAnswer)
  | crash (lost : FileName → Bytes)

def CallPc.crashed : CallPc → CallPc
  | .idle => .idle
  | .returned result => .returned result
  | _ => .dead

def CallPc.succeeded : CallPc → Bool
  | .returned (.ok ()) => true
  | _ => false

variable {ι : Type} [DecidableEq ι]

def diskStep (toWriter : TaintRecord → Bytes) (fromSlice : Bytes → Except String TaintRecord) (jobs : ι → TaintCall)
    (w : TaintDisk ι) : DiskLabel ι → Option (TaintDisk ι)
  | .begin i =>
    match w.pc i with
    | .idle => some { w with pc := Function.update w.pc i (jobs i).begin }
    | _ => none
  | .step i answer =>
    (callStep toWriter fromSlice (jobs i) w.dir (w.pc i) answer).map fun (dir, pc) =>
      ⟨dir, Function.update w.pc i pc, if pc.succeeded then w.log ++ [i] else w.log⟩
  | .crash lost => some ⟨w.dir.restart lost, fun i => (w.pc i).crashed, w.log⟩

/-- Of a directory without a record, before any call. -/
def diskLts (toWriter : TaintRecord → Bytes) (fromSlice : Bytes → Except String TaintRecord) (jobs : ι → TaintCall) :
    Lts.System (TaintDisk ι) (DiskLabel ι) where
  init w := w.dir.files taintName = none ∧ w.pc = (fun _ => .idle) ∧ w.log = []
  step := diskStep toWriter fromSlice jobs

/-! ## What a step can do -/

/-- A step of a call, by what it does to the directory. -/
inductive CallStep (toWriter : TaintRecord → Bytes) (call : TaintCall) (dir : Store) :
    CallPc → HostAnswer → Store → CallPc → Prop
  /-- A `mark` finds a record, or takes a refused read for one. -/
  | found {answer : HostAnswer} : (dir.files taintName).isSome = true ∨ (∃ r, answer = .refuses r) →
      CallStep toWriter call dir .reading answer dir (.returned (.ok ()))
  | absent : dir.files taintName = none → CallStep toWriter call dir .reading .runs dir .creating
  | created : CallStep toWriter call dir .creating .runs (some dir.files) .opening
  /-- A step that is refused; the call goes on to drop its temporary file, or returns. -/
  | refused {pc : CallPc} {answer : HostAnswer} {e : IoError} : pc.succeeded = false →
      CallStep toWriter call dir pc answer dir (.returned (.error e))
  | gaveUp {pc : CallPc} {answer : HostAnswer} {tmp : TempSuffix} {e : IoError} :
      pc = .syncing tmp ∨ pc = .persisting tmp → CallStep toWriter call dir pc answer dir (.dropping tmp e)
  | opened {tmp : TempSuffix} : dir.files (tempName tmp) = none →
      CallStep toWriter call dir .opening (.named tmp)
        (some (Function.update dir.files (tempName tmp) (some ⟨[], false⟩))) (.writing tmp)
  | wrote {tmp : TempSuffix} : CallStep toWriter call dir (.writing tmp) .runs
      (some (Function.update dir.files (tempName tmp) (some ⟨call.bytes toWriter, false⟩))) (.syncing tmp)
  | partly {tmp : TempSuffix} {n : Nat} {r : Refusal} : CallStep toWriter call dir (.writing tmp) (.wrote n r)
      (some (Function.update dir.files (tempName tmp) (some ⟨(call.bytes toWriter).take n, false⟩)))
      (.dropping tmp r.error)
  | synced {tmp : TempSuffix} : CallStep toWriter call dir (.syncing tmp) .runs
      (some (Function.update dir.files (tempName tmp) (some ⟨call.bytes toWriter, true⟩))) (.persisting tmp)
  | renamed {tmp : TempSuffix} : CallStep toWriter call dir (.persisting tmp) .runs
      (some (Function.update (Function.update dir.files (tempName tmp) none) taintName (dir.files (tempName tmp))))
      (.returned (.ok ()))
  | dropped {tmp : TempSuffix} {e : IoError} : CallStep toWriter call dir (.dropping tmp e) .runs
      (some (Function.update dir.files (tempName tmp) none)) (.returned (.error e))
  | unlinked : CallStep toWriter call dir .unlinking .runs
      (dir.map fun files => Function.update files taintName none) (.returned (.ok ()))

section
variable {toWriter : TaintRecord → Bytes} {fromSlice : Bytes → Except String TaintRecord} {call : TaintCall}
  {dir dir' : Store} {pc pc' : CallPc} {answer : HostAnswer}

theorem callStep_cases (h : callStep toWriter fromSlice call dir pc answer = some (dir', pc')) :
    CallStep toWriter call dir pc answer dir' pc' := by
  unfold callStep at h
  split at h
  case h_7 tmp =>
    split at h
    case isTrue => cases h
    case isFalse hfree =>
      obtain ⟨rfl, rfl⟩ := Prod.mk.inj (Option.some.inj h)
      exact .opened (Option.not_isSome_iff_eq_none.1 hfree)
  case h_18 => cases h
  all_goals obtain ⟨rfl, rfl⟩ := Prod.mk.inj (Option.some.inj h)
  · cases hf : dir.files taintName with
    | some file =>
      rw [Taint.check, Taint.current_isSome, hf]
      exact .found (.inl (by rw [hf]; rfl))
    | none =>
      rw [Taint.check, Taint.current_isSome, hf]
      exact .absent hf
  · rw [Taint.check, Taint.current_isSome]
    exact .found (.inr ⟨_, rfl⟩)
  · exact .created
  · exact .refused rfl
  · exact .refused rfl
  · exact .refused rfl
  · exact .wrote
  · exact .partly
  · exact .synced
  · exact .gaveUp (.inl rfl)
  · exact .gaveUp (.inr rfl)
  · exact .renamed
  · exact .dropped
  · exact .refused rfl
  · exact .unlinked
  · exact .refused rfl

end

/-! ## What holds of the directory -/

theorem files_some (files : FileName → Option File) : Store.files (some files) = files := rfl

theorem tempName_inj {tmp tmp' : TempSuffix} (h : tempName tmp = tempName tmp') : tmp = tmp' := by
  have hl := congrArg (fun name : FileName => name.val.toList) h
  simp only [tempName, String.toList_append] at hl
  exact Subtype.ext (String.toList_inj.1 (List.append_cancel_left hl))

theorem tempName_ne_taintName (tmp : TempSuffix) : tempName tmp ≠ taintName := fun h =>
  tempName_not_entry tmp (h ▸ (by decide +kernel : taintName.IsEntry))

/-- What a call has in its temporary file, and what it was made for. -/
def Holding (toWriter : TaintRecord → Bytes) (call : TaintCall) (files : FileName → Option File) : CallPc → Prop
  | .reading | .creating | .opening => call.IsMark
  | .writing tmp | .dropping tmp _ => call.IsMark ∧ (files (tempName tmp)).isSome = true
  | .syncing tmp => call.IsMark ∧ files (tempName tmp) = some ⟨call.bytes toWriter, false⟩
  | .persisting tmp => call.IsMark ∧ files (tempName tmp) = some ⟨call.bytes toWriter, true⟩
  | .unlinking => ¬ call.IsMark
  | .idle | .returned _ | .dead => True

section
variable {toWriter : TaintRecord → Bytes} {call : TaintCall} {dir dir' : Store} {pc pc' : CallPc} {answer : HostAnswer}

theorem Holding.isSome {files : FileName → Option File} (h : Holding toWriter call files pc) {tmp : TempSuffix}
    (htmp : pc.tmp = some tmp) : (files (tempName tmp)).isSome = true := by
  cases pc with
  | writing | dropping =>
    obtain rfl := Option.some.inj htmp
    exact h.2
  | syncing | persisting =>
    obtain rfl := Option.some.inj htmp
    rw [h.2]
    rfl
  | _ => cases htmp

theorem Holding.congr {files files' : FileName → Option File} (h : Holding toWriter call files pc)
    (hf : ∀ tmp, pc.tmp = some tmp → files' (tempName tmp) = files (tempName tmp)) :
    Holding toWriter call files' pc := by
  cases pc with
  | writing tmp | dropping tmp | syncing tmp | persisting tmp =>
    rw [Holding, hf tmp rfl]
    exact h
  | _ => exact h

/-- A step changes the record, its own temporary file, and nothing else. -/
theorem CallStep.frame (h : CallStep toWriter call dir pc answer dir' pc') {name : FileName} (hne : name ≠ taintName)
    (htmp : ∀ tmp, pc.tmp = some tmp ∨ pc'.tmp = some tmp → name ≠ tempName tmp) :
    dir'.files name = dir.files name := by
  cases h with
  | found | absent | created | refused | gaveUp => rfl
  | @opened tmp => exact Function.update_of_ne (htmp tmp (.inr rfl)) _ _
  | @wrote tmp | @partly tmp | @synced tmp | @dropped tmp => exact Function.update_of_ne (htmp tmp (.inl rfl)) _ _
  | @renamed tmp =>
    exact (Function.update_of_ne hne _ _).trans (Function.update_of_ne (htmp tmp (.inl rfl)) _ _)
  | unlinked =>
    cases dir with
    | none => rfl
    | some files => exact Function.update_of_ne hne _ _

theorem CallStep.holding (h : CallStep toWriter call dir pc answer dir' pc')
    (hh : Holding toWriter call dir.files pc) : Holding toWriter call dir'.files pc' := by
  cases h with
  | found | refused | renamed | dropped | unlinked => trivial
  | absent | created => exact hh
  | gaveUp hpc =>
    obtain rfl | rfl := hpc
    · exact ⟨hh.1, by rw [hh.2]; rfl⟩
    · exact ⟨hh.1, by rw [hh.2]; rfl⟩
  | opened => exact ⟨hh, by simp [Store.files]⟩
  | wrote | synced => exact ⟨hh.1, Function.update_self _ _ _⟩
  | partly => exact ⟨hh.1, by simp [Store.files]⟩

/-- The temporary file of a call is new, or was its own before. -/
theorem CallStep.tmp_own (h : CallStep toWriter call dir pc answer dir' pc') {tmp : TempSuffix}
    (htmp : pc'.tmp = some tmp) : pc.tmp = some tmp ∨ dir.files (tempName tmp) = none := by
  cases h with
  | found | absent | created | refused | renamed | dropped | unlinked => cases htmp
  | gaveUp hpc =>
    obtain rfl | rfl := hpc
    · exact .inl htmp
    · exact .inl htmp
  | opened hfree =>
    obtain rfl := Option.some.inj htmp
    exact .inr hfree
  | wrote | synced | partly => exact .inl htmp

end

/-- The directory under any calls. -/
structure TaintDisk.Sound (toWriter : TaintRecord → Bytes) (jobs : ι → TaintCall) (w : TaintDisk ι) : Prop where
  held : ∀ i, Holding toWriter (jobs i) w.dir.files (w.pc i)
  apart : ∀ i j tmp, (w.pc i).tmp = some tmp → (w.pc j).tmp = some tmp → i = j
  logged : ∀ i, i ∈ w.log ↔ (w.pc i).succeeded = true
  once : w.log.Nodup
  whole : ∀ file, w.dir.files taintName = some file →
    ∃ i record, i ∈ w.log ∧ jobs i = .mark record ∧ file = ⟨toWriter record, true⟩

section
variable {toWriter : TaintRecord → Bytes} {fromSlice : Bytes → Except String TaintRecord} {jobs : ι → TaintCall}
  {w w' : TaintDisk ι} {a : DiskLabel ι}

theorem TaintCall.IsMark.eq {call : TaintCall} (h : call.IsMark) : ∃ record, call = .mark record := by
  cases call with
  | mark record => exact ⟨record, rfl⟩
  | clear => exact h.elim

/-- A call that has not succeeded yet takes a step. -/
theorem TaintDisk.Sound.set {i : ι} (h : w.Sound toWriter jobs) (dir : Store) (pc : CallPc)
    (hold : (w.pc i).succeeded = false) (hheld : Holding toWriter (jobs i) dir.files pc)
    (hown : ∀ tmp, pc.tmp = some tmp → (w.pc i).tmp = some tmp ∨ w.dir.files (tempName tmp) = none)
    (hframe : ∀ name, name ≠ taintName →
      (∀ tmp, (w.pc i).tmp = some tmp ∨ pc.tmp = some tmp → name ≠ tempName tmp) →
      dir.files name = w.dir.files name)
    (hwhole : ∀ file, dir.files taintName = some file → w.dir.files taintName = some file ∨
      ∃ record, pc.succeeded = true ∧ jobs i = .mark record ∧ file = ⟨toWriter record, true⟩) :
    (⟨dir, Function.update w.pc i pc, if pc.succeeded then w.log ++ [i] else w.log⟩ : TaintDisk ι).Sound
      toWriter jobs := by
  have hout : i ∉ w.log := fun hi => absurd (hold.symm.trans ((h.logged i).1 hi)) Bool.false_ne_true
  -- the temporary files of the other calls are neither the old one of this call nor its new one
  have hother : ∀ j tmp tmp', j ≠ i → (w.pc j).tmp = some tmp → (w.pc i).tmp = some tmp' ∨ pc.tmp = some tmp' →
      tmp ≠ tmp' := by
    rintro j tmp tmp' hji hj hi rfl
    rcases hi with hi | hi
    · exact hji (h.apart j i tmp hj hi)
    · rcases hown tmp hi with hi | hfree
      · exact hji (h.apart j i tmp hj hi)
      · have hsome := (h.held j).isSome hj
        rw [hfree] at hsome
        cases hsome
  refine ⟨fun j => ?_, fun j k tmp hj hk => ?_, fun j => ?_, ?_, fun file hf => ?_⟩
  · dsimp only
    by_cases hji : j = i
    · subst hji
      rwa [Function.update_self]
    · rw [Function.update_of_ne hji]
      exact (h.held j).congr fun tmp htmp => hframe _ (tempName_ne_taintName tmp) fun tmp' htmp' heq =>
        hother j tmp tmp' hji htmp htmp' (tempName_inj heq)
  · dsimp only at hj hk
    by_cases hji : j = i
    · by_cases hki : k = i
      · exact hji.trans hki.symm
      · rw [hji, Function.update_self] at hj
        rw [Function.update_of_ne hki] at hk
        exact absurd rfl (hother k tmp tmp hki hk (.inr hj))
    · rw [Function.update_of_ne hji] at hj
      by_cases hki : k = i
      · rw [hki, Function.update_self] at hk
        exact absurd rfl (hother j tmp tmp hji hj (.inr hk))
      · rw [Function.update_of_ne hki] at hk
        exact h.apart j k tmp hj hk
  · dsimp only
    by_cases hji : j = i
    · subst hji
      rw [Function.update_self]
      cases hs : pc.succeeded <;> simp [hout]
    · rw [Function.update_of_ne hji, ← h.logged]
      split
      · simp [hji]
      · exact Iff.rfl
  · dsimp only
    split
    · exact List.nodup_append.2 ⟨h.once, List.nodup_singleton i, fun j hj k hk heq =>
        hout (List.mem_singleton.1 hk ▸ heq ▸ hj)⟩
    · exact h.once
  · dsimp only at hf ⊢
    rcases hwhole file hf with hf | ⟨record, hs, hjob, rfl⟩
    · obtain ⟨j, record, hj, hjob, rfl⟩ := h.whole file hf
      refine ⟨j, record, ?_, hjob, rfl⟩
      split
      · exact List.mem_append_left _ hj
      · exact hj
    · exact ⟨i, record, by simp [hs], hjob, rfl⟩

theorem TaintCall.begin_tmp (call : TaintCall) : call.begin.tmp = none := by cases call <;> rfl

theorem TaintCall.begin_succeeded (call : TaintCall) : call.begin.succeeded = false := by cases call <;> rfl

theorem TaintDisk.Sound.begin {i : ι} (h : w.Sound toWriter jobs) (hpc : w.pc i = .idle) :
    { w with pc := Function.update w.pc i (jobs i).begin }.Sound toWriter jobs := by
  have hset := h.set w.dir (jobs i).begin (by rw [hpc]; rfl)
    (by cases jobs i <;> simp [TaintCall.begin, Holding, TaintCall.IsMark])
    (fun tmp htmp => by rw [TaintCall.begin_tmp] at htmp; cases htmp) (fun _ _ _ => rfl) (fun _ hf => .inl hf)
  rwa [TaintCall.begin_succeeded] at hset

theorem CallStep.not_succeeded {call : TaintCall} {dir dir' : Store} {pc pc' : CallPc} {answer : HostAnswer}
    (h : CallStep toWriter call dir pc answer dir' pc') : pc.succeeded = false := by
  cases h with
  | refused hpc => exact hpc
  | gaveUp hpc => obtain rfl | rfl := hpc <;> rfl
  | _ => rfl

/-- What a step does to the record. -/
inductive OnRecord (toWriter : TaintRecord → Bytes) (call : TaintCall) (dir dir' : Store) (pc pc' : CallPc)
    (answer : HostAnswer) : Prop
  | still : pc'.succeeded = false → dir'.files taintName = dir.files taintName →
      OnRecord toWriter call dir dir' pc pc' answer
  | kept : pc = .reading → pc'.succeeded = true → call.IsMark → dir' = dir →
      (dir.files taintName).isSome = true ∨ (∃ r, answer = .refuses r) → OnRecord toWriter call dir dir' pc pc' answer
  | put (tmp : TempSuffix) (record : TaintRecord) : pc = .persisting tmp → pc'.succeeded = true →
      call = .mark record → dir'.files taintName = some ⟨toWriter record, true⟩ →
      OnRecord toWriter call dir dir' pc pc' answer
  | removed : pc'.succeeded = true → call = .clear → dir'.files taintName = none →
      OnRecord toWriter call dir dir' pc pc' answer

theorem CallStep.onRecord {call : TaintCall} {dir dir' : Store} {pc pc' : CallPc} {answer : HostAnswer}
    (h : CallStep toWriter call dir pc answer dir' pc') (hh : Holding toWriter call dir.files pc) :
    OnRecord toWriter call dir dir' pc pc' answer := by
  cases h with
  | found hfound => exact .kept rfl rfl hh rfl hfound
  | absent | created | refused | gaveUp => exact .still rfl rfl
  | @opened tmp | @wrote tmp | @partly tmp | @synced tmp | @dropped tmp =>
    exact .still rfl (by rw [files_some, Function.update_of_ne (tempName_ne_taintName tmp).symm])
  | @renamed tmp =>
    obtain ⟨hmark, htmp⟩ := hh
    obtain ⟨record, rfl⟩ := hmark.eq
    refine .put tmp record rfl rfl rfl ?_
    rw [files_some, Function.update_self, htmp, TaintCall.bytes]
  | unlinked =>
    have hclear : call = .clear := by
      cases call with
      | mark => exact absurd trivial hh
      | clear => rfl
    refine .removed rfl hclear ?_
    cases dir with
    | none => rfl
    | some files => rw [Option.map_some, files_some, Function.update_self]

/-- The record is the old one, or a call that succeeds has put its own there. -/
theorem OnRecord.whole {call : TaintCall} {dir dir' : Store} {pc pc' : CallPc} {answer : HostAnswer}
    (h : OnRecord toWriter call dir dir' pc pc' answer) {file : File} (hf : dir'.files taintName = some file) :
    dir.files taintName = some file ∨
      ∃ record, pc'.succeeded = true ∧ call = .mark record ∧ file = ⟨toWriter record, true⟩ := by
  cases h with
  | still _ hsame => exact .inl (hsame ▸ hf)
  | kept _ _ _ hsame => exact .inl (hsame ▸ hf)
  | put tmp record _ hs hcall hput => exact .inr ⟨record, hs, hcall, (Option.some.inj (hput.symm.trans hf)).symm⟩
  | removed _ _ hnone =>
    rw [hnone] at hf
    cases hf

omit [DecidableEq ι] in
/-- The record was synced. -/
theorem TaintDisk.Sound.restart (hw : w.Sound toWriter jobs) (lost : FileName → Bytes) :
    (w.dir.restart lost).files taintName = w.dir.files taintName := by
  cases hdir : w.dir with
  | none => rfl
  | some files =>
    rw [Store.restart, Option.map_some, files_some, files_some]
    cases hf : files taintName with
    | none => rfl
    | some file =>
      obtain ⟨i, record, -, -, rfl⟩ := hw.whole file (by rw [hdir, files_some, hf])
      rfl

theorem CallPc.crashed_tmp (pc : CallPc) : pc.crashed.tmp = none := by cases pc <;> rfl

theorem CallPc.crashed_succeeded (pc : CallPc) : pc.crashed.succeeded = pc.succeeded := by
  cases pc <;> rfl

theorem TaintDisk.Sound.step (h : w.Sound toWriter jobs) (hs : (diskLts toWriter fromSlice jobs).step w a = some w') :
    w'.Sound toWriter jobs := by
  replace hs : diskStep toWriter fromSlice jobs w a = some w' := hs
  cases a with
  | begin i =>
    simp only [diskStep] at hs
    split at hs
    next hpc => exact Option.some.inj hs ▸ h.begin hpc
    next => cases hs
  | step i answer =>
    obtain ⟨⟨dir, pc⟩, hcall, rfl⟩ := Option.map_eq_some_iff.1 hs
    have hc := callStep_cases hcall
    exact h.set dir pc hc.not_succeeded (hc.holding (h.held i)) (fun _ => hc.tmp_own) (fun _ => hc.frame)
      fun _ => (hc.onRecord (h.held i)).whole
  | crash lost =>
    obtain rfl := Option.some.inj hs
    refine ⟨fun i => ?_, fun i j tmp hi => ?_, fun i => ?_, h.once, fun file hf => ?_⟩
    · dsimp only
      cases w.pc i <;> trivial
    · rw [CallPc.crashed_tmp] at hi
      cases hi
    · rw [CallPc.crashed_succeeded]
      exact h.logged i
    · exact h.whole file ((h.restart lost).symm.trans hf)

theorem reach_disk (h : Reach (diskLts toWriter fromSlice jobs) w) : w.Sound toWriter jobs := by
  refine h.inv (fun w hw => ?_) fun _ _ _ hi hs => hi.step hs
  obtain ⟨hfile, hpc, hlog⟩ := hw
  refine ⟨fun i => ?_, fun i j tmp hi => ?_, fun i => ?_, ?_, fun file hf => ?_⟩
  · rw [hpc]
    trivial
  · rw [hpc] at hi
    cases hi
  · rw [hpc, hlog]
    simp [CallPc.succeeded]
  · rw [hlog]
    exact .nil
  · rw [hfile] at hf
    cases hf

/-! ## The calls in the order they take effect -/

/-- A read is refused only where there is a record. -/
def Heard (w : TaintDisk ι) : DiskLabel ι → Prop
  | .step i (.refuses _) => w.pc i = .reading → (w.dir.files taintName).isSome = true
  | _ => True

/-- A record is there exactly when the last call to take effect was a `mark`. -/
def Present (jobs : ι → TaintCall) (w : TaintDisk ι) : Prop :=
  (w.dir.files taintName).isSome = true ↔ ∃ i, w.log.getLast? = some i ∧ (jobs i).IsMark

theorem Present.step (hw : w.Sound toWriter jobs) (h : Present jobs w) (hheard : Heard w a)
    (hs : (diskLts toWriter fromSlice jobs).step w a = some w') : Present jobs w' := by
  replace hs : diskStep toWriter fromSlice jobs w a = some w' := hs
  cases a with
  | begin i =>
    simp only [diskStep] at hs
    split at hs
    next hpc => exact Option.some.inj hs ▸ h
    next => cases hs
  | step i answer =>
    obtain ⟨⟨dir, pc⟩, hcall, rfl⟩ := Option.map_eq_some_iff.1 hs
    unfold Present
    dsimp only
    cases (callStep_cases hcall).onRecord (hw.held i) with
    | still hpc hsame =>
      rw [hpc, hsame]
      exact h
    | kept hpc hsucc hmark hsame hfound =>
      obtain rfl : dir = w.dir := hsame
      have hthere : (w.dir.files taintName).isSome = true := by
        rcases hfound with hthere | ⟨r, rfl⟩
        · exact hthere
        · exact hheard hpc
      rw [hsucc, if_pos rfl, List.getLast?_append, List.getLast?_singleton]
      exact iff_of_true hthere ⟨i, rfl, hmark⟩
    | put tmp record hpc hsucc hjob hput =>
      rw [hsucc, if_pos rfl, List.getLast?_append, List.getLast?_singleton, hput]
      exact iff_of_true rfl ⟨i, rfl, hjob ▸ trivial⟩
    | removed hsucc hjob hnone =>
      rw [hsucc, if_pos rfl, List.getLast?_append, List.getLast?_singleton, hnone]
      refine iff_of_false (by simp) ?_
      rintro ⟨j, hj, hmark⟩
      obtain rfl := Option.some.inj hj
      rw [hjob] at hmark
      exact hmark
  | crash lost =>
    obtain rfl := Option.some.inj hs
    unfold Present
    dsimp only
    rw [hw.restart lost]
    exact h

/-- What the calls that took effect make of the record. -/
structure Linearized (fromSlice : Bytes → Except String TaintRecord) (jobs : ι → TaintCall) (w : TaintDisk ι) :
    Prop where
  once : w.log.Nodup
  succeeded : ∀ i, i ∈ w.log ↔ w.pc i = .returned (.ok ())
  record : ∀ record, Taint.current fromSlice none (w.dir.files taintName) = some record →
    ∃ i ∈ w.log, jobs i = .mark record
  tainted : (Taint.current fromSlice none (w.dir.files taintName)).isSome = true ↔
    ∃ i, w.log.getLast? = some i ∧ (jobs i).IsMark

theorem CallPc.succeeded_iff (pc : CallPc) : pc.succeeded = true ↔ pc = .returned (.ok ()) := by
  cases pc with
  | returned result => cases result <;> simp [CallPc.succeeded]
  | _ => simp [CallPc.succeeded]

theorem log_grows {as : List (DiskLabel ι)} (h : run (diskLts toWriter fromSlice jobs) w as = some w') :
    ∃ more, w'.log = w.log ++ more := by
  induction as generalizing w with
  | nil =>
    obtain rfl := Option.some.inj h
    exact ⟨[], (List.append_nil _).symm⟩
  | cons a as ih =>
    obtain ⟨w₁, hs, h⟩ := Option.bind_eq_some_iff.1 h
    obtain ⟨more, hmore⟩ := ih h
    replace hs : diskStep toWriter fromSlice jobs w a = some w₁ := hs
    have hone : ∃ first, w₁.log = w.log ++ first := by
      cases a with
      | begin i =>
        simp only [diskStep] at hs
        split at hs
        next => exact ⟨[], Option.some.inj hs ▸ (List.append_nil _).symm⟩
        next => cases hs
      | step i answer =>
        obtain ⟨⟨dir, pc⟩, -, rfl⟩ := Option.map_eq_some_iff.1 hs
        dsimp only
        split
        · exact ⟨[i], rfl⟩
        · exact ⟨[], (List.append_nil _).symm⟩
      | crash lost => exact ⟨[], Option.some.inj hs ▸ (List.append_nil _).symm⟩
    obtain ⟨first, hfirst⟩ := hone
    exact ⟨first ++ more, by rw [hmore, hfirst, List.append_assoc]⟩

omit [DecidableEq ι] in
theorem current_whole (hserde : ∀ i record, jobs i = .mark record → fromSlice (toWriter record) = .ok record)
    (hw : w.Sound toWriter jobs) {record : TaintRecord}
    (h : Taint.current fromSlice none (w.dir.files taintName) = some record) :
    w.dir.files taintName = some ⟨toWriter record, true⟩ ∧ ∃ i ∈ w.log, jobs i = .mark record := by
  cases hf : w.dir.files taintName with
  | none =>
    rw [hf] at h
    cases h
  | some file =>
    obtain ⟨i, record', hi, hjob, rfl⟩ := hw.whole file hf
    rw [hf, Taint.current, hserde i record' hjob] at h
    obtain rfl := Option.some.inj h
    exact ⟨rfl, i, hi, hjob⟩

/-- **The store is one record under any calls.** Whatever the calls under way do to each other, and wherever the process
dies: the calls that took effect are those that returned without an error, each once, and a call takes effect after
those that had returned before it was made; the record that is read is one of theirs, unharmed; and there is one exactly
when the last of them was a `mark`. -/
theorem taint_linearizable (hserde : ∀ i record, jobs i = .mark record → fromSlice (toWriter record) = .ok record)
    (h : ReachIf (diskLts toWriter fromSlice jobs) Heard w) :
    Linearized fromSlice jobs w ∧
      ∀ as w', run (diskLts toWriter fromSlice jobs) w as = some w' → ∃ more, w'.log = w.log ++ more := by
  have hw := reach_disk h.reach
  have hpresent : Present jobs w := by
    refine h.inv (I := TaintDisk.Sound toWriter jobs) (fun _ => reach_disk) (fun w hw => ?_)
      fun _ _ _ hi hp hg hs => Present.step hi hp hg hs
    obtain ⟨hfile, -, hlog⟩ := hw
    unfold Present
    rw [hfile, hlog]
    simp
  refine ⟨⟨hw.once, fun i => (hw.logged i).trans (CallPc.succeeded_iff _), fun record hr => ?_, ?_⟩,
    fun as w' => log_grows⟩
  · exact (current_whole hserde hw hr).2
  · rw [Taint.current_isSome]
    exact hpresent

theorem Ctx.mark_first (ctx : Ctx) (record : TaintRecord) :
    (ctx.mark record none).taint = ctx.taint.or (some record) := by
  unfold Ctx.mark
  cases ht : ctx.taint <;> simp [ht]

/-! ## Without overlap -/

/-- The call has read that there is no record, and may still put its own there. -/
def CallPc.past : CallPc → Bool
  | .creating | .opening | .writing _ | .syncing _ | .persisting _ => true
  | _ => false

def CallPc.underWay : CallPc → Bool
  | .idle | .returned _ | .dead => false
  | _ => true

/-- No `mark` is begun while another is under way. -/
def Apart (jobs : ι → TaintCall) (w : TaintDisk ι) : DiskLabel ι → Prop
  | .begin i => (jobs i).IsMark → ∀ j, (jobs j).IsMark → (w.pc j).underWay = false
  | _ => True

/-- One `mark` at a time, and the record is what the supervisor's model makes of the calls. -/
structure OneByOne (toWriter : TaintRecord → Bytes) (jobs : ι → TaintCall) (ctx : Ctx) (w : TaintDisk ι) : Prop where
  single : ∀ i j, (jobs i).IsMark → (jobs j).IsMark → (w.pc i).underWay = true → (w.pc j).underWay = true → i = j
  fresh : ∀ i, (w.pc i).past = true → w.dir.files taintName = none
  agrees : w.dir.files taintName =
    ((w.log.map jobs).foldl TaintCall.onCtx ctx).taint.map fun record => ⟨toWriter record, true⟩

theorem CallPc.past_underWay {pc : CallPc} (h : pc.past = true) : pc.underWay = true := by
  cases pc <;> first | rfl | cases h

theorem Holding.past {files : FileName → Option File} {call : TaintCall} {pc : CallPc}
    (h : Holding toWriter call files pc) (hp : pc.past = true) : call.IsMark := by
  cases pc with
  | creating | opening => exact h
  | writing | syncing | persisting => exact h.1
  | _ => cases hp

theorem CallStep.underWay {call : TaintCall} {dir dir' : Store} {pc pc' : CallPc} {answer : HostAnswer}
    (h : CallStep toWriter call dir pc answer dir' pc') (hp : pc'.underWay = true) : pc.underWay = true := by
  cases h with
  | gaveUp hpc => obtain rfl | rfl := hpc <;> rfl
  | refused => cases hp
  | _ => rfl

/-- Past its check only after the check, or still so. -/
theorem CallStep.past {call : TaintCall} {dir dir' : Store} {pc pc' : CallPc} {answer : HostAnswer}
    (h : CallStep toWriter call dir pc answer dir' pc') (hp : pc'.past = true) :
    pc.past = true ∨ dir.files taintName = none := by
  cases h with
  | absent hnone => exact .inr hnone
  | refused | gaveUp => cases hp
  | _ => first | exact .inl rfl | cases hp

omit [DecidableEq ι] in
theorem foldl_log (i : ι) (ctx : Ctx) :
    ((w.log ++ [i]).map jobs).foldl TaintCall.onCtx ctx =
      TaintCall.onCtx ((w.log.map jobs).foldl TaintCall.onCtx ctx) (jobs i) := by
  rw [List.map_append, List.foldl_append]
  rfl

theorem OneByOne.step {ctx : Ctx} (hw : w.Sound toWriter jobs) (h : OneByOne toWriter jobs ctx w)
    (hg : Heard w a ∧ Apart jobs w a) (hs : (diskLts toWriter fromSlice jobs).step w a = some w') :
    OneByOne toWriter jobs ctx w' := by
  replace hs : diskStep toWriter fromSlice jobs w a = some w' := hs
  cases a with
  | begin i =>
    simp only [diskStep] at hs
    split at hs
    next hpc =>
      obtain rfl := Option.some.inj hs
      have hother : ∀ j, j ≠ i → Function.update w.pc i (jobs i).begin j = w.pc j := fun j hj =>
        Function.update_of_ne hj _ _
      refine ⟨fun j k hj hk hju hku => ?_, fun j hj => ?_, h.agrees⟩
      · dsimp only at hju hku
        by_cases hji : j = i
        · by_cases hki : k = i
          · exact hji.trans hki.symm
          · rw [hother k hki, hg.2 (hji ▸ hj) k hk] at hku
            cases hku
        · rw [hother j hji] at hju
          by_cases hki : k = i
          · rw [hg.2 (hki ▸ hk) j hj] at hju
            cases hju
          · rw [hother k hki] at hku
            exact h.single j k hj hk hju hku
      · dsimp only at hj
        by_cases hji : j = i
        · rw [hji, Function.update_self] at hj
          cases hjob : jobs i <;> rw [hjob] at hj <;> cases hj
        · rw [hother j hji] at hj
          exact h.fresh j hj
    next => cases hs
  | step i answer =>
    obtain ⟨⟨dir, pc⟩, hcall, rfl⟩ := Option.map_eq_some_iff.1 hs
    have hc := callStep_cases hcall
    have hother : ∀ j, j ≠ i → Function.update w.pc i pc j = w.pc j := fun j hj => Function.update_of_ne hj _ _
    have hunder : ∀ j, (Function.update w.pc i pc j).underWay = true → (w.pc j).underWay = true := fun j hj => by
      by_cases hji : j = i
      · rw [hji, Function.update_self] at hj
        exact hji ▸ hc.underWay hj
      · rwa [hother j hji] at hj
    have hpast : ∀ j, (Function.update w.pc i pc j).past = true → w.dir.files taintName = none := fun j hj => by
      by_cases hji : j = i
      · rw [hji, Function.update_self] at hj
        exact (hc.past hj).elim (h.fresh i) id
      · rw [hother j hji] at hj
        exact h.fresh j hj
    refine ⟨fun j k hj hk hju hku => h.single j k hj hk (hunder j hju) (hunder k hku), fun j hj => ?_, ?_⟩
    · dsimp only at hj ⊢
      cases hc.onRecord (hw.held i) with
      | still _ hsame => exact hsame.trans (hpast j hj)
      | kept _ _ _ hsame => exact hsame ▸ hpast j hj
      | put tmp record hpc hsucc hjob =>
        -- whoever is past its check is the call that has just returned
        have hji : j ≠ i := by
          rintro rfl
          rw [Function.update_self] at hj
          cases pc with
          | returned => cases hj
          | _ => cases hsucc
        rw [hother j hji] at hj
        refine absurd (h.single j i ((hw.held j).past hj) (hjob ▸ trivial) (CallPc.past_underWay hj) ?_) hji
        rw [hpc]
        rfl
      | removed _ _ hnone => exact hnone
    · dsimp only
      cases hc.onRecord (hw.held i) with
      | still hsucc hsame =>
        rw [hsucc, hsame]
        exact h.agrees
      | kept hpc hsucc hmark hsame hfound =>
        obtain rfl : dir = w.dir := hsame
        have hthere : (w.dir.files taintName).isSome = true := by
          rcases hfound with hthere | ⟨r, rfl⟩
          · exact hthere
          · exact hg.1 hpc
        obtain ⟨record, hjob⟩ := hmark.eq
        rw [hsucc, if_pos rfl, foldl_log, hjob, h.agrees]
        rw [h.agrees, Option.isSome_map] at hthere
        obtain ⟨first, hfirst⟩ := Option.isSome_iff_exists.1 hthere
        simp only [TaintCall.onCtx, Ctx.mark_first, hfirst, Option.some_or]
      | put tmp record hpc hsucc hjob hput =>
        have hnone := h.agrees.symm.trans (h.fresh i (by rw [hpc]; rfl))
        rw [Option.map_eq_none_iff] at hnone
        rw [hsucc, if_pos rfl, foldl_log, hjob, hput]
        simp only [TaintCall.onCtx, Ctx.mark_first, hnone, Option.none_or, Option.map_some]
      | removed hsucc hjob hnone =>
        rw [hsucc, if_pos rfl, foldl_log, hjob, hnone]
        rfl
  | crash lost =>
    obtain rfl := Option.some.inj hs
    have hcrashed : ∀ j, (w.pc j).crashed.underWay = false := fun j => by cases w.pc j <;> rfl
    refine ⟨fun j k hj hk hju => ?_, fun j hj => ?_, ?_⟩
    · rw [hcrashed] at hju
      cases hju
    · exact absurd ((hcrashed j).symm.trans (CallPc.past_underWay hj)) Bool.false_ne_true
    · exact (hw.restart lost).trans h.agrees

/-- A record is there from the start, or one of the calls brought it. -/
theorem onCtx_taint {ctx : Ctx} (calls : List TaintCall) {record : TaintRecord}
    (h : (calls.foldl TaintCall.onCtx ctx).taint = some record) : ctx.taint = some record ∨ .mark record ∈ calls := by
  induction calls generalizing ctx with
  | nil => exact .inl h
  | cons call calls ih =>
    rcases ih h with hfirst | hmem
    · cases call with
      | clear => cases hfirst
      | mark record' =>
        simp only [TaintCall.onCtx, Ctx.mark_first] at hfirst
        rcases Option.or_eq_some_iff.1 hfirst with hstart | ⟨-, hmark⟩
        · exact .inl hstart
        · exact .inr (Option.some.inj hmark ▸ List.mem_cons_self)
    · exact .inr (List.mem_cons_of_mem _ hmem)

/-- **The first record is kept where no two marks overlap.** Then what is read is what the supervisor's model makes of
the calls in the order they took effect, whatever a `clear` or a crash comes in between. -/
theorem taint_first_kept (hserde : ∀ i record, jobs i = .mark record → fromSlice (toWriter record) = .ok record)
    {ctx : Ctx} (hctx : ctx.taint = none)
    (h : ReachIf (diskLts toWriter fromSlice jobs) (fun w a => Heard w a ∧ Apart jobs w a) w) :
    Taint.current fromSlice none (w.dir.files taintName) =
      ((w.log.map jobs).foldl TaintCall.onCtx ctx).taint := by
  have hw := reach_disk h.reach
  have hone : OneByOne toWriter jobs ctx w := by
    refine h.inv (I := TaintDisk.Sound toWriter jobs) (fun _ => reach_disk) (fun w hw => ?_)
      fun _ _ _ hi hp hg hs => OneByOne.step hi hp hg hs
    obtain ⟨hfile, hpc, hlog⟩ := hw
    refine ⟨fun i j _ _ hi => ?_, fun i hi => ?_, ?_⟩
    · rw [hpc] at hi
      cases hi
    · rw [hpc] at hi
      cases hi
    · rw [hfile, hlog]
      simp [hctx]
  have hagrees := hone.agrees
  cases ht : ((w.log.map jobs).foldl TaintCall.onCtx ctx).taint with
  | none =>
    rw [ht] at hagrees
    rw [hagrees]
    rfl
  | some record =>
    rw [ht, Option.map_some] at hagrees
    rcases onCtx_taint _ ht with hstart | hmem
    · rw [hctx] at hstart
      cases hstart
    · obtain ⟨i, -, hjob⟩ := List.mem_map.1 hmem
      rw [hagrees]
      simp only [Taint.current, hserde i record hjob]

end

/-! ## Two marks and a clear -/

def firstTaint : TaintRecord := ⟨"cleanup failed twice", 1700000000000, "exp-1:web-01"⟩

def secondTaint : TaintRecord := ⟨"unexpected exit code 7", 1700000000003, "exp-1:web-02"⟩

def twoMarks : Fin 3 → TaintCall
  | 0 => .mark firstTaint
  | 1 => .mark secondTaint
  | 2 => .clear

/-- `serde_json` on a record whose texts need no escapes. -/
def taintBytes (record : TaintRecord) : Bytes :=
  ("\x7b\"reason\":\"" ++ record.reason ++ "\",\"ts_unix_ms\":" ++ toString record.tsUnixMs ++
    ",\"instance_id\":\"" ++ record.instanceId ++ "\"\x7d").toList.map fun c => c.toNat.toUInt8

def taintContent (bytes : Bytes) : Except String TaintRecord :=
  if bytes = taintBytes firstTaint then .ok firstTaint
  else if bytes = taintBytes secondTaint then .ok secondTaint
  else .error "EOF while parsing a value at line 1 column 0"

theorem taintContent_bytes (i : Fin 3) (record : TaintRecord) (h : twoMarks i = .mark record) :
    taintContent (taintBytes record) = .ok record := by
  match i, h with
  | 0, h =>
    obtain rfl := TaintCall.mark.inj h
    exact if_pos rfl
  | 1, h =>
    obtain rfl := TaintCall.mark.inj h
    exact (if_neg (by decide +kernel)).trans (if_pos rfl)
  | 2, h => cases h

abbrev twoMarksLts : Lts.System (TaintDisk (Fin 3)) (DiskLabel (Fin 3)) :=
  diskLts taintBytes taintContent twoMarks

def emptyDisk : TaintDisk (Fin 3) := ⟨none, fun _ => .idle, []⟩

/-- From a read that finds nothing to the rename. -/
def putsRecord (i : Fin 3) (tmp : TempSuffix) : List (DiskLabel (Fin 3)) :=
  ([.runs, .named tmp, .runs, .runs, .runs] : List HostAnswer).map (.step i)

/-- Guards of a run in which no read is refused. -/
def plainGuard (jobs : Fin 3 → TaintCall) (w : TaintDisk (Fin 3)) : DiskLabel (Fin 3) → Bool
  | .step _ (.refuses _) => false
  | .begin i =>
    match jobs i with
    | .mark _ => !(w.pc 0).underWay && !(w.pc 1).underWay
    | .clear => true
  | _ => true

theorem plainGuard_sound (w : TaintDisk (Fin 3)) (a : DiskLabel (Fin 3)) (h : plainGuard twoMarks w a = true) :
    Heard w a ∧ Apart twoMarks w a := by
  cases a with
  | crash => exact ⟨trivial, trivial⟩
  | step i answer =>
    cases answer with
    | refuses => cases h
    | _ => exact ⟨trivial, trivial⟩
  | begin i =>
    refine ⟨trivial, fun hi j hj => ?_⟩
    have hboth : (w.pc 0).underWay = false ∧ (w.pc 1).underWay = false := by
      match i, hi with
      | 0, _ | 1, _ => simpa [plainGuard, twoMarks] using h
      | 2, hi => exact hi.elim
    match j, hj with
    | 0, _ => exact hboth.1
    | 1, _ => exact hboth.2
    | 2, hj => exact hj.elim

/-- A mark, a second one that finds its record, and a crash. -/
def markedTwice : List (DiskLabel (Fin 3)) :=
  [.begin 0, .step 0 .runs] ++ putsRecord 0 firstSuffix ++ [.begin 1, .step 1 .runs, .crash fun _ => []]

theorem markedTwice_reach :
    ∃ w, ReachIf twoMarksLts (fun w a => Heard w a ∧ Apart twoMarks w a) w ∧ w.log = [0, 1] := by
  obtain ⟨w, hreach, hw⟩ := reachIf_of_run (L := twoMarksLts) plainGuard_sound (fun w => decide (w.log = [0, 1]))
    (s := emptyDisk) ⟨rfl, rfl, rfl⟩ markedTwice (by decide +kernel)
  exact ⟨w, hreach, of_decide_eq_true hw⟩

theorem taint_linearizable_sample : ∃ w, ReachIf twoMarksLts Heard w ∧ w.log = [0, 1] ∧
    Linearized taintContent twoMarks w := by
  obtain ⟨w, hreach, hlog⟩ := markedTwice_reach
  have hheard := hreach.mono fun _ _ hg => hg.1
  exact ⟨w, hheard, hlog, (taint_linearizable taintContent_bytes hheard).1⟩

theorem taint_first_kept_sample : ∃ w : TaintDisk (Fin 3), w.log = [0, 1] ∧
    Taint.current taintContent none (w.dir.files taintName) = some firstTaint := by
  obtain ⟨w, hreach, hlog⟩ := markedTwice_reach
  have hkept := taint_first_kept taintContent_bytes (show sampleCtx.taint = none from rfl) hreach
  rw [hlog] at hkept
  exact ⟨w, hlog, hkept⟩

/-- Both marks read that there is no record. -/
def overlapping : List (DiskLabel (Fin 3)) :=
  [.begin 0, .step 0 .runs, .begin 1, .step 1 .runs] ++ putsRecord 0 firstSuffix ++ putsRecord 1 secondSuffix

/-- Of two marks that overlap the second one puts its record over the first one's. -/
theorem first_taint_overwritten : ∃ w, ReachIf twoMarksLts Heard w ∧ w.log = [0, 1] ∧
    Taint.current taintContent none (w.dir.files taintName) = some secondTaint := by
  obtain ⟨w, hreach, hw⟩ := reachIf_of_run (L := twoMarksLts) (G := Heard)
    (g := fun _ a => match a with | .step _ (.refuses _) => false | _ => true)
    (fun w a ha => by
      cases a with
      | step i answer => cases answer <;> trivial
      | _ => trivial)
    (fun w => decide (w.log = [0, 1] ∧ (w.dir.files taintName).map File.content = some (taintBytes secondTaint)))
    (s := emptyDisk) ⟨rfl, rfl, rfl⟩ overlapping (by decide +kernel)
  obtain ⟨hlog, hfile⟩ := of_decide_eq_true hw
  obtain ⟨file, hf, hcontent⟩ := Option.map_eq_some_iff.1 hfile
  refine ⟨w, hreach, hlog, ?_⟩
  rw [hf, Taint.current, hcontent, taintContent_bytes 1 secondTaint rfl]

/-- A refused read where there is no record: `mark` returns without an error, and there is still none. -/
theorem mark_forgotten_unread : ∃ w, Reach twoMarksLts w ∧ w.pc 0 = .returned (.ok ()) ∧
    Taint.current taintContent none (w.dir.files taintName) = none := by
  obtain ⟨w, hreach, hw⟩ := reach_of_run (L := twoMarksLts)
    (fun w => (w.pc 0).succeeded && (w.dir.files taintName).isNone) (s := emptyDisk) ⟨rfl, rfl, rfl⟩
    [.begin 0, .step 0 (.refuses ⟨.os .other, by decide⟩)] (by decide +kernel)
  obtain ⟨hpc, hnone⟩ := Bool.and_eq_true_iff.1 hw
  refine ⟨w, hreach, (CallPc.succeeded_iff _).1 hpc, ?_⟩
  rw [Option.isNone_iff_eq_none.1 hnone]
  rfl

end FaultForge.Agent
