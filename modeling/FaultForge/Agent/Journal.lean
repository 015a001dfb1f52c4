import FaultForge.Agent.TaskShape
import FaultForge.Agent.Replay

/-!
# The journal directory and its replay (journal.rs:124-190, supervisor.rs:702-825)

`Journal::list` reads every file by itself, and `replay_journal` recovers what it can read and quarantines the host for
what it cannot. Where a file ends up is decided file by file, except in two branches: a directory that cannot be listed
and a directory entry that errors give up the whole listing, and `replay_journal` then returns without a mark.
`fails_closed_iff` says that these are the only two.

| here | there |
| --- | --- |
| `Content`, `readEntry` | `read_entry` journal.rs:158, over `fs::read` and `serde_json` |
| `JournalDir`, `JournalDir.list` | `Journal::list` journal.rs:135, over `fs::read_dir` |
| `JournalDir.replay` | `replay_journal` supervisor.rs:702 |
-/
namespace FaultForge.Agent

/-! ## The directory -/

/-- What is behind a path. -/
inductive Content
  | unreadable (source : String)
  | notJson (source : String)
  /-- `version` is the field when it is an unsigned 32-bit number, `decoded` what the value is as an entry. -/
  | json (version : Option Nat) (decoded : Except String JournalEntry)

def corrupt (path source : String) : String := s!"corrupt journal entry {path}: {source}"

/-- The version is checked before the shape is trusted. -/
def readEntry (path : String) : Content → Except String JournalEntry
  | .unreadable source => .error s!"could not read journal entry {path}: {source}"
  | .notJson source => .error (corrupt path source)
  | .json version decoded =>
    if version = some JOURNAL_VERSION then
      match decoded with
      | .ok entry => .ok entry
      | .error source => .error (corrupt path source)
    else .error s!"journal entry {path} has unknown version {version.getD 0}"

structure JournalFile where
  path : String
  /-- The file stem, when the extension is `json`. -/
  stem : Option String
  content : Content
  /-- The directory entry itself errors. -/
  error : Option String
  /-- What can be read was written by `Journal::write`, under its own id. -/
  named : ∀ id entry, stem = some id → readEntry path content = .ok entry → entry.instanceId = id

def JournalFile.read (file : JournalFile) : Except String JournalEntry := readEntry file.path file.content

inductive JournalDir
  | missing
  | unlistable (source : String) (files : List JournalFile)
  | listed (files : List JournalFile)

def JournalDir.files : JournalDir → List JournalFile
  | .missing => []
  | .unlistable _ files => files
  | .listed files => files

/-- The loop of `Journal::list`; `dirent?` comes before the extension is looked at. -/
def listFiles : List JournalFile → Except String (List (Except String JournalEntry))
  | [] => .ok []
  | file :: rest =>
    match file.error with
    | some source => .error source
    | none =>
      match file.stem with
      | none => listFiles rest
      | some _ => (listFiles rest).map (file.read :: ·)

def sortKey : Except String JournalEntry → String
  | .ok entry => entry.instanceId
  | .error e => e

def JournalDir.list : JournalDir → Except String (List (Except String JournalEntry))
  | .missing => .ok []
  | .unlistable source _ => .error source
  | .listed files => (listFiles files).map fun entries => entries.mergeSort fun x y => decide (sortKey x ≤ sortKey y)

/-- The entries in the directory, by file stem. -/
def JournalDir.journal (dir : JournalDir) : AList fun _ : String => JournalEntry :=
  dir.files.foldr (fun file journal =>
    match file.stem, file.read with
    | some id, .ok entry => journal.insert id entry
    | _, _ => journal) ∅

/-! ## The replay, watched -/

section
variable (X : Ext) (timeoutSecs : UInt64)

/-- The events that the loop of an entry feeds to the machine. -/
def replayEvents (entry : JournalEntry) (env : Nat → Answer) : Nat → Replay → List Event
  | 0, _ => []
  | fuel + 1, r =>
    (if r.effects = [] then r.queue.take 1 else []) ++
      match replayTurn X timeoutSecs entry (env fuel) r with
      | none => []
      | some r => replayEvents entry env fuel r

/-- Where `replayEntry` starts. -/
def Replay.start (entry : JournalEntry) (now : Int) (result : Replayed) : Replay :=
  let (state, effects) := State.replayRecovery (replayOutcome now entry) "recovered after agent restart"
  { state, queue := [], effects, result }

/-- The entry's `cleanup` succeeded. -/
def CleanedUp (entry : JournalEntry) (now : Int) (env : Nat → Answer) (result : Replayed) : Prop :=
  .commandFinished .cleanup .success ∈
    replayEvents X timeoutSecs entry env REPLAY_TURNS (.start entry now result)

/-- The entries of a listing whose `cleanup` succeeded, in the run of `replayEntries`. -/
def CleanedIn (now : Int) (id : String) :
    List (Except String JournalEntry) → (Nat → Nat → Answer) → Replayed → Prop
  | [], _, _ => False
  | .ok entry :: rest, env, r =>
    (entry.instanceId = id ∧ CleanedUp X timeoutSecs entry now (env 0) r) ∨
      CleanedIn now id rest (fun i => env (i + 1)) (replayEntry X timeoutSecs entry now (env 0) r).result
  | .error e :: rest, env, r =>
    let record : TaintRecord := ⟨s!"unreadable journal entry at startup: {e}", now, ""⟩
    let r := r.mark record (env 0 0).error
    CleanedIn now id rest (fun i => env (i + 1))
      { r with frames := r.frames ++ [taintStatusFrame (r.taint.or (some record)) now] }

def JournalDir.replay (dir : JournalDir) (now : Int) (env : Nat → Nat → Answer) (taint : Option TaintRecord) :
    Replayed :=
  replayJournal X timeoutSecs now dir.list env dir.journal taint

def JournalDir.Cleaned (dir : JournalDir) (now : Int) (env : Nat → Nat → Answer) (taint : Option TaintRecord)
    (id : String) : Prop :=
  match dir.list with
  | .error _ => False
  | .ok entries => CleanedIn X timeoutSecs now id entries env ⟨dir.journal, taint, [], []⟩

/-- Every journal file is recovered or leaves a taint record, and no file keeps a readable one from its recovery. -/
structure JournalDir.FailsClosed (dir : JournalDir) (now : Int) (env : Nat → Nat → Answer)
    (taint : Option TaintRecord) : Prop where
  closed : ∀ file ∈ dir.files, ∀ id, file.stem = some id →
    (dir.Cleaned X timeoutSecs now env taint id ∧ (dir.replay X timeoutSecs now env taint).journal.lookup id = none) ∨
      (dir.replay X timeoutSecs now env taint).taint.isSome
  tried : ∀ file ∈ dir.files, ∀ id entry, file.stem = some id → file.read = .ok entry →
    (id, .abort) ∈ (dir.replay X timeoutSecs now env taint).invoked

end

/-- The directory is missing, or it can be listed and none of its entries errors. -/
def JournalDir.Listable : JournalDir → Prop
  | .missing => True
  | .unlistable .. => False
  | .listed files => ∀ file ∈ files, file.error = none

/-! ## What replay never undoes -/

structure Replayed.Grows (r r' : Replayed) : Prop where
  taint : r.taint.isSome → r'.taint.isSome
  gone : ∀ id, r.journal.lookup id = none → r'.journal.lookup id = none
  invoked : ∀ c ∈ r.invoked, c ∈ r'.invoked

theorem Replayed.Grows.refl (r : Replayed) : r.Grows r := ⟨id, fun _ => id, fun _ => id⟩

theorem Replayed.Grows.trans {r r' r'' : Replayed} (h : r.Grows r') (h' : r'.Grows r'') : r.Grows r'' :=
  ⟨fun ht => h'.taint (h.taint ht), fun id hg => h'.gone id (h.gone id hg), fun c hc => h'.invoked c (h.invoked c hc)⟩

theorem Replayed.mark_grows (r : Replayed) (record : TaintRecord) (error : Option String) :
    r.Grows (r.mark record error) := by
  unfold Replayed.mark
  cases ht : r.taint with
  | some t => exact .refl r
  | none =>
    cases error with
    | some e => exact .refl r
    | none => exact ⟨fun h => (by simp [ht] at h), fun _ => id, fun _ => id⟩

theorem Replayed.mark_ok (r : Replayed) (record : TaintRecord) : (r.mark record none).taint.isSome := by
  unfold Replayed.mark
  split
  next => rfl
  next h => exact Option.isSome_iff_ne_none.2 fun hn => h hn rfl

section
variable {X : Ext} {timeoutSecs : UInt64} {entry : JournalEntry}

theorem replayEffect_grows (X : Ext) (timeoutSecs : UInt64) (entry : JournalEntry) (answer : Answer) (r : Replay)
    (effect : Effect) :
    r.result.Grows (replayEffect X timeoutSecs entry answer r effect).result := by
  cases effect with
  | emitStatus => exact ⟨id, fun _ => id, fun _ => id⟩
  | invoke => exact ⟨id, fun _ => id, fun c hc => List.mem_cons_of_mem _ hc⟩
  | writeJournal => exact .refl _
  | markTainted reason =>
    obtain ⟨ht, hg, hi⟩ := r.result.mark_grows ⟨reason, answer.now, entry.instanceId⟩ answer.error
    exact ⟨ht, hg, hi⟩
  | removeJournal =>
    simp only [replayEffect]
    split
    next =>
      refine ⟨id, fun id hg => ?_, fun _ => id⟩
      by_cases hid : id = entry.instanceId
      · rw [hid, AList.lookup_erase]
      · rw [AList.lookup_erase_ne hid]
        exact hg
    next => exact .refl _

theorem replayTurn_grows {answer : Answer} {r r' : Replay} (h : replayTurn X timeoutSecs entry answer r = some r') :
    r.result.Grows r'.result := by
  unfold replayTurn at h
  split at h
  next effect rest heff =>
    obtain rfl := Option.some.inj h
    exact replayEffect_grows X timeoutSecs entry answer { r with effects := rest } effect
  next =>
    split at h
    next => cases h
    next =>
      obtain rfl := Option.some.inj h
      exact .refl _

theorem replayLoop_grows {env : Nat → Answer} {fuel : Nat} {r : Replay} :
    r.result.Grows (replayLoop X timeoutSecs entry env fuel r).result := by
  induction fuel generalizing r with
  | zero => exact .refl _
  | succ fuel ih =>
    simp only [replayLoop]
    cases h : replayTurn X timeoutSecs entry (env fuel) r with
    | none => exact .refl _
    | some r' => exact (replayTurn_grows h).trans ih

theorem replayEntries_grows {now : Int} {entries : List (Except String JournalEntry)} {env : Nat → Nat → Answer}
    {r : Replayed} : r.Grows (replayEntries X timeoutSecs now entries env r) := by
  induction entries generalizing env r with
  | nil => exact .refl _
  | cons item rest ih =>
    cases item with
    | ok entry =>
      have hloop : r.Grows (replayEntry X timeoutSecs entry now (env 0) r).result :=
        replayLoop_grows (r := .start entry now r)
      exact hloop.trans ih
    | error e =>
      obtain ⟨ht, hg, hi⟩ := r.mark_grows ⟨s!"unreadable journal entry at startup: {e}", now, ""⟩ (env 0 0).error
      simp only [replayEntries]
      exact ⟨fun h => ih.taint (ht h), fun id h => ih.gone id (hg id h), fun c h => ih.invoked c (hi c h)⟩

/-! ## One entry -/

/-- What holds before every turn of an entry whose file operations succeed. `done` says that its `cleanup` succeeded. -/
structure Replay.Closing (id : String) (done : Prop) (r : Replay) : Prop where
  replaying : r.state.Replaying
  waits : (r.queue = [] ∧ AsksLast r.effects r.state.awaits) ∨
    (r.effects = [] ∧ ∃ event, r.queue = [event] ∧ event.answers = r.state.awaits ∧ r.state.awaits ≠ none)
  ends : r.state.isTerminal → (done ∧ (.removeJournal ∈ r.effects ∨ r.result.journal.lookup id = none)) ∨
    (∃ reason, .markTainted reason ∈ r.effects) ∨ r.result.taint.isSome
  tried : (∃ phase, .invoke .abort phase ∈ r.effects) ∨ (id, .abort) ∈ r.result.invoked

theorem Replay.start_closing (entry : JournalEntry) (now : Int) (result : Replayed) :
    (Replay.start entry now result).Closing entry.instanceId False where
  replaying := .inl ⟨rfl, rfl⟩
  waits := .inl ⟨rfl, .inl ⟨rfl, .inr ⟨rfl, by simp [State.replayRecovery, Replay.start, State.awaits], rfl⟩⟩⟩
  ends := fun h => by cases h
  tried := .inl ⟨.runtime, List.mem_cons_of_mem _ List.mem_cons_self⟩

theorem replayInvoke_answers (X : Ext) (timeoutSecs : UInt64) (entry : JournalEntry) (command : PluginCommand)
    (answer : Answer) :
    (replayInvoke X timeoutSecs entry command answer).1.answers = some (.command command) := by
  unfold replayInvoke
  split
  · rfl
  · exact invocationEvent_answers _ _ _ _

/-- An effect other than an invocation leaves the queue alone. -/
theorem replayEffect_queue (answer : Answer) (r : Replay) {effect : Effect} (h : effect.asks = none) :
    (replayEffect X timeoutSecs entry answer r effect).queue = r.queue := by
  cases effect with
  | invoke => cases h
  | emitStatus | markTainted | writeJournal => rfl
  | removeJournal =>
    simp only [replayEffect]
    split <;> rfl

/-- A replay never waits for the journal. -/
theorem State.Replaying.not_journal {s : State} (hs : s.Replaying) (h : s.awaits = some .journal) : False := by
  cases s with
  | recovering | done | aborted | error => cases h
  | _ => cases hs

/-- The turn that performs an effect. -/
theorem Replay.Closing.effect {answer : Answer} {r : Replay} {effect : Effect} {rest : List Effect} {done : Prop}
    (hr : r.Closing entry.instanceId done) (hio : answer.error = none) (heff : r.effects = effect :: rest) :
    (replayEffect X timeoutSecs entry answer { r with effects := rest } effect).Closing entry.instanceId done := by
  have hgrows := replayEffect_grows X timeoutSecs entry answer { r with effects := rest } effect
  obtain ⟨hstate, heffects, -, -⟩ :=
    replayEffect_cases X timeoutSecs entry answer { r with effects := rest } effect rfl
  obtain ⟨hq, hasks⟩ : r.queue = [] ∧ AsksLast (effect :: rest) r.state.awaits := by
    rcases hr.waits with ⟨hq, hasks⟩ | ⟨hnil, -⟩
    · exact ⟨hq, heff ▸ hasks⟩
    · rw [heff] at hnil
      cases hnil
  constructor
  case replaying =>
    rw [hstate]
    exact hr.replaying
  case waits =>
    rw [hstate, heffects]
    cases ha : effect.asks with
    | none => exact .inl ⟨(replayEffect_queue answer _ ha).trans hq, hasks.tail ha⟩
    | some a =>
      obtain ⟨hawaits, rfl⟩ := hasks.head ha
      cases effect with
      | invoke command phase =>
        have hans := replayInvoke_answers X timeoutSecs entry command answer
        refine .inr ⟨rfl, (replayInvoke X timeoutSecs entry command answer).1, ?_, ?_, ?_⟩
        · simp only [replayEffect, hq, List.nil_append]
        · rw [hans, hawaits, ← ha]
          rfl
        · rw [hawaits]
          simp
      | writeJournal => exact absurd (hr.replaying.not_journal (hawaits.trans ha.symm)) id
      | _ => cases ha
  case ends =>
    intro hterm
    rw [hstate] at hterm
    rw [heffects]
    rcases hr.ends hterm with ⟨hdone, hrem | hgone⟩ | ⟨reason, hmark⟩ | htaint
    · rw [heff] at hrem
      rcases List.mem_cons.1 hrem with rfl | hrem
      · refine .inl ⟨hdone, .inr ?_⟩
        simp only [replayEffect, hio, AList.lookup_erase]
      · exact .inl ⟨hdone, .inl hrem⟩
    · exact .inl ⟨hdone, .inr (hgrows.gone _ hgone)⟩
    · rw [heff] at hmark
      rcases List.mem_cons.1 hmark with rfl | hmark
      · refine .inr (.inr ?_)
        simp only [replayEffect, hio]
        exact Replayed.mark_ok _ _
      · exact .inr (.inl ⟨reason, hmark⟩)
    · exact .inr (.inr (hgrows.taint htaint))
  case tried =>
    rw [heffects]
    rcases hr.tried with ⟨phase, hm⟩ | hm
    · rw [heff] at hm
      rcases List.mem_cons.1 hm with rfl | hm
      · exact .inr List.mem_cons_self
      · exact .inl ⟨phase, hm⟩
    · exact .inr (hgrows.invoked _ hm)

/-- A recovery ends with its last command, and the entry is removed, or with a mark. -/
theorem Trans.recovery_ends {s s' : State} {e : Event} {effects : List Effect} (h : Trans s e s' effects)
    {rec : Recovery} (hs : s = .recovering rec) (hterm : s'.isTerminal) :
    (rec.remaining = [] ∧ e = .commandFinished rec.current .success ∧ .removeJournal ∈ effects) ∨
      ∃ reason, .markTainted reason ∈ effects := by
  cases h with
  | recovered r hrem =>
    obtain rfl := State.recovering.inj hs
    exact .inl ⟨hrem, rfl, List.mem_cons_self⟩
  | recoveryFailed r reason => exact .inr ⟨reason, List.mem_cons_self⟩
  | absorbed _ ht => simp [hs, State.isTerminal] at ht
  | stopRecovery | recoveryNext | recoveryRetry => cases hterm
  | stopPreflight which | preflightStopped which | preflightFailed which =>
    cases which <;> simp [rebuildPreflight] at hs
  | _ => cases hs

/-- The turn that feeds an event to the machine. -/
theorem Replay.Closing.event {r : Replay} {event : Event} {queue : List Event} {done : Prop} {id : String}
    (hr : r.Closing id done) (heff : r.effects = []) (hq : r.queue = event :: queue) :
    ({ r with state := (step r.state event).1, queue, effects := (step r.state event).2 } : Replay).Closing id
      (done ∨ event = .commandFinished .cleanup .success) := by
  obtain ⟨rfl, hans, hne⟩ : queue = [] ∧ event.answers = r.state.awaits ∧ r.state.awaits ≠ none := by
    rcases hr.waits with ⟨hnil, -⟩ | ⟨-, e, he, hans, hne⟩
    · rw [hq] at hnil
      cases hnil
    · rw [hq] at he
      obtain ⟨rfl, rfl⟩ := List.cons.inj he
      exact ⟨rfl, hans, hne⟩
  have htrans := step_trans r.state event (.inr (.inl hans))
  obtain ⟨hrep, -, -⟩ := hr.replaying.step event
  have hinvoked : (id, .abort) ∈ r.result.invoked := by
    rcases hr.tried with ⟨phase, hm⟩ | hm
    · rw [heff] at hm
      cases hm
    · exact hm
  refine ⟨hrep, .inl ⟨rfl, htrans.asksLast (.inl (hans ▸ hne))⟩, fun hterm => ?_, .inr hinvoked⟩
  simp only at hterm
  obtain ⟨rec, hrec⟩ : ∃ rec, r.state = .recovering rec := by
    cases hs : r.state with
    | recovering rec => exact ⟨rec, rfl⟩
    | done | aborted | error => rw [hs] at hne; exact absurd rfl hne
    | _ =>
      have hrepl := hr.replaying
      rw [hs] at hrepl
      cases hrepl
  have hshape : rec.Shape := by
    have hrepl := hr.replaying
    rwa [hrec] at hrepl
  rcases htrans.recovery_ends hrec hterm with ⟨hrem, rfl, hm⟩ | ⟨reason, hm⟩
  · rcases hshape with ⟨-, hr'⟩ | ⟨hc, -⟩
    · rw [hrem] at hr'
      cases hr'
    · exact .inl ⟨.inr (by rw [hc]), .inl hm⟩
  · exact .inr (.inl ⟨reason, hm⟩)

theorem Replay.Closing.mono {r : Replay} {id : String} {done done' : Prop} (hr : r.Closing id done) (h : done → done') :
    r.Closing id done' :=
  ⟨hr.replaying, hr.waits, fun ht => (hr.ends ht).imp_left fun hd => ⟨h hd.1, hd.2⟩, hr.tried⟩

theorem replayLoop_closing {env : Nat → Answer} {fuel : Nat} {r : Replay} {done : Prop}
    (hio : ∀ i, (env i).error = none) (hr : r.Closing entry.instanceId done) :
    (replayLoop X timeoutSecs entry env fuel r).Closing entry.instanceId
      (done ∨ .commandFinished .cleanup .success ∈ replayEvents X timeoutSecs entry env fuel r) := by
  induction fuel generalizing r done with
  | zero => exact hr.mono .inl
  | succ fuel ih =>
    simp only [replayLoop, replayEvents]
    cases h : replayTurn X timeoutSecs entry (env fuel) r with
    | none => exact hr.mono .inl
    | some r' =>
      unfold replayTurn at h
      split at h
      next effect rest heff =>
        obtain rfl := Option.some.inj h
        refine (ih (hr.effect (hio fuel) heff)).mono fun hd => ?_
        rcases hd with hd | hd
        · exact .inl hd
        · exact .inr (List.mem_append_right _ hd)
      next heff =>
        split at h
        next => cases h
        next event queue hq =>
          obtain rfl := Option.some.inj h
          refine (ih (hr.event heff hq)).mono fun hd => ?_
          rcases hd with (hd | rfl) | hd
          · exact .inl hd
          · refine .inr (List.mem_append_left _ ?_)
            rw [if_pos heff, hq]
            exact List.mem_cons_self
          · exact .inr (List.mem_append_right _ hd)

/-- **One entry is recovered or quarantines the host.** -/
theorem replayEntry_closed (X : Ext) (timeoutSecs : UInt64) (entry : JournalEntry) (now : Int) {env : Nat → Answer}
    {result : Replayed} (hio : ∀ i, (env i).error = none)
    (hi : ∀ id command, (id, command) ∈ result.invoked → Recovers command) :
    ((CleanedUp X timeoutSecs entry now env result ∧
        (replayEntry X timeoutSecs entry now env result).result.journal.lookup entry.instanceId = none) ∨
      (replayEntry X timeoutSecs entry now env result).result.taint.isSome) ∧
      (entry.instanceId, .abort) ∈ (replayEntry X timeoutSecs entry now env result).result.invoked := by
  obtain ⟨hinv, heff, hq⟩ := replayEntry_finished X timeoutSecs entry now env result hi
  have hloop : (replayEntry X timeoutSecs entry now env result).Closing entry.instanceId
      (False ∨ CleanedUp X timeoutSecs entry now env result) :=
    replayLoop_closing hio (Replay.start_closing entry now result)
  have hclosing := hloop.mono fun hd => hd.resolve_left id
  have hterm : (replayEntry X timeoutSecs entry now env result).state.isTerminal := by
    rcases hclosing.waits with ⟨-, hasks⟩ | ⟨-, event, he, -⟩
    · rw [heff] at hasks
      rcases State.awaits_none hasks with ht | ha
      · exact ht
      · have hrepl := hinv.replaying
        rw [ha] at hrepl
        cases hrepl
    · rw [hq] at he
      cases he
  constructor
  · rcases hclosing.ends hterm with ⟨hd, hrem | hgone⟩ | ⟨reason, hm⟩ | ht
    · rw [heff] at hrem
      cases hrem
    · exact .inl ⟨hd, hgone⟩
    · rw [heff] at hm
      cases hm
    · exact .inr ht
  · rcases hclosing.tried with ⟨phase, hm⟩ | hm
    · rw [heff] at hm
      cases hm
    · exact hm

end

/-! ## The whole directory -/

section
variable {X : Ext} {timeoutSecs : UInt64} {now : Int}

/-- What becomes of an item of the listing. -/
def ItemClosed (final : Replayed) (cleaned : String → Prop) : Except String JournalEntry → Prop
  | .ok entry =>
    ((cleaned entry.instanceId ∧ final.journal.lookup entry.instanceId = none) ∨ final.taint.isSome) ∧
      (entry.instanceId, .abort) ∈ final.invoked
  | .error _ => final.taint.isSome

theorem ItemClosed.mono {final : Replayed} {cleaned cleaned' : String → Prop} {item : Except String JournalEntry}
    (h : ItemClosed final cleaned item) (hc : ∀ id, cleaned id → cleaned' id) : ItemClosed final cleaned' item := by
  cases item with
  | ok entry => exact ⟨h.1.imp_left fun hd => ⟨hc _ hd.1, hd.2⟩, h.2⟩
  | error e => exact h

theorem replayEntries_closed (X : Ext) (timeoutSecs : UInt64) (now : Int) (entries : List (Except String JournalEntry))
    {env : Nat → Nat → Answer} {r : Replayed}
    (hio : ∀ i j, (env i j).error = none) (hi : ∀ id command, (id, command) ∈ r.invoked → Recovers command) :
    ∀ item ∈ entries, ItemClosed (replayEntries X timeoutSecs now entries env r)
      (fun id => CleanedIn X timeoutSecs now id entries env r) item := by
  induction entries generalizing env r with
  | nil => exact fun item hm => (by cases hm)
  | cons head rest ih =>
    intro item hm
    cases head with
    | ok entry =>
      have hone := replayEntry_closed X timeoutSecs entry now (hio 0) hi
      have hkeep := (replayEntry_finished X timeoutSecs entry now (env 0) r hi).1.invoked
      have hgrows : (replayEntry X timeoutSecs entry now (env 0) r).result.Grows
          (replayEntries X timeoutSecs now (.ok entry :: rest) env r) := replayEntries_grows
      rcases List.mem_cons.1 hm with rfl | hm
      · obtain ⟨hclosed, htried⟩ := hone
        refine ⟨?_, hgrows.invoked _ htried⟩
        rcases hclosed with ⟨hd, hgone⟩ | ht
        · exact .inl ⟨.inl ⟨rfl, hd⟩, hgrows.gone _ hgone⟩
        · exact .inr (hgrows.taint ht)
      · exact (ih (fun i => hio (i + 1)) hkeep item hm).mono fun id => .inr
    | error e =>
      let record : TaintRecord := ⟨s!"unreadable journal entry at startup: {e}", now, ""⟩
      have hmark : (r.mark record (env 0 0).error).taint.isSome := by
        rw [hio 0 0]
        exact r.mark_ok record
      rcases List.mem_cons.1 hm with rfl | hm
      · show (replayEntries X timeoutSecs now (.error e :: rest) env r).taint.isSome
        simp only [replayEntries]
        exact replayEntries_grows.taint hmark
      · refine (ih (fun i => hio (i + 1)) (fun id command hc => hi id command ?_) item hm).mono fun id hc => hc
        simpa only [Replayed.mark_invoked] using hc

/-! ### The listing -/

theorem listFiles_ok {files : List JournalFile} (h : ∀ file ∈ files, file.error = none) :
    ∃ entries, listFiles files = .ok entries ∧
      ∀ file ∈ files, ∀ id, file.stem = some id → file.read ∈ entries := by
  induction files with
  | nil => exact ⟨[], rfl, by simp⟩
  | cons file rest ih =>
    obtain ⟨entries, he, hall⟩ := ih fun f hf => h f (List.mem_cons_of_mem _ hf)
    have hnone : file.error = none := h file List.mem_cons_self
    cases hstem : file.stem with
    | none =>
      refine ⟨entries, by simp only [listFiles, hnone, hstem]; exact he, fun f hf id hid => ?_⟩
      rcases List.mem_cons.1 hf with rfl | hf
      · rw [hstem] at hid
        cases hid
      · exact hall f hf id hid
    | some stem =>
      refine ⟨file.read :: entries, by simp only [listFiles, hnone, hstem, he]; rfl, fun f hf id hid => ?_⟩
      rcases List.mem_cons.1 hf with rfl | hf
      · exact List.mem_cons_self
      · exact List.mem_cons_of_mem _ (hall f hf id hid)

/-- One directory entry that errors gives up the listing. -/
theorem listFiles_error {files : List JournalFile} {file : JournalFile} (hf : file ∈ files) (h : file.error ≠ none) :
    ∃ source, listFiles files = .error source := by
  induction files with
  | nil => cases hf
  | cons head rest ih =>
    cases herr : head.error with
    | some source => exact ⟨source, by simp only [listFiles, herr]⟩
    | none =>
      rcases List.mem_cons.1 hf with rfl | hf
      · exact absurd herr h
      · obtain ⟨source, hs⟩ := ih hf
        cases hstem : head.stem with
        | none => exact ⟨source, by simp only [listFiles, herr, hstem]; exact hs⟩
        | some stem => exact ⟨source, by simp only [listFiles, herr, hstem, hs]; rfl⟩

theorem JournalDir.list_ok {dir : JournalDir} (h : dir.Listable) :
    ∃ entries, dir.list = .ok entries ∧ ∀ file ∈ dir.files, ∀ id, file.stem = some id → file.read ∈ entries := by
  cases dir with
  | missing => exact ⟨[], rfl, by simp [JournalDir.files]⟩
  | unlistable => cases h
  | listed files =>
    obtain ⟨entries, he, hall⟩ := listFiles_ok h
    refine ⟨_, by simp only [JournalDir.list, he]; rfl, fun file hf id hid => ?_⟩
    exact List.mem_mergeSort.2 (hall file hf id hid)

theorem JournalDir.list_error {dir : JournalDir} (h : ¬ dir.Listable) : ∃ source, dir.list = .error source := by
  cases dir with
  | missing => exact absurd trivial h
  | unlistable source => exact ⟨source, rfl⟩
  | listed files =>
    have hbad : ∃ file ∈ files, file.error ≠ none := by
      by_contra hall
      refine h fun file hf => ?_
      by_contra hne
      exact hall ⟨file, hf, hne⟩
    obtain ⟨file, hf, hne⟩ := hbad
    obtain ⟨source, hs⟩ := listFiles_error hf hne
    exact ⟨source, by simp only [JournalDir.list, hs]; rfl⟩

/-! ### The law -/

/-- Every journal file is unreadable, and the host is quarantined already. -/
def JournalDir.Harmless (dir : JournalDir) (taint : Option TaintRecord) : Prop :=
  ∀ file ∈ dir.files, ∀ id, file.stem = some id → taint.isSome ∧ ∀ entry, file.read ≠ .ok entry

theorem JournalDir.Listable.failsClosed {dir : JournalDir} {env : Nat → Nat → Answer} {taint : Option TaintRecord}
    (hio : ∀ i j, (env i j).error = none) (h : dir.Listable) : dir.FailsClosed X timeoutSecs now env taint := by
  obtain ⟨entries, hlist, hall⟩ := dir.list_ok h
  have hitems := replayEntries_closed X timeoutSecs now entries
    (r := ⟨dir.journal, taint, [], []⟩) hio (by simp)
  have hreplay : dir.replay X timeoutSecs now env taint =
      replayEntries X timeoutSecs now entries env ⟨dir.journal, taint, [], []⟩ := by
    unfold JournalDir.replay replayJournal
    rw [hlist]
  have hcleaned : ∀ id, dir.Cleaned X timeoutSecs now env taint id =
      CleanedIn X timeoutSecs now id entries env ⟨dir.journal, taint, [], []⟩ := by
    intro id
    unfold JournalDir.Cleaned
    rw [hlist]
  constructor
  · intro file hf id hid
    have hitem := hitems file.read (hall file hf id hid)
    rw [hreplay, hcleaned]
    cases hread : file.read with
    | error e =>
      rw [hread] at hitem
      exact .inr hitem
    | ok entry =>
      rw [hread] at hitem
      rw [← file.named id entry hid hread]
      exact hitem.1
  · intro file hf id entry hid hread
    have hitem := hitems file.read (hall file hf id hid)
    rw [hread] at hitem
    rw [hreplay, ← file.named id entry hid hread]
    exact hitem.2

/-- **Restart replay fails closed exactly when** the listing is not given up, or nothing was left to close. -/
theorem fails_closed_iff (dir : JournalDir) {env : Nat → Nat → Answer} (taint : Option TaintRecord)
    (hio : ∀ i j, (env i j).error = none) :
    dir.FailsClosed X timeoutSecs now env taint ↔ dir.Listable ∨ dir.Harmless taint := by
  by_cases h : dir.Listable
  · exact ⟨fun _ => .inl h, fun _ => h.failsClosed hio⟩
  · obtain ⟨source, hlist⟩ := dir.list_error h
    have hreplay : dir.replay X timeoutSecs now env taint = ⟨dir.journal, taint, [], []⟩ := by
      unfold JournalDir.replay replayJournal
      rw [hlist]
    have hcleaned : ∀ id, ¬ dir.Cleaned X timeoutSecs now env taint id := by
      intro id
      unfold JournalDir.Cleaned
      rw [hlist]
      exact fun hc => hc
    constructor
    · rintro ⟨hclosed, htried⟩
      refine .inr fun file hf id hid => ⟨?_, fun entry hread => ?_⟩
      · rcases hclosed file hf id hid with ⟨hc, -⟩ | ht
        · exact absurd hc (hcleaned id)
        · rwa [hreplay] at ht
      · have hm := htried file hf id entry hid hread
        rw [hreplay] at hm
        cases hm
    · rintro (hl | hharm)
      · exact absurd hl h
      · refine ⟨fun file hf id hid => .inr ?_, fun file hf id entry hid hread => ?_⟩
        · rw [hreplay]
          exact (hharm file hf id hid).1
        · exact absurd hread ((hharm file hf id hid).2 entry)

end

/-! ## Two directories -/

def sampleEntry : JournalEntry := journalEntry (.spawn sampleRun)

/-- What `Journal::write` leaves for the sample instance. -/
def sampleFile : JournalFile where
  path := "/data/instances/exp-1000-1:web-01:0.json"
  stem := some sampleRun.instanceId
  content := .json (some 1) (.ok sampleEntry)
  error := none
  named := by
    intro id entry hid hread
    obtain rfl := Option.some.inj hid
    obtain rfl := Except.ok.inj hread
    rfl

def corruptFile : JournalFile where
  path := "/data/instances/exp-1000-1:web-02:0.json"
  stem := some "exp-1000-1:web-02:0"
  content := .notJson "EOF while parsing an object"
  error := none
  named := by
    intro id entry _ hread
    cases hread

/-- A temporary file of an interrupted write, whose directory entry errors. -/
def strayFile : JournalFile where
  path := "/data/instances/.tmp4Ab1xQ"
  stem := none
  content := .unreadable ""
  error := some "Input/output error (os error 5)"
  named := by
    intro id entry hid _
    cases hid

/-- Every plugin call ends with 0, every file operation succeeds. -/
def okAnswer : Answer := ⟨2000, .ok samplePlugin, ⟨[], "", .code 0⟩, none⟩

/-- A corrupt file beside a good one: one is quarantined for, the other recovered. -/
theorem fails_closed_iff_corrupt :
    (JournalDir.listed [corruptFile, sampleFile]).FailsClosed plainExt 10 2000 (fun _ _ => okAnswer) none := by
  refine (fails_closed_iff _ none fun _ _ => rfl).2 (.inl fun file hf => ?_)
  rcases List.mem_cons.1 hf with rfl | hf
  · rfl
  · obtain rfl := List.mem_singleton.1 hf
    rfl

/-- A stray file beside a good one: the good one is neither recovered nor quarantined for. -/
theorem replay_given_up :
    let dir := JournalDir.listed [sampleFile, strayFile]
    ¬ dir.FailsClosed plainExt 10 2000 (fun _ _ => okAnswer) none ∧
      (dir.replay plainExt 10 2000 (fun _ _ => okAnswer) none).journal.lookup sampleRun.instanceId ≠ none ∧
      (dir.replay plainExt 10 2000 (fun _ _ => okAnswer) none).taint = none := by
  have hreplay : JournalDir.replay plainExt 10 (.listed [sampleFile, strayFile]) 2000 (fun _ _ => okAnswer) none =
      ⟨JournalDir.journal (.listed [sampleFile, strayFile]), none, [], []⟩ := rfl
  refine ⟨fun h => ?_, ?_, by rw [hreplay]⟩
  · have hm := h.tried sampleFile List.mem_cons_self sampleRun.instanceId sampleEntry rfl rfl
    rw [hreplay] at hm
    cases hm
  · rw [hreplay]
    have hj : JournalDir.journal (.listed [sampleFile, strayFile]) =
        (∅ : AList fun _ : String => JournalEntry).insert sampleRun.instanceId sampleEntry := rfl
    rw [hj, AList.lookup_insert]
    simp

end FaultForge.Agent
