import Mathlib.Data.List.Basic
import Mathlib.Data.List.TakeWhile
import Mathlib.Logic.Function.Basic

/-!
# A file system with symbolic links

A tree of files, directories and symbolic links, and the POSIX calls on absolute paths that create, move and remove
an entry. A path is the text between its separators, empty pieces included, as the kernel gets it; resolving one
follows at most 40 links. Each call takes the answer of the host: `none` when the call runs as documented, or a
refusal (no permission, no space, an I/O error), which leaves the tree as it is.

What is proved here is what a call leaves alone: how far a path resolves to the same directory in another tree, and
the tree after each call as one update of the tree before.
-/
namespace Files

/-! ## Errors -/

inductive ErrorKind
  | notFound | alreadyExists | notADirectory | isADirectory | filesystemLoop | resourceBusy | invalidInput | other
deriving DecidableEq, Repr

/-- `Display` of the error a failed call reports. -/
def ErrorKind.text : ErrorKind → String
  | .notFound => "No such file or directory (os error 2)"
  | .alreadyExists => "File exists (os error 17)"
  | .notADirectory => "Not a directory (os error 20)"
  | .isADirectory => "Is a directory (os error 21)"
  | .filesystemLoop => "Too many levels of symbolic links (os error 40)"
  | .resourceBusy => "Device or resource busy (os error 16)"
  | .invalidInput => "Invalid argument (os error 22)"
  | .other => "Input/output error (os error 5)"

structure IoError where
  kind : ErrorKind
  text : String
deriving DecidableEq, Repr

def IoError.os (kind : ErrorKind) : IoError := ⟨kind, kind.text⟩

/-- An error of the host that says nothing about what the tree holds. -/
structure Refusal where
  error : IoError
  unrelated : error.kind ≠ .notFound ∧ error.kind ≠ .alreadyExists

/-! ## Paths -/

/-- What stands between the separators of a path, empty pieces included. -/
structure Path where
  absolute : Bool
  pieces : List String
deriving DecidableEq, Repr

def Path.ofText (s : String) : Path :=
  match (s.toList.splitOn '/').map String.ofList with
  | "" :: piece :: pieces => ⟨true, piece :: pieces⟩
  | pieces => ⟨false, pieces⟩

/-- `Path::display`. -/
def Path.display (p : Path) : String :=
  (if p.absolute then "/" else "") ++ "/".intercalate p.pieces

/-- The pieces that name nothing. -/
def idle (piece : String) : Bool := piece = "" || piece = "."

/-- The pieces without the idle ones at their end. -/
def trimIdle (pieces : List String) : List String := (pieces.reverse.dropWhile idle).reverse

/-- A relative path that starts with `.`: there, and only there, a `.` is a component. -/
def Path.dotted (p : Path) : Bool := !p.absolute && p.pieces.head? = some "."

/-- Pieces that `p` starts with, without the idle ones at their end. -/
def Path.keep (p : Path) (pieces : List String) : List String :=
  if p.dotted ∧ trimIdle pieces = [] then ["."] else trimIdle pieces

/-- `Path::parent`: the path without its last component, `none` when it has none. -/
def Path.parent (p : Path) : Option Path :=
  match p.pieces.reverse.dropWhile idle with
  | [] => if p.dotted then some ⟨false, []⟩ else none
  | _ :: before => some ⟨p.absolute, p.keep before.reverse⟩

/-- `Path::join` with one name. -/
def Path.join (p : Path) (name : String) : Path := ⟨p.absolute, p.pieces ++ [name]⟩

/-- The kernel's last component, and what comes before it; `none` for the root. -/
def Path.final (p : Path) : Option (List String × String) :=
  match p.pieces.reverse.dropWhile (· = "") with
  | [] => none
  | last :: before => some (before.reverse, last)

/-- The path ends with a separator. -/
def Path.slash (p : Path) : Bool := p.pieces.getLast? = some ""

/-- A name of its own, unlike `.` and `..`. -/
def plain (name : String) : Bool := !(name = "." || name = "..")

/-! ## The tree -/

abbrev Location := List String

inductive Node (β : Type)
  | file (content : β)
  | directory
  | symlink (target : Path)

def isDirectory {β : Type} : Option (Node β) → Bool
  | some .directory => true
  | _ => false

theorem isDirectory_iff {β : Type} {n : Option (Node β)} : isDirectory n = true ↔ n = some .directory := by
  rcases n with - | (c | - | t) <;> simp [isDirectory]

/-- What each location holds; whatever exists lies in a directory. -/
@[ext]
structure FileSystem (β : Type) where
  node : Location → Option (Node β)
  root : node [] = some .directory
  nested : ∀ p name, node (p ++ [name]) ≠ none → node p = some .directory

/-- A directory of the tree. -/
abbrev Dir {β : Type} (fs : FileSystem β) : Type := { p : Location // fs.node p = some .directory }

variable {β : Type}

theorem FileSystem.parent_directory (fs : FileSystem β) {p : Location} (h : fs.node p = some .directory) :
    fs.node p.dropLast = some .directory := by
  rcases List.eq_nil_or_concat p with rfl | ⟨q, name, rfl⟩
  · exact h
  · rw [List.concat_eq_append] at h ⊢
    rw [List.dropLast_concat]
    exact fs.nested q name (by rw [h]; simp)

def Dir.top (fs : FileSystem β) : Dir fs := ⟨[], fs.root⟩

def Dir.up {fs : FileSystem β} (d : Dir fs) : Dir fs := ⟨d.1.dropLast, fs.parent_directory d.2⟩

/-- The tree with one entry of a directory set or removed; a directory stays. -/
def FileSystem.assign (fs : FileSystem β) (d : Dir fs) (name : String) (n : Option (Node β))
    (h : fs.node (d.1 ++ [name]) ≠ some .directory) : FileSystem β where
  node := Function.update fs.node (d.1 ++ [name]) n
  root := by rw [Function.update_of_ne (by simp)]; exact fs.root
  nested := by
    intro p x hx
    by_cases hp : p ++ [x] = d.1 ++ [name]
    · obtain ⟨rfl, -⟩ := List.append_inj' hp rfl
      rw [Function.update_of_ne (by simp)]
      exact d.2
    · rw [Function.update_of_ne hp] at hx
      have hd := fs.nested p x hx
      have hne : p ≠ d.1 ++ [name] := fun heq => h (heq ▸ hd)
      rw [Function.update_of_ne hne]
      exact hd

@[simp] theorem FileSystem.assign_node (fs : FileSystem β) (d : Dir fs) (name : String) (n : Option (Node β))
    (h : fs.node (d.1 ++ [name]) ≠ some .directory) :
    (fs.assign d name n h).node = Function.update fs.node (d.1 ++ [name]) n := rfl

/-- Where one entry was set or removed, nothing else differs. -/
theorem FileSystem.differs_at {fs fs' : FileSystem β} {spot loc : Location} {n : Option (Node β)}
    (hnode : fs'.node = Function.update fs.node spot n) (hne : fs'.node loc ≠ fs.node loc) : loc = spot := by
  by_contra hl
  exact hne (by rw [hnode, Function.update_of_ne hl])

/-! ## Resolving a path -/

/-- Why the way over an entry ends there, if it does. -/
def stops {β : Type} : Option (Node β) → Option IoError
  | none => some (.os .notFound)
  | some (.file _) => some (.os .notADirectory)
  | some .directory => none
  | some (.symlink _) => none

/-- The directory a list of pieces leads to from `d`; what follows a link is `follow`'s. -/
def FileSystem.walkWith (fs : FileSystem β) (follow : Dir fs → List String → Except IoError (Dir fs)) :
    Dir fs → List String → Except IoError (Dir fs)
  | d, [] => .ok d
  | d, piece :: rest =>
    if idle piece then fs.walkWith follow d rest
    else if piece = ".." then fs.walkWith follow d.up rest
    else
      match h : fs.node (d.1 ++ [piece]) with
      | none => .error (.os .notFound)
      | some (.file _) => .error (.os .notADirectory)
      | some .directory => fs.walkWith follow ⟨d.1 ++ [piece], h⟩ rest
      | some (.symlink target) => follow (if target.absolute then Dir.top fs else d) (target.pieces ++ rest)

/-- The same with at most that many links followed. -/
def FileSystem.walk (fs : FileSystem β) : Nat → Dir fs → List String → Except IoError (Dir fs)
  | 0 => fs.walkWith fun _ _ => .error (.os .filesystemLoop)
  | links + 1 => fs.walkWith (fs.walk links)

section
variable {fs : FileSystem β} {follow : Dir fs → List String → Except IoError (Dir fs)} {d : Dir fs} {piece : String}
  {rest : List String}

@[simp] theorem walkWith_nil : fs.walkWith follow d [] = .ok d := rfl

theorem walkWith_idle (hi : idle piece = true) :
    fs.walkWith follow d (piece :: rest) = fs.walkWith follow d rest := by
  rw [FileSystem.walkWith, if_pos hi]

/-- Idle pieces lead nowhere else. -/
theorem walkWith_idles {junk : List String} (hj : ∀ piece ∈ junk, idle piece = true) (d : Dir fs)
    (rest : List String) : fs.walkWith follow d (junk ++ rest) = fs.walkWith follow d rest := by
  induction junk with
  | nil => rfl
  | cons piece junk ih =>
    rw [List.cons_append, walkWith_idle (hj piece List.mem_cons_self)]
    exact ih fun p hp => hj p (List.mem_cons_of_mem _ hp)

theorem walkWith_only_idles {junk : List String} (hj : ∀ piece ∈ junk, idle piece = true) (d : Dir fs) :
    fs.walkWith follow d junk = .ok d := by
  have h : fs.walkWith follow d (junk ++ []) = fs.walkWith follow d [] := walkWith_idles hj d []
  rwa [List.append_nil] at h

theorem walkWith_up (hi : idle piece = false) (hu : piece = "..") :
    fs.walkWith follow d (piece :: rest) = fs.walkWith follow d.up rest := by
  rw [FileSystem.walkWith, if_neg (by simp [hi]), if_pos hu]

theorem walkWith_stops {n : Option (Node β)} {e : IoError} (hi : idle piece = false) (hu : piece ≠ "..")
    (h : fs.node (d.1 ++ [piece]) = n) (hn : stops n = some e) :
    fs.walkWith follow d (piece :: rest) = .error e := by
  subst h
  rw [FileSystem.walkWith, if_neg (by simp [hi]), if_neg hu]
  split <;> simp_all [stops]

theorem walkWith_directory (hi : idle piece = false) (hu : piece ≠ "..")
    (h : fs.node (d.1 ++ [piece]) = some .directory) :
    fs.walkWith follow d (piece :: rest) = fs.walkWith follow ⟨d.1 ++ [piece], h⟩ rest := by
  rw [FileSystem.walkWith, if_neg (by simp [hi]), if_neg hu]
  split <;> simp_all

theorem walkWith_symlink {target : Path} (hi : idle piece = false) (hu : piece ≠ "..")
    (h : fs.node (d.1 ++ [piece]) = some (.symlink target)) :
    fs.walkWith follow d (piece :: rest) =
      follow (if target.absolute then Dir.top fs else d) (target.pieces ++ rest) := by
  rw [FileSystem.walkWith, if_neg (by simp [hi]), if_neg hu]
  split <;> simp_all

end

/-- A path and what follows it, where what follows needs no link. -/
theorem FileSystem.walk_append (fs : FileSystem β) {rest : List String} {g : Dir fs → Except IoError (Dir fs)}
    (links : Nat) (d : Dir fs) (pieces : List String)
    (hg : ∀ d', fs.walk links d pieces = .ok d' → ∀ follow, fs.walkWith follow d' rest = g d') :
    fs.walk links d (pieces ++ rest) = (fs.walk links d pieces).bind g := by
  have hrec : ∀ follow : Dir fs → List String → Except IoError (Dir fs),
      (∀ d pieces, (∀ d', follow d pieces = .ok d' → ∀ follow, fs.walkWith follow d' rest = g d') →
        follow d (pieces ++ rest) = (follow d pieces).bind g) →
      ∀ (pieces : List String) (d : Dir fs),
        (∀ d', fs.walkWith follow d pieces = .ok d' → ∀ follow, fs.walkWith follow d' rest = g d') →
        fs.walkWith follow d (pieces ++ rest) = (fs.walkWith follow d pieces).bind g := by
    intro follow hf pieces
    induction pieces with
    | nil =>
      intro d hg
      exact hg d rfl follow
    | cons piece pieces ih =>
      intro d hg
      rw [List.cons_append]
      cases hi : idle piece with
      | true =>
        rw [walkWith_idle hi] at hg ⊢
        rw [walkWith_idle hi, ih d hg]
      | false =>
        by_cases hu : piece = ".."
        · rw [walkWith_up hi hu] at hg ⊢
          rw [walkWith_up hi hu, ih d.up hg]
        · rcases h : fs.node (d.1 ++ [piece]) with - | (c | - | target)
          · rw [walkWith_stops hi hu h rfl, walkWith_stops hi hu h rfl]
            rfl
          · rw [walkWith_stops hi hu h rfl, walkWith_stops hi hu h rfl]
            rfl
          · rw [walkWith_directory hi hu h] at hg ⊢
            rw [walkWith_directory hi hu h, ih _ hg]
          · rw [walkWith_symlink hi hu h] at hg ⊢
            rw [walkWith_symlink hi hu h, ← List.append_assoc, hf _ _ hg]
  induction links generalizing d pieces with
  | zero => exact hrec _ (fun _ _ _ => rfl) pieces d hg
  | succ links ih => exact hrec _ ih pieces d hg

/-- Idle pieces at the end change nothing. -/
theorem FileSystem.walk_append_idle (fs : FileSystem β) {junk : List String} (hj : ∀ piece ∈ junk, idle piece = true)
    (links : Nat) (d : Dir fs) (pieces : List String) :
    fs.walk links d (pieces ++ junk) = fs.walk links d pieces := by
  rw [fs.walk_append links d pieces fun d' _ _ => walkWith_only_idles hj d']
  cases fs.walk links d pieces <;> rfl

section
variable {fs fs' : FileSystem β} {cut : Prop} {e : IoError}

/-- `walk_transfer`, from the same of following a link. -/
theorem FileSystem.walkWith_transfer (hdir : ∀ p, fs.node p = some .directory → fs'.node p = some .directory)
    (hlink : ∀ p target, fs.node p = some (.symlink target) → fs'.node p = some (.symlink target) ∨
      cut ∧ stops (fs'.node p) = some e)
    {follow : Dir fs → List String → Except IoError (Dir fs)}
    {follow' : Dir fs' → List String → Except IoError (Dir fs')}
    (hf : ∀ d pieces r, follow d pieces = .ok r →
      follow' ⟨d.1, hdir _ d.2⟩ pieces = .ok ⟨r.1, hdir _ r.2⟩ ∨
        cut ∧ follow' ⟨d.1, hdir _ d.2⟩ pieces = .error e)
    (pieces : List String) : ∀ d r : Dir fs, fs.walkWith follow d pieces = .ok r →
      fs'.walkWith follow' ⟨d.1, hdir _ d.2⟩ pieces = .ok ⟨r.1, hdir _ r.2⟩ ∨
        cut ∧ fs'.walkWith follow' ⟨d.1, hdir _ d.2⟩ pieces = .error e := by
  induction pieces with
  | nil =>
    intro d r h
    cases h
    exact .inl rfl
  | cons piece rest ih =>
    intro d r h
    cases hi : idle piece with
    | true =>
      rw [walkWith_idle hi] at h ⊢
      exact ih d r h
    | false =>
      by_cases hu : piece = ".."
      · rw [walkWith_up hi hu] at h ⊢
        exact ih d.up r h
      · rcases hn : fs.node (d.1 ++ [piece]) with - | (c | - | target)
        · rw [walkWith_stops hi hu hn rfl] at h
          cases h
        · rw [walkWith_stops hi hu hn rfl] at h
          cases h
        · have hn' : fs'.node (d.1 ++ [piece]) = some .directory := hdir _ hn
          rw [walkWith_directory hi hu hn] at h
          rw [walkWith_directory (d := ⟨d.1, hdir _ d.2⟩) hi hu hn']
          exact ih ⟨d.1 ++ [piece], hn⟩ r h
        · rw [walkWith_symlink hi hu hn] at h
          rcases hlink _ _ hn with hn' | ⟨hcut, hn'⟩
          · rw [walkWith_symlink (d := ⟨d.1, hdir _ d.2⟩) hi hu hn']
            have hstart : (⟨(if target.absolute then Dir.top fs else d).1, hdir _ (if target.absolute then
                Dir.top fs else d).2⟩ : Dir fs') = if target.absolute then Dir.top fs' else ⟨d.1, hdir _ d.2⟩ := by
              split <;> rfl
            rw [← hstart]
            exact hf _ _ r h
          · rw [walkWith_stops (d := ⟨d.1, hdir _ d.2⟩) hi hu rfl hn']
            exact .inr ⟨hcut, rfl⟩

/-- Two trees, and a directory of each at one location: a path found from one is found from the other at the same
location, or, where a link on the way was removed or replaced by a file, the way ends there. -/
theorem FileSystem.walk_transfer (hdir : ∀ p, fs.node p = some .directory → fs'.node p = some .directory)
    (hlink : ∀ p target, fs.node p = some (.symlink target) → fs'.node p = some (.symlink target) ∨
      cut ∧ stops (fs'.node p) = some e) (links : Nat) :
    ∀ (d : Dir fs) (pieces : List String) (r : Dir fs), fs.walk links d pieces = .ok r →
      fs'.walk links ⟨d.1, hdir _ d.2⟩ pieces = .ok ⟨r.1, hdir _ r.2⟩ ∨
        cut ∧ fs'.walk links ⟨d.1, hdir _ d.2⟩ pieces = .error e := by
  induction links with
  | zero => exact fun d pieces => walkWith_transfer hdir hlink (fun _ _ _ h => by cases h) pieces d
  | succ links ih => exact fun d pieces => walkWith_transfer hdir hlink ih pieces d

end

/-- The directory an absolute path names. -/
def FileSystem.directory (fs : FileSystem β) (pieces : List String) : Except IoError (Dir fs) :=
  fs.walk 40 (Dir.top fs) pieces

/-- A path leads to the directory at a location. -/
def FileSystem.Leads (fs : FileSystem β) (p : Path) (loc : Location) : Prop :=
  ∃ h : fs.node loc = some .directory, fs.directory p.pieces = .ok ⟨loc, h⟩

/-- The directory an absolute path's last component lies in, and its name (`.` for the root). -/
def FileSystem.entry (fs : FileSystem β) (p : Path) : Except IoError (Dir fs × String) :=
  match p.final with
  | none => .ok (Dir.top fs, ".")
  | some (before, last) => (fs.directory before).map fun d => (d, last)

/-- The location a path names, a link at its end not followed. -/
def FileSystem.locate (fs : FileSystem β) (p : Path) : Option Location :=
  match fs.entry p with
  | .error _ => none
  | .ok (d, name) =>
    if plain name then some (d.1 ++ [name]) else (fs.directory p.pieces).toOption.map Subtype.val

/-- The directory a path leads to, and its entries. -/
def FileSystem.Within (fs : FileSystem β) (dir : Path) (loc : Location) : Prop :=
  ∃ d, fs.Leads dir d ∧ (loc = d ∨ ∃ name, loc = d ++ [name])

/-- Nothing is at the path. -/
def FileSystem.Absent (fs : FileSystem β) (p : Path) : Prop := ∀ loc, fs.locate p = some loc → fs.node loc = none

/-! ## Calls -/

/-- `mkdir`. -/
def FileSystem.createDir (fs : FileSystem β) (refused : Option Refusal) (p : Path) :
    Except IoError (FileSystem β) :=
  match refused with
  | some r => .error r.error
  | none =>
    match fs.entry p with
    | .error e => .error e
    | .ok (d, name) =>
      if plain name then
        match h : fs.node (d.1 ++ [name]) with
        | some _ => .error (.os .alreadyExists)
        | none => .ok (fs.assign d name (some .directory) (by simp [h]))
      else .error (.os .alreadyExists)

/-- `open` with `O_CREAT | O_EXCL` of a name in a directory. -/
def FileSystem.createNew (fs : FileSystem β) (refused : Option Refusal) (dir : Path) (name : String) (content : β) :
    Except IoError (FileSystem β) :=
  match refused with
  | some r => .error r.error
  | none =>
    match fs.directory dir.pieces with
    | .error e => .error e
    | .ok d =>
      match h : fs.node (d.1 ++ [name]) with
      | some _ => .error (.os .alreadyExists)
      | none => .ok (fs.assign d name (some (.file content)) (by simp [h]))

/-- The tree once the content of an existing file is replaced. -/
def FileSystem.write (fs : FileSystem β) (p : Path) (content : β) : FileSystem β :=
  match fs.entry p with
  | .error _ => fs
  | .ok (d, name) =>
    match h : fs.node (d.1 ++ [name]) with
    | some (.file _) => fs.assign d name (some (.file content)) (by simp [h])
    | _ => fs

/-- `unlink`. -/
def FileSystem.removeFile (fs : FileSystem β) (refused : Option Refusal) (p : Path) : Except IoError (FileSystem β) :=
  match refused with
  | some r => .error r.error
  | none =>
    match fs.entry p with
    | .error e => .error e
    | .ok (d, name) =>
      if plain name then
        if (fs.node (d.1 ++ [name])).isNone then .error (.os .notFound)
        else if h : isDirectory (fs.node (d.1 ++ [name])) then .error (.os .isADirectory)
        else if p.slash then .error (.os .notADirectory)
        else .ok (fs.assign d name none fun hd => h (isDirectory_iff.2 hd))
      else .error (.os .isADirectory)

/-- A directory outlives an entry that is no directory. -/
def Dir.keep {fs : FileSystem β} (d' d : Dir fs) {name : String} {n : Option (Node β)}
    (h : fs.node (d.1 ++ [name]) ≠ some .directory) : Dir (fs.assign d name n h) :=
  ⟨d'.1, by
    have hne : d'.1 ≠ d.1 ++ [name] := fun heq => h (heq ▸ d'.2)
    rw [FileSystem.assign_node, Function.update_of_ne hne]
    exact d'.2⟩

/-- `rename` of a regular file: what stands at the new name is replaced, unless it is a directory. -/
def FileSystem.renameFile (fs : FileSystem β) (refused : Option Refusal) (source target : Path) :
    Except IoError (FileSystem β) :=
  match refused with
  | some r => .error r.error
  | none =>
    match fs.entry source, fs.entry target with
    | .error e, _ | _, .error e => .error e
    | .ok (d, name), .ok (d', name') =>
      if plain name' then
        match h : fs.node (d.1 ++ [name]) with
        | some (.file content) =>
          if target.slash then .error (.os .notADirectory)
          else if h' : isDirectory (fs.node (d'.1 ++ [name'])) then .error (.os .isADirectory)
          else
            have hs : fs.node (d.1 ++ [name]) ≠ some .directory := by simp [h]
            .ok ((fs.assign d name none hs).assign (d'.keep d hs) name' (some (.file content)) (by
              change Function.update fs.node (d.1 ++ [name]) none (d'.1 ++ [name']) ≠ _
              by_cases he : d'.1 ++ [name'] = d.1 ++ [name]
              · simp [he]
              · rw [Function.update_of_ne he]
                exact fun hd => h' (isDirectory_iff.2 hd)))
        | _ => .error (.os .notFound)
      else .error (.os .resourceBusy)

/-- What a file holds that a path names from `d`, links followed at its end too. -/
def FileSystem.fetch (fs : FileSystem β) : Nat → Dir fs → Path → Except IoError β
  | links, d, p =>
    match p.final with
    | none => .error (.os .isADirectory)
    | some (before, last) =>
      match fs.walk 40 d before with
      | .error e => .error e
      | .ok d' =>
        if plain last then
          match fs.node (d'.1 ++ [last]) with
          | none => .error (.os .notFound)
          | some .directory => .error (.os .isADirectory)
          | some (.file content) => if p.slash then .error (.os .notADirectory) else .ok content
          | some (.symlink target) =>
            match links with
            | 0 => .error (.os .filesystemLoop)
            | links + 1 =>
              fs.fetch links (if target.absolute then Dir.top fs else d')
                (if p.slash then target.join "" else target)
        else .error (.os .isADirectory)

/-- `open` and `read` to the end. -/
def FileSystem.readFile (fs : FileSystem β) (refused : Option Refusal) (p : Path) : Except IoError β :=
  match refused with
  | some r => .error r.error
  | none => fs.fetch 40 (Dir.top fs) p

/-! ## What the calls do -/

theorem FileSystem.directory_append {fs : FileSystem β} {pieces rest : List String} {d : Dir fs}
    {r : Except IoError (Dir fs)} (hd : fs.directory pieces = .ok d)
    (hr : ∀ follow, fs.walkWith follow d rest = r) : fs.directory (pieces ++ rest) = r := by
  have hwalk : fs.walk 40 (Dir.top fs) pieces = .ok d := hd
  have happ : fs.walk 40 (Dir.top fs) (pieces ++ rest) = (fs.walk 40 (Dir.top fs) pieces).bind fun _ => r :=
    fs.walk_append 40 (Dir.top fs) pieces fun d' hd' => by
      obtain rfl : d = d' := Except.ok.inj (hwalk.symm.trans hd')
      exact hr
  rwa [hwalk] at happ

/-- The same path in another tree, see `FileSystem.walk_transfer`. -/
theorem FileSystem.directory_transfer {fs fs' : FileSystem β} {cut : Prop} {e : IoError}
    (hdir : ∀ p, fs.node p = some .directory → fs'.node p = some .directory)
    (hlink : ∀ p target, fs.node p = some (.symlink target) → fs'.node p = some (.symlink target) ∨
      cut ∧ stops (fs'.node p) = some e)
    {pieces : List String} {d : Dir fs} (h : fs.directory pieces = .ok d) :
    fs'.directory pieces = .ok ⟨d.1, hdir _ d.2⟩ ∨ cut ∧ fs'.directory pieces = .error e :=
  FileSystem.walk_transfer hdir hlink 40 (Dir.top fs) pieces d h

/-- A tree that keeps every directory and link of another resolves what the other does. -/
theorem FileSystem.directory_mono {fs fs' : FileSystem β}
    (hdir : ∀ p, fs.node p = some .directory → fs'.node p = some .directory)
    (hlink : ∀ p target, fs.node p = some (.symlink target) → fs'.node p = some (.symlink target))
    {pieces : List String} {d : Dir fs} (h : fs.directory pieces = .ok d) :
    fs'.directory pieces = .ok ⟨d.1, hdir _ d.2⟩ := by
  have ht : fs'.directory pieces = .ok ⟨d.1, hdir _ d.2⟩ ∨
      False ∧ fs'.directory pieces = .error (.os .notFound) :=
    FileSystem.directory_transfer hdir (fun p t hp => .inl (hlink p t hp)) h
  exact ht.resolve_right fun hf => hf.1

/-- Everything of one tree is in another. -/
def Kept (fs fs' : FileSystem β) : Prop := ∀ p n, fs.node p = some n → fs'.node p = some n

theorem Kept.trans {fs fs' fs'' : FileSystem β} (h : Kept fs fs') (h' : Kept fs' fs'') : Kept fs fs'' :=
  fun p n hp => h' p n (h p n hp)

theorem Kept.update {fs fs' : FileSystem β} {loc : Location} {n : Option (Node β)} (hn : fs.node loc = none)
    (h : fs'.node = Function.update fs.node loc n) : Kept fs fs' := by
  intro p m hp
  have hne : p ≠ loc := by
    rintro rfl
    rw [hn] at hp
    cases hp
  rw [h, Function.update_of_ne hne, hp]

/-- A path resolves as before where everything was kept. -/
theorem Kept.directory {fs fs' : FileSystem β} (h : Kept fs fs') {pieces : List String} {d : Dir fs}
    (hd : fs.directory pieces = .ok d) : fs'.directory pieces = .ok ⟨d.1, h _ _ d.2⟩ :=
  FileSystem.directory_mono (fun p hp => h p _ hp) (fun p _ hp => h p _ hp) hd

theorem dropWhile_idle {last : String} {before : List String} (hl : idle last = false) :
    ∀ {pieces : List String}, pieces.dropWhile (· = "") = last :: before →
      pieces.dropWhile idle = last :: before
  | [], h => by cases h
  | piece :: rest, h => by
    by_cases he : piece = ""
    · subst he
      rw [List.dropWhile_cons_of_pos (by decide)] at h
      rw [List.dropWhile_cons_of_pos (by decide)]
      exact dropWhile_idle hl h
    · rw [List.dropWhile_cons_of_neg (by simpa using he)] at h
      obtain ⟨rfl, rfl⟩ := List.cons.inj h
      rw [List.dropWhile_cons_of_neg (by simp [hl])]

/-- Pieces are their trimmed part and idle ones. -/
theorem trimIdle_append (pieces : List String) :
    ∃ junk, (∀ piece ∈ junk, idle piece = true) ∧ pieces = trimIdle pieces ++ junk := by
  refine ⟨(pieces.reverse.takeWhile idle).reverse, fun piece hp => ?_, ?_⟩
  · exact List.mem_takeWhile_imp (List.mem_reverse.1 hp)
  · rw [trimIdle, ← List.reverse_append, List.takeWhile_append_dropWhile, List.reverse_reverse]

/-- The last piece that is not skipped, and what stands around it. -/
theorem pieces_last {skip : String → Bool} {pieces before : List String} {last : String}
    (h : pieces.reverse.dropWhile skip = last :: before) :
    ∃ junk, (∀ piece ∈ junk, skip piece = true) ∧ pieces = before.reverse ++ last :: junk := by
  refine ⟨(pieces.reverse.takeWhile skip).reverse, fun piece hp => List.mem_takeWhile_imp (List.mem_reverse.1 hp), ?_⟩
  have hsplit : pieces.reverse.takeWhile skip ++ last :: before = pieces.reverse := by
    rw [← h, List.takeWhile_append_dropWhile]
  have hrev := congrArg List.reverse hsplit
  simpa using hrev.symm

theorem Path.final_pieces {p : Path} {before : List String} {last : String} (h : p.final = some (before, last)) :
    ∃ junk, (∀ piece ∈ junk, idle piece = true) ∧ p.pieces = before ++ last :: junk := by
  unfold Path.final at h
  split at h
  · cases h
  · next l b heq =>
    obtain ⟨rfl, rfl⟩ := Prod.mk.inj (Option.some.inj h)
    obtain ⟨junk, hj, hpieces⟩ := pieces_last heq
    refine ⟨junk, fun piece hp => ?_, hpieces⟩
    have hempty : piece = "" := by simpa using hj piece hp
    simp [idle, hempty]

/-- What is kept of the pieces before a component lacks idle ones only. -/
theorem Path.keep_append {p : Path} {before rest : List String} {last : String} (h : p.pieces = before ++ last :: rest)
    (hl : idle last = false) : ∃ junk, (∀ piece ∈ junk, idle piece = true) ∧ before = p.keep before ++ junk := by
  obtain ⟨junk, hj, hb⟩ := trimIdle_append before
  unfold Path.keep
  split
  next hdot =>
    obtain ⟨hd, hnil⟩ := hdot
    rw [hnil, List.nil_append] at hb
    cases before with
    | nil =>
      -- the path would start with `last`
      simp only [Path.dotted, h, List.nil_append, List.head?_cons, Option.some.injEq, Bool.and_eq_true,
        decide_eq_true_eq] at hd
      simp [hd.2, idle] at hl
    | cons piece before =>
      simp only [Path.dotted, h, List.cons_append, List.head?_cons, Option.some.injEq, Bool.and_eq_true,
        decide_eq_true_eq] at hd
      obtain rfl := hd.2
      exact ⟨before, fun q hq => hj q (hb ▸ List.mem_cons_of_mem _ hq), rfl⟩
  next => exact ⟨junk, hj, hb⟩

/-- A path is its parent, idle pieces, its last component, and idle pieces; one whose parent is empty may be idle. -/
theorem Path.parent_pieces {p dir : Path} (h : p.parent = some dir) : dir.pieces = [] ∨
    ∃ junk last junk', (∀ piece ∈ junk, idle piece = true) ∧ idle last = false ∧
      (∀ piece ∈ junk', idle piece = true) ∧ p.pieces = dir.pieces ++ (junk ++ last :: junk') := by
  unfold Path.parent at h
  split at h
  · split at h
    next => exact .inl (by rw [← Option.some.inj h])
    next => cases h
  · next last before heq =>
    obtain rfl := Option.some.inj h
    have hlast : idle last = false := by
      have hmem := List.head?_dropWhile_not idle p.pieces.reverse
      rw [heq] at hmem
      simpa using hmem
    obtain ⟨junk', hj', hpieces⟩ := pieces_last heq
    obtain ⟨junk, hj, hb⟩ := Path.keep_append hpieces hlast
    refine .inr ⟨junk, last, junk', hj, hlast, hj', ?_⟩
    rw [← List.append_assoc, ← hb, hpieces]

/-- A last component that is a name of its own is looked up. -/
theorem Path.final_last {p : Path} {before : List String} {last : String} (h : p.final = some (before, last))
    (hp : plain last = true) : idle last = false ∧ last ≠ ".." := by
  unfold Path.final at h
  split at h
  · cases h
  · next l b heq =>
    obtain ⟨rfl, rfl⟩ := Prod.mk.inj (Option.some.inj h)
    have hne := List.head?_dropWhile_not (fun x : String => decide (x = "")) p.pieces.reverse
    rw [heq] at hne
    simp only [plain, Bool.not_eq_true', Bool.or_eq_false_iff, decide_eq_false_iff_not] at hp
    simp_all [idle]

/-- A last component of its own lies in the directory that is the path's parent. -/
theorem Path.parent_of_final {p : Path} {before : List String} {last : String} (h : p.final = some (before, last))
    (hp : plain last = true) : p.parent = some ⟨p.absolute, p.keep before⟩ := by
  have hl := (Path.final_last h hp).1
  rw [Path.final] at h
  split at h
  · cases h
  · next l b heq =>
    obtain ⟨rfl, rfl⟩ := Prod.mk.inj (Option.some.inj h)
    rw [Path.parent, dropWhile_idle hl heq]

/-- So a call on the path looks its last component up in its parent. -/
theorem FileSystem.entry_of_parent (fs : FileSystem β) {p dir : Path} {before : List String} {last : String}
    (h : p.final = some (before, last)) (hp : plain last = true) (hd : p.parent = some dir) :
    fs.entry p = (fs.directory dir.pieces).map fun d => (d, last) := by
  rw [Path.parent_of_final h hp] at hd
  obtain rfl := Option.some.inj hd
  obtain ⟨rest, -, hpieces⟩ := Path.final_pieces h
  obtain ⟨junk, hj, hb⟩ := Path.keep_append hpieces (Path.final_last h hp).1
  have hw : fs.directory before = fs.directory (p.keep before) := by
    conv_lhs => rw [hb]
    exact fs.walk_append_idle hj 40 (Dir.top fs) (p.keep before)
  rw [FileSystem.entry, h]
  exact congrArg (Except.map fun d => (d, last)) hw

/-- An entry that has a name of its own has it from the path. -/
theorem FileSystem.entry_final {fs : FileSystem β} {p : Path} {d : Dir fs} {name : String}
    (h : fs.entry p = .ok (d, name)) (hp : plain name = true) :
    ∃ before, p.final = some (before, name) ∧ fs.directory before = .ok d := by
  unfold FileSystem.entry at h
  split at h
  · obtain ⟨-, rfl⟩ := Prod.mk.inj (Except.ok.inj h)
    cases hp
  · next before last hf =>
    cases hd : fs.directory before with
    | error e =>
      rw [hd] at h
      cases h
    | ok d' =>
      rw [hd] at h
      obtain ⟨rfl, rfl⟩ := Prod.mk.inj (Except.ok.inj h)
      exact ⟨before, hf, hd⟩

/-- It lies in the directory that the path's parent leads to. -/
theorem FileSystem.entry_parent {fs : FileSystem β} {p : Path} {d : Dir fs} {name : String}
    (h : fs.entry p = .ok (d, name)) (hp : plain name = true) :
    ∃ dir, p.parent = some dir ∧ fs.directory dir.pieces = .ok d := by
  obtain ⟨before, hfinal, -⟩ := FileSystem.entry_final h hp
  have hdir := Path.parent_of_final hfinal hp
  refine ⟨_, hdir, ?_⟩
  rw [fs.entry_of_parent hfinal hp hdir] at h
  cases hd : fs.directory (p.keep before) with
  | error e => simp only [hd, Except.map] at h; cases h
  | ok d' =>
    simp only [hd, Except.map] at h
    rw [(Prod.mk.inj (Except.ok.inj h)).1]

/-- Joining a name of its own is looking it up there. -/
theorem FileSystem.entry_join (fs : FileSystem β) (dir : Path) {name : String} (hne : name ≠ "") :
    fs.entry (dir.join name) = (fs.directory dir.pieces).map fun d => (d, name) := by
  have hf : (dir.join name).final = some (dir.pieces, name) := by
    simp [Path.final, Path.join, List.dropWhile_cons_of_neg, hne]
  rw [FileSystem.entry, hf]

theorem FileSystem.locate_plain {fs : FileSystem β} {p : Path} {d : Dir fs} {name : String}
    (h : fs.entry p = .ok (d, name)) (hp : plain name = true) : fs.locate p = some (d.1 ++ [name]) := by
  simp [FileSystem.locate, h, hp]

/-- What a path names in one tree it names in another that kept everything. -/
theorem Kept.locate {fs fs' : FileSystem β} (h : Kept fs fs') {p : Path} {loc : Location}
    (hl : fs.locate p = some loc) : fs'.locate p = some loc := by
  have hentry : ∀ d name, fs.entry p = .ok (d, name) → fs'.entry p = .ok (⟨d.1, h _ _ d.2⟩, name) := by
    intro d name he
    unfold FileSystem.entry at he ⊢
    split at he
    · obtain ⟨rfl, rfl⟩ := Prod.mk.inj (Except.ok.inj he)
      rfl
    · next before last _ =>
      cases hd : fs.directory before with
      | error e => simp only [hd, Except.map] at he; cases he
      | ok d' =>
        simp only [hd, Except.map] at he
        obtain ⟨rfl, rfl⟩ := Prod.mk.inj (Except.ok.inj he)
        simp only [h.directory hd, Except.map]
  unfold FileSystem.locate at hl
  split at hl
  · cases hl
  · next d name he =>
    unfold FileSystem.locate
    rw [hentry d name he]
    dsimp only
    split at hl
    · next hp => rwa [if_pos hp]
    · next hp =>
      rw [if_neg hp]
      cases hd : fs.directory p.pieces with
      | error e => simp [hd, Except.toOption] at hl
      | ok d' =>
        simp only [hd, Except.toOption, Option.map_some, Option.some.injEq] at hl
        simp only [h.directory hd, Except.toOption, Option.map_some, hl]

/-- A path does not name its parent, where the parent has no entries. -/
theorem FileSystem.locate_ne_parent {fs : FileSystem β} {p dir : Path} {loc : Location} (hdir : p.parent = some dir)
    (hleads : fs.Leads dir loc) (hroot : loc ≠ []) (hempty : ∀ name, fs.node (loc ++ [name]) = none) :
    fs.locate p ≠ some loc := by
  intro hl
  obtain ⟨hloc, hd⟩ := hleads
  obtain ⟨d, rfl⟩ : ∃ d : Dir fs, d.1 = loc := ⟨⟨loc, hloc⟩, rfl⟩
  unfold FileSystem.locate at hl
  split at hl
  · cases hl
  · next d' name he =>
    split at hl
    · next hp =>
      obtain ⟨before, hfinal, -⟩ := FileSystem.entry_final he hp
      rw [fs.entry_of_parent hfinal hp hdir, hd] at he
      obtain ⟨rfl, -⟩ := Prod.mk.inj (Except.ok.inj he)
      have hlen := congrArg List.length (Option.some.inj hl)
      simp at hlen
    · -- the path ends in a dot or two, and resolves as a directory
      obtain hnil | ⟨junk, last, junk', hj, hlast, hj', hpieces⟩ := Path.parent_pieces hdir
      · rw [hnil] at hd
        exact hroot (congrArg Subtype.val (Except.ok.inj hd)).symm
      have hrest : ∀ follow, fs.walkWith follow d (junk ++ last :: junk') =
          if last = ".." then .ok d.up else .error (.os .notFound) := by
        intro follow
        rw [walkWith_idles hj]
        by_cases hu : last = ".."
        · rw [walkWith_up hlast hu, if_pos hu]
          exact walkWith_only_idles hj' d.up
        · rw [walkWith_stops hlast hu (hempty last) rfl, if_neg hu]
      rw [hpieces, FileSystem.directory_append hd hrest] at hl
      by_cases hu : last = ".."
      · rw [if_pos hu] at hl
        have hlen : d.1.dropLast = d.1 := Option.some.inj hl
        have := congrArg List.length hlen
        rw [List.length_dropLast] at this
        have hpos := List.length_pos_iff.2 hroot
        omega
      · rw [if_neg hu] at hl
        cases hl

section
variable {fs fs' : FileSystem β} {refused : Option Refusal} {p dir : Path} {name : String} {content : β}

/-- A created directory is where nothing was, and its path leads to it. -/
theorem FileSystem.createDir_ok (h : fs.createDir refused p = .ok fs') :
    ∃ loc, fs'.Leads p loc ∧ loc ≠ [] ∧ fs.node loc = none ∧
      fs'.node = Function.update fs.node loc (some .directory) := by
  unfold FileSystem.createDir at h
  split at h
  · cases h
  · split at h
    · cases h
    · next d name he =>
      split at h
      · next hp =>
        split at h
        · cases h
        · next hn =>
          obtain rfl := Except.ok.inj h
          obtain ⟨before, hfinal, hd⟩ := FileSystem.entry_final he hp
          obtain ⟨junk, hj, hpieces⟩ := Path.final_pieces hfinal
          generalize hfs' : fs.assign d name (some .directory) _ = fs'
          have hnode : fs'.node = Function.update fs.node (d.1 ++ [name]) (some .directory) := by rw [← hfs']; rfl
          have hat : fs'.node (d.1 ++ [name]) = some .directory := by rw [hnode, Function.update_self]
          have hd' := (Kept.update hn hnode).directory hd
          obtain ⟨hi, hu⟩ := Path.final_last hfinal hp
          refine ⟨d.1 ++ [name], ⟨hat, ?_⟩, by simp, hn, hnode⟩
          rw [hpieces]
          refine FileSystem.directory_append hd' fun follow => ?_
          rw [walkWith_directory hi hu hat]
          exact walkWith_only_idles hj _
      · cases h

/-- A new file is where nothing was, in the directory the path names. -/
theorem FileSystem.createNew_ok (h : fs.createNew refused dir name content = .ok fs') :
    ∃ d : Dir fs, fs.directory dir.pieces = .ok d ∧ fs.node (d.1 ++ [name]) = none ∧
      fs'.node = Function.update fs.node (d.1 ++ [name]) (some (.file content)) := by
  unfold FileSystem.createNew at h
  split at h
  · cases h
  · split at h
    · cases h
    · next d hd =>
      split at h
      · cases h
      · next hn =>
        obtain rfl := Except.ok.inj h
        exact ⟨d, hd, hn, rfl⟩

/-- Writing sets the content of a file and nothing else. -/
theorem FileSystem.write_node {loc : Location} {old : β} {d : Dir fs} (he : fs.entry p = .ok (d, name))
    (hl : d.1 ++ [name] = loc) (hn : fs.node loc = some (.file old)) :
    (fs.write p content).node = Function.update fs.node loc (some (.file content)) := by
  subst hl
  unfold FileSystem.write
  rw [he]
  dsimp only
  split
  · rfl
  · next hno => exact absurd hn (hno old)

/-- A file created and then written is one new entry. -/
theorem FileSystem.createNew_write {old : β} (h : fs.createNew refused dir name old = .ok fs') (hne : name ≠ "") :
    ∃ d : Dir fs, fs.directory dir.pieces = .ok d ∧ fs.node (d.1 ++ [name]) = none ∧
      (fs'.write (dir.join name) content).node =
        Function.update fs.node (d.1 ++ [name]) (some (.file content)) := by
  obtain ⟨d, hd, hn, hfs'⟩ := FileSystem.createNew_ok h
  have hk : Kept fs fs' := Kept.update hn hfs'
  have he : fs'.entry (dir.join name) = .ok (⟨d.1, hk _ _ d.2⟩, name) := by
    rw [fs'.entry_join dir hne, hk.directory hd]
    rfl
  refine ⟨d, hd, hn, ?_⟩
  have hat : fs'.node (d.1 ++ [name]) = some (.file old) := by rw [hfs', Function.update_self]
  have hw : (fs'.write (dir.join name) content).node =
      Function.update fs'.node (d.1 ++ [name]) (some (.file content)) := FileSystem.write_node he rfl hat
  rw [hw, hfs', Function.update_idem]

/-- A renamed file stands at its new name, and what stood there was no directory. -/
theorem FileSystem.renameFile_ok {source target : Path} (h : fs.renameFile refused source target = .ok fs') :
    ∃ (d d' : Dir fs) (name name' : String) (content : β), fs.entry source = .ok (d, name) ∧
      fs.entry target = .ok (d', name') ∧ plain name' = true ∧ target.slash = false ∧
      fs.node (d.1 ++ [name]) = some (.file content) ∧ fs.node (d'.1 ++ [name']) ≠ some .directory ∧
      fs'.node = Function.update (Function.update fs.node (d.1 ++ [name]) none) (d'.1 ++ [name'])
        (some (.file content)) := by
  unfold FileSystem.renameFile at h
  split at h
  · cases h
  · split at h
    · cases h
    · cases h
    · next d name d' name' hs ht =>
      split at h
      · next hp =>
        split at h
        · next content hn =>
          split at h
          · cases h
          · next hslash =>
            split at h
            · cases h
            · next hdir =>
              obtain rfl := Except.ok.inj h
              exact ⟨d, d', name, name', content, hs, ht, hp, by simpa using hslash, hn,
                fun hd => hdir (isDirectory_iff.2 hd), rfl⟩
        · cases h
      · cases h

/-- Only the entry the path names is removed, and it was no directory. -/
theorem FileSystem.removeFile_ok (h : fs.removeFile refused p = .ok fs') :
    ∃ (d : Dir fs) (name : String), fs.entry p = .ok (d, name) ∧ plain name = true ∧
      fs.node (d.1 ++ [name]) ≠ some .directory ∧ fs'.node = Function.update fs.node (d.1 ++ [name]) none := by
  unfold FileSystem.removeFile at h
  split at h
  · cases h
  · split at h
    · cases h
    · next d name he =>
      split at h
      · next hp =>
        split at h
        · cases h
        · split at h
          · cases h
          · next hdir =>
            split at h
            · cases h
            · obtain rfl := Except.ok.inj h
              exact ⟨d, name, he, hp, fun hd => hdir (isDirectory_iff.2 hd), rfl⟩
      · cases h

/-- Where an entry that is no directory was removed or replaced by a file, the path still leads to it or ends on the
way, at a link that is no more. -/
theorem FileSystem.entry_updated {d : Dir fs} {n : Option (Node β)} {e : IoError} (he : fs.entry p = .ok (d, name))
    (hp : plain name = true) (hfree : fs.node (d.1 ++ [name]) ≠ some .directory)
    (hnode : fs'.node = Function.update fs.node (d.1 ++ [name]) n) (hn : stops n = some e) :
    (∃ d' : Dir fs', d'.1 = d.1 ∧ fs'.entry p = .ok (d', name)) ∨ fs'.entry p = .error e := by
  obtain ⟨before, hfinal, hd⟩ := FileSystem.entry_final he hp
  have hdir : ∀ p, fs.node p = some .directory → fs'.node p = some .directory := by
    intro p hp
    have hne : p ≠ d.1 ++ [name] := fun heq => hfree (heq ▸ hp)
    rw [hnode, Function.update_of_ne hne, hp]
  have hlink : ∀ p target, fs.node p = some (.symlink target) → fs'.node p = some (.symlink target) ∨
      True ∧ stops (fs'.node p) = some e := by
    intro p target hp
    rw [hnode, Function.update_apply]
    split
    · exact .inr ⟨trivial, hn⟩
    · exact .inl hp
  rw [FileSystem.entry, hfinal]
  rcases FileSystem.directory_transfer hdir hlink hd with h | ⟨-, h⟩
  · exact .inl ⟨⟨d.1, hdir _ d.2⟩, rfl, by simp only [h, Except.map]⟩
  · exact .inr (by simp only [h, Except.map])

/-- A call that is not refused removes a file. -/
theorem FileSystem.removeFile_file {d : Dir fs} (he : fs.entry p = .ok (d, name)) (hp : plain name = true)
    (hs : p.slash = false) (hn : fs.node (d.1 ++ [name]) = some (.file content)) :
    ∃ fs', fs.removeFile none p = .ok fs' ∧ fs'.node = Function.update fs.node (d.1 ++ [name]) none := by
  have hd : ¬ isDirectory (fs.node (d.1 ++ [name])) = true := by simp [hn, isDirectory]
  refine ⟨fs.assign d name none fun h => hd (isDirectory_iff.2 h), ?_, rfl⟩
  simp [FileSystem.removeFile, he, hp, hs, hn, isDirectory]

/-- An error that says there is nothing comes from the tree, not from the host. -/
theorem FileSystem.removeFile_notFound {e : IoError} (h : fs.removeFile refused p = .error e)
    (hk : e.kind = .notFound) :
    fs.entry p = .error e ∨ ∃ (d : Dir fs) (name : String), fs.entry p = .ok (d, name) ∧ plain name = true ∧
      fs.node (d.1 ++ [name]) = none := by
  unfold FileSystem.removeFile at h
  split at h
  · next r =>
    obtain rfl := Except.error.inj h
    exact absurd hk r.unrelated.1
  · split at h
    · next e' he =>
      obtain rfl := Except.error.inj h
      exact .inl he
    · next d name he =>
      split at h
      · next hp =>
        split at h
        · next hn => exact .inr ⟨d, name, he, hp, Option.isNone_iff_eq_none.1 hn⟩
        · split at h
          · obtain rfl := Except.error.inj h
            cases hk
          · split at h
            · obtain rfl := Except.error.inj h
              cases hk
            · cases h
      · obtain rfl := Except.error.inj h
        cases hk

/-- A path is absent where its way ends or leads to nothing. -/
theorem FileSystem.absent_of_entry (h : (∃ e, fs.entry p = .error e) ∨ ∃ (d : Dir fs) (name : String),
    fs.entry p = .ok (d, name) ∧ plain name = true ∧ fs.node (d.1 ++ [name]) = none) : fs.Absent p := by
  intro loc hl
  rcases h with ⟨e, he⟩ | ⟨d, name, he, hp, hn⟩
  · simp [FileSystem.locate, he] at hl
  · rw [FileSystem.locate_plain he hp] at hl
    rw [← Option.some.inj hl, hn]

/-- What leads to nothing is not there to be removed. -/
theorem FileSystem.removeFile_none {e : IoError} (hk : e.kind = .notFound)
    (h : fs.entry p = .error e ∨ ∃ (d : Dir fs) (name : String),
      fs.entry p = .ok (d, name) ∧ plain name = true ∧ fs.node (d.1 ++ [name]) = none) :
    fs.Absent p ∧ ∃ e, fs.removeFile none p = .error e ∧ e.kind = .notFound := by
  refine ⟨FileSystem.absent_of_entry (h.imp_left fun he => ⟨e, he⟩), ?_⟩
  unfold FileSystem.removeFile
  rcases h with he | ⟨d, name, he, hp, hn⟩
  · exact ⟨e, by simp only [he], hk⟩
  · exact ⟨.os .notFound, by simp [he, hp, hn], rfl⟩

/-- After a removal the path is absent, and a second one finds nothing. -/
theorem FileSystem.removeFile_gone (h : fs.removeFile refused p = .ok fs') :
    fs'.Absent p ∧ ∃ e, fs'.removeFile none p = .error e ∧ e.kind = .notFound := by
  obtain ⟨d, name, he, hp, hfree, hnode⟩ := FileSystem.removeFile_ok h
  refine FileSystem.removeFile_none (e := .os .notFound) rfl ?_
  rcases FileSystem.entry_updated he hp hfree hnode rfl with ⟨d', hd', he'⟩ | he'
  · exact .inr ⟨d', name, he', hp, by rw [hd', hnode, Function.update_self]⟩
  · exact .inl he'

end

end Files
