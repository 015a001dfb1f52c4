import FaultForge.Fault.Params

/-!
# Loading a plugin (crates/fault: manifest.rs, catalog.rs)

Master and agent load a plugin directory with the same function: the manifest is parsed and validated, and the digest is
computed over the bytes of the manifest and of the entrypoint. `load_congr` says that nothing else of a directory is
read.

| here | there |
| --- | --- |
| `PluginName.parse`, `isValidPluginVersion` | manifest.rs:34, 126 |
| `Manifest.parse`, `Manifest.validate` | manifest.rs:182, 201 |
| `pluginDirName`, `loadPlugin` | catalog.rs:60, 74 |

The YAML reader, SHA-256 and the `Debug` text of a `str` are the fields of `Formats`.
-/
namespace FaultForge

open Text

/-! ## Names -/

inductive PluginNameError
  | empty
  | invalidChar (name : String)
deriving DecidableEq, Repr

/-- The `Display` text of a `PluginNameError`. -/
def PluginNameError.toString : PluginNameError → String
  | .empty => "plugin name must not be empty"
  | .invalidChar name => s!"plugin name must contain only lowercase letters, digits, and '-': {name}"

def isPluginName (s : String) : Bool :=
  s != "" && s.toList.all fun c => ('a' ≤ c && c ≤ 'z') || c.isDigit || c == '-'

structure PluginName where
  val : String
  valid : isPluginName val
deriving DecidableEq

def PluginName.parse (s : String) : Except PluginNameError PluginName :=
  if s = "" then .error .empty
  else if h : isPluginName s then .ok ⟨s, h⟩
  else .error (.invalidChar s)

/-- An empty version passes. -/
def isValidPluginVersion (version : String) : Bool :=
  version.toList.all fun c => isAsciiAlphanumeric c || c == '.' || c == '_' || c == '+' || c == '-'

theorem PluginName.parse_val (name : PluginName) : PluginName.parse name.val = .ok name := by
  obtain ⟨s, hs⟩ := name
  have hne : s ≠ "" := by
    rintro rfl
    exact absurd hs (by decide)
  unfold PluginName.parse
  rw [if_neg hne, dif_pos hs]

/-- Every digest is parsed back from its text: its characters are one byte each. -/
theorem Digest.parse_val (d : Digest) : Digest.parse d.val = .ok d := by
  obtain ⟨s, hs⟩ := d
  have hv := hs
  simp only [isDigest, Bool.and_eq_true, beq_iff_eq, List.all_eq_true] at hv
  obtain ⟨hlen, hall⟩ := hv
  have hone : ∀ c ∈ s.toList, c.utf8Size = 1 := by
    intro c hc
    have h := hall c hc
    refine Char.utf8Size_eq_one_iff.2 ?_
    simp only [Char.isDigit, Char.le_def, UInt32.le_iff_toNat_le, Bool.or_eq_true, Bool.and_eq_true,
      decide_eq_true_eq, ge_iff_le] at h ⊢
    simp at h ⊢
    omega
  have hutf : utf8Len s.toList = 64 := (utf8Len_eq_length hone).trans hlen
  unfold Digest.parse
  rw [if_neg (by rw [hutf]; simp), dif_pos hs]

/-! ## Manifests -/

inductive ManifestError
  /-- The YAML does not parse; the text is that of the error inside. -/
  | parse (message : String)
  | entrypointEmpty
  | entrypointNotRelative (entrypoint : String)
  | entrypointEscapes (entrypoint : String)
  | versionEmpty
  | versionInvalidChar (version : String)
  | zeroDuration
deriving DecidableEq, Repr

/-- The `Display` text of a `ManifestError`. -/
def ManifestError.toString : ManifestError → String
  | .parse message => s!"failed to parse manifest: {message}"
  | .entrypointEmpty => "entrypoint must not be empty"
  | .entrypointNotRelative entrypoint => s!"entrypoint must be a relative path: {entrypoint}"
  | .entrypointEscapes entrypoint => s!"entrypoint must not contain '..': {entrypoint}"
  | .versionEmpty => "version must not be empty"
  | .versionInvalidChar version =>
    s!"version must contain only letters, digits, and '.', '_', '+', '-': {version}"
  | .zeroDuration => "max_duration_secs must be greater than zero"

/-- `RawManifest`, before its name is checked: what the YAML says. -/
structure RawManifest where
  name : String
  version : String
  entrypoint : String
  paramsSchema : ParamsSchema
  maxDurationSecs : UInt32

structure Formats where
  /-- `serde_norway::from_str::<RawManifest>`, but for the check of the name. -/
  parseYaml : String → Except String RawManifest
  /-- The hexadecimal SHA-256 sum. -/
  sha256 : ByteArray → Digest
  /-- The `Debug` text of a `str`. -/
  debugStr : String → String

def Manifest.validate (m : Manifest) : Except ManifestError Unit :=
  if m.entrypoint = "" then .error .entrypointEmpty
  else if m.entrypoint.toList.head? = some '/' then .error (.entrypointNotRelative m.entrypoint)
  else if ['.', '.'] ∈ m.entrypoint.toList.splitOn '/' then .error (.entrypointEscapes m.entrypoint)
  else if m.version = "" then .error .versionEmpty
  else if !isValidPluginVersion m.version then .error (.versionInvalidChar m.version)
  else if m.maxDurationSecs = 0 then .error .zeroDuration
  else .ok ()

def Manifest.parse (F : Formats) (yaml : String) : Except ManifestError Manifest :=
  match F.parseYaml yaml with
  | .error message => .error (.parse message)
  | .ok raw =>
    match PluginName.parse raw.name with
    | .error e => .error (.parse e.toString)
    | .ok name =>
      let manifest := ⟨name.val, raw.version, raw.entrypoint, raw.paramsSchema, raw.maxDurationSecs⟩
      match Manifest.validate manifest with
      | .error e => .error e
      | .ok () => .ok manifest

/-- `Manifest::identity`. -/
def Manifest.identity (m : Manifest) : String := s!"{m.name}@{m.version}"

/-! ## Plugin directories -/

def MANIFEST_FILENAME : String := "manifest.yaml"

structure PluginDir where
  path : String
  /-- The bytes of a file, by its path below the directory; the error is that of the operating system. -/
  read : String → Except String ByteArray

/-- `Path::join` with a relative path. -/
def joinPath (dir path : String) : String :=
  if dir = "" ∨ dir.toList.getLast? = some '/' then dir ++ path else s!"{dir}/{path}"

/-- `Path::is_absolute`. -/
def isAbsolute (path : String) : Bool := path.toList.head? = some '/'

/-- What stands between the separators of a path, without `.` and the empty pieces. -/
def components (path : String) : List String :=
  ((path.toList.splitOn '/').map String.ofList).filter fun piece => piece != "" && piece != "."

inductive CatalogError
  | readManifest (path source : String)
  | manifestNotUtf8 (path : String)
  | manifest (path : String) (source : ManifestError)
  | readEntrypoint (path source : String)
deriving DecidableEq, Repr

/-- The `Display` text of a `CatalogError`. -/
def CatalogError.toString : CatalogError → String
  | .readManifest path source => s!"could not read manifest at {path}: {source}"
  | .manifestNotUtf8 path => s!"manifest at {path} is not valid UTF-8"
  | .manifest path source => s!"invalid manifest at {path}: {source.toString}"
  | .readEntrypoint path source => s!"could not read entrypoint at {path}: {source}"

structure LoadedPlugin where
  manifest : Manifest
  digest : Digest

def pluginDirName (name version : String) : String := s!"{name}@{version}"

def loadPlugin (F : Formats) (dir : PluginDir) : Except CatalogError LoadedPlugin :=
  match dir.read MANIFEST_FILENAME with
  | .error source => .error (.readManifest (joinPath dir.path MANIFEST_FILENAME) source)
  | .ok bytes =>
    match String.fromUTF8? bytes with
    | none => .error (.manifestNotUtf8 (joinPath dir.path MANIFEST_FILENAME))
    | some yaml =>
      match Manifest.parse F yaml with
      | .error source => .error (.manifest (joinPath dir.path MANIFEST_FILENAME) source)
      | .ok manifest =>
        match dir.read manifest.entrypoint with
        | .error source => .error (.readEntrypoint (joinPath dir.path manifest.entrypoint) source)
        | .ok executable => .ok ⟨manifest, F.sha256 (bytes ++ executable)⟩

/-! ## Paths -/

section
variable {dir path name : String}

theorem components_append_slash (dir path : String) :
    components (dir ++ "/" ++ path) = components dir ++ components path := by
  have hlist : (dir ++ "/" ++ path).toList = dir.toList ++ '/' :: path.toList := by simp
  rw [components, hlist, List.splitOn_append_cons_self, List.map_append, List.filter_append]
  rfl

/-- Joining puts the components one after the other, whatever separators there were. -/
theorem components_joinPath (dir path : String) :
    components (joinPath dir path) = components dir ++ components path := by
  unfold joinPath
  split
  next h =>
    rcases h with rfl | h
    · simp [components]
    · obtain ⟨front, hf⟩ := List.getLast?_eq_some_iff.1 h
      have hdir : dir = String.ofList front ++ "/" ++ "" := String.toList_inj.1 (by simp [hf])
      have hjoin : dir ++ path = String.ofList front ++ "/" ++ path := by rw [hdir]; simp
      have hnone : components "" = [] := by simp [components]
      rw [hjoin, components_append_slash, hdir, components_append_slash, hnone, List.append_nil]
  next => exact components_append_slash dir path

theorem isAbsolute_joinPath (h : isAbsolute path = false) : isAbsolute (joinPath dir path) = isAbsolute dir := by
  by_cases hd : dir = ""
  · subst hd
    simpa [joinPath, isAbsolute] using h
  · have hcons : ∃ c cs, dir.toList = c :: cs := List.exists_cons_of_ne_nil fun hn => hd (String.toList_inj.1 hn)
    obtain ⟨c, cs, hc⟩ := hcons
    unfold joinPath isAbsolute
    split
    next => simp [hc]
    next =>
      show decide ((dir ++ "/" ++ path).toList.head? = some '/') = _
      simp [hc]

/-- A name without a separator is one component, unless it names nothing. -/
theorem components_name (h : '/' ∉ name.toList) (hne : name ≠ "") (hdot : name ≠ ".") : components name = [name] := by
  rw [components, List.splitOn_eq_singleton h]
  simp [hne, hdot]

theorem isAbsolute_name (h : '/' ∉ name.toList) : isAbsolute name = false := by
  have hno : name.toList.head? ≠ some '/' := fun he => h (List.mem_of_head? he)
  simpa [isAbsolute] using hno

theorem isPluginName_no_slash (h : isPluginName name = true) : '/' ∉ name.toList := by
  simp only [isPluginName, Bool.and_eq_true, List.all_eq_true] at h
  intro hc
  have hslash := h.2 '/' hc
  revert hslash
  decide

theorem isValidPluginVersion_no_slash {version : String} (h : isValidPluginVersion version = true) :
    '/' ∉ version.toList := by
  simp only [isValidPluginVersion, List.all_eq_true] at h
  intro hc
  have hslash := h '/' hc
  revert hslash
  decide

/-- **`<name>@<version>` is one component of a path**, neither `.` nor `..`; the version may be empty. -/
theorem pluginDirName_component {version : String} (hn : isPluginName name = true)
    (hv : isValidPluginVersion version = true) :
    '/' ∉ (pluginDirName name version).toList ∧ components (pluginDirName name version) = [pluginDirName name version] ∧
      pluginDirName name version ≠ "." ∧ pluginDirName name version ≠ ".." := by
  have hlist : (pluginDirName name version).toList = name.toList ++ '@' :: version.toList := by
    show (name ++ "@" ++ version).toList = _
    simp
  have hslash : '/' ∉ (pluginDirName name version).toList := by
    rw [hlist, List.mem_append, List.mem_cons]
    rintro (hc | hc | hc)
    · exact isPluginName_no_slash hn hc
    · cases hc
    · exact isValidPluginVersion_no_slash hv hc
  have hat : '@' ∈ (pluginDirName name version).toList := by simp [hlist]
  have hne : ∀ s : String, '@' ∉ s.toList → pluginDirName name version ≠ s := fun s hs he => hs (he ▸ hat)
  exact ⟨hslash, components_name hslash (hne "" (by decide)) (hne "." (by decide)), hne "." (by decide),
    hne ".." (by decide)⟩

end

/-! ## What a loaded plugin guarantees -/

/-- What a manifest that parses has been checked for. -/
structure Manifest.Valid (m : Manifest) : Prop where
  name : isPluginName m.name = true
  entrypoint : m.entrypoint ≠ "" ∧ m.entrypoint.toList.head? ≠ some '/' ∧
    ['.', '.'] ∉ m.entrypoint.toList.splitOn '/'
  version : m.version ≠ "" ∧ isValidPluginVersion m.version = true
  maxDurationSecs : m.maxDurationSecs ≠ 0

section
variable {F : Formats} {m : Manifest} {dir dir' : PluginDir} {l : LoadedPlugin}

/-- A check that has been passed. -/
theorem ok_of_check {ε α : Type} {c : Prop} [Decidable c] {e : ε} {x : Except ε α} {a : α}
    (h : (if c then .error e else x) = .ok a) : ¬ c ∧ x = .ok a := by
  by_cases hc : c
  · rw [if_pos hc] at h
    cases h
  · rw [if_neg hc] at h
    exact ⟨hc, h⟩

theorem Manifest.validate_ok (hn : isPluginName m.name = true) (h : m.validate = .ok ()) : m.Valid := by
  unfold Manifest.validate at h
  obtain ⟨hempty, h⟩ := ok_of_check h
  obtain ⟨habsolute, h⟩ := ok_of_check h
  obtain ⟨hparent, h⟩ := ok_of_check h
  obtain ⟨hversion, h⟩ := ok_of_check h
  obtain ⟨hcharset, h⟩ := ok_of_check h
  obtain ⟨hzero, -⟩ := ok_of_check h
  exact ⟨hn, ⟨hempty, habsolute, hparent⟩, ⟨hversion, by simpa using hcharset⟩, hzero⟩

theorem Manifest.parse_valid {yaml : String} (h : Manifest.parse F yaml = .ok m) : m.Valid := by
  unfold Manifest.parse at h
  split at h
  next => cases h
  next raw _ =>
    split at h
    next => cases h
    next name _ =>
      dsimp only at h
      split at h
      next => cases h
      next hv =>
        obtain rfl := Except.ok.inj h
        exact Manifest.validate_ok name.valid hv

/-- The entrypoint of a manifest that parses stays below the plugin directory. -/
theorem Manifest.Valid.inside (h : m.Valid) : isAbsolute m.entrypoint = false ∧ ".." ∉ components m.entrypoint := by
  obtain ⟨-, habs, hparent⟩ := h.entrypoint
  refine ⟨by simpa [isAbsolute] using habs, fun hc => ?_⟩
  obtain ⟨piece, hp, he⟩ := List.mem_map.1 (List.mem_filter.1 hc).1
  have hpiece : piece = ['.', '.'] := by
    have := congrArg String.toList he
    simpa using this
  exact hparent (hpiece ▸ hp)

/-- **Where a loaded plugin comes from.** -/
theorem loadPlugin_ok (h : loadPlugin F dir = .ok l) :
    ∃ bytes yaml executable, dir.read MANIFEST_FILENAME = .ok bytes ∧ String.fromUTF8? bytes = some yaml ∧
      Manifest.parse F yaml = .ok l.manifest ∧ dir.read l.manifest.entrypoint = .ok executable ∧
      l.digest = F.sha256 (bytes ++ executable) := by
  unfold loadPlugin at h
  split at h
  next => cases h
  next bytes hbytes =>
    split at h
    next => cases h
    next yaml hyaml =>
      split at h
      next => cases h
      next manifest hm =>
        split at h
        next => cases h
        next executable hx =>
          obtain rfl := Except.ok.inj h
          exact ⟨bytes, yaml, executable, hbytes, hyaml, hm, hx, rfl⟩

theorem loadPlugin_valid (h : loadPlugin F dir = .ok l) : l.manifest.Valid := by
  obtain ⟨bytes, yaml, executable, -, -, hm, -, -⟩ := loadPlugin_ok h
  exact Manifest.parse_valid hm

/-- A directory that has the manifest bytes of `dir`, and the bytes of the entrypoint which that manifest names. -/
structure PluginDir.Mirrors (F : Formats) (dir dir' : PluginDir) : Prop where
  manifest : dir'.read MANIFEST_FILENAME = dir.read MANIFEST_FILENAME
  entrypoint : ∀ l, loadPlugin F dir = .ok l → dir'.read l.manifest.entrypoint = dir.read l.manifest.entrypoint

/-- **The same bytes load as the same plugin**, wherever they are. -/
theorem load_congr (hm : dir.Mirrors F dir') (h : loadPlugin F dir = .ok l) : loadPlugin F dir' = .ok l := by
  obtain ⟨bytes, yaml, executable, hbytes, hyaml, hp, hx, hd⟩ := loadPlugin_ok h
  have hx' : dir'.read l.manifest.entrypoint = .ok executable := (hm.entrypoint l h).trans hx
  unfold loadPlugin
  rw [hm.manifest, hbytes]
  simp only [hyaml, hp, hx', ← hd]

end

/-! ## A plugin on disk -/

def markerYaml : String := "name: noop-marker\nversion: \"1\"\nentrypoint: ./noop-marker\nmax_duration_secs: 600\n"

def markerDigest : Digest := ⟨"9f86d081884c7d659a2feaa0c55ad015a3bf4f1b2b0b822cd15d6c15b0f00a08", by decide +kernel⟩

def markerManifest : Manifest := ⟨"noop-marker", "1", "./noop-marker", ∅, 600⟩

def markerFormats : Formats where
  parseYaml s := if s = markerYaml then .ok ⟨"noop-marker", "1", "./noop-marker", ∅, 600⟩ else .error "not a manifest"
  sha256 _ := markerDigest
  debugStr s := s!"\"{s}\""

def markerRead (path : String) : Except String ByteArray :=
  if path = MANIFEST_FILENAME then .ok markerYaml.toUTF8
  else if path = "./noop-marker" then .ok "#!/bin/sh".toUTF8
  else .error "No such file or directory (os error 2)"

theorem marker_loads (path : String) :
    loadPlugin markerFormats ⟨path, markerRead⟩ = .ok ⟨markerManifest, markerDigest⟩ := by
  have hyaml : String.fromUTF8? markerYaml.toUTF8 = some markerYaml := by decide +kernel
  have hparse : Manifest.parse markerFormats markerYaml = .ok markerManifest := by rfl
  have hmanifest : markerRead MANIFEST_FILENAME = .ok markerYaml.toUTF8 := by rfl
  have hentrypoint : markerRead "./noop-marker" = .ok "#!/bin/sh".toUTF8 := by rfl
  unfold loadPlugin
  simp only [hmanifest, hyaml, hparse]
  rw [show markerManifest.entrypoint = "./noop-marker" from rfl, hentrypoint]
  rfl

end FaultForge
