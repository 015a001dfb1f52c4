import FaultForge.Agent.Runtime
import FaultForge.Fault.Catalog

/-!
# The agent's catalog (agent/catalog.rs:57-88)

`resolve_verified` runs before every invocation. The name and the version come from the wire: they are checked before
they are joined to the plugin root, so what is run lies below the root (`resolveVerified_contained`). The root itself
is the operator's: a `..` in it is kept.
-/
namespace FaultForge.Agent

inductive ResolveError
  | name (e : PluginNameError)
  | version (version : String)
  | notFound (path : String)
  | load (e : CatalogError)
  | digestMismatch (expected computed : Digest)

/-- The `Display` text of a `ResolveError`. -/
def ResolveError.toString (F : Formats) : ResolveError → String
  | .name e => s!"invalid plugin name: {e.toString}"
  | .version v => s!"invalid plugin version: {F.debugStr v}"
  | .notFound path => s!"plugin not in catalog: {path}"
  | .load e => s!"plugin failed to load: {e.toString}"
  | .digestMismatch expected computed => s!"digest mismatch: expected {expected.val}, computed {computed.val}"

structure PluginRoot where
  path : String
  /-- The directory of that name, if there is one. -/
  dir : String → Option PluginDir
  /-- It is found by joining its name to the root. -/
  located : ∀ name files, dir name = some files → files.path = joinPath path name

def resolveVerified (F : Formats) (root : PluginRoot) (name version : String) (expected : Digest) :
    Except ResolveError VerifiedPlugin :=
  match PluginName.parse name with
  | .error e => .error (.name e)
  | .ok name =>
    if !isValidPluginVersion version then .error (.version version)
    else
      match root.dir (pluginDirName name.val version) with
      | none => .error (.notFound (joinPath root.path (pluginDirName name.val version)))
      | some dir =>
        match loadPlugin F dir with
        | .error e => .error (.load e)
        | .ok loaded =>
          if loaded.digest ≠ expected then .error (.digestMismatch expected loaded.digest)
          else .ok ⟨joinPath dir.path loaded.manifest.entrypoint, loaded.manifest, loaded.digest⟩

/-- `setup` on the files of the host. -/
def setupOn (F : Formats) (root : PluginRoot) (X : Ext) (taint : Option TaintRecord) (run : RunFault) :
    Except String (VerifiedPlugin × Params) :=
  setup X taint run (match Digest.parse run.pluginDigest with
    | .error e => .error e.toString
    | .ok expected =>
      (resolveVerified F root run.pluginName run.pluginVersion expected).mapError (ResolveError.toString F))

section
variable {F : Formats} {root : PluginRoot} {dir : PluginDir} {loaded : LoadedPlugin}

/-- **A plugin that loads from its directory is resolved with its own digest.** -/
theorem resolveVerified_loaded
    (hdir : root.dir (pluginDirName loaded.manifest.name loaded.manifest.version) = some dir)
    (h : loadPlugin F dir = .ok loaded) :
    resolveVerified F root loaded.manifest.name loaded.manifest.version loaded.digest =
      .ok ⟨joinPath dir.path loaded.manifest.entrypoint, loaded.manifest, loaded.digest⟩ := by
  have hv := loadPlugin_valid h
  have hname : PluginName.parse loaded.manifest.name = .ok ⟨loaded.manifest.name, hv.name⟩ :=
    PluginName.parse_val ⟨_, hv.name⟩
  unfold resolveVerified
  rw [hname]
  simp only [hv.version.2, Bool.not_true, Bool.false_eq_true, if_false, hdir, h, ne_eq, not_true_eq_false]

/-- Setup goes through on a clean host when the plugin resolves and the parameters fit it. -/
theorem setupOn_ok {X : Ext} {run : RunFault} {expected : Digest} {plugin : VerifiedPlugin} {params : Params}
    (hdigest : run.pluginDigest = expected.val)
    (hplugin : resolveVerified F root run.pluginName run.pluginVersion expected = .ok plugin)
    (hparse : X.parseParams run.paramsJson = .ok params)
    (hparams : validateParams plugin.manifest.paramsSchema params = .ok ())
    (hduration : ¬ plugin.manifest.maxDurationSecs < run.durationSecs) :
    setupOn F root X none run = .ok (plugin, params) := by
  unfold setupOn setup
  rw [hdigest, expected.parse_val]
  simp only [hplugin, Except.mapError, hparse, hparams, hduration, if_false]

theorem resolveVerified_ok {name version : String} {expected : Digest} {plugin : VerifiedPlugin}
    (h : resolveVerified F root name version expected = .ok plugin) :
    isPluginName name = true ∧ isValidPluginVersion version = true ∧ ∃ dir loaded,
      root.dir (pluginDirName name version) = some dir ∧ loadPlugin F dir = .ok loaded ∧ loaded.digest = expected ∧
        plugin = ⟨joinPath dir.path loaded.manifest.entrypoint, loaded.manifest, loaded.digest⟩ := by
  unfold resolveVerified at h
  split at h
  next => cases h
  next parsed hname =>
    obtain rfl : parsed.val = name := by
      unfold PluginName.parse at hname
      split at hname
      next => cases hname
      next =>
        split at hname
        next => rw [← Except.ok.inj hname]
        next => cases hname
    obtain ⟨hversion, h⟩ := ok_of_check h
    split at h
    next => cases h
    next dir hdir =>
      split at h
      next => cases h
      next loaded hload =>
        obtain ⟨hdigest, h⟩ := ok_of_check h
        exact ⟨parsed.valid, by simpa using hversion, dir, loaded, hdir, hload, not_not.1 hdigest,
          (Except.ok.inj h).symm⟩

end

/-- **No plugin escapes the catalog.** The path that is run is the root, the one component `<name>@<version>`, and
components below it, none of them `..`. -/
theorem resolveVerified_contained (F : Formats) (root : PluginRoot) (name version : String) (expected : Digest) :
    (∀ plugin, resolveVerified F root name version expected = .ok plugin →
      ('/' ∉ (pluginDirName name version).toList ∧
        components (pluginDirName name version) = [pluginDirName name version] ∧
        pluginDirName name version ≠ "." ∧ pluginDirName name version ≠ "..") ∧
      isAbsolute plugin.entrypoint = isAbsolute root.path ∧
      ∃ below, components plugin.entrypoint = components root.path ++ pluginDirName name version :: below ∧
        ".." ∉ below ∧ (".." ∈ components plugin.entrypoint → ".." ∈ components root.path)) ∧
    ∀ yaml manifest, Manifest.parse F yaml = .ok manifest →
      isAbsolute manifest.entrypoint = false ∧ ".." ∉ components manifest.entrypoint := by
  refine ⟨fun plugin h => ?_, fun yaml manifest h => (Manifest.parse_valid h).inside⟩
  obtain ⟨hname, hversion, dir, loaded, hdir, hload, -, rfl⟩ := resolveVerified_ok h
  obtain ⟨hslash, hone, hdot, hparent⟩ := pluginDirName_component hname hversion
  obtain ⟨hrelative, hbelow⟩ := (loadPlugin_valid hload).inside
  have hpath := root.located _ dir hdir
  have hcomponents : components (joinPath dir.path loaded.manifest.entrypoint) =
      components root.path ++ pluginDirName name version :: components loaded.manifest.entrypoint := by
    rw [components_joinPath, hpath, components_joinPath, hone, List.append_assoc]
    rfl
  refine ⟨⟨hslash, hone, hdot, hparent⟩, ?_, components loaded.manifest.entrypoint, hcomponents, hbelow, fun hup => ?_⟩
  · rw [isAbsolute_joinPath hrelative, hpath, isAbsolute_joinPath (isAbsolute_name hslash)]
  · rw [hcomponents, List.mem_append, List.mem_cons] at hup
    rcases hup with hup | hup | hup
    · exact hup
    · exact absurd hup.symm hparent
    · exact absurd hup hbelow

/-! ## A plugin below two roots -/

def markerRoot (path : String) : PluginRoot where
  path
  dir name := if name = "noop-marker@1" then some ⟨joinPath path name, markerRead⟩ else none
  located name files h := by
    obtain ⟨-, he⟩ := Option.ite_none_right_eq_some.1 h
    obtain rfl := Option.some.inj he
    rfl

theorem marker_resolved (path : String) :
    resolveVerified markerFormats (markerRoot path) "noop-marker" "1" markerDigest =
      .ok ⟨joinPath (joinPath path "noop-marker@1") "./noop-marker", markerManifest, markerDigest⟩ :=
  resolveVerified_loaded (by rfl) (marker_loads _)

theorem resolveVerified_contained_marker :
    ∃ below, components "/usr/lib/faultforge/plugins/noop-marker@1/./noop-marker" =
      components "/usr/lib/faultforge/plugins" ++ "noop-marker@1" :: below ∧ ".." ∉ below := by
  have hcontained := resolveVerified_contained markerFormats (markerRoot "/usr/lib/faultforge/plugins") "noop-marker"
    "1" markerDigest
  obtain ⟨-, -, below, hc, hb, -⟩ := hcontained.1 _ (marker_resolved _)
  exact ⟨below, hc, hb⟩

/-- Below a root with a `..` so is the path that is run. -/
theorem resolved_above : ∃ plugin,
    resolveVerified markerFormats (markerRoot "../plugins") "noop-marker" "1" markerDigest = .ok plugin ∧
      plugin.entrypoint = "../plugins/noop-marker@1/./noop-marker" ∧ ".." ∈ components plugin.entrypoint :=
  ⟨_, marker_resolved _, by decide +kernel, by decide +kernel⟩

end FaultForge.Agent
