import FaultForge.Agent.Catalog
import FaultForge.Master.Catalog
import FaultForge.Master.Ledger

/-!
# What the master accepts, the agent accepts (experiment.rs:216-295, dispatch.rs:179-213, supervisor.rs:152-335)

VALIDATE and `setup` check a fault with code of their own: the name and the version against a charset, the plugin by its
digest, the parameters after a round trip through JSON, the duration, and the characters of the instance id.
`accepted_sets_up`: on a clean host that has the plugin files of the master, whatever VALIDATE accepts is set up, with
the parameters of the action.
-/
namespace FaultForge

open Text

/-! ## Parameters that JSON gives back -/

/-- A string, a boolean or a 64-bit integer. -/
def Value.isScalar : Value → Bool
  | .bool _ | .unsigned _ | .negative _ | .string _ => true
  | .null | .float _ | .array _ | .object _ => false

def Params.Scalar (params : Params) : Prop := ∀ name value, params.lookup name = some value → value.isScalar = true

theorem ParamType.HasType.scalar {expected : ParamType} {value : Value} (h : expected.HasType value) :
    value.isScalar = true := by
  rcases h with s | ⟨z, hz, -⟩ | b
  · rfl
  · cases value <;> first | rfl | cases hz
  · rfl

/-- Parameters that fit a schema are declared in it, so each of them has a type. -/
theorem validateParams_scalar {schema : ParamsSchema} {params : Params} (h : validateParams schema params = .ok ()) :
    params.Scalar := by
  intro name value hv
  have hc := validateParams_ok_iff.1 h
  have hname : name ∈ params := AList.lookup_isSome.1 (by rw [hv]; rfl)
  obtain ⟨expected, he⟩ := Option.isSome_iff_exists.1 (AList.lookup_isSome.2 ((hc.keys name).1 hname))
  exact (hc.types name expected value he hv).scalar

end FaultForge

namespace FaultForge.System

open Agent Master Text

/-! ## Instance ids -/

/-- The characters of a journal file stem. -/
def isStemChar (c : Char) : Bool := isAsciiAlphanumeric c || c == '.' || c == '_' || c == ':' || c == '-'

theorem toString_stem (n : Nat) : ∀ c ∈ (toString n).toList, isStemChar c = true := by
  intro c hc
  have hd := isDigit_of_mem_toString hc
  simp [isStemChar, isAsciiAlphanumeric, hd]

theorem toString_int_stem (n : Int) : ∀ c ∈ (toString n).toList, isStemChar c = true := by
  cases n with
  | ofNat n => exact toString_stem n
  | negSucc n =>
    have h : (toString (Int.negSucc n)).toList = '-' :: (toString (n + 1)).toList := by simp [toString, Int.repr]
    rw [h]
    intro c hc
    rcases List.mem_cons.1 hc with rfl | hc
    · rfl
    · exact toString_stem (n + 1) c hc

theorem mint_stem (nowMs : Int) (seq : Nat) : ∀ c ∈ (ExperimentId.mint nowMs seq).toList, isStemChar c = true := by
  rw [mint_toList, String.toList_append]
  intro c hc
  rcases List.mem_append.1 hc with hc | hc
  · rcases List.mem_append.1 hc with hc | hc
    · have hexp : ∀ c ∈ "exp-".toList, isStemChar c = true := List.all_eq_true.1 (by decide)
      exact hexp c hc
    · exact toString_int_stem nowMs c hc
  · rcases List.mem_cons.1 hc with rfl | hc
    · rfl
    · exact toString_stem seq c hc

theorem hostname_stem {s : String} (h : hostnameIdSafe s = true) : ∀ c ∈ s.toList, isStemChar c = true := by
  simp only [hostnameIdSafe, Bool.and_eq_true, List.all_eq_true] at h
  intro c hc
  have hs := h.2 c hc
  simp only [isStemChar, Bool.or_eq_true] at hs ⊢
  tauto

/-- **The agent can use every id that is minted for a safe hostname.** -/
theorem instanceId_valid (nowMs : Int) (seq : Nat) {hostname : Hostname} (h : hostnameIdSafe hostname.val = true)
    (action : Nat) : validInstanceId (instanceId (.mint nowMs seq) hostname action) = true := by
  have hlist := instanceId_toList (.mint nowMs seq) hostname action
  have hcolon : ':' ∈ (instanceId (.mint nowMs seq) hostname action).toList := by
    rw [hlist]
    simp
  have hne : ∀ s : String, ':' ∉ s.toList → instanceId (.mint nowMs seq) hostname action ≠ s :=
    fun s hs he => hs (he ▸ hcolon)
  have hall : ∀ c ∈ (instanceId (.mint nowMs seq) hostname action).toList, isStemChar c = true := by
    rw [hlist]
    intro c hc
    rcases List.mem_append.1 hc with hc | hc
    · exact mint_stem nowMs seq c hc
    · rcases List.mem_cons.1 hc with rfl | hc
      · rfl
      · rcases List.mem_append.1 hc with hc | hc
        · exact hostname_stem h c hc
        · rcases List.mem_cons.1 hc with rfl | hc
          · rfl
          · exact toString_stem action c hc
  unfold validInstanceId
  simp only [Bool.and_eq_true, bne_iff_ne, List.all_eq_true]
  exact ⟨⟨⟨hne "" (by simp), hne "." (by decide)⟩, hne ".." (by decide)⟩, hall⟩

/-! ## Actions -/

/-- What VALIDATE has checked of a plugin and its parameters when it reports nothing. -/
theorem validatePlugin_nil {catalog : Catalog} {action : Nat} {d : ActionDefinition}
    (h : validatePlugin catalog action d = []) :
    ∃ entry, catalog.get d.plugin.name d.plugin.version = some entry ∧
      validateParams entry.manifest.paramsSchema d.params = .ok () ∧
      ¬ entry.manifest.maxDurationSecs < d.durationSecs := by
  unfold validatePlugin at h
  split at h
  next => cases h
  next entry he =>
    obtain ⟨hparams, hduration⟩ := List.append_eq_nil_iff.1 h
    refine ⟨entry, he, ?_, ?_⟩
    · split at hparams
      · cases hparams
      next hok => exact hok
    · intro hlt
      rw [if_pos hlt] at hduration
      cases hduration

theorem validate_action {definition : ExperimentDefinition} {catalog : Catalog}
    {facts : AList fun _ : String => HostFacts} (h : validate definition catalog facts = []) {action : Nat}
    {d : ActionDefinition} (hd : definition.actions[action]? = some d) :
    validatePlugin catalog action d = [] ∧ ∀ host ∈ d.hosts, hostnameIdSafe host = true := by
  unfold validate at h
  have hall := (List.append_eq_nil_iff.1 h).2
  rw [List.flatMap_eq_nil_iff] at hall
  have haction : validateAction catalog facts action d = [] := hall (d, action) (List.mem_zipIdx_iff_getElem?.2 hd)
  unfold validateAction at haction
  simp only [List.append_eq_nil_iff] at haction
  obtain ⟨⟨⟨-, hplugin⟩, -⟩, hhosts⟩ := haction
  exact ⟨hplugin, fun host hh => (validateHost_nil ((validateHosts_nil hhosts).2.2 host hh)).1⟩

/-! ## The agent -/

/-- The agent has, under `<name>@<version>`, the manifest and entrypoint bytes that the master has there. -/
def Installed (F : Formats) (entries : List RootEntry) (root : PluginRoot) (plugin : PluginRef) : Prop :=
  ∀ files, .dir (some (pluginDirName plugin.name plugin.version)) files ∈ entries →
    ∃ files', root.dir (pluginDirName plugin.name plugin.version) = some files' ∧ files.Mirrors F files'

/-- The frame for an instance, as `send_run_faults` builds it. -/
theorem runFault_some {C : Master.Config} {e : Experiment} {i : InstanceRecord} {f : RunFault} {d : ActionDefinition}
    {entry : CatalogEntry} (hd : e.definition.actions[i.actionIndex]? = some d)
    (hentry : C.catalog.get d.plugin.name d.plugin.version = some entry) (h : runFault C e i = some f) :
    ∃ json, C.encodeParams d.params = some json ∧
      f = ⟨i.instanceId, d.plugin.name, d.plugin.version, entry.digest.val, json, d.durationSecs, e.graceSecs⟩ := by
  unfold runFault at h
  rw [hd] at h
  simp only [Option.bind_eq_bind, Option.bind_some, hentry] at h
  obtain ⟨json, hjson, hf⟩ := Option.bind_eq_some_iff.1 h
  exact ⟨json, hjson, (Option.some.inj hf).symm⟩

/-- **What the master accepts, an agent with the same plugin files accepts.** -/
theorem accepted_sets_up (F : Formats) (X : Ext) (C : Master.Config) (entries : List RootEntry) (root : PluginRoot)
    (definition : ExperimentDefinition) (facts : AList fun _ : String => HostFacts) (nowMs : Int) (seq : Nat)
    (hcatalog : C.catalog = loadCatalog F (some entries))
    (hjson : ∀ params s, params.Scalar → C.encodeParams params = some s → X.parseParams s = .ok params)
    (hvalid : validate definition C.catalog facts = [])
    (hinstalled : ∀ d ∈ definition.actions, Installed F entries root d.plugin) (hostname : Hostname) (f : RunFault)
    (hf : .toHost hostname (.runFault f) ∈
      sendRunFaults C (mintExperiment (.mint nowMs seq) definition C.defaultGraceSecs nowMs C.deadlineMarginMs)) :
    validInstanceId f.instanceId = true ∧
      ∃ action d, definition.actions[action]? = some d ∧ hostname.val ∈ d.hosts ∧
        f.instanceId = instanceId (.mint nowMs seq) hostname action ∧
        ∃ plugin, setupOn F root X none f = .ok (plugin, d.params) := by
  obtain ⟨i, f', hi, hrun, he⟩ := mem_sendRunFaults hf
  obtain ⟨rfl, hff⟩ := Act.toHost.inj he
  obtain rfl := ServerMessage.runFault.inj hff
  obtain ⟨d, action, host, hd, hhost, hmint⟩ := mem_mint hi
  obtain ⟨name, hparse, rfl⟩ := mintInstance_some hmint
  obtain ⟨hplugin, hsafe⟩ := validate_action hvalid hd
  obtain ⟨entry, hentry, hparams, hduration⟩ := validatePlugin_nil hplugin
  obtain ⟨json, hencode, rfl⟩ := runFault_some hd hentry hrun
  have hname : name.val = host := parse_val (hsafe host hhost) hparse
  refine ⟨instanceId_valid nowMs seq (hname ▸ hsafe host hhost) action, action, d, hd, hname ▸ hhost, rfl, ?_⟩
  -- the directory that the master loaded the plugin from, and the one the agent has
  rw [hcatalog] at hentry
  obtain ⟨hn, hv, files, hfiles, hload⟩ := loadCatalog_entry hentry
  obtain ⟨files', hdir, hmirrors⟩ := hinstalled d (List.mem_of_getElem? hd) files hfiles
  rw [← hn, ← hv] at hdir
  have hload' : loadPlugin F files' = .ok ⟨entry.manifest, entry.digest⟩ := load_congr hmirrors hload
  have hresolved := resolveVerified_loaded hdir hload'
  rw [hn, hv] at hresolved
  have hdecoded : X.parseParams json = .ok d.params := hjson d.params json (validateParams_scalar hparams) hencode
  exact ⟨_, setupOn_ok rfl hresolved hdecoded hparams hduration⟩

/-! ## A sample plugin, for a run on fixed inputs -/

def stressYaml : String := "name: cpu-stress\nversion: 1.0.0\nentrypoint: ./run.sh\nparams_schema: \x7bcount: int\x7d\n"

def stressFormats : Formats where
  parseYaml s := if s = stressYaml then
      .ok ⟨"cpu-stress", "1.0.0", "./run.sh", (∅ : ParamsSchema).insert "count" .int, 600⟩
    else .error "not a manifest"
  sha256 _ := sampleDigest
  debugStr s := s!"\"{s}\""

def stressRead (path : String) : Except String ByteArray :=
  if path = MANIFEST_FILENAME then .ok stressYaml.toUTF8
  else if path = "./run.sh" then .ok "exit 0".toUTF8
  else .error "No such file or directory (os error 2)"

def stressEntries : List RootEntry :=
  [.file, .dir (some "cpu-stress@1.0.0") ⟨"/etc/master/cpu-stress@1.0.0", stressRead⟩]

def stressRoot : PluginRoot where
  path := "/opt/plugins"
  dir name := if name = "cpu-stress@1.0.0" then some ⟨"/opt/plugins/cpu-stress@1.0.0", stressRead⟩ else none
  located name files h := by
    obtain ⟨rfl, he⟩ := Option.ite_none_right_eq_some.1 h
    obtain rfl := Option.some.inj he
    decide +kernel

def stressParams : Params := (∅ : Params).insert "count" (.unsigned 3)

def stressJson : String := "\x7b\"count\":3\x7d"

def stressExt : Ext where
  parseParams s := if s = stressJson then .ok stressParams else .error "expected value"
  logLine _ _ _ := none
  durationDebug secs := s!"{secs}s"

def stressConfig : Master.Config :=
  { sampleConfig with
    catalog := loadCatalog stressFormats (some stressEntries)
    encodeParams := fun params => match params.entries with
      | [⟨"count", .unsigned 3⟩] => some stressJson
      | _ => none }

def stressDefinition : ExperimentDefinition := ⟨"stress", [⟨["web-01"], ⟨"cpu-stress", "1.0.0"⟩, stressParams, 60⟩]⟩

def stressRun : RunFault := ⟨"exp-1000-1:web-01:0", "cpu-stress", "1.0.0", sampleDigest.val, stressJson, 60, 30⟩

def stressFacts : AList fun _ : String => HostFacts :=
  (∅ : AList fun _ : String => HostFacts).insert "web-01" ⟨true, true, false⟩

theorem stress_json (params : Params) (s : String) (h : stressConfig.encodeParams params = some s) :
    stressExt.parseParams s = .ok params := by
  have hencode : (match params.entries with
      | [⟨"count", .unsigned 3⟩] => some stressJson
      | _ => none) = some s := h
  split at hencode
  next entries he =>
    obtain rfl := Option.some.inj hencode
    exact congrArg Except.ok (AList.ext he.symm)
  next => cases hencode

theorem accepted_sets_up_stress :
    validInstanceId stressRun.instanceId = true ∧
      ∃ action d, stressDefinition.actions[action]? = some d ∧ web01.val ∈ d.hosts ∧
        stressRun.instanceId = instanceId (.mint 1000 1) web01 action ∧
        ∃ plugin, setupOn stressFormats stressRoot stressExt none stressRun = .ok (plugin, d.params) := by
  refine accepted_sets_up stressFormats stressExt stressConfig stressEntries stressRoot stressDefinition stressFacts
    1000 1 rfl (fun params s _ => stress_json params s) (by decide +kernel) ?_ web01 stressRun ?_
  · intro d hd files hfiles
    obtain rfl := List.mem_singleton.1 hd
    have hfiles : files = ⟨"/etc/master/cpu-stress@1.0.0", stressRead⟩ := by
      rcases List.mem_cons.1 hfiles with h | h
      · cases h
      · exact (RootEntry.dir.inj (List.mem_singleton.1 h)).2
    subst hfiles
    exact ⟨⟨"/opt/plugins/cpu-stress@1.0.0", stressRead⟩, rfl, ⟨rfl, fun _ _ => rfl⟩⟩
  · refine List.mem_filterMap.2 ⟨⟨"exp-1000-1:web-01:0", web01, 0, .pending, "", 1000, false⟩, ?_, ?_⟩
    · decide +kernel
    · have hrun : runFault stressConfig
          (mintExperiment (.mint 1000 1) stressDefinition stressConfig.defaultGraceSecs 1000
            stressConfig.deadlineMarginMs)
          ⟨"exp-1000-1:web-01:0", web01, 0, .pending, "", 1000, false⟩ = some stressRun := by decide +kernel
      rw [hrun]
      rfl

end FaultForge.System
