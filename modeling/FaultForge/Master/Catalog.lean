import FaultForge.Fault.Catalog
import FaultForge.Master.Experiment

/-!
# The master's catalog (master/src/catalog.rs:59-110)

The catalog is read once, at startup. A directory that does not load, or whose name is not the identity of its
manifest, is skipped; so every entry is what an agent finds in the directory of that name (`loadCatalog_entry`). The
identity `<name>@<version>` can be read back, so no two directories offer the same plugin, and the order in which they
are read does not matter (`loadCatalog_exact`).
-/
namespace FaultForge.Master

/-- What `read_dir` gives. -/
inductive RootEntry
  | unreadable (error : String)
  /-- Not a directory. -/
  | file
  /-- A directory, with its name if that is UTF-8. -/
  | dir (name : Option String) (files : PluginDir)

def loadEntry (F : Formats) (catalog : Catalog) : RootEntry → Catalog
  | .unreadable _ | .file => catalog
  | .dir name files =>
    match loadPlugin F files with
    | .error _ => catalog
    | .ok loaded =>
      if name ≠ some loaded.manifest.identity then catalog
      else catalog.insert (loaded.manifest.name, loaded.manifest.version) ⟨loaded.manifest, loaded.digest⟩

/-- `load_catalog`; `none` for a root that cannot be read. -/
def loadCatalog (F : Formats) : Option (List RootEntry) → Catalog
  | none => ∅
  | some entries => entries.foldl (loadEntry F) ∅

/-- The entry was loaded from a directory of that name. -/
def LoadedFrom (F : Formats) (entries : List RootEntry) (name version : String) (entry : CatalogEntry) : Prop :=
  entry.manifest.name = name ∧ entry.manifest.version = version ∧
    ∃ files, .dir (some (pluginDirName name version)) files ∈ entries ∧
      loadPlugin F files = .ok ⟨entry.manifest, entry.digest⟩

section
variable {F : Formats} {name version : String} {entry : CatalogEntry}

theorem loadEntry_from {entries : List RootEntry} {catalog : Catalog} {e : RootEntry} (he : e ∈ entries)
    (hc : ∀ name version entry, catalog.get name version = some entry → LoadedFrom F entries name version entry)
    (h : (loadEntry F catalog e).get name version = some entry) : LoadedFrom F entries name version entry := by
  unfold loadEntry at h
  split at h
  next => exact hc _ _ _ h
  next => exact hc _ _ _ h
  next dirName files =>
    split at h
    next => exact hc _ _ _ h
    next loaded hload =>
      split at h
      next => exact hc _ _ _ h
      next hname =>
        have hname : dirName = some loaded.manifest.identity := not_not.1 hname
        by_cases hk : (name, version) = (loaded.manifest.name, loaded.manifest.version)
        · obtain ⟨rfl, rfl⟩ := Prod.mk.inj hk
          obtain rfl := Option.some.inj ((AList.lookup_insert catalog).symm.trans h)
          exact ⟨rfl, rfl, files, hname ▸ he, hload⟩
        · exact hc _ _ _ ((AList.lookup_insert_ne hk).symm.trans h)

theorem loadEntries_from {entries rest : List RootEntry} {catalog : Catalog} (hsub : rest ⊆ entries)
    (hc : ∀ name version entry, catalog.get name version = some entry → LoadedFrom F entries name version entry)
    (h : (rest.foldl (loadEntry F) catalog).get name version = some entry) :
    LoadedFrom F entries name version entry := by
  induction rest generalizing catalog with
  | nil => exact hc _ _ _ h
  | cons e rest ih =>
    obtain ⟨he, hrest⟩ := List.cons_subset.1 hsub
    exact ih hrest (fun _ _ _ => loadEntry_from he hc) h

/-- **Every catalog entry is what loads from the directory of its name.** -/
theorem loadCatalog_entry {entries : List RootEntry}
    (h : (loadCatalog F (some entries)).get name version = some entry) :
    LoadedFrom F entries name version entry := by
  refine loadEntries_from (List.Subset.refl entries) (fun name version entry h => ?_) h
  have hnone : (∅ : Catalog).get name version = none := AList.lookup_empty _
  rw [hnone] at h
  cases h

end

/-! ## What a directory offers -/

def RootEntry.dirName : RootEntry → Option String
  | .dir name _ => name
  | _ => none

/-- What `load_catalog` takes from one directory entry. -/
def RootEntry.offer (F : Formats) : RootEntry → Option ((String × String) × CatalogEntry)
  | .unreadable _ | .file => none
  | .dir name files =>
    match loadPlugin F files with
    | .error _ => none
    | .ok loaded =>
      if name ≠ some loaded.manifest.identity then none
      else some ((loaded.manifest.name, loaded.manifest.version), ⟨loaded.manifest, loaded.digest⟩)

/-- `<name>@<version>` determines name and version: neither half of a manifest's identity has an `@`. -/
theorem identity_inj {m : Manifest} (hm : m.Valid) {name version : String}
    (h : pluginDirName name version = m.identity) : name = m.name ∧ version = m.version := by
  have hname : m.name.toList.count '@' = 0 := by
    rw [List.count_eq_zero]
    intro hc
    have hn := hm.name
    simp only [isPluginName, Bool.and_eq_true, List.all_eq_true] at hn
    have hat := hn.2 '@' hc
    revert hat
    decide
  have hversion : m.version.toList.count '@' = 0 := by
    rw [List.count_eq_zero]
    intro hc
    have hv := hm.version.2
    simp only [isValidPluginVersion, List.all_eq_true] at hv
    have hat := hv '@' hc
    revert hat
    decide
  have hlist : name.toList ++ '@' :: version.toList = m.name.toList ++ '@' :: m.version.toList := by
    have hl := congrArg String.toList h
    change (name ++ "@" ++ version).toList = (m.name ++ "@" ++ m.version).toList at hl
    simpa using hl
  -- there is one `@` on the right, so there is none in `name`
  have hcount := congrArg (List.count '@') hlist
  simp only [List.count_append, List.count_cons_self, hname, hversion] at hcount
  have hfree : '@' ∉ name.toList := List.count_eq_zero.1 (by omega)
  obtain ⟨h1, h2⟩ := Text.sep_inj hfree (List.count_eq_zero.1 hname) hlist
  exact ⟨String.toList_inj.1 h1, String.toList_inj.1 h2⟩

section
variable {F : Formats} {e : RootEntry} {name version : String} {entry : CatalogEntry}

theorem offer_iff : e.offer F = some ((name, version), entry) ↔
    ∃ files loaded, e = .dir (some (pluginDirName name version)) files ∧ loadPlugin F files = .ok loaded ∧
      loaded.manifest.identity = pluginDirName name version ∧ entry = ⟨loaded.manifest, loaded.digest⟩ := by
  constructor
  · intro h
    unfold RootEntry.offer at h
    split at h
    next => cases h
    next => cases h
    next dirName files =>
      split at h
      next => cases h
      next loaded hload =>
        split at h
        next => cases h
        next hname =>
          obtain ⟨⟨⟩, rfl⟩ := Prod.mk.inj (Option.some.inj h)
          exact ⟨files, loaded, by rw [not_not.1 hname]; rfl, hload, rfl, rfl⟩
  · rintro ⟨files, loaded, rfl, hload, hid, rfl⟩
    obtain ⟨rfl, rfl⟩ := identity_inj (loadPlugin_valid hload) hid.symm
    simp [RootEntry.offer, hload, hid]

theorem loadEntry_offer (catalog : Catalog) :
    loadEntry F catalog e = match e.offer F with
      | none => catalog
      | some o => catalog.insert o.1 o.2 := by
  unfold loadEntry RootEntry.offer
  split
  next => rfl
  next => rfl
  next =>
    split
    next => rfl
    next => split <;> rfl

/-- An entry that offers nothing might as well not be there. -/
theorem loadCatalog_skip {before after : List RootEntry} (h : e.offer F = none) :
    loadCatalog F (some (before ++ e :: after)) = loadCatalog F (some (before ++ after)) := by
  simp only [loadCatalog, List.foldl_append, List.foldl_cons, loadEntry_offer, h]

end

/-! ## The order of the directories -/

/-- A map that is filled with bindings of distinct keys holds them, and what it held of other keys. -/
theorem lookup_foldl_insert {α β : Type} [DecidableEq α] {l : List (α × β)} (hd : (l.map Prod.fst).Nodup)
    (m : AList fun _ : α => β) (k : α) (v : β) :
    (l.foldl (fun m b => m.insert b.1 b.2) m).lookup k = some v ↔
      (k, v) ∈ l ∨ k ∉ l.map Prod.fst ∧ m.lookup k = some v := by
  induction l generalizing m with
  | nil => simp
  | cons b l ih =>
    obtain ⟨hb, hl⟩ := List.nodup_cons.1 hd
    rw [List.foldl_cons, ih hl]
    by_cases hk : k = b.1
    · subst hk
      have hno : ∀ v, (b.1, v) ∉ l := fun v hm => hb (List.mem_map.2 ⟨(b.1, v), hm, rfl⟩)
      simp [AList.lookup_insert, hb, hno, Prod.ext_iff, eq_comm]
    · rw [AList.lookup_insert_ne hk]
      simp [hk, Prod.ext_iff]

section
variable {F : Formats} {entries : List RootEntry} {name version : String} {entry : CatalogEntry}

theorem loadEntries_offers (entries : List RootEntry) (catalog : Catalog) :
    entries.foldl (loadEntry F) catalog =
      (entries.filterMap (RootEntry.offer F)).foldl (fun m o => m.insert o.1 o.2) catalog := by
  rw [List.foldl_filterMap]
  congr 1
  funext catalog e
  rw [loadEntry_offer]
  cases e.offer F <;> rfl

/-- Directories with distinct names offer distinct plugins. -/
theorem offers_distinct (hd : (entries.filterMap RootEntry.dirName).Nodup) :
    ((entries.filterMap (RootEntry.offer F)).map Prod.fst).Nodup := by
  have hsub : (entries.filterMap fun e => (e.offer F).map fun o => pluginDirName o.1.1 o.1.2).Sublist
      (entries.filterMap RootEntry.dirName) := by
    clear hd
    induction entries with
    | nil => exact List.Sublist.slnil
    | cons e rest ih =>
      cases ho : e.offer F with
      | none =>
        rw [List.filterMap_cons_none (by rw [ho]; rfl)]
        exact ih.trans ((List.sublist_cons_self e rest).filterMap _)
      | some o =>
        obtain ⟨⟨name, version⟩, entry⟩ := o
        obtain ⟨files, -, rfl, -⟩ := offer_iff.1 ho
        have hname : (RootEntry.dir (some (pluginDirName name version)) files).dirName =
            some (pluginDirName name version) := rfl
        rw [List.filterMap_cons_some (b := pluginDirName name version) (by rw [ho]; rfl),
          List.filterMap_cons_some hname]
        exact ih.cons_cons _
  have hnames : (((entries.filterMap (RootEntry.offer F)).map Prod.fst).map fun k => pluginDirName k.1 k.2).Nodup := by
    rw [List.map_map, List.map_filterMap]
    exact hd.sublist hsub
  exact hnames.of_map

/-- The entry of a plugin is what the directory of its name offers. -/
theorem loadCatalog_get (hd : (entries.filterMap RootEntry.dirName).Nodup) :
    (loadCatalog F (some entries)).get name version = some entry ↔
      ∃ e ∈ entries, e.offer F = some ((name, version), entry) := by
  have hget : (loadCatalog F (some entries)).get name version =
      ((entries.filterMap (RootEntry.offer F)).foldl (fun m o => m.insert o.1 o.2) ∅ : Catalog).lookup
        (name, version) :=
    congrArg (fun c : Catalog => c.get name version) (loadEntries_offers entries ∅)
  rw [hget, lookup_foldl_insert (offers_distinct hd), AList.lookup_empty, List.mem_filterMap]
  simp

end

/-- **The catalog is what the directories offer.** It does not depend on their order; an entry is there exactly when
the directory of its name loads with that identity; a directory entry that offers nothing changes nothing, and what has
been loaded stays. -/
theorem loadCatalog_exact (F : Formats) (entries : List RootEntry)
    (hd : (entries.filterMap RootEntry.dirName).Nodup) :
    (∀ entries' : List RootEntry, entries.Perm entries' → ∀ name version,
      (loadCatalog F (some entries)).get name version = (loadCatalog F (some entries')).get name version) ∧
    (∀ name version entry, (loadCatalog F (some entries)).get name version = some entry ↔
      ∃ files loaded, .dir (some (pluginDirName name version)) files ∈ entries ∧ loadPlugin F files = .ok loaded ∧
        loaded.manifest.identity = pluginDirName name version ∧ entry = ⟨loaded.manifest, loaded.digest⟩) ∧
    ∀ before e after, entries = before ++ e :: after →
      ((∀ files loaded, e = .dir (some loaded.manifest.identity) files → loadPlugin F files ≠ .ok loaded) →
        ∀ name version, (loadCatalog F (some entries)).get name version =
          (loadCatalog F (some (before ++ after))).get name version) ∧
      ∀ name version entry, (loadCatalog F (some before)).get name version = some entry →
        (loadCatalog F (some entries)).get name version = some entry := by
  refine ⟨fun entries' hp name version => ?_, fun name version entry => ?_, fun before e after he => ⟨?_, ?_⟩⟩
  · have hd' : (entries'.filterMap RootEntry.dirName).Nodup := (hp.filterMap _).nodup_iff.1 hd
    refine Option.ext fun entry => ?_
    rw [loadCatalog_get hd, loadCatalog_get hd']
    exact exists_congr fun e => and_congr_left' hp.mem_iff
  · rw [loadCatalog_get hd]
    constructor
    · rintro ⟨e, he, ho⟩
      obtain ⟨files, loaded, rfl, hload, hid, hentry⟩ := offer_iff.1 ho
      exact ⟨files, loaded, he, hload, hid, hentry⟩
    · rintro ⟨files, loaded, he, hload, hid, hentry⟩
      exact ⟨_, he, offer_iff.2 ⟨files, loaded, rfl, hload, hid, hentry⟩⟩
  · intro hno name version
    have hnone : e.offer F = none := by
      cases ho : e.offer F with
      | none => rfl
      | some o =>
        obtain ⟨files, loaded, hdir, hload, hid, -⟩ := offer_iff.1 ho
        exact absurd hload (hno files loaded (hid ▸ hdir))
    rw [he, loadCatalog_skip hnone]
  · intro name version entry hget
    subst he
    have hbefore : (before.filterMap RootEntry.dirName).Nodup :=
      hd.sublist ((List.sublist_append_left before (e :: after)).filterMap _)
    obtain ⟨e', he', ho⟩ := (loadCatalog_get hbefore).1 hget
    exact (loadCatalog_get hd).2 ⟨e', List.mem_append_left _ he', ho⟩

/-- A plugin in the directory of its name, and a copy of it in another. -/
def markerEntries : List RootEntry :=
  [.dir (some "noop-marker@2") ⟨"/c/noop-marker@2", markerRead⟩, .unreadable "Input/output error (os error 5)",
    .dir (some "noop-marker@1") ⟨"/c/noop-marker@1", markerRead⟩, .dir none ⟨"/c/?", markerRead⟩, .file]

theorem loadCatalog_exact_marker :
    (loadCatalog markerFormats (some markerEntries)).get "noop-marker" "1" = some ⟨markerManifest, markerDigest⟩ ∧
      (loadCatalog markerFormats (some markerEntries)).get "noop-marker" "1" =
        (loadCatalog markerFormats (some markerEntries.reverse)).get "noop-marker" "1" := by
  obtain ⟨horder, hget, -⟩ := loadCatalog_exact markerFormats markerEntries (by decide)
  refine ⟨(hget _ _ _).2 ⟨⟨"/c/noop-marker@1", markerRead⟩, _, ?_, marker_loads _, rfl, rfl⟩, horder _ ?_ _ _⟩
  · exact .tail _ (.tail _ (.head _))
  · exact (List.reverse_perm markerEntries).symm

end FaultForge.Master
