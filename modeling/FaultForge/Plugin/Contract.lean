import FaultForge.Plugin.Restores

/-!
# What the plugin's exit codes say about the host

The agent's machine takes exit 20 of `inject` to mean that nothing was injected and skips the recovery, and exit 0 of
`abort` or `cleanup` to mean that the host is clean (fault/src/protocol.rs:218). `exit_contract` proves that the tree
agrees, whichever operation of an invocation the host refuses. One case is assumed away: a temporary file that the host
will not remove.

| invocation | tree |
| --- | --- |
| `inject`, exit 20 | as before |
| `report` | as before |
| `preflight` | as before, but for a new directory where `dirname(marker_path)` leads |
| `abort`, `cleanup`, exit 0 | nothing at `marker_path`, the rest as before |
| no absolute `marker_path` | as before, exit not 0 |
-/
namespace FaultForge.NoopMarker

open Files

section
variable {ext : Externals} {a : Answers} {input : PluginInput} {now : Nat} {fs fs' : FileSystem Bytes} {dir path : Path}

/-! ## Temporary files -/

/-- A temporary file that was created, perhaps written, and dropped has left no trace. -/
theorem dropTemp_clean {fs₁ : FileSystem Bytes} {d : Dir fs} {content : Bytes} (hr : a.remove = none)
    (hd : fs.directory dir.pieces = .ok d) (hn : fs.node (d.1 ++ [a.tempName]) = none)
    (hnode : fs₁.node = Function.update fs.node (d.1 ++ [a.tempName]) (some (.file content))) :
    dropTemp a fs₁ dir = fs := by
  obtain ⟨loc, hloc⟩ : ∃ loc, d.1 ++ [a.tempName] = loc := ⟨_, rfl⟩
  rw [hloc] at hn hnode
  have hd₁ := (Kept.update hn hnode).directory hd
  have hat : fs₁.node loc = some (.file content) := by rw [hnode, Function.update_self]
  refine FileSystem.ext (funext fun p => ?_)
  rw [dropTemp_node hd₁ hloc hat]
  by_cases hp : p = loc
  · rw [if_neg (by simp [hr, hp]), hp, hn]
  · rw [if_pos (.inr hp), hnode, Function.update_of_ne hp]

theorem writeMarker_failed {e : IoError} (hr : a.remove = none)
    (h : writeMarker ext a input now path fs = (.error e, fs')) : fs' = fs := by
  unfold writeMarker at h
  split at h
  · exact (Prod.mk.inj h).2.symm
  next dir _ =>
    dsimp only at h
    split at h
    · exact (Prod.mk.inj h).2.symm
    split at h
    · exact (Prod.mk.inj h).2.symm
    next fs₁ hc =>
      have hclean : ∀ content, dropTemp a (fs₁.write (dir.join a.tempName) content) dir = fs := by
        intro content
        obtain ⟨d, hd, hn, hnode⟩ := FileSystem.createNew_write hc (tempName_plain a).2
        exact dropTemp_clean hr hd hn hnode
      split at h
      · rw [← (Prod.mk.inj h).2, hclean]
      split at h
      · rw [← (Prod.mk.inj h).2, hclean]
      split at h
      · rw [← (Prod.mk.inj h).2, hclean]
      · cases (Prod.mk.inj h).1

/-! ## Each command -/

theorem inject_tree {o : PluginOutcome} (hr : a.remove = none) (h : inject ext a input now path fs = (o, fs')) :
    o.exit = EXIT_INJECT_FAILED ∧ fs' = fs ∨
      o.exit = EXIT_SUCCESS ∧ ∃ (d : Dir fs) (name : String) (bytes : Bytes), Injected fs fs' path d name bytes := by
  unfold inject at h
  dsimp only at h
  split at h
  · next hw =>
    obtain ⟨rfl, rfl⟩ := Prod.mk.inj h
    exact .inr ⟨rfl, writeMarker_ok hw⟩
  · next hw =>
    obtain ⟨rfl, rfl⟩ := Prod.mk.inj h
    exact .inl ⟨rfl, writeMarker_failed hr hw⟩

/-- Whatever becomes of it, a preflight makes the directory or nothing. -/
theorem preflight_tree {o : PluginOutcome} (hr : a.remove = none) (h : preflight ext a input now path fs = (o, fs')) :
    fs' = fs ∨ ∃ dir loc, path.parent = some dir ∧ fs'.Leads dir loc ∧ loc ≠ [] ∧ fs.node loc = none ∧
      fs'.node = Function.update fs.node loc (some .directory) := by
  unfold preflight at h
  split at h
  · exact .inl (Prod.mk.inj h).2.symm
  split at h
  · exact .inl (Prod.mk.inj h).2.symm
  next dir hdir =>
    split at h
    · exact .inl (Prod.mk.inj h).2.symm
    next fs₁ he =>
      obtain rfl : fs' = fs₁ := by
        split at h
        · exact (Prod.mk.inj h).2.symm
        next fs₂ hc =>
          obtain ⟨d, hd, hn, hnode⟩ := FileSystem.createNew_ok hc
          rw [← (Prod.mk.inj h).2, dropTemp_clean hr hd hn hnode]
      exact (ensureDir_ok he).imp_right fun ⟨loc, hmade⟩ => ⟨dir, loc, hdir, hmade⟩

/-- The entry of a directory that the path names by its last component. -/
def Names (fs : FileSystem Bytes) (path : Path) (loc : Location) : Prop :=
  ∃ (d : Dir fs) (name : String), fs.entry path = .ok (d, name) ∧ plain name = true ∧ loc = d.1 ++ [name]

/-- An abort or a cleanup that succeeds leaves nothing at the path, and a second one finds nothing to do. -/
theorem revert_tree {o : PluginOutcome} (h : revert ext a input now path fs = (o, fs')) :
    o.exit ≠ EXIT_SUCCESS ∧ fs' = fs ∨
      o.exit = EXIT_SUCCESS ∧ fs'.Absent path ∧ (∀ loc, fs'.node loc ≠ fs.node loc → Names fs path loc) ∧
        ∃ e, fs'.removeFile none path = .error e ∧ e.kind = .notFound := by
  unfold revert at h
  dsimp only at h
  split at h
  · next hrm =>
    obtain ⟨rfl, rfl⟩ := Prod.mk.inj h
    obtain ⟨d, name, he, hp, -, hnode⟩ := FileSystem.removeFile_ok hrm
    obtain ⟨habsent, hagain⟩ := FileSystem.removeFile_gone hrm
    exact .inr ⟨rfl, habsent, fun loc hne => ⟨d, name, he, hp, FileSystem.differs_at hnode hne⟩, hagain⟩
  · next e hrm =>
    split at h
    · next hk =>
      obtain ⟨rfl, rfl⟩ := Prod.mk.inj h
      obtain ⟨habsent, hagain⟩ := FileSystem.removeFile_none hk (FileSystem.removeFile_notFound hrm hk)
      exact .inr ⟨rfl, habsent, fun _ hne => absurd rfl hne, hagain⟩
    · obtain ⟨rfl, rfl⟩ := Prod.mk.inj h
      exact .inl ⟨by simp [EXIT_CLEANUP_FAILED, EXIT_SUCCESS], rfl⟩

end

/-! ## The contract -/

/-- The path an input names. -/
def PluginInput.path (input : PluginInput) : Option Path := input.markerPath.map Path.ofText

theorem parseCommand_word {word : String} {command : PluginCommand} (h : parseCommand word = .ok command) :
    word = command.asStr := by
  unfold parseCommand at h
  split at h <;> cases h <;> rfl

section
variable {ext : Externals} {a : Answers} {input : PluginInput} {now : Nat}

theorem PluginInput.path_some {path : Path} (h : input.path = some path) :
    ∃ text, input.markerPath = some text ∧ path = Path.ofText text := by
  obtain ⟨text, ht, rfl⟩ := Option.map_eq_some_iff.1 h
  exact ⟨text, ht, rfl⟩

/-- Without an absolute path a command fails and touches nothing. -/
theorem run_unusable (h : ∀ path, input.path = some path → path.absolute = false) (command : PluginCommand)
    (fs : FileSystem Bytes) :
    (run ext a input now command fs).1.exit ≠ EXIT_SUCCESS ∧ (run ext a input now command fs).2 = fs := by
  unfold run
  cases hp : input.markerPath with
  | none => exact ⟨by simp [EXIT_UNEXPECTED, EXIT_SUCCESS], rfl⟩
  | some text =>
    have hrel : (Path.ofText text).absolute = false := h _ (by simp [PluginInput.path, hp])
    dsimp only
    by_cases hc : command = .preflight
    · subst hc
      simp [preflight, hrel, fail, EXIT_PREFLIGHT_FAILED, EXIT_SUCCESS]
    · rw [if_pos ⟨hc, hrel⟩]
      exact ⟨by simp [fail, EXIT_UNEXPECTED, EXIT_SUCCESS], rfl⟩

/-- With one it is the command's own function. -/
theorem run_usable {path : Path} (h : input.path = some path) (habs : path.absolute = true) (command : PluginCommand)
    (fs : FileSystem Bytes) :
    run ext a input now command fs =
      match command with
      | .preflight => preflight ext a input now path fs
      | .inject => inject ext a input now path fs
      | .report => (report ext a input now path fs, fs)
      | .abort | .cleanup => revert ext a input now path fs := by
  obtain ⟨text, ht, rfl⟩ := PluginInput.path_some h
  cases command <;> simp [run, ht, habs]

/-- One invocation fails and leaves everything, or has an absolute path. -/
theorem exec_cases (ext : Externals) (i : Invocation) (command : PluginCommand) (fs : FileSystem Bytes) :
    (i.exec ext command fs).1 ≠ EXIT_SUCCESS ∧ (i.exec ext command fs).2 = fs ∨
      ∃ path, i.input.path = some path ∧ path.absolute = true := by
  by_cases h : ∃ path, i.input.path = some path ∧ path.absolute = true
  · exact .inr h
  · rw [Invocation.exec_run]
    exact .inl (run_unusable (fun path hp => by simpa using fun habs => h ⟨path, hp, habs⟩) command fs)

end

/-- What the exit of one invocation says of the tree it ran on. -/
structure ExitContract (ext : Externals) (i : Invocation) (fs : FileSystem Bytes) : Prop where
  inject_failed : i.answers.remove = none →
    (i.exec ext .inject fs).1 = EXIT_INJECT_FAILED → (i.exec ext .inject fs).2 = fs
  report : (i.exec ext .report fs).2 = fs
  /-- A location that a preflight changes is where `dirname(marker_path)` now leads, and held nothing. -/
  preflight_made : i.answers.remove = none → ∀ loc,
    (i.exec ext .preflight fs).2.node loc ≠ fs.node loc →
      fs.node loc = none ∧ (i.exec ext .preflight fs).2.node loc = some .directory ∧
        ∃ path dir, i.input.path = some path ∧ path.parent = some dir ∧ (i.exec ext .preflight fs).2.Leads dir loc
  /-- It is not a location that `marker_path` names, neither before nor after. -/
  preflight_marker : i.answers.remove = none → ∀ path loc, i.input.path = some path →
    fs.locate path = some loc ∨ (i.exec ext .preflight fs).2.locate path = some loc →
      (i.exec ext .preflight fs).2.node loc = fs.node loc
  reverted : ∀ command, command = .abort ∨ command = .cleanup → (i.exec ext command fs).1 = EXIT_SUCCESS →
    ∃ path, i.input.path = some path ∧ (i.exec ext command fs).2.Absent path ∧
      (∀ loc, fs.locate path ≠ some loc → (i.exec ext command fs).2.node loc = fs.node loc) ∧
      ∀ j : Invocation, j.input.path = some path → j.answers.remove = none →
        j.exec ext .cleanup (i.exec ext command fs).2 = (EXIT_SUCCESS, (i.exec ext command fs).2)
  /-- A word that is no command and an input that is not read count as well. -/
  unusable : ∀ word stdin,
    (∀ (command : PluginCommand) input path, word = some command.asStr → stdin = .ok input → input.path = some path →
      path.absolute = false) →
    (main ext i.answers i.now word stdin fs).1.2.2 ≠ EXIT_SUCCESS ∧ (main ext i.answers i.now word stdin fs).2 = fs
  confined : ∀ command, (command = .preflight ∨ command = .inject → i.answers.remove = none) → ∀ loc,
    (i.exec ext command fs).2.node loc ≠ fs.node loc →
      ∃ path dir, i.input.path = some path ∧ path.parent = some dir ∧
        (fs.Within dir loc ∨ (i.exec ext command fs).2.Within dir loc)

section
variable (ext : Externals) (i : Invocation) (fs : FileSystem Bytes)

theorem exec_inject_tree (hr : i.answers.remove = none) :
    (i.exec ext .inject fs).1 ≠ EXIT_SUCCESS ∧ (i.exec ext .inject fs).2 = fs ∨
      (i.exec ext .inject fs).1 = EXIT_SUCCESS ∧ ∃ path, i.input.path = some path ∧
        ∃ (d : Dir fs) (name : String) (bytes : Bytes), Injected fs (i.exec ext .inject fs).2 path d name bytes := by
  rcases exec_cases ext i .inject fs with h | ⟨path, hp, habs⟩
  · exact .inl h
  · rw [Invocation.exec_run, run_usable hp habs]
    dsimp only
    rcases inject_tree hr (Prod.eta (inject ext i.answers i.input i.now path fs)).symm with ⟨he, hfs⟩ | ⟨he, hinj⟩
    · exact .inl ⟨by rw [he]; decide, hfs⟩
    · exact .inr ⟨he, path, hp, hinj⟩

theorem exec_preflight_tree (hr : i.answers.remove = none) :
    (i.exec ext .preflight fs).2 = fs ∨ ∃ path dir loc, i.input.path = some path ∧ path.parent = some dir ∧
      (i.exec ext .preflight fs).2.Leads dir loc ∧ loc ≠ [] ∧ fs.node loc = none ∧
      (i.exec ext .preflight fs).2.node = Function.update fs.node loc (some .directory) := by
  rcases exec_cases ext i .preflight fs with h | ⟨path, hp, habs⟩
  · exact .inl h.2
  · rw [Invocation.exec_run, run_usable hp habs]
    dsimp only
    rcases preflight_tree hr (Prod.eta (preflight ext i.answers i.input i.now path fs)).symm with
      hfs | ⟨dir, loc, hmade⟩
    · exact .inl hfs
    · exact .inr ⟨path, dir, loc, hp, hmade⟩

theorem exec_revert_tree {command : PluginCommand} (hc : command = .abort ∨ command = .cleanup) :
    (i.exec ext command fs).1 ≠ EXIT_SUCCESS ∧ (i.exec ext command fs).2 = fs ∨
      (i.exec ext command fs).1 = EXIT_SUCCESS ∧ ∃ path, i.input.path = some path ∧ path.absolute = true ∧
        (i.exec ext command fs).2.Absent path ∧
        (∀ loc, (i.exec ext command fs).2.node loc ≠ fs.node loc → Names fs path loc) ∧
        ∃ e, (i.exec ext command fs).2.removeFile none path = .error e ∧ e.kind = .notFound := by
  rcases exec_cases ext i command fs with h | ⟨path, hp, habs⟩
  · exact .inl h
  · have hrun : run ext i.answers i.input i.now command fs = revert ext i.answers i.input i.now path fs := by
      rw [run_usable hp habs]
      rcases hc with rfl | rfl <;> rfl
    rw [Invocation.exec_run, hrun]
    have htree := revert_tree (Prod.eta (revert ext i.answers i.input i.now path fs)).symm
    exact htree.imp_right fun ⟨he, hrest⟩ => ⟨he, path, hp, habs, hrest⟩

/-- What a revert changes is the entry of the path, in the directory its parent leads to. -/
theorem revert_confined {command : PluginCommand} (hc : command = .abort ∨ command = .cleanup) {loc : Location}
    (hne : (i.exec ext command fs).2.node loc ≠ fs.node loc) :
    ∃ path dir, i.input.path = some path ∧ path.parent = some dir ∧
      (fs.Within dir loc ∨ (i.exec ext command fs).2.Within dir loc) := by
  rcases exec_revert_tree ext i fs hc with ⟨-, hfs⟩ | ⟨-, path, hp, -, -, hrest, -⟩
  · exact absurd (by rw [hfs]) hne
  · obtain ⟨d, name, he, hplain, rfl⟩ := hrest loc hne
    obtain ⟨dir, hdir, hd⟩ := FileSystem.entry_parent he hplain
    exact ⟨path, dir, hp, hdir, .inl ⟨d.1, ⟨d.2, hd⟩, .inr ⟨name, rfl⟩⟩⟩

/-- A preflight does not make what the path names: that is not the directory it made, which is empty. -/
theorem exec_preflight_marker {path : Path} {loc : Location} (hr : i.answers.remove = none)
    (hp : i.input.path = some path)
    (hloc : fs.locate path = some loc ∨ (i.exec ext .preflight fs).2.locate path = some loc) :
    (i.exec ext .preflight fs).2.node loc = fs.node loc := by
  rcases exec_preflight_tree ext i fs hr with hfs | ⟨path', dir, made, hp', hdir, hleads, hroot, hfree, hnode⟩
  · rw [hfs]
  · obtain rfl : path = path' := Option.some.inj (hp.symm.trans hp')
    have hk := Kept.update hfree hnode
    have hafter : (i.exec ext .preflight fs).2.locate path = some loc := hloc.elim hk.locate id
    have hempty : ∀ name, (i.exec ext .preflight fs).2.node (made ++ [name]) = none := by
      intro name
      rw [hnode, Function.update_of_ne (by simp)]
      by_contra hn
      rw [fs.nested made name hn] at hfree
      cases hfree
    have hne : loc ≠ made := fun heq =>
      FileSystem.locate_ne_parent hdir hleads hroot hempty (heq ▸ hafter)
    rw [hnode, Function.update_of_ne hne]

/-- A cleanup that finds nothing exits 0. -/
theorem exec_cleanup_idle {path : Path} (hp : i.input.path = some path) (habs : path.absolute = true)
    (hr : i.answers.remove = none) (h : ∃ e, fs.removeFile none path = .error e ∧ e.kind = .notFound) :
    i.exec ext .cleanup fs = (EXIT_SUCCESS, fs) := by
  obtain ⟨e, he, hk⟩ := h
  rw [Invocation.exec_run, run_usable hp habs]
  simp [revert, hr, he, hk]

/-- Without a command, an input or an absolute path. -/
theorem main_unusable {word : Option String} {stdin : Except String PluginInput}
    (h : ∀ (command : PluginCommand) input path, word = some command.asStr → stdin = .ok input →
      input.path = some path → path.absolute = false) :
    (main ext i.answers i.now word stdin fs).1.2.2 ≠ EXIT_SUCCESS ∧
      (main ext i.answers i.now word stdin fs).2 = fs := by
  unfold main
  cases word with
  | none => exact ⟨by simp [EXIT_UNEXPECTED, EXIT_SUCCESS], rfl⟩
  | some word =>
    dsimp only
    cases hw : parseCommand word with
    | error e => exact ⟨by simp [EXIT_UNEXPECTED, EXIT_SUCCESS], rfl⟩
    | ok command =>
      cases stdin with
      | error e => exact ⟨by simp [EXIT_UNEXPECTED, EXIT_SUCCESS], rfl⟩
      | ok input =>
        exact run_unusable (fun path hp => h command input path (by rw [parseCommand_word hw]) rfl hp) command fs

/-- **The exit codes are honest.** -/
theorem exit_contract : ExitContract ext i fs where
  inject_failed hr hexit := by
    rcases exec_inject_tree ext i fs hr with ⟨-, hfs⟩ | ⟨hok, -⟩
    · exact hfs
    · rw [hok] at hexit
      cases hexit
  report := by
    rw [Invocation.exec_run]
    exact run_report ext i.answers i.input i.now fs
  preflight_made hr loc hne := by
    rcases exec_preflight_tree ext i fs hr with hfs | ⟨path, dir, made, hp, hdir, hleads, -, hfree, hnode⟩
    · exact absurd (by rw [hfs]) hne
    · obtain rfl := FileSystem.differs_at hnode hne
      exact ⟨hfree, by rw [hnode, Function.update_self], path, dir, hp, hdir, hleads⟩
  preflight_marker hr _ _ hp hloc := exec_preflight_marker ext i fs hr hp hloc
  reverted command hc hexit := by
    rcases exec_revert_tree ext i fs hc with ⟨hno, -⟩ | ⟨-, path, hp, habs, habsent, hrest, hagain⟩
    · exact absurd hexit hno
    · refine ⟨path, hp, habsent, fun loc hloc => ?_, fun j hj hr => exec_cleanup_idle ext j _ hj habs hr hagain⟩
      by_contra hne
      obtain ⟨d, name, he, hplain, rfl⟩ := hrest loc hne
      exact hloc (FileSystem.locate_plain he hplain)
  unusable word stdin h := main_unusable ext i fs h
  confined command hr loc hne := by
    cases command with
    | preflight =>
      rcases exec_preflight_tree ext i fs (hr (.inl rfl)) with hfs | ⟨path, dir, made, hp, hdir, hleads, -, -, hnode⟩
      · exact absurd (by rw [hfs]) hne
      · obtain rfl := FileSystem.differs_at hnode hne
        exact ⟨path, dir, hp, hdir, .inr ⟨loc, hleads, .inl rfl⟩⟩
    | inject =>
      rcases exec_inject_tree ext i fs (hr (.inr rfl)) with ⟨-, hfs⟩ | ⟨-, path, hp, d, name, bytes, hin⟩
      · exact absurd (by rw [hfs]) hne
      · obtain ⟨dir, hdir, hd⟩ := FileSystem.entry_parent hin.entry hin.plain
        obtain rfl := FileSystem.differs_at hin.node hne
        exact ⟨path, dir, hp, hdir, .inl ⟨d.1, ⟨d.2, hd⟩, .inr ⟨name, rfl⟩⟩⟩
    | report => exact absurd (by rw [Invocation.exec_run, run_report]) hne
    | abort => exact revert_confined ext i fs (.inl rfl) hne
    | cleanup => exact revert_confined ext i fs (.inr rfl) hne

/-- An inject without the marker's directory. -/
example : ((sampleInvocation .runtime "8kQ2xa").exec sampleExternals .inject bareHost).1 = EXIT_INJECT_FAILED := by
  decide +kernel

end

end FaultForge.NoopMarker
