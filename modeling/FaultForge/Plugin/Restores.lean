import FaultForge.Plugin.NoopMarker

/-!
# Injecting and reverting the reference fault

`preflight` looks at the directory of `marker_path` and never at the path itself (main.rs:146-196), `inject` renames
its temporary file over whatever stands there (main.rs:309), and `revert` removes what it finds (main.rs:253). So the
host is restored exactly when nothing stood at the path: `Cycle.restored_iff`, over two preflights, an inject and any
abort and cleanup invocations. The plugin's documentation says its only host effect is the existence of the marker
(main.rs:3), and its specification that a successful preflight leaves no marker.

* `preflight_kept`: what a preflight leaves alone, and what may be new after it.
* `inject_node`: the tree after a successful inject.
* `revert_step`, `reverts_run`: one revert and any number of them, from the injected tree or the reverted one.
-/
namespace FaultForge.NoopMarker

open Files

/-! ## Invocations -/

/-- How an invocation ends: by itself, or killed before or after its last file operation. -/
inductive Fate | exits | killedBefore | killedAfter
deriving DecidableEq, Repr

structure Invocation where
  input : PluginInput
  now : Nat
  answers : Answers

/-- One process: its exit code and the tree it leaves. -/
def Invocation.exec (ext : Externals) (i : Invocation) (command : PluginCommand) (fs : FileSystem Bytes) :
    Nat × FileSystem Bytes :=
  let (out, fs) := main ext i.answers i.now (some command.asStr) (.ok i.input) fs
  (out.2.2, fs)

theorem Invocation.exec_run (ext : Externals) (i : Invocation) (command : PluginCommand) (fs : FileSystem Bytes) :
    i.exec ext command fs =
      ((run ext i.answers i.input i.now command fs).1.exit, (run ext i.answers i.input i.now command fs).2) := by
  simp only [Invocation.exec, main, parseCommand_asStr]

/-- An abort or a cleanup. -/
structure Reverting where
  command : PluginCommand
  reverts : command = .abort ∨ command = .cleanup
  invocation : Invocation
  fate : Fate

/-- Its exit code, none when it is killed, and the tree it leaves; it has one file operation. -/
def Reverting.exec (ext : Externals) (r : Reverting) (fs : FileSystem Bytes) : Option Nat × FileSystem Bytes :=
  let (exit, fs') := r.invocation.exec ext r.command fs
  match r.fate with
  | .exits => (some exit, fs')
  | .killedBefore => (none, fs)
  | .killedAfter => (none, fs')

/-- One after the other. -/
def execAll (ext : Externals) : List Reverting → FileSystem Bytes → List (Option Nat) × FileSystem Bytes
  | [], fs => ([], fs)
  | r :: rs, fs =>
    let (exit, fs) := r.exec ext fs
    let (exits, fs) := execAll ext rs fs
    (exit :: exits, fs)

/-! ## Preflight -/

theorem tempName_plain (a : Answers) : plain a.tempName = true ∧ a.tempName ≠ "" := by
  have hl : a.tempName.toList = ".tmp".toList ++ a.suffix.toList := by rw [Answers.tempName, String.toList_append]
  have hne : ∀ s : String, s.toList.length < 4 → a.tempName ≠ s := by
    intro s hs he
    rw [← he, hl] at hs
    simp at hs
    omega
  refine ⟨?_, hne "" (by decide)⟩
  simp [plain, hne "." (by decide), hne ".." (by decide)]

section
variable {ext : Externals} {a : Answers} {input : PluginInput} {now : Nat} {fs fs' : FileSystem Bytes} {dir : Path}

theorem ensureDir_ok (h : ensureDir a fs dir = .ok fs') :
    fs' = fs ∨ ∃ loc, fs'.Leads dir loc ∧ loc ≠ [] ∧ fs.node loc = none ∧
      fs'.node = Function.update fs.node loc (some .directory) := by
  unfold ensureDir at h
  split at h
  · next fs'' hc =>
    obtain rfl := Except.ok.inj h
    exact .inr (FileSystem.createDir_ok hc)
  · split at h
    · obtain rfl := Except.ok.inj h
      exact .inl rfl
    · cases h

/-- A dropped temporary file is gone, unless the host refuses. -/
theorem dropTemp_node {d : Dir fs} {loc : Location} {content : Bytes} (hd : fs.directory dir.pieces = .ok d)
    (hl : d.1 ++ [a.tempName] = loc) (hn : fs.node loc = some (.file content)) (p : Location) :
    (dropTemp a fs dir).node p = if a.remove.isSome ∨ p ≠ loc then fs.node p else none := by
  obtain ⟨hp, hne⟩ := tempName_plain a
  have he : fs.entry (dir.join a.tempName) = .ok (d, a.tempName) := by
    rw [fs.entry_join dir hne, hd]
    rfl
  have hs : (dir.join a.tempName).slash = false := by simp [Path.slash, Path.join, hne]
  subst hl
  unfold dropTemp
  cases hr : a.remove with
  | some r => simp [FileSystem.removeFile]
  | none =>
    obtain ⟨fs', h, hnode⟩ := FileSystem.removeFile_file he hp hs hn
    rw [h]
    dsimp only
    rw [hnode, Function.update_apply]
    simp [ite_not]

/-- The probe of a directory: a temporary file that is created there and dropped. Only its own location may differ
afterwards, and does when the host would not remove it. -/
structure Probed (a : Answers) (fs fs' : FileSystem Bytes) (dir : Path) (d : Dir fs) : Prop where
  directory : fs.directory dir.pieces = .ok d
  free : fs.node (d.1 ++ [a.tempName]) = none
  others : ∀ p, p ≠ d.1 ++ [a.tempName] → fs'.node p = fs.node p
  left : fs'.node (d.1 ++ [a.tempName]) = if a.remove.isSome then some (.file []) else none

theorem probe_ok {fs₁ : FileSystem Bytes} (hc : fs.createNew a.createTemp dir a.tempName [] = .ok fs₁) :
    ∃ d : Dir fs, Probed a fs (dropTemp a fs₁ dir) dir d := by
  obtain ⟨d, hd, hn, hfs₁⟩ := FileSystem.createNew_ok hc
  obtain ⟨loc, hloc⟩ : ∃ loc, d.1 ++ [a.tempName] = loc := ⟨_, rfl⟩
  rw [hloc] at hn hfs₁
  have hk : Kept fs fs₁ := Kept.update hn hfs₁
  have hat : fs₁.node loc = some (.file []) := by rw [hfs₁, Function.update_self]
  have hdrop := dropTemp_node (hk.directory hd) hloc hat
  refine ⟨d, hd, hloc ▸ hn, fun p hp => ?_, ?_⟩
  · rw [hloc] at hp
    rw [hdrop, if_pos (.inr hp), hfs₁, Function.update_of_ne hp]
  · rw [hloc, hdrop, hat]
    simp

theorem Probed.kept {d : Dir fs} (h : Probed a fs fs' dir d) : Kept fs fs' := by
  intro p n hp
  have hne : p ≠ d.1 ++ [a.tempName] := by
    rintro rfl
    rw [h.free] at hp
    cases hp
  rw [h.others p hne, hp]

/-- What a successful preflight leaves: all there was, perhaps a new directory, and a probe the host would not
remove. -/
structure Preflighted (a : Answers) (fs fs' : FileSystem Bytes) (dir : Path) : Prop where
  kept : Kept fs fs'
  found : ∃ d : Dir fs', fs'.directory dir.pieces = .ok d ∧
    (∀ p, fs.node p = none → fs'.node p = none ∨ fs'.node p = some .directory ∨
      a.remove.isSome ∧ p = d.1 ++ [a.tempName]) ∧
    (a.remove.isSome → fs'.node (d.1 ++ [a.tempName]) ≠ none)

/-- A successful preflight makes the directory and probes it. -/
theorem preflight_cases {path : Path} {o : PluginOutcome} (h : preflight ext a input now path fs = (o, fs'))
    (hexit : o.exit = EXIT_SUCCESS) :
    path.absolute = true ∧ ∃ dir fs₁ d, path.parent = some dir ∧ ensureDir a fs dir = .ok fs₁ ∧
      Probed a fs₁ fs' dir d := by
  unfold preflight at h
  split at h
  · obtain ⟨rfl, -⟩ := Prod.mk.inj h
    cases hexit
  next habs =>
    refine ⟨by simpa using habs, ?_⟩
    split at h
    · obtain ⟨rfl, -⟩ := Prod.mk.inj h
      cases hexit
    next dir hdir =>
      split at h
      · obtain ⟨rfl, -⟩ := Prod.mk.inj h
        cases hexit
      next fs₁ he =>
        split at h
        · obtain ⟨rfl, -⟩ := Prod.mk.inj h
          cases hexit
        next fs₂ hc =>
          obtain ⟨-, rfl⟩ := Prod.mk.inj h
          obtain ⟨d, hprobed⟩ := probe_ok hc
          exact ⟨dir, fs₁, d, hdir, he, hprobed⟩

theorem preflight_ok {path : Path} {o : PluginOutcome} (h : preflight ext a input now path fs = (o, fs'))
    (hexit : o.exit = EXIT_SUCCESS) :
    path.absolute = true ∧ ∃ dir, path.parent = some dir ∧ Preflighted a fs fs' dir := by
  obtain ⟨habs, dir, fs₁, d, hdir, he, hprobed⟩ := preflight_cases h hexit
  have hmade := ensureDir_ok he
  have hk₁ : Kept fs fs₁ := by
    rcases hmade with rfl | ⟨loc, -, -, hfree, hnode⟩
    · exact fun _ _ hp => hp
    · exact Kept.update hfree hnode
  have hk := hprobed.kept
  refine ⟨habs, dir, hdir, hk₁.trans hk, _, hk.directory hprobed.directory, fun p hp => ?_, fun hr => ?_⟩
  · dsimp only
    by_cases hpl : p = d.1 ++ [a.tempName]
    · cases hr : a.remove with
      | some r => exact .inr (.inr ⟨rfl, hpl⟩)
      | none =>
        left
        rw [hpl, hprobed.left, hr]
        rfl
    · rw [hprobed.others p hpl]
      rcases hmade with rfl | ⟨loc, -, -, -, hnode⟩
      · exact .inl hp
      · have hat : fs₁.node p = if p = loc then some .directory else fs.node p := by rw [hnode, Function.update_apply]
        by_cases hpd : p = loc
        · exact .inr (.inl (hat.trans (if_pos hpd)))
        · exact .inl ((hat.trans (if_neg hpd)).trans hp)
  · dsimp only
    rw [hprobed.left, if_pos hr]
    simp

/-! ## Inject -/

/-- A successful inject sets the entry the path names to a file, whatever it was before but a directory. -/
structure Injected (fs fs' : FileSystem Bytes) (path : Path) (d : Dir fs) (name : String) (bytes : Bytes) : Prop where
  entry : fs.entry path = .ok (d, name)
  plain : plain name = true
  slash : path.slash = false
  free : fs.node (d.1 ++ [name]) ≠ some .directory
  node : fs'.node = Function.update fs.node (d.1 ++ [name]) (some (.file bytes))

/-- A successful write creates the temporary file, fills it, and moves it to the path. -/
theorem writeMarker_cases {path : Path} (h : writeMarker ext a input now path fs = (.ok (), fs')) :
    ∃ (dir : Path) (bytes : Bytes) (fs₁ : FileSystem Bytes), path.parent = some dir ∧
      fs.createNew a.createTemp dir a.tempName [] = .ok fs₁ ∧
      (fs₁.write (dir.join a.tempName) bytes).renameFile a.rename (dir.join a.tempName) path = .ok fs' := by
  unfold writeMarker at h
  split at h
  · cases h
  next dir hdir =>
    dsimp only at h
    split at h
    · cases h
    next bytes _ =>
      split at h
      · cases h
      next fs₁ hc =>
        split at h
        · cases h
        split at h
        · cases h
        split at h
        · cases h
        next fs₃ hr =>
          obtain ⟨-, rfl⟩ := Prod.mk.inj h
          exact ⟨dir, bytes, fs₁, hdir, hc, hr⟩

/-- The path and the temporary file are entries of one directory, so the move replaces the one by the other. -/
theorem writeMarker_ok {path : Path} (h : writeMarker ext a input now path fs = (.ok (), fs')) :
    ∃ (d : Dir fs) (name : String) (bytes : Bytes), Injected fs fs' path d name bytes := by
  obtain ⟨dir, bytes, fs₁, hdir, hc, hr⟩ := writeMarker_cases h
  obtain ⟨hpt, hne⟩ := tempName_plain a
  obtain ⟨d, hd, hn, hfs₂⟩ := FileSystem.createNew_write hc hne
  obtain ⟨tmp, htmp⟩ : ∃ tmp, d.1 ++ [a.tempName] = tmp := ⟨_, rfl⟩
  rw [htmp] at hn hfs₂
  generalize fs₁.write (dir.join a.tempName) bytes = fs₂ at hr hfs₂
  have hk₂ : Kept fs fs₂ := Kept.update hn hfs₂
  have hd₂ := hk₂.directory hd
  obtain ⟨ds, dt, sname, name, content, hs, ht, hp, hslash, hfile, hfree, hnode⟩ := FileSystem.renameFile_ok hr
  rw [fs₂.entry_join dir hne, hd₂] at hs
  obtain ⟨rfl, rfl⟩ := Prod.mk.inj (Except.ok.inj hs)
  dsimp only at hfile hnode
  rw [htmp] at hfile hnode
  obtain ⟨before, hfinal, -⟩ := FileSystem.entry_final ht hp
  rw [fs₂.entry_of_parent hfinal hp hdir, hd₂] at ht
  obtain ⟨rfl, -⟩ := Prod.mk.inj (Except.ok.inj ht)
  obtain rfl : bytes = content := by
    rw [hfs₂, Function.update_self] at hfile
    exact Node.file.inj (Option.some.inj hfile)
  dsimp only at hfree hnode
  refine ⟨d, name, bytes, ?_, hp, hslash, ?_, ?_⟩
  · rw [fs.entry_of_parent hfinal hp hdir, hd]
    rfl
  · rw [hfs₂, Function.update_apply] at hfree
    split at hfree
    · next heq => rw [heq, hn]; simp
    · exact hfree
  · rw [hnode, hfs₂, Function.update_idem]
    congr 1
    exact (Function.update_eq_self_iff).2 hn.symm

theorem inject_ok {path : Path} {o : PluginOutcome} (h : inject ext a input now path fs = (o, fs'))
    (hexit : o.exit = EXIT_SUCCESS) :
    ∃ (d : Dir fs) (name : String) (bytes : Bytes), Injected fs fs' path d name bytes := by
  unfold inject at h
  dsimp only at h
  split at h
  · next hw =>
    obtain ⟨-, rfl⟩ := Prod.mk.inj h
    exact writeMarker_ok hw
  · obtain ⟨rfl, -⟩ := Prod.mk.inj h
    cases hexit

end

/-! ## Revert -/

section
variable {ext : Externals} {path : Path} {fs fs' : FileSystem Bytes} {d : Dir fs} {name : String} {bytes : Bytes}
  (hin : Injected fs fs' path d name bytes)
include hin

/-- With the marker in place the path leads to it, or ends at it where a link had led on. -/
theorem Injected.entry_after :
    (∃ d' : Dir fs', d'.1 = d.1 ∧ fs'.entry path = .ok (d', name)) ∨ fs'.entry path = .error (.os .notADirectory) :=
  FileSystem.entry_updated hin.entry hin.plain hin.free hin.node rfl

/-- Without the marker, what the path still leads to is where it was. -/
theorem Injected.entry_gone {x : FileSystem Bytes} (hx : x.node = Function.update fs.node (d.1 ++ [name]) none)
    {d' : Dir x} {name' : String} (h : x.entry path = .ok (d', name')) : d'.1 = d.1 ∧ name' = name := by
  rcases FileSystem.entry_updated hin.entry hin.plain hin.free hx rfl with ⟨d'', hd'', he⟩ | he
  · rw [he] at h
    obtain ⟨rfl, rfl⟩ := Prod.mk.inj (Except.ok.inj h)
    exact ⟨hd'', rfl⟩
  · rw [he] at h
    cases h

/-- One `revert` with the marker in place removes it, or fails and leaves everything. -/
theorem revert_injected {a : Answers} {input : PluginInput} {now : Nat} {o : PluginOutcome} {x : FileSystem Bytes}
    (h : revert ext a input now path fs' = (o, x)) :
    x.node = Function.update fs.node (d.1 ++ [name]) none ∨ x = fs' ∧ o.exit ≠ EXIT_SUCCESS := by
  unfold revert at h
  dsimp only at h
  split at h
  · next y hr =>
    obtain ⟨-, rfl⟩ := Prod.mk.inj h
    obtain ⟨d', name', he, -, -, hnode⟩ := FileSystem.removeFile_ok hr
    rcases hin.entry_after with ⟨d'', hd'', he'⟩ | he'
    · rw [he'] at he
      obtain ⟨rfl, rfl⟩ := Prod.mk.inj (Except.ok.inj he)
      left
      rw [hnode, hd'', hin.node, Function.update_idem]
    · rw [he'] at he
      cases he
  · next e hr =>
    split at h
    · next hk =>
      -- an absent entry would be the marker's
      rcases FileSystem.removeFile_notFound hr hk with he | ⟨d', name', he, -, hn⟩
      · rcases hin.entry_after with ⟨d'', hd'', he'⟩ | he'
        · rw [he'] at he
          cases he
        · rw [he'] at he
          obtain rfl := Except.error.inj he
          cases hk
      · rcases hin.entry_after with ⟨d'', hd'', he'⟩ | he'
        · rw [he'] at he
          obtain ⟨rfl, rfl⟩ := Prod.mk.inj (Except.ok.inj he)
          rw [hd'', hin.node, Function.update_self] at hn
          cases hn
        · rw [he'] at he
          cases he
    · obtain ⟨rfl, rfl⟩ := Prod.mk.inj h
      exact .inr ⟨rfl, by simp [EXIT_CLEANUP_FAILED, EXIT_SUCCESS]⟩

/-- One `revert` without it changes nothing. -/
theorem revert_gone {a : Answers} {input : PluginInput} {now : Nat} {o : PluginOutcome} {x y : FileSystem Bytes}
    (hx : x.node = Function.update fs.node (d.1 ++ [name]) none)
    (h : revert ext a input now path x = (o, y)) : y.node = Function.update fs.node (d.1 ++ [name]) none := by
  unfold revert at h
  dsimp only at h
  split at h
  · next z hr =>
    obtain ⟨-, rfl⟩ := Prod.mk.inj h
    obtain ⟨d', name', he, -, -, hnode⟩ := FileSystem.removeFile_ok hr
    obtain ⟨hd', rfl⟩ := hin.entry_gone hx he
    rw [hnode, hd', hx, Function.update_idem]
  · split at h
    · obtain ⟨-, rfl⟩ := Prod.mk.inj h
      exact hx
    · obtain ⟨-, rfl⟩ := Prod.mk.inj h
      exact hx

end

/-! ## Whole cycles -/

section
variable (ext : Externals) {text : String} {fs fs' : FileSystem Bytes} {d : Dir fs} {name : String} {bytes : Bytes}

theorem run_revert {i : Invocation} {command : PluginCommand} (hc : command = .abort ∨ command = .cleanup)
    (hi : i.input.markerPath = some text) (habs : (Path.ofText text).absolute = true) (x : FileSystem Bytes) :
    run ext i.answers i.input i.now command x = revert ext i.answers i.input i.now (Path.ofText text) x := by
  unfold run
  rcases hc with rfl | rfl <;> simp [hi, habs]

variable (hin : Injected fs fs' (Path.ofText text) d name bytes) (habs : (Path.ofText text).absolute = true)
include hin habs

theorem exec_injected {r : Reverting} (hr : r.invocation.input.markerPath = some text) :
    (r.exec ext fs').2.node = Function.update fs.node (d.1 ++ [name]) none ∨
      (r.exec ext fs').2 = fs' ∧ (r.exec ext fs').1 ≠ some EXIT_SUCCESS := by
  have h := revert_injected hin (run_revert ext r.reverts hr habs fs').symm
  unfold Reverting.exec
  rw [Invocation.exec_run]
  cases r.fate with
  | exits => exact h.imp_right fun ⟨hx, he⟩ => ⟨hx, fun heq => he (Option.some.inj heq)⟩
  | killedBefore => exact .inr ⟨rfl, by simp⟩
  | killedAfter => exact h.imp_right fun ⟨hx, he⟩ => ⟨hx, by simp⟩

theorem exec_gone {r : Reverting} (hr : r.invocation.input.markerPath = some text) {x : FileSystem Bytes}
    (hx : x.node = Function.update fs.node (d.1 ++ [name]) none) :
    (r.exec ext x).2.node = Function.update fs.node (d.1 ++ [name]) none := by
  have h := revert_gone hin hx (run_revert ext r.reverts hr habs x).symm
  unfold Reverting.exec
  rw [Invocation.exec_run]
  cases r.fate with
  | exits => exact h
  | killedBefore => exact hx
  | killedAfter => exact h

theorem execAll_gone {rs : List Reverting} (hrs : ∀ r ∈ rs, r.invocation.input.markerPath = some text)
    {x : FileSystem Bytes} (hx : x.node = Function.update fs.node (d.1 ++ [name]) none) :
    (execAll ext rs x).2.node = Function.update fs.node (d.1 ++ [name]) none := by
  induction rs generalizing x with
  | nil => exact hx
  | cons r rs ih =>
    have hr := exec_gone ext hin habs (hrs r List.mem_cons_self) hx
    exact ih (fun r' hr' => hrs r' (List.mem_cons_of_mem _ hr')) hr

/-- Any abort and cleanup invocations with the marker in place: it is gone, or none of them succeeded. -/
theorem execAll_injected {rs : List Reverting} (hrs : ∀ r ∈ rs, r.invocation.input.markerPath = some text) :
    (execAll ext rs fs').2.node = Function.update fs.node (d.1 ++ [name]) none ∨
      some EXIT_SUCCESS ∉ (execAll ext rs fs').1 := by
  induction rs with
  | nil => exact .inr (by simp [execAll])
  | cons r rs ih =>
    have hrs' : ∀ r' ∈ rs, r'.invocation.input.markerPath = some text :=
      fun r' hr' => hrs r' (List.mem_cons_of_mem _ hr')
    rcases exec_injected ext hin habs (hrs r List.mem_cons_self) with hr | ⟨hr, he⟩
    · exact .inl (execAll_gone ext hin habs hrs' hr)
    · have htail : execAll ext (r :: rs) fs' =
          ((r.exec ext fs').1 :: (execAll ext rs fs').1, (execAll ext rs fs').2) := by
        simp only [execAll, hr]
      rw [htail]
      refine (ih hrs').imp_right fun hno hmem => ?_
      rcases List.mem_cons.1 hmem with heq | hmem
      · exact he heq.symm
      · exact hno hmem

end

/-- The life of one reference fault: two preflights, an inject, and what reverts it. -/
structure Cycle where
  install : Invocation
  runtime : Invocation
  inject : Invocation
  reverts : List Reverting

namespace Cycle
variable (c : Cycle) (ext : Externals) (fs : FileSystem Bytes)

/-- The tree after the install preflight. -/
def installed : FileSystem Bytes := (c.install.exec ext .preflight fs).2

/-- The tree before the inject. -/
def ready : FileSystem Bytes := (c.runtime.exec ext .preflight (c.installed ext fs)).2

def injected : FileSystem Bytes := (c.inject.exec ext .inject (c.ready ext fs)).2

def restored : FileSystem Bytes := (execAll ext c.reverts (c.injected ext fs)).2

/-- Every invocation is given the same path; the first three exit 0, and so does one of the others. -/
structure Succeeds (text : String) : Prop where
  absolute : (Path.ofText text).absolute = true
  install_path : c.install.input.markerPath = some text
  install_phase : c.install.input.phase = .install
  install_exit : (c.install.exec ext .preflight fs).1 = EXIT_SUCCESS
  runtime_path : c.runtime.input.markerPath = some text
  runtime_phase : c.runtime.input.phase = .runtime
  runtime_exit : (c.runtime.exec ext .preflight (c.installed ext fs)).1 = EXIT_SUCCESS
  inject_path : c.inject.input.markerPath = some text
  inject_exit : (c.inject.exec ext .inject (c.ready ext fs)).1 = EXIT_SUCCESS
  revert_path : ∀ r ∈ c.reverts, r.invocation.input.markerPath = some text
  revert_exit : some EXIT_SUCCESS ∈ (execAll ext c.reverts (c.injected ext fs)).1

end Cycle

/-- A preflight's probe had this name and the host would not remove it. -/
def Invocation.LeavesProbe (i : Invocation) (name : String) : Prop :=
  i.answers.remove.isSome ∧ i.answers.tempName = name

section
variable {c : Cycle} {ext : Externals} {fs : FileSystem Bytes} {text : String}

theorem exec_preflight {i : Invocation} (hi : i.input.markerPath = some text)
    (he : (i.exec ext .preflight fs).1 = EXIT_SUCCESS) :
    ∃ dir, (Path.ofText text).parent = some dir ∧ Preflighted i.answers fs (i.exec ext .preflight fs).2 dir := by
  have hrun : run ext i.answers i.input i.now .preflight fs =
      preflight ext i.answers i.input i.now (Path.ofText text) fs := by
    simp [run, hi]
  rw [Invocation.exec_run, hrun] at he ⊢
  exact (preflight_ok rfl he).2

theorem exec_inject {i : Invocation} (hi : i.input.markerPath = some text)
    (habs : (Path.ofText text).absolute = true) (he : (i.exec ext .inject fs).1 = EXIT_SUCCESS) :
    ∃ (d : Dir fs) (name : String) (bytes : Bytes),
      Injected fs (i.exec ext .inject fs).2 (Path.ofText text) d name bytes := by
  have hrun : run ext i.answers i.input i.now .inject fs =
      inject ext i.answers i.input i.now (Path.ofText text) fs := by
    simp [run, hi, habs]
  rw [Invocation.exec_run, hrun] at he ⊢
  exact inject_ok rfl he

/-- What a preflight makes of a location in the directory: it stays as it was, unless the probe is left there. -/
theorem Preflighted.node_iff {a : Answers} {fs' x : FileSystem Bytes} {dir : Path} (h : Preflighted a fs fs' dir)
    (hk : Kept fs' x) {d : Dir x} (hd : x.directory dir.pieces = .ok d) {name : String}
    (hdir : x.node (d.1 ++ [name]) ≠ some .directory) :
    fs'.node (d.1 ++ [name]) = none ↔
      fs.node (d.1 ++ [name]) = none ∧ ¬ (a.remove.isSome ∧ a.tempName = name) := by
  obtain ⟨d', hd', hnew, hleft⟩ := h.found
  have hsame : d'.1 = d.1 := by
    have := hk.directory hd'
    rw [hd] at this
    exact (congrArg Subtype.val (Except.ok.inj this)).symm
  rw [hsame] at hnew hleft
  constructor
  · intro hn
    constructor
    · cases hf : fs.node (d.1 ++ [name]) with
      | none => rfl
      | some n => rw [h.kept _ _ hf] at hn; cases hn
    · rintro ⟨hr, rfl⟩
      exact hleft hr hn
  · rintro ⟨hf, hno⟩
    rcases hnew _ hf with hn | hn | ⟨hr, heq⟩
    · exact hn
    · exact absurd (hk _ _ hn) hdir
    · obtain ⟨-, hname⟩ := List.append_inj' heq rfl
      exact absurd ⟨hr, (List.cons.inj hname).1.symm⟩ hno

/-- **The host is restored exactly when nothing stood at `marker_path`**: the tree after the cycle is the one before the
inject, and neither preflight left anything at the path, if and only if the path's location held nothing at first (and
no preflight's probe was left there under the marker's own name). -/
theorem Cycle.restored_iff (h : c.Succeeds ext fs text) :
    ∃ (d : Dir (c.ready ext fs)) (name : String), (c.ready ext fs).entry (Path.ofText text) = .ok (d, name) ∧
      ((c.restored ext fs = c.ready ext fs ∧ (c.installed ext fs).node (d.1 ++ [name]) = none ∧
          (c.ready ext fs).node (d.1 ++ [name]) = none) ↔
        fs.node (d.1 ++ [name]) = none ∧ ¬ c.install.LeavesProbe name ∧ ¬ c.runtime.LeavesProbe name) := by
  obtain ⟨dir, hdir, hinstall⟩ := exec_preflight h.install_path h.install_exit
  obtain ⟨dir', hdir', hruntime⟩ := exec_preflight h.runtime_path h.runtime_exit
  obtain rfl : dir = dir' := Option.some.inj (hdir.symm.trans hdir')
  obtain ⟨d, name, bytes, hin⟩ := exec_inject h.inject_path h.absolute h.inject_exit
  have hend : (c.restored ext fs).node = Function.update (c.ready ext fs).node (d.1 ++ [name]) none :=
    (execAll_injected ext hin h.absolute h.revert_path).resolve_right fun hno => hno h.revert_exit
  obtain ⟨dir', hdir', hd⟩ := FileSystem.entry_parent hin.entry hin.plain
  obtain rfl : dir = dir' := Option.some.inj (hdir.symm.trans hdir')
  have hi := hinstall.node_iff hruntime.kept hd hin.free
  have hr := hruntime.node_iff (fun _ _ hp => hp) hd hin.free
  refine ⟨d, name, hin.entry, ?_⟩
  constructor
  · rintro ⟨-, hni, hnr⟩
    exact ⟨(hi.1 hni).1, (hi.1 hni).2, (hr.1 hnr).2⟩
  · rintro ⟨hf, hli, hlr⟩
    have hni := hi.2 ⟨hf, hli⟩
    have hnr := hr.2 ⟨hni, hlr⟩
    refine ⟨FileSystem.ext ?_, hni, hnr⟩
    rw [hend, Function.update_eq_self_iff]
    exact hnr.symm

end

/-! ## A host with a file at the path -/

/-- One character is one byte. -/
def asciiBytes (s : String) : Bytes := s.toList.map fun c => c.toNat.toUInt8

def sampleToVec (m : Marker) : Bytes :=
  asciiBytes ("\x7b\"instance_id\":\"" ++ m.instanceId ++ "\",\"plugin\":\"" ++ m.plugin ++
    "\",\"deadline_unix\":" ++ toString m.deadlineUnix ++
    ",\"params\":\x7b\"marker_path\":\"/run/marker\"\x7d,\"written_at_unix\":" ++ toString m.writtenAtUnix ++ "\x7d")

def sampleExternals : Externals where
  ts _ := "1970-01-01T00:00:03Z"
  toVec m := .ok (sampleToVec m)
  fromSlice _ := .ok .null
  withPath e := e

def sampleInvocation (phase : Phase) (suffix : String) : Invocation where
  input := ⟨"i-1", AList.singleton "marker_path" (.string "/run/marker"), 60, phase⟩
  now := 3
  answers := .smooth suffix

/-- A cleanup that is killed, then one that is not. -/
def sampleCycle : Cycle where
  install := sampleInvocation .install "8kQ2xa"
  runtime := sampleInvocation .runtime "Zp01Ld"
  inject := sampleInvocation .runtime "mm4Tyw"
  reverts := [⟨.abort, .inl rfl, sampleInvocation .runtime "", .killedBefore⟩,
    ⟨.cleanup, .inr rfl, sampleInvocation .runtime "", .exits⟩]

/-- A root directory and nothing in it. -/
def bareHost : FileSystem Bytes where
  node p := if p = [] then some .directory else none
  root := rfl
  nested p name h := by simp at h

/-- The same with a directory `/run`. -/
def runHost : FileSystem Bytes := bareHost.assign (.top bareHost) "run" (some .directory) (by simp [bareHost])

/-- The same with somebody's file at `/run/marker`. -/
def occupiedHost : FileSystem Bytes :=
  runHost.assign ⟨["run"], rfl⟩ "marker" (some (.file (asciiBytes "pid 71"))) fun h => by cases h

/-- The cycle succeeds, whether or not the directory is there. -/
theorem sampleCycle_succeeds {fs : FileSystem Bytes} (h : fs = bareHost ∨ fs = occupiedHost) :
    sampleCycle.Succeeds sampleExternals fs "/run/marker" where
  absolute := by decide +kernel
  install_path := by rfl
  install_phase := rfl
  install_exit := by rcases h with rfl | rfl <;> decide +kernel
  runtime_path := by rfl
  runtime_phase := rfl
  runtime_exit := by rcases h with rfl | rfl <;> decide +kernel
  inject_path := by rfl
  inject_exit := by rcases h with rfl | rfl <;> decide +kernel
  revert_path r hr := by
    rcases List.mem_pair.1 hr with rfl | rfl <;> rfl
  revert_exit := by rcases h with rfl | rfl <;> decide +kernel

/-- Where nothing is at the path, the tree after the cycle is the one before the inject. -/
theorem restored_bare : sampleCycle.restored sampleExternals bareHost = sampleCycle.ready sampleExternals bareHost := by
  obtain ⟨d, name, -, hiff⟩ := Cycle.restored_iff (sampleCycle_succeeds (.inl rfl))
  have habsent : bareHost.node (d.1 ++ [name]) = none := by simp [bareHost]
  have hremove : ∀ {phase : Phase} {suffix : String}, ¬ (sampleInvocation phase suffix).LeavesProbe name :=
    fun h => by simp [Invocation.LeavesProbe, sampleInvocation, Answers.smooth] at h
  exact (hiff.2 ⟨habsent, hremove, hremove⟩).1

/-- Somebody's file at the path passes both preflights, is replaced by the marker, and is gone after the cleanup. -/
theorem restored_occupied :
    sampleCycle.Succeeds sampleExternals occupiedHost "/run/marker" ∧
      (sampleCycle.ready sampleExternals occupiedHost).node ["run", "marker"] =
        some (.file (asciiBytes "pid 71")) ∧
      (sampleCycle.restored sampleExternals occupiedHost).node ["run", "marker"] = none ∧
      sampleCycle.restored sampleExternals occupiedHost ≠ sampleCycle.ready sampleExternals occupiedHost := by
  have hready : (sampleCycle.ready sampleExternals occupiedHost).node ["run", "marker"] =
      some (.file (asciiBytes "pid 71")) := by rfl
  have hgone : (sampleCycle.restored sampleExternals occupiedHost).node ["run", "marker"] = none := by
    rw [← Option.isNone_iff_eq_none]
    decide +kernel
  refine ⟨sampleCycle_succeeds (.inr rfl), hready, hgone, fun heq => ?_⟩
  rw [heq, hready] at hgone
  cases hgone

end FaultForge.NoopMarker
