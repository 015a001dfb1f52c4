import FaultForge.Plugin.Contract
import FaultForge.System.HostAccounted

/-!
# The reference fault over all lifetimes of the agent

`markerPlugin` is `noop-marker` as the agent runs it: any answer of the host to any of its file operations, and a kill
between any two of them. Its exit codes are honest about the marker (`markerPlugin_honest`), so over any number of
crashes of the agent a marker file is on record (`marker_accounted`), where the taint's writes succeed and nobody clears
it (`SiteAssumed`). One more case is assumed away: a temporary file whose random name is the name of the marker.

| here | there |
| --- | --- |
| `trail` | the file operations of main.rs:147-196, 290-311 |
| `Unmarked` | no regular file at `params.marker_path` |
-/
namespace FaultForge.NoopMarker

open Files Lts
open Agent (Ext ProcessEnd Given Honest Plugin Site siteLts SiteAssumed)

/-! ## One process, perhaps killed -/

/-- A kill after that many file operations; the write of the marker may have put down its first bytes only. -/
structure Kill where
  operations : Nat
  written : Nat
  timedOut : Bool

/-- What the surroundings of one process decide. -/
structure Surroundings where
  now : Nat
  answers : Answers
  kill : Option Kill

section
variable (ext : Externals) (a : Answers) (input : PluginInput) (now : Nat)

/-- The trees that a preflight goes through. -/
def preflightTrail (markerPath : Path) (fs : FileSystem Bytes) : List (FileSystem Bytes) :=
  match markerPath.parent with
  | none => []
  | some dir =>
    match ensureDir a fs dir with
    | .error _ => []
    | .ok fs =>
      match fs.createNew a.createTemp dir a.tempName [] with
      | .error _ => [fs]
      | .ok fs' => [fs, fs']

/-- The trees that an inject goes through. -/
def injectTrail (written : Nat) (markerPath : Path) (fs : FileSystem Bytes) : List (FileSystem Bytes) :=
  match markerPath.parent with
  | none => []
  | some dir =>
    match ext.toVec ⟨input.instanceId, PLUGIN_IDENTITY, input.deadlineUnix, input.params, now⟩ with
    | .error _ => []
    | .ok bytes =>
      match fs.createNew a.createTemp dir a.tempName [] with
      | .error _ => []
      | .ok fs => [fs, fs.write (dir.join a.tempName) (bytes.take written), fs.write (dir.join a.tempName) bytes]

/-- The trees between the first and the last of an invocation. -/
def trail (written : Nat) (command : PluginCommand) (fs : FileSystem Bytes) : List (FileSystem Bytes) :=
  match input.markerPath with
  | none => []
  | some text =>
    let markerPath := Path.ofText text
    if markerPath.absolute then
      match command with
      | .preflight => preflightTrail a markerPath fs
      | .inject => injectTrail ext a input now written markerPath fs
      | .report | .abort | .cleanup => []
    else []

end

/-- How a process ends, and the tree that it leaves. -/
def Surroundings.exec (ext : Externals) (s : Surroundings) (command : PluginCommand) (input : PluginInput)
    (fs : FileSystem Bytes) : ProcessEnd × FileSystem Bytes :=
  let (exit, fs') := Invocation.exec ext ⟨input, s.now, s.answers⟩ command fs
  match s.kill with
  | none => (.code exit, fs')
  | some kill =>
    (if kill.timedOut then .timedOut else .signalled,
     (fs :: trail ext s.answers input s.now kill.written command fs).getD kill.operations fs')

/-! ## The marker -/

/-- No regular file is at the path. -/
def Unmarked (fs : FileSystem Bytes) (path : Path) : Prop :=
  ∀ loc bytes, fs.locate path = some loc → fs.node loc ≠ some (.file bytes)

/-- A path that names a regular file names an entry of its parent. -/
theorem entry_of_marked {fs : FileSystem Bytes} {path : Path} {loc : Location} {bytes : Bytes}
    (hl : fs.locate path = some loc) (hn : fs.node loc = some (.file bytes)) :
    ∃ (d : Dir fs) (name : String), fs.entry path = .ok (d, name) ∧ plain name = true ∧ loc = d.1 ++ [name] := by
  unfold FileSystem.locate at hl
  split at hl
  · cases hl
  next d name he =>
    split at hl
    next hp => exact ⟨d, name, he, hp, (Option.some.inj hl).symm⟩
    next =>
      -- any other path names a directory
      obtain ⟨d', hd', rfl⟩ := Option.map_eq_some_iff.1 hl
      rw [d'.2] at hn
      cases hn

section
variable {fs fs' : FileSystem Bytes} {path dir : Path} {loc : Location} {name : String}

/-- The parent of the path leads to a new directory, which is empty. -/
theorem unmarked_made (hdir : path.parent = some dir) (hleads : fs'.Leads dir loc)
    (hfree : fs.node loc = none) (hnode : fs'.node = Function.update fs.node loc (some .directory)) :
    Unmarked fs' path := by
  intro l bytes hl hn
  obtain ⟨d, name, he, hp, rfl⟩ := entry_of_marked hl hn
  obtain ⟨before, hfinal, -⟩ := FileSystem.entry_final he hp
  obtain ⟨hloc, hd⟩ := hleads
  rw [fs'.entry_of_parent hfinal hp hdir, hd] at he
  obtain ⟨rfl, -⟩ := Prod.mk.inj (Except.ok.inj he)
  dsimp only at hn
  rw [hnode, Function.update_of_ne (by simp)] at hn
  have hparent : fs.node loc = some .directory := fs.nested loc name (by rw [hn]; simp)
  rw [hfree] at hparent
  cases hparent

/-- A temporary file beside it. -/
theorem Unmarked.temp (h : Unmarked fs path) (hdir : path.parent = some dir) {d : Dir fs}
    (hd : fs.directory dir.pieces = .ok d) (hfree : fs.node (d.1 ++ [name]) = none)
    (hname : ∀ before last, path.final = some (before, last) → last ≠ name) {n : Option (Node Bytes)}
    (hnode : fs'.node = Function.update fs.node (d.1 ++ [name]) n) : Unmarked fs' path := by
  intro l bytes hl hn
  obtain ⟨d', last, he, hp, rfl⟩ := entry_of_marked hl hn
  obtain ⟨before, hfinal, -⟩ := FileSystem.entry_final he hp
  have hk : Kept fs fs' := Kept.update hfree hnode
  rw [fs'.entry_of_parent hfinal hp hdir, hk.directory hd] at he
  obtain ⟨rfl, -⟩ := Prod.mk.inj (Except.ok.inj he)
  have hne : d.1 ++ [last] ≠ d.1 ++ [name] := fun heq =>
    hname before last hfinal (List.cons.inj (List.append_cancel_left heq)).1
  dsimp only at hn
  rw [hnode, Function.update_of_ne hne] at hn
  have hentry : fs.entry path = .ok (d, last) := by
    rw [fs.entry_of_parent hfinal hp hdir, hd]
    rfl
  exact h _ bytes (FileSystem.locate_plain hentry hp) hn

end

section
variable {ext : Externals} {a : Answers} {input : PluginInput} {now : Nat} {fs fs' : FileSystem Bytes} {path dir : Path}

/-- The temporary files of an invocation are named apart from the marker. -/
def Apart (a : Answers) (path : Path) : Prop := ∀ before last, path.final = some (before, last) → last ≠ a.tempName

/-- The tree differs from `fs` in the temporary file at most. -/
def Spilled (a : Answers) (fs fs' : FileSystem Bytes) (path : Path) : Prop :=
  fs' = fs ∨ ∃ (dir : Path) (d : Dir fs) (n : Option (Node Bytes)), path.parent = some dir ∧
    fs.directory dir.pieces = .ok d ∧ fs.node (d.1 ++ [a.tempName]) = none ∧
    fs'.node = Function.update fs.node (d.1 ++ [a.tempName]) n

theorem Spilled.unmarked (hs : Spilled a fs fs' path) (ha : Apart a path) (h : Unmarked fs path) :
    Unmarked fs' path := by
  rcases hs with rfl | ⟨dir, d, n, hdir, hd, hfree, hnode⟩
  · exact h
  · exact h.temp hdir hd hfree ha hnode

/-- Dropping the temporary file leaves it or removes it. -/
theorem Spilled.drop {fs₁ : FileSystem Bytes} {d : Dir fs} {content : Bytes} (hdir : path.parent = some dir)
    (hd : fs.directory dir.pieces = .ok d) (hfree : fs.node (d.1 ++ [a.tempName]) = none)
    (hnode : fs₁.node = Function.update fs.node (d.1 ++ [a.tempName]) (some (.file content))) :
    Spilled a fs (dropTemp a fs₁ dir) path := by
  obtain ⟨loc, hloc⟩ : ∃ loc, d.1 ++ [a.tempName] = loc := ⟨_, rfl⟩
  have hfree' := hfree
  rw [hloc] at hfree hnode
  have hd₁ := (Kept.update hfree hnode).directory hd
  have hat : fs₁.node loc = some (.file content) := by rw [hnode, Function.update_self]
  refine .inr ⟨dir, d, if a.remove.isSome then some (.file content) else none, hdir, hd, hfree', funext fun p => ?_⟩
  rw [dropTemp_node hd₁ hloc hat, hnode, hloc]
  by_cases hp : p = loc
  · subst hp
    by_cases hr : a.remove.isSome <;> simp [hr]
  · simp [hp]

theorem writeMarker_spilled {e : IoError} (h : writeMarker ext a input now path fs = (.error e, fs')) :
    Spilled a fs fs' path := by
  unfold writeMarker at h
  split at h
  · exact .inl (Prod.mk.inj h).2.symm
  next dir hdir =>
    dsimp only at h
    split at h
    · exact .inl (Prod.mk.inj h).2.symm
    split at h
    · exact .inl (Prod.mk.inj h).2.symm
    next fs₁ hc =>
      have hdrop : ∀ content, Spilled a fs (dropTemp a (fs₁.write (dir.join a.tempName) content) dir) path := by
        intro content
        obtain ⟨d, hd, hn, hnode⟩ := FileSystem.createNew_write hc (tempName_plain a).2
        exact .drop hdir hd hn hnode
      split at h
      · rw [← (Prod.mk.inj h).2]; exact hdrop _
      split at h
      · rw [← (Prod.mk.inj h).2]; exact hdrop _
      split at h
      · rw [← (Prod.mk.inj h).2]; exact hdrop _
      · cases (Prod.mk.inj h).1

theorem ensureDir_unmarked (h : Unmarked fs path) (hdir : path.parent = some dir) (he : ensureDir a fs dir = .ok fs') :
    Unmarked fs' path := by
  rcases ensureDir_ok he with rfl | ⟨loc, hleads, -, hfree, hnode⟩
  · exact h
  · exact unmarked_made hdir hleads hfree hnode

/-- Every tree of a preflight. -/
theorem preflight_unmarked (ext : Externals) (input : PluginInput) (now : Nat) (ha : Apart a path)
    (h : Unmarked fs path) :
    Unmarked (preflight ext a input now path fs).2 path ∧ ∀ fs' ∈ preflightTrail a path fs, Unmarked fs' path := by
  simp only [preflight, preflightTrail]
  cases hdir : path.parent with
  | none => exact ⟨by split <;> exact h, by simp⟩
  | some dir =>
    dsimp only
    cases he : ensureDir a fs dir with
    | error e => exact ⟨by split <;> exact h, by simp⟩
    | ok fs₁ =>
      have h₁ := ensureDir_unmarked h hdir he
      dsimp only
      cases hc : fs₁.createNew a.createTemp dir a.tempName [] with
      | error e =>
        refine ⟨?_, by simpa using h₁⟩
        split
        · exact h
        · exact h₁
      | ok fs₂ =>
        obtain ⟨d, hd, hn, hnode⟩ := FileSystem.createNew_ok hc
        have h₂ := h₁.temp hdir hd hn ha hnode
        refine ⟨?_, by simpa using ⟨h₁, h₂⟩⟩
        split
        · exact h
        · exact (Spilled.drop hdir hd hn hnode).unmarked ha h₁

end

/-! ## The exit codes about the marker -/

/-- Every path that an instance of `run` may be given for its marker is unmarked. -/
def Clean (X : Ext) (run : RunFault) (fs : FileSystem Bytes) : Prop :=
  ∀ input path, Given X run input → input.path = some path → Unmarked fs path

/-- Surroundings that name temporary files apart from the marker. -/
abbrev Fair (X : Ext) (run : RunFault) : Type :=
  { s : Surroundings // ∀ input path, Given X run input → input.path = some path → Apart s.answers path }

def markerPlugin (ext : Externals) (X : Ext) (run : RunFault) : Plugin (Fair X run) (FileSystem Bytes) where
  exec s := s.1.exec ext

section
variable {ext : Externals} {X : Ext} {run : RunFault} {input : PluginInput} {fs : FileSystem Bytes}

theorem Given.path_eq {input' : PluginInput} (h : Given X run input) (h' : Given X run input') :
    input'.path = input.path := by
  have hp : input'.params = input.params := Except.ok.inj (h'.2.symm.trans h.2)
  simp only [PluginInput.path, PluginInput.markerPath, hp]

theorem trail_unmarked {a : Answers} {now written : Nat} {command : PluginCommand} {path : Path}
    (hpath : input.path = some path) (ha : Apart a path) (hne : command ≠ .inject) (h : Unmarked fs path) :
    ∀ fs' ∈ trail ext a input now written command fs, Unmarked fs' path := by
  obtain ⟨text, ht, rfl⟩ := PluginInput.path_some hpath
  unfold trail
  rw [ht]
  dsimp only
  split
  · cases command with
    | preflight => exact (preflight_unmarked ext input now ha h).2
    | inject => exact absurd rfl hne
    | report | abort | cleanup => simp
  · simp

/-- An abort or a cleanup leaves no marker where it exits 0 or none was. -/
theorem exec_revert_unmarked {i : Invocation} {command : PluginCommand} {path : Path} (hpath : i.input.path = some path)
    (hc : command = .abort ∨ command = .cleanup)
    (h : (i.exec ext command fs).1 = EXIT_SUCCESS ∨ Unmarked fs path) : Unmarked (i.exec ext command fs).2 path := by
  rcases exec_revert_tree ext i fs hc with ⟨hno, hsame⟩ | ⟨-, path', hp', -, habsent, -⟩
  · rw [hsame]
    exact h.resolve_left hno
  · obtain rfl : path = path' := Option.some.inj (hpath.symm.trans hp')
    intro loc bytes hl hn
    rw [habsent loc hl] at hn
    cases hn

/-- Every command but `inject` leaves a path without a marker. -/
theorem exec_unmarked (ext : Externals) {i : Invocation} {command : PluginCommand} {path : Path}
    (hpath : i.input.path = some path) (ha : Apart i.answers path) (hne : command ≠ .inject) (h : Unmarked fs path) :
    Unmarked (i.exec ext command fs).2 path := by
  rcases exec_cases ext i command fs with ⟨-, hsame⟩ | ⟨path', hp', habs⟩
  · rw [hsame]
    exact h
  · obtain rfl : path = path' := Option.some.inj (hpath.symm.trans hp')
    cases command with
    | inject => exact absurd rfl hne
    | preflight =>
      rw [Invocation.exec_run, run_usable hp' habs]
      exact (preflight_unmarked ext i.input i.now ha h).1
    | report => rwa [Invocation.exec_run, run_report]
    | abort | cleanup =>
      exact exec_revert_unmarked hpath (by first | exact .inl rfl | exact .inr rfl) (.inr h)

/-- An inject that exits 20 leaves it as well. -/
theorem exec_inject_unmarked {i : Invocation} {path : Path} (hpath : i.input.path = some path)
    (ha : Apart i.answers path) (h : Unmarked fs path) (hexit : (i.exec ext .inject fs).1 = EXIT_INJECT_FAILED) :
    Unmarked (i.exec ext .inject fs).2 path := by
  rcases exec_cases ext i .inject fs with ⟨-, hsame⟩ | ⟨path', hp', habs⟩
  · rw [hsame]
    exact h
  · obtain rfl : path = path' := Option.some.inj (hpath.symm.trans hp')
    rw [Invocation.exec_run, run_usable hp' habs] at hexit ⊢
    simp only [inject] at hexit ⊢
    split
    next hw =>
      rw [hw] at hexit
      cases hexit
    next hw => exact (writeMarker_spilled hw).unmarked ha h

/-- **The exit codes of the reference plugin are honest** about the marker, also of one that is killed on its way. -/
theorem markerPlugin_honest : Honest (markerPlugin ext X run) (Given X run) (Clean X run) where
  unaffected s input fs hg hclean hexit := by
    intro input' path hg' hpath
    have hin : input.path = some path := (Given.path_eq hg' hg).trans hpath
    cases hk : s.1.kill with
    | none =>
      simp only [markerPlugin, Surroundings.exec, hk, ProcessEnd.code.injEq] at hexit ⊢
      exact exec_inject_unmarked (i := ⟨input, s.1.now, s.1.answers⟩) hin (s.2 input path hg hin)
        (hclean input path hg hin) (by exact_mod_cast hexit)
    | some kill =>
      simp only [markerPlugin, Surroundings.exec, hk] at hexit
      split at hexit <;> cases hexit
  harmless s command input fs hg hne hclean := by
    intro input' path hg' hpath
    have hin : input.path = some path := (Given.path_eq hg' hg).trans hpath
    have hapart := s.2 input path hg hin
    have hun := hclean input path hg hin
    have hlast := exec_unmarked ext (i := ⟨input, s.1.now, s.1.answers⟩) hin hapart hne hun
    cases hk : s.1.kill with
    | none =>
      simp only [markerPlugin, Surroundings.exec, hk]
      exact hlast
    | some kill =>
      simp only [markerPlugin, Surroundings.exec, hk]
      rw [List.getD_eq_getElem?_getD]
      cases hget : (fs :: trail ext s.1.answers input s.1.now kill.written command fs)[kill.operations]? with
      | none => exact hlast
      | some fs' =>
        rcases List.mem_cons.1 (List.mem_of_getElem? hget) with rfl | hm
        · exact hun
        · exact trail_unmarked hin hapart hne hun fs' hm
  cleaned s input fs hg hexit := by
    intro input' path hg' hpath
    have hin : input.path = some path := (Given.path_eq hg' hg).trans hpath
    cases hk : s.1.kill with
    | none =>
      simp only [markerPlugin, Surroundings.exec, hk, ProcessEnd.code.injEq] at hexit ⊢
      exact exec_revert_unmarked (i := ⟨input, s.1.now, s.1.answers⟩) hin (.inr rfl) (.inl (by exact_mod_cast hexit))
    | some kill =>
      simp only [markerPlugin, Surroundings.exec, hk] at hexit
      split at hexit <;> cases hexit

end

/-! ## Over all lifetimes -/

/-- **A marker is on record**: with `noop-marker` on any host, at every point of every run over any number of crashes
of the agent, no marker is at the path, or the entry or the taint record is on disk; and where the instance has ended
`DONE` or `ABORTED` no marker is there. -/
theorem marker_accounted {ext : Externals} {X : Ext} {run : RunFault} {s : Site (FileSystem Bytes)}
    (h : ReachIf ((siteLts X (markerPlugin ext X run) run).startIn fun s => Clean X run s.host) SiteAssumed s) :
    (Clean X run s.host ∨ (s.life.ctx.journal.lookup run.instanceId).isSome ∨ s.life.ctx.taint.isSome) ∧
      (s.life.machine = some .done ∨ s.life.machine = some .aborted → Clean X run s.host) := by
  obtain ⟨⟨seen, hagrees⟩, ha⟩ := Agent.reachIf_accounted markerPlugin_honest h
  exact ⟨ha.held hagrees, ha.settled⟩

/-! ## A crash after `inject`, and the replay after it -/

def markerParams : Params := AList.singleton "marker_path" (.string "/run/marker")

/-- Every parameter text names `/run/marker`. -/
def markerExt : Ext := { Agent.plainExt with parseParams := fun _ => .ok markerParams }

def markerVerified : Agent.VerifiedPlugin :=
  { Agent.samplePlugin with
    manifest := { Agent.samplePlugin.manifest with paramsSchema := AList.singleton "marker_path" .string } }

/-- Every operation runs. -/
def markerFair : Fair markerExt Agent.sampleRun := ⟨⟨3, .smooth "8kQ2xa", none⟩, by
  rintro input path ⟨-, hparams⟩ hpath
  have hp : input.params = markerParams := (Except.ok.inj hparams).symm
  have hpath' : some (Path.ofText "/run/marker") = some path := by
    rw [← hpath, PluginInput.path, PluginInput.markerPath, hp]
    rfl
  obtain rfl := Option.some.inj hpath'
  intro before last hfinal
  have hlast : (Path.ofText "/run/marker").final = some (["run"], "marker") := by decide +kernel
  rw [hlast] at hfinal
  obtain ⟨-, rfl⟩ := Prod.mk.inj (Option.some.inj hfinal)
  decide +kernel⟩

/-- The marker is in place. -/
def marked (fs : FileSystem Bytes) : Bool :=
  match fs.node ["run", "marker"] with
  | some (.file _) => true
  | _ => false

def markerChoices : List Agent.Choice :=
  Agent.injectChoices.map fun
    | .resolved (.ok _) => .resolved (.ok markerVerified)
    | choice => choice

def markerSite : Site (FileSystem Bytes) := ⟨.running Agent.sampleInstance, bareHost, []⟩

theorem markerSite_init : ((siteLts markerExt (markerPlugin sampleExternals markerExt Agent.sampleRun)
    Agent.sampleRun).startIn fun s => Clean markerExt Agent.sampleRun s.host).init markerSite := by
  refine ⟨⟨rfl, Agent.sampleCtx, rfl, rfl⟩, fun _ path _ _ loc bytes _ hn => ?_⟩
  simp only [markerSite, bareHost] at hn
  split at hn <;> cases hn

def markerReplay : List (Agent.SiteLabel (Fair markerExt Agent.sampleRun)) :=
  .restart 5000 .read :: List.replicate 7 (.turn ⟨5000, .ok markerVerified, ⟨[], "", .code 0⟩, none⟩ markerFair)

/-- The marker is there when `inject` is taken down with the agent, and gone after the replay. -/
theorem marker_accounted_sample :
    (∃ s : Site (FileSystem Bytes), marked s.host = true ∧
      (Clean markerExt Agent.sampleRun s.host ∨ (s.life.ctx.journal.lookup Agent.sampleRun.instanceId).isSome ∨
        s.life.ctx.taint.isSome)) ∧
    (∃ s : Site (FileSystem Bytes), s.life.machine = some .aborted ∧ Clean markerExt Agent.sampleRun s.host) := by
  constructor
  · obtain ⟨s, hs, hp⟩ := reachIf_of_run (G := SiteAssumed) (g := Agent.siteAssumed) (fun _ _ h => h)
      (fun s => marked s.host) markerSite_init
      (markerChoices.map (Agent.SiteLabel.task · markerFair) ++ [.crash (some markerFair)]) (by decide +kernel)
    exact ⟨s, hp, (marker_accounted hs).1⟩
  · obtain ⟨s, hs, hp⟩ := reachIf_of_run (G := SiteAssumed) (g := Agent.siteAssumed) (fun _ _ h => h)
      (fun s => decide (s.life.machine = some .aborted)) markerSite_init
      (markerChoices.map (Agent.SiteLabel.task · markerFair) ++ [.crash (some markerFair)] ++ markerReplay)
      (by decide +kernel)
    have hend := of_decide_eq_true hp
    exact ⟨s, hend, (marker_accounted hs).2 (.inr hend)⟩

end FaultForge.NoopMarker
