import FaultForge.Agent.Custody

/-!
# The quarantine (supervisor.rs:307-314, 672-693; session.rs:251-260)

The quarantine is the record on disk: `setup` and every registration read it again. "The quarantine could not be
persisted … It still reports the taint for this process's lifetime" (`mark_tainted`), but only its own frame does: when
the write fails and no record is there, the next registration reports a clean host and the next `setup` goes through
(`mark_forgotten`). A status that was read before the mark and is sent after it says the same (`clean_overtakes`).
Where the record is kept and no such status is on its way, the quarantine stays until a `ClearTaint`.
-/
namespace FaultForge.Agent

open Lts

/-! ## Marks -/

/-- A `TaintStatus` of an untainted host. -/
def isClean : AgentMessage → Bool
  | .taintStatus false _ _ => true
  | _ => false

def isTaintStatus : AgentMessage → Bool
  | .taintStatus .. => true
  | _ => false

/-- The frames taken for the stream that it has not accepted: the one in the send, the one in `carry`. -/
def Node.waiting (n : Node) : List AgentMessage :=
  (match n.pc with
    | .sending frame _ _ => [frame]
    | _ => []) ++ n.carry.toList

/-- The step performs a `MarkTainted` effect. -/
def Node.marks (n : Node) : NodeLabel → Bool
  | .task id _ =>
    match n.agent.instances.lookup id with
    | some t =>
      match t.pc, t.effects with
      | .loop, .markTainted _ :: _ => true
      | _, _ => false
    | none => false
  | _ => false

/-- The write of a mark succeeds. -/
def NodeLabel.writes : NodeLabel → Bool
  | .task _ (.io none) => true
  | _ => false

/-- How many frames had been sent at the first mark. A replay that marked has left its report among the startup
frames. -/
def firstMark (n : Node) : Option Nat := if n.startup.any isTaintStatus then some 0 else none

def followMark (n : Node) (seen : Option Nat) (label : NodeLabel) (_ : Node) : Option Nat :=
  seen.or (if n.marks label then some n.sent.length else none)

def quarantineLts (X : Ext) : System (Watched Node (Option Nat)) NodeLabel := watch (nodeLts X) firstMark followMark

/-- Every `TaintStatus` sent since the first mark says tainted, and every setup from now on is refused for it. -/
def Sticky (X : Ext) (w : Watched Node (Option Nat)) : Prop :=
  ∀ k, w.seen = some k →
    (∀ tainted reason ts, .taintStatus tainted reason ts ∈ w.state.sent.drop k → tainted = true) ∧
    ∀ run resolved, ∃ reason : String, setup X w.state.agent.ctx.taint run resolved = .error s!"host tainted: {reason}"

def noClear (_ : Watched Node (Option Nat)) : NodeLabel → Bool
  | .session (.recv .clearTaint) => false
  | _ => true

/-- The first mark leaves a record, and no report of a clean host is on its way then. -/
def markHolds (w : Watched Node (Option Nat)) (label : NodeLabel) : Bool :=
  w.seen.isSome || !w.state.marks label ||
    (NodeLabel.writes label || w.state.agent.ctx.taint.isSome) && w.state.waiting.all fun frame => !isClean frame

/-- A replay that marked has left a record. -/
def ReplayHeld (w : Watched Node (Option Nat)) : Prop := w.seen.isSome → w.state.agent.ctx.taint.isSome

/-! ## Where a session gets its frames -/

section
variable {n n' : Node} {c c' : Custody} {label : SessionLabel}

theorem Node.mem_waiting {frame : AgentMessage} : frame ∈ n.waiting ↔
    (∃ keep next, n.pc = .sending frame keep next) ∨ n.carry = some frame := by
  unfold Node.waiting
  cases hpc : n.pc with
  | sending f keep next => simp [eq_comm]
  | _ => simp

/-- A frame that waits has waited before, or was in a queue, or is new. -/
theorem Moved.waits (h : Moved n c label n' c') {frame : AgentMessage} (hf : frame ∈ n'.waiting) :
    frame ∈ n.waiting ∨ frame ∈ n.startup ∨ frame ∈ n.agent.ctx.out ∨ ∃ next, Makes n frame next := by
  have carry : ∀ {held : Held}, n'.held = held → held.carry = n.carry → n'.carry = some frame → frame ∈ n.waiting :=
    fun hh hc he => Node.mem_waiting.2 (.inr (((congrArg Held.carry hh).trans hc).symm.trans he))
  have sends : ∀ {f : AgentMessage} {keep keep' : Bool} {next next' : Stage}, n'.pc = .sending f keep next →
      n'.pc = .sending frame keep' next' → f = frame := fun h h' => (SessionPc.sending.inj (h.symm.trans h')).1
  rcases Node.mem_waiting.1 hf with ⟨keep, next, hpc'⟩ | hc
  · cases h with
    | quiet _ _ _ hnot => exact absurd ⟨_, _, _, hpc'⟩ hnot
    | made f next _ _ hpc hmakes => exact .inr (.inr (.inr ⟨next, sends hpc hpc' ▸ hmakes⟩))
    | fromStartup f rest hq _ _ hpc => exact .inr (.inl (by rw [hq, ← sends hpc hpc']; exact List.mem_cons_self))
    | fromCarry f hc _ _ hpc => exact .inl (Node.mem_waiting.2 (.inr (sends hpc hpc' ▸ hc)))
    | fromOut f rest hq _ _ hpc =>
      exact .inr (.inr (.inl (by rw [hq, ← sends hpc hpc']; exact List.mem_cons_self)))
    | accepted _ _ _ _ _ hpc => rw [hpc] at hpc'; cases hpc'
    | returned _ _ _ _ hpc | dropped _ _ _ _ _ hpc | carried _ _ _ _ _ hpc => rw [hpc] at hpc'; cases hpc'
  · cases h with
    | quiet _ hh => exact .inl (carry hh rfl hc)
    | made _ _ hh => exact .inl (carry hh rfl hc)
    | fromStartup _ _ _ hh | fromOut _ _ _ hh => exact .inl (carry hh rfl hc)
    | fromCarry f _ hh =>
      have hnone : n'.carry = none := congrArg Held.carry hh
      rw [hnone] at hc
      cases hc
    | accepted _ _ _ _ hh => exact .inl (carry hh rfl hc)
    | returned _ _ _ hh | dropped _ _ _ _ hh => exact .inl (carry hh rfl hc)
    | carried f next hpc _ hh =>
      have hsome : n'.carry = some f := congrArg Held.carry hh
      rw [hsome] at hc
      exact .inl (Node.mem_waiting.2 (.inl ⟨false, next, Option.some.inj hc ▸ hpc⟩))

/-- A frame that is sent has waited. -/
theorem Moved.sends (h : Moved n c label n' c') :
    n'.sent = n.sent ∨ ∃ frame ∈ n.waiting, n'.sent = n.sent ++ [frame] := by
  cases h with
  | accepted frame keep next hpc hh _ =>
    exact .inr ⟨frame, Node.mem_waiting.2 (.inl ⟨keep, next, hpc⟩), congrArg Held.sent hh⟩
  | quiet _ hh | made _ _ hh | fromStartup _ _ _ hh | fromCarry _ _ hh | fromOut _ _ _ hh | returned _ _ _ hh
  | dropped _ _ _ _ hh | carried _ _ _ _ hh => exact .inl (congrArg Held.sent hh)

/-- A keeping send is one of the startup queue, which it goes back to. -/
theorem Moved.keeps (h : Moved n c label n' c') :
    (∀ frame next, n'.pc = .sending frame true next → frame ∈ n.startup) ∧
      ∀ frame ∈ n'.startup, frame ∈ n.startup ∨ ∃ next, n.pc = .sending frame true next := by
  have same : ∀ {held : Held}, n'.held = held → held.startup = n.startup →
      ∀ frame ∈ n'.startup, frame ∈ n.startup ∨ ∃ next, n.pc = .sending frame true next :=
    fun hh hs frame hf => .inl (((congrArg Held.startup hh).trans hs) ▸ hf)
  cases h with
  | quiet _ hh _ hnot => exact ⟨fun frame next he => absurd ⟨_, _, _, he⟩ hnot, same hh rfl⟩
  | made _ _ hh _ hpc => exact ⟨fun frame next he => (by rw [hpc] at he; cases he), same hh rfl⟩
  | fromCarry _ _ hh _ hpc => exact ⟨fun frame next he => (by rw [hpc] at he; cases he), same hh rfl⟩
  | fromOut _ _ _ hh _ hpc => exact ⟨fun frame next he => (by rw [hpc] at he; cases he), same hh rfl⟩
  | accepted _ _ _ _ hh hpc => exact ⟨fun frame next he => (by rw [hpc] at he; cases he), same hh rfl⟩
  | dropped _ _ _ _ hh hpc => exact ⟨fun frame next he => (by rw [hpc] at he; cases he), same hh rfl⟩
  | carried _ _ _ _ hh hpc => exact ⟨fun frame next he => (by rw [hpc] at he; cases he), same hh rfl⟩
  | fromStartup f rest hq hh _ hpc =>
    have hrest : n'.startup = rest := congrArg Held.startup hh
    refine ⟨fun frame next he => ?_, fun frame hf => .inl ?_⟩
    · rw [hpc] at he
      cases he
      rw [hq]
      exact List.mem_cons_self
    · rw [hq]
      exact List.mem_cons_of_mem _ (hrest ▸ hf)
  | returned f next hpc hh hpc' =>
    have hback : n'.startup = f :: n.startup := congrArg Held.startup hh
    refine ⟨fun frame next he => (by rw [hpc'] at he; cases he), fun frame hf => ?_⟩
    rw [hback] at hf
    rcases List.mem_cons.1 hf with rfl | hf
    · exact .inr ⟨next, hpc⟩
    · exact .inl hf

/-! ## The quarantine of a run -/

/-- The session writes neither the record nor, without a `ClearTaint`, the tasks that remove it. -/
theorem sessionStep_record (h : sessionStep n label = some n') :
    n'.agent.ctx.taint = n.agent.ctx.taint ∧
      ((∀ f, label = .recv f → f ≠ .clearTaint) → n'.agent.clears = n.agent.clears) := by
  have same : ∀ {m : Node}, some m = some n' → m.agent.ctx.taint = n.agent.ctx.taint → m.agent.clears = n.agent.clears →
      n'.agent.ctx.taint = n.agent.ctx.taint ∧
        ((∀ f, label = .recv f → f ≠ .clearTaint) → n'.agent.clears = n.agent.clears) := by
    intro m he ht hc
    obtain rfl := Option.some.inj he
    exact ⟨ht, fun _ => hc⟩
  have ended : ∀ m : Node, m.endSession.agent.ctx.taint = m.agent.ctx.taint ∧
      m.endSession.agent.clears = m.agent.clears := by
    intro m
    by_cases hc : m.agent.ctx.conn = .connected <;> simp [Node.endSession, hc, Node.setConn]
  unfold sessionStep at h
  split at h
  next => exact same h rfl rfl
  next => exact same h rfl rfl
  next => exact same h (ended n).1 (ended n).2
  next => exact same h rfl rfl
  next => exact same h rfl rfl
  next frame keep next hpc =>
    have hk : (n.keepFrame frame keep).agent = n.agent := n.keepFrame_agent frame keep
    exact same h ((ended _).1.trans (by rw [hk])) ((ended _).2.trans (by rw [hk]))
  next interval hpc =>
    cases hi : interpretRegisterAck interval with
    | none => rw [hi] at h; exact same h (ended n.received).1 (ended n.received).2
    | some secs => rw [hi] at h; exact same h rfl rfl
  next => exact same h rfl rfl
  next => exact same h (ended n).1 (ended n).2
  next => exact same h rfl rfl
  next => exact same h rfl rfl
  next => split at h <;> exact same h rfl rfl
  next => split at h <;> exact same h rfl rfl
  next f hpc =>
    obtain rfl := Option.some.inj h
    refine ⟨by rw [dispatch_ctx], fun hne => ?_⟩
    exact dispatch_clears n.agent (hne f rfl)
  next => exact same h (ended n).1 (ended n).2
  next => exact same h rfl rfl
  next =>
    split at h
    next => cases h
    next => exact same h rfl rfl
  next => cases h

end

/-- `P` holds of every frame but a report of a clean host. -/
def Tainting (frame : AgentMessage) : Prop := isClean frame = false

theorem tainting_emits : Emits Tainting := ⟨fun _ => rfl, fun _ _ => rfl, fun _ _ => rfl⟩

structure Quarantined (w : Watched Node (Option Nat)) : Prop where
  clears : w.state.agent.clears = []
  frames : w.state.agent.Frames Tainting
  startup : ∀ frame ∈ w.state.startup, Tainting frame
  keeping : ∀ frame next, w.state.pc = .sending frame true next → Tainting frame
  record : w.seen.isSome → w.state.agent.ctx.taint.isSome
  waiting : w.seen.isSome → ∀ frame ∈ w.state.waiting, Tainting frame
  sent : ∀ k, w.seen = some k → ∀ frame ∈ w.state.sent.drop k, Tainting frame

/-- What a session makes itself under quarantine. -/
theorem Makes.tainting {n : Node} {frame : AgentMessage} {next : Stage} (h : Makes n frame next)
    (ht : n.agent.ctx.taint.isSome) : Tainting frame := by
  obtain ⟨record, hr⟩ := Option.isSome_iff_exists.1 ht
  cases h with
  | register | report | heartbeat => rfl
  | taint =>
    rw [hr]
    rfl

/-- What `markHolds` says of a step that marks. -/
theorem markHolds_mark {X : Ext} {n : Node} {id : String} {choice : Choice} {t t' : Task} {ctx : Ctx} {obs : List Obs}
    (hmark : markHolds ⟨n, none⟩ (.task id choice) = true) (hm : n.marks (.task id choice) = true)
    (ht : n.agent.instances.lookup id = some t) (hstep : taskStep X n.agent.ctx t choice = some (ctx, t', obs)) :
    ctx.taint.isSome ∧ ∀ frame ∈ n.waiting, Tainting frame := by
  obtain ⟨reason, rest, hpc, heff⟩ : ∃ reason rest, t.pc = .loop ∧ t.effects = .markTainted reason :: rest := by
    simp only [Node.marks, ht] at hm
    split at hm
    next reason rest hpc heff => exact ⟨reason, rest, hpc, heff⟩
    next => cases hm
  obtain ⟨error, rfl, rfl⟩ := taskStep_mark hstep hpc heff
  simp only [markHolds, hm, Option.isSome_none, Bool.not_true, Bool.or_self, Bool.false_or, Bool.and_eq_true,
    Bool.or_eq_true, List.all_eq_true, Bool.not_eq_true'] at hmark
  obtain ⟨hrec, hwait⟩ := hmark
  refine ⟨?_, hwait⟩
  rcases hrec with hrec | hrec
  · cases error with
    | none => exact Ctx.mark_ok _ _
    | some e => cases hrec
  · exact Ctx.mark_taint _ _ _ hrec

/-- A mark that holds starts the quarantine; nothing ends it. -/
theorem Quarantined.step {X : Ext} {w w' : Watched Node (Option Nat)} {label : NodeLabel} (hq : Quarantined w)
    (hclear : noClear w label = true) (hmark : markHolds w label = true)
    (h : (quarantineLts X).step w label = some w') : Quarantined w' := by
  obtain ⟨n, seen⟩ := w
  obtain ⟨hstep, hseen⟩ := watch_step_some.1 h
  obtain ⟨n', seen'⟩ := w'
  simp only at hstep hseen
  obtain ⟨hclears, hframes, hstartup, hkeeping, hrecord, hwaiting, hsent⟩ := hq
  simp only at hclears hframes hstartup hkeeping hrecord hwaiting hsent
  cases label with
  | session label =>
    have hmoved := sessionStep_moved (.start n) hstep
    obtain ⟨htaint, hno⟩ := sessionStep_record hstep
    have hsame : seen' = seen := by
      rw [hseen]
      simp [followMark, Node.marks]
    subst hsame
    have hwait : seen'.isSome → ∀ frame ∈ n'.waiting, Tainting frame := by
      intro hm frame hf
      rcases hmoved.waits hf with hf | hf | hf | ⟨next, hf⟩
      · exact hwaiting hm frame hf
      · exact hstartup frame hf
      · exact hframes.out frame hf
      · exact hf.tainting (hrecord hm)
    obtain ⟨hkeep, hqueue⟩ := hmoved.keeps
    refine ⟨?_, ?_, fun frame hf => ?_, fun frame next he => hstartup frame (hkeep frame next he), ?_, hwait, ?_⟩
    · refine (hno fun f hf => ?_).trans hclears
      rintro rfl
      rw [hf] at hclear
      cases hclear
    · rcases sessionStep_moves X hstep with he | ⟨l, hs⟩
      · exact he ▸ hframes
      · exact hframes.step tainting_emits (fun hne => absurd hclears hne) hs
    · rcases hqueue frame hf with hf | ⟨next, he⟩
      · exact hstartup frame hf
      · exact hkeeping frame next he
    · intro hm
      rw [htaint]
      exact hrecord hm
    · intro k hk frame hf
      rcases hmoved.sends with he | ⟨f, hf', he⟩
      · exact hsent k hk frame (he ▸ hf)
      · rw [he, List.drop_append] at hf
        rcases List.mem_append.1 hf with hf | hf
        · exact hsent k hk frame hf
        · obtain rfl := List.mem_singleton.1 (List.mem_of_mem_drop hf)
          exact hwaiting (Option.isSome_iff_exists.2 ⟨k, hk⟩) frame hf'
  | task id choice =>
    obtain ⟨a, ha, rfl⟩ := Option.map_eq_some_iff.1 hstep
    have hf := (stepInstance_frames tainting_emits ha hframes).1
    obtain ⟨t, ctx, t', obs, ht, htask, rfl⟩ := stepInstance_some ha
    have hkept : n.agent.ctx.taint.isSome → ctx.taint.isSome := (taskStep_cases htask).taint_kept
    cases hs : seen with
    | some k =>
      obtain rfl : seen' = some k := by simpa [followMark, hs] using hseen
      exact ⟨hclears, hf, hstartup, hkeeping, fun _ => hkept (hrecord (by simp [hs])),
        fun _ => hwaiting (by simp [hs]), fun k' hk' => hsent k' (hs ▸ hk')⟩
    | none =>
      subst hs
      have hlabel : seen' = if n.marks (.task id choice) then some n.sent.length else none := by
        simpa [followMark] using hseen
      by_cases hm : n.marks (.task id choice) = true
      · rw [if_pos hm] at hlabel
        obtain ⟨hrec, hwait⟩ := markHolds_mark hmark hm ht htask
        exact ⟨hclears, hf, hstartup, hkeeping, fun _ => hrec, fun _ => hwait, fun k hk frame hf => by
          obtain rfl := Option.some.inj (hlabel.symm.trans hk)
          rw [List.drop_length] at hf
          cases hf⟩
      · rw [if_neg hm] at hlabel
        subst hlabel
        exact ⟨hclears, hf, hstartup, hkeeping, fun hn => (by cases hn), fun hn => (by cases hn),
          fun k hk => (by cases hk)⟩
  | clear i choice =>
    obtain ⟨a, ha, rfl⟩ := Option.map_eq_some_iff.1 hstep
    obtain ⟨c, ctx, c', hc, -⟩ := stepClear_some ha
    rw [hclears] at hc
    cases hc
  | tick now =>
    obtain rfl := Option.some.inj hstep
    have hsame : seen' = seen := by
      rw [hseen]
      simp [followMark, Node.marks]
    subst hsame
    exact ⟨hclears, ⟨hframes.out, hframes.tasks, hframes.clears⟩, hstartup, hkeeping, hrecord, hwaiting, hsent⟩

theorem quarantined_init {X : Ext} {w : Watched Node (Option Nat)}
    (h : ((quarantineLts X).startIn ReplayHeld).init w) : Quarantined w := by
  obtain ⟨n, seen⟩ := w
  obtain ⟨⟨⟨b, hostname, hn⟩, hseen⟩, hheld⟩ := h
  simp only at hn hseen
  subst hn
  refine ⟨rfl, Supervisor.boot_frames b, Boot.replay_frames tainting_emits b, fun frame next he => (by cases he), hheld,
    fun _ frame hf => ?_, fun k hk frame hf => ?_⟩
  · rcases Node.mem_waiting.1 hf with ⟨keep, next, he⟩ | he <;> cases he
  · rw [show (Node.boot X b hostname).sent = [] from rfl, List.drop_nil] at hf
    cases hf

/-- Where the record is on disk every setup is refused for it. -/
theorem setup_tainted (X : Ext) {taint : Option TaintRecord} (h : taint.isSome) (run : RunFault)
    (resolved : Except String VerifiedPlugin) :
    ∃ reason : String, setup X taint run resolved = .error s!"host tainted: {reason}" := by
  obtain ⟨record, rfl⟩ := Option.isSome_iff_exists.1 h
  exact ⟨record.reason, rfl⟩

/-- **The quarantine sticks** in every run without `ClearTaint` whose first mark holds. -/
theorem quarantine_sticks {X : Ext} {w : Watched Node (Option Nat)}
    (h : ReachIf ((quarantineLts X).startIn ReplayHeld)
      (fun w label => noClear w label = true ∧ markHolds w label = true) w) : Sticky X w := by
  have hq : Quarantined w := h.inv (I := fun _ => True) (P := Quarantined) (fun _ _ => trivial)
    (fun _ hi => quarantined_init hi) fun w label w' _ hq hg hs => hq.step hg.1 hg.2 hs
  intro k hk
  refine ⟨fun tainted reason ts hm => ?_, fun run resolved => ?_⟩
  · have hclean := hq.sent k hk _ hm
    cases tainted with
    | true => rfl
    | false => cases hclean
  · exact setup_tainted X (hq.record (Option.isSome_iff_exists.2 ⟨k, hk⟩)) run resolved

/-! ## Three runs -/

def failedAbort : List Choice := [.resolved (.ok samplePlugin), .exit ⟨[], "", .code 1⟩, .go, .go]

/-- `inject` ends with an unknown exit code and `abort` fails twice: the mark is the next effect. -/
def brokenChoices : List Choice :=
  injectChoices ++ [.exit ⟨[], "", .code 99⟩, .go, .go, .go, .go, .go] ++ failedAbort ++ [.go] ++ failedAbort

def brokenRun : List NodeLabel :=
  sessionLabels.map .session ++ brokenChoices.map (.task sampleRun.instanceId)

/-- The mark, its re-read and its frame. -/
def markRun (error : Option String) : List NodeLabel :=
  ([.io error, .go, .go] : List Choice).map (.task sampleRun.instanceId)

/-- The stream breaks and the next session registers, up to the send of its taint status. -/
def registersAgain : List NodeLabel :=
  [.session .ended] ++ reconnects.map .session ++ [.session .accept, .session .go]

def sampleWatched : Watched Node (Option Nat) := ⟨sampleNode, firstMark sampleNode⟩

/-- The write succeeds: the next session reports the taint. -/
theorem quarantine_sticks_reported :
    ∃ w : Watched Node (Option Nat), Sticky plainExt w ∧ w.seen.isSome ∧
      w.state.sent.any (fun frame => isTaintStatus frame && !isClean frame) = true := by
  obtain ⟨w, hw, hp⟩ := reachIf_of_run (L := (quarantineLts plainExt).startIn ReplayHeld)
    (G := fun w label => noClear w label = true ∧ markHolds w label = true)
    (g := fun w label => noClear w label && markHolds w label) (fun _ _ hg => by simpa using hg)
    (fun w => w.seen.isSome && w.state.sent.any fun frame => isTaintStatus frame && !isClean frame)
    (s := sampleWatched) ⟨⟨⟨sampleBoot, _, rfl⟩, rfl⟩, fun h => (by cases h)⟩
    (brokenRun ++ markRun none ++ registersAgain ++ [.session .accept]) (by decide +kernel)
  obtain ⟨hseen, hsent⟩ := Bool.and_eq_true_iff.1 hp
  exact ⟨w, quarantine_sticks hw, hseen, hsent⟩

/-- A clean host was reported after the first mark. -/
def reportsClean (w : Watched Node (Option Nat)) : Bool :=
  match w.seen with
  | some k => (w.state.sent.drop k).any isClean
  | none => false

theorem not_sticky {X : Ext} {w : Watched Node (Option Nat)} (h : reportsClean w = true) : ¬ Sticky X w := by
  intro hs
  unfold reportsClean at h
  split at h
  next k hk =>
    obtain ⟨frame, hf, hclean⟩ := List.any_eq_true.1 h
    unfold isClean at hclean
    split at hclean
    next reason ts => exact Bool.false_ne_true ((hs k hk).1 false reason ts hf)
    next => cases hclean
  next => cases h

/-- The write fails: the next session reports a clean host, and the next setup goes through. -/
theorem mark_forgotten :
    ∃ w : Watched Node (Option Nat), ReachIf (quarantineLts plainExt) (fun w label => noClear w label = true) w ∧
      ¬ Sticky plainExt w ∧ (setup plainExt w.state.agent.ctx.taint sampleRun (.ok samplePlugin)).isOk = true := by
  obtain ⟨w, hw, hp⟩ := reachIf_of_run (L := quarantineLts plainExt) (G := fun w label => noClear w label = true)
    (g := noClear) (fun _ _ hg => hg)
    (fun w => reportsClean w && (setup plainExt w.state.agent.ctx.taint sampleRun (.ok samplePlugin)).isOk)
    (s := sampleWatched) ⟨⟨sampleBoot, _, rfl⟩, rfl⟩
    (brokenRun ++ markRun (some "disk full") ++ registersAgain ++ [.session .accept]) (by decide +kernel)
  obtain ⟨hclean, hsetup⟩ := Bool.and_eq_true_iff.1 hp
  exact ⟨w, hw, not_sticky hclean, hsetup⟩

/-- The write succeeds while the status read before it is on its way. -/
theorem clean_overtakes :
    ∃ w : Watched Node (Option Nat), ReachIf (quarantineLts plainExt) (fun w label => noClear w label = true) w ∧
      ¬ Sticky plainExt w ∧ w.state.agent.ctx.taint.isSome := by
  obtain ⟨w, hw, hp⟩ := reachIf_of_run (L := quarantineLts plainExt) (G := fun w label => noClear w label = true)
    (g := noClear) (fun _ _ hg => hg) (fun w => reportsClean w && w.state.agent.ctx.taint.isSome)
    (s := sampleWatched) ⟨⟨sampleBoot, _, rfl⟩, rfl⟩
    (brokenRun ++ registersAgain ++ markRun none ++ [.session .accept]) (by decide +kernel)
  obtain ⟨hclean, htaint⟩ := Bool.and_eq_true_iff.1 hp
  exact ⟨w, hw, not_sticky hclean, htaint⟩

end FaultForge.Agent
