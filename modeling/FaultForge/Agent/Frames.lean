import FaultForge.Agent.Supervisor

/-!
# The frames an agent enqueues

Which frames can be on the outbound channel, in a task that waits for room, or among the frames of the replay: statuses,
telemetry, and the taint reports of `mark_tainted` and `handle_clear_taint`. `Emits P` says that `P` holds of whatever
an instance can enqueue; `Supervisor.Frames.step` carries `P` over every step of the agent.
-/
namespace FaultForge.Agent

open Lts

/-- `P` holds of the frames that instances and the replay make. -/
structure Emits (P : AgentMessage → Prop) : Prop where
  status : ∀ s, P (.instanceStatus s)
  event : ∀ id line, P (.faultEvent id line)
  tainted : ∀ record now, P (taintStatusFrame (some record) now)

/-- `P` holds of every frame on the channel and of every frame that waits for room on it. -/
structure Supervisor.Frames (P : AgentMessage → Prop) (a : Supervisor) : Prop where
  out : ∀ frame ∈ a.ctx.out, P frame
  tasks : ∀ id t frame after, a.instances.lookup id = some t → t.pc = .send frame after → P frame
  clears : ∀ frame, .send frame ∈ a.clears → P frame

section
variable {P : AgentMessage → Prop} {X : Ext}

theorem Emits.reread (hP : Emits P) (current : Option TaintRecord) (record : TaintRecord) (now : Int) :
    P (taintStatusFrame (current.or (some record)) now) := by
  cases current <;> exact hP.tainted _ _

theorem Telemetry.frame_event {line : Telemetry} {id : String} {now : Int} {frame : AgentMessage}
    (h : line.frame X id now = some frame) : ∃ text, frame = .faultEvent id text := by
  cases line with
  | raw text => exact ⟨text, (Option.some.inj h).symm⟩
  | log msg =>
    obtain ⟨text, -, rfl⟩ := Option.map_eq_some_iff.1 h
    exact ⟨text, rfl⟩

/-! ## A step -/

theorem TaskStep.frames {ctx ctx' : Ctx} {t t' : Task} {obs : List Obs} (hP : Emits P)
    (h : TaskStep X ctx t ctx' t' obs) (hpc : ∀ frame after, t.pc = .send frame after → P frame) :
    (∀ frame after, t'.pc = .send frame after → P frame) ∧
      (ctx'.out = ctx.out ∨ ∃ frame, P frame ∧ ctx'.out = ctx.out ++ [frame]) := by
  have idle : ∀ {pc : Pc}, (∀ frame after, pc ≠ .send frame after) →
      ∀ frame after, pc = .send frame after → P frame := fun hne frame after he => absurd he (hne frame after)
  cases h with
  | start => exact ⟨fun frame after he => by cases he; exact hP.status _, .inl rfl⟩
  | emit => exact ⟨fun frame after he => by cases he; exact hP.status _, .inl rfl⟩
  | @send frame after hsend =>
    refine ⟨idle fun f a he => ?_, .inr ⟨frame, hpc frame after hsend, rfl⟩⟩
    cases after <;> cases he
  | mark error => exact ⟨idle (by simp), .inl (ctx.mark_out _ _)⟩
  | forward hf hl =>
    obtain ⟨text, rfl⟩ := Telemetry.frame_event hl
    exact ⟨fun frame after he => by cases he; exact hP.event _ _, .inl rfl⟩
  | reread => exact ⟨fun frame after he => by cases he; exact hP.reread _ _ _, .inl rfl⟩
  | stopRunning hrun => exact ⟨idle (by simp [hrun]), .inl rfl⟩
  | write | writeFailed | refused | lost | forwarded => exact ⟨idle (by simp [Task.push]), .inl rfl⟩
  | next | wedged | stop => exact ⟨idle (by simp [consume]), .inl rfl⟩
  | remove hl | removeFailed hl => exact ⟨idle (by simp [hl]), .inl rfl⟩
  | setupDone | invoke | finish | activate | spawn | exit | forwardSkip | arm | rearm =>
    exact ⟨idle (by simp), .inl rfl⟩

/-- A `ClearTaint` task enqueues what it read from the disk, or a report of its own failure. -/
theorem clearStep_frames {ctx ctx' : Ctx} {c c' : ClearTask} {choice : Choice} (hP : Emits P)
    (hdisk : ∀ now, P (taintStatusFrame ctx.taint now)) (h : clearStep ctx c choice = some (ctx', c'))
    (hc : ∀ frame, c = .send frame → P frame) :
    (∀ frame, c' = .send frame → P frame) ∧
      (ctx'.out = ctx.out ∨ ∃ frame, P frame ∧ ctx'.out = ctx.out ++ [frame]) := by
  unfold clearStep at h
  split at h
  next => cases h; exact ⟨fun frame he => (by cases he), .inl rfl⟩
  next => cases h; exact ⟨fun frame he => by cases he; exact hP.tainted _ _, .inl rfl⟩
  next => cases h; exact ⟨fun frame he => by cases he; exact hP.tainted _ _, .inl rfl⟩
  next => cases h; exact ⟨fun frame he => by cases he; exact hdisk _, .inl rfl⟩
  next frame =>
    obtain ⟨ctx₁, hsend, he⟩ := Option.map_eq_some_iff.1 h
    obtain ⟨-, rfl⟩ := trySend_some hsend
    cases he
    exact ⟨fun frame he => (by cases he), .inr ⟨frame, hc frame rfl, rfl⟩⟩
  next => cases h

/-- What a task or a `ClearTaint` task does to the channel: nothing, or one frame at its end. -/
theorem out_grows {out out' : List AgentMessage} (h : out' = out ∨ ∃ frame, P frame ∧ out' = out ++ [frame]) :
    ∃ more, out' = out ++ more ∧ ∀ frame ∈ more, P frame := by
  rcases h with rfl | ⟨frame, hp, rfl⟩
  · exact ⟨[], (List.append_nil _).symm, by simp⟩
  · exact ⟨[frame], rfl, by simpa using hp⟩

theorem stepInstance_frames {a a' : Supervisor} {id : String} {choice : Choice} (hP : Emits P)
    (h : stepInstance X a id choice = some a') (ha : a.Frames P) :
    a'.Frames P ∧ ∃ more, a'.ctx.out = a.ctx.out ++ more ∧ ∀ frame ∈ more, P frame := by
  obtain ⟨t, ctx, t', obs, ht, hstep, rfl⟩ := stepInstance_some h
  obtain ⟨hpc, hout⟩ := (taskStep_cases hstep).frames hP fun frame after => ha.tasks id t frame after ht
  obtain ⟨more, hgrow, hmore⟩ := out_grows hout
  refine ⟨⟨fun frame hf => ?_, fun id' t'' frame after hl he => ?_, ha.clears⟩, more, hgrow, hmore⟩
  · rw [show ctx.out = _ from hgrow] at hf
    rcases List.mem_append.1 hf with hf | hf
    · exact ha.out frame hf
    · exact hmore frame hf
  · by_cases hid : id' = id
    · subst hid
      rw [AList.lookup_insert] at hl
      obtain rfl := Option.some.inj hl
      exact hpc frame after he
    · rw [AList.lookup_insert_ne hid] at hl
      exact ha.tasks id' t'' frame after hl he

theorem stepClear_frames {a a' : Supervisor} {i : Nat} {choice : Choice} (hP : Emits P)
    (hdisk : ∀ now, P (taintStatusFrame a.ctx.taint now)) (h : stepClear a i choice = some a') (ha : a.Frames P) :
    a'.Frames P ∧ ∃ more, a'.ctx.out = a.ctx.out ++ more ∧ ∀ frame ∈ more, P frame := by
  obtain ⟨c, ctx, c', hc, hstep, rfl⟩ := stepClear_some h
  have hmem : c ∈ a.clears := List.mem_of_getElem? hc
  obtain ⟨hsend, hout⟩ := clearStep_frames hP hdisk hstep fun frame he => ha.clears frame (he ▸ hmem)
  obtain ⟨more, hgrow, hmore⟩ := out_grows hout
  refine ⟨⟨fun frame hf => ?_, ha.tasks, fun frame hf => ?_⟩, more, hgrow, hmore⟩
  · rw [show ctx.out = _ from hgrow] at hf
    rcases List.mem_append.1 hf with hf | hf
    · exact ha.out frame hf
    · exact hmore frame hf
  · rcases List.mem_or_eq_of_mem_set hf with hf | hf
    · exact ha.clears frame hf
    · exact hsend frame hf.symm

theorem Supervisor.Frames.dispatch {a : Supervisor} (ha : a.Frames P) (f : ServerMessage) :
    (Agent.dispatch a f).Frames P := by
  have insert : ∀ (id : String) (t : Task), (∀ frame after, t.pc = .send frame after → P frame) →
      Supervisor.Frames P { a with instances := a.instances.insert id t } := fun id t ht =>
    ⟨ha.out, fun id' t' frame after hl he => by
      by_cases hid : id' = id
      · subst hid
        rw [AList.lookup_insert] at hl
        obtain rfl := Option.some.inj hl
        exact ht frame after he
      · rw [AList.lookup_insert_ne hid] at hl
        exact ha.tasks id' t' frame after hl he, ha.clears⟩
  cases f with
  | runFault run =>
    simp only [Agent.dispatch, handleRunFault]
    split
    · exact ha
    · split
      · exact ha
      · exact insert _ _ fun frame after he => by cases he
  | abortFault id =>
    simp only [Agent.dispatch, handleAbortFault]
    split
    next t ht => exact insert _ _ fun frame after he => ha.tasks id t frame after ht he
    next => exact ha
  | clearTaint =>
    refine ⟨ha.out, ha.tasks, fun frame hf => ?_⟩
    rcases List.mem_append.1 hf with hf | hf
    · exact ha.clears frame hf
    · simp at hf
  | heartbeatAck | registerAck => exact ha

/-- **Every frame on the channel was made by an instance or by a `ClearTaint` task.** -/
theorem Supervisor.Frames.step {a a' : Supervisor} {label : AgentLabel} (hP : Emits P) (ha : a.Frames P)
    (hdisk : a.clears ≠ [] → ∀ now, P (taintStatusFrame a.ctx.taint now)) (h : agentStep X a label = some a') :
    a'.Frames P := by
  cases label with
  | frame f => obtain rfl := Option.some.inj h; exact ha.dispatch f
  | task id choice => exact (stepInstance_frames hP h ha).1
  | clear i choice =>
    have hne : a.clears ≠ [] := by
      rintro he
      obtain ⟨c, ctx, c', hc, -⟩ := stepClear_some h
      simp [he] at hc
    exact (stepClear_frames hP (hdisk hne) h ha).1
  | drain =>
    simp only [agentStep] at h
    split at h
    next => cases h
    next frame out hout =>
      obtain rfl := Option.some.inj h
      exact ⟨fun f hf => ha.out f (by rw [hout]; exact List.mem_cons_of_mem _ hf), ha.tasks, ha.clears⟩
  | conn | tick => obtain rfl := Option.some.inj h; exact ⟨ha.out, ha.tasks, ha.clears⟩

theorem Supervisor.boot_frames (b : Boot) : (Supervisor.boot X b).Frames P :=
  ⟨fun frame hf => (by cases hf), fun id t frame after hl => (by cases hl), fun frame hf => (by cases hf)⟩

/-! ## The replay -/

theorem Replayed.mark_frames (r : Replayed) (record : TaintRecord) (error : Option String) :
    (r.mark record error).frames = r.frames := by
  unfold Replayed.mark; split <;> rfl

theorem replayEffect_frames {timeoutSecs : UInt64} {entry : JournalEntry} {answer : Answer} {r : Replay} (hP : Emits P)
    (hr : ∀ frame ∈ r.result.frames, P frame) (effect : Effect) :
    ∀ frame ∈ (replayEffect X timeoutSecs entry answer r effect).result.frames, P frame := by
  intro frame hf
  cases effect with
  | writeJournal => exact hr frame hf
  | emitStatus state reason =>
    rcases List.mem_append.1 hf with hf | hf
    · exact hr frame hf
    · obtain rfl := List.mem_singleton.1 hf
      exact hP.status _
  | invoke command phase =>
    rcases List.mem_append.1 hf with hf | hf
    · exact hr frame hf
    · split at hf
      next => cases hf
      next =>
        obtain ⟨line, -, hl⟩ := List.mem_filterMap.1 hf
        obtain ⟨text, rfl⟩ := Telemetry.frame_event hl
        exact hP.event _ _
  | removeJournal =>
    simp only [replayEffect] at hf
    split at hf <;> exact hr frame hf
  | markTainted reason =>
    rcases List.mem_append.1 hf with hf | hf
    · rw [Replayed.mark_frames] at hf
      exact hr frame hf
    · obtain rfl := List.mem_singleton.1 hf
      exact hP.reread _ _ _

theorem replayLoop_frames {timeoutSecs : UInt64} {entry : JournalEntry} {env : Nat → Answer} {fuel : Nat} {r : Replay}
    (hP : Emits P) (hr : ∀ frame ∈ r.result.frames, P frame) :
    ∀ frame ∈ (replayLoop X timeoutSecs entry env fuel r).result.frames, P frame := by
  induction fuel generalizing r with
  | zero => exact hr
  | succ fuel ih =>
    simp only [replayLoop]
    cases h : replayTurn X timeoutSecs entry (env fuel) r with
    | none => exact hr
    | some r' =>
      refine ih ?_
      unfold replayTurn at h
      split at h
      next effect rest he =>
        obtain rfl := Option.some.inj h
        exact replayEffect_frames (r := { r with effects := rest }) hP hr effect
      next =>
        split at h
        next => cases h
        next => obtain rfl := Option.some.inj h; exact hr

theorem replayEntries_frames {timeoutSecs : UInt64} {now : Int} {entries : List (Except String JournalEntry)}
    {env : Nat → Nat → Answer} {r : Replayed} (hP : Emits P) (hr : ∀ frame ∈ r.frames, P frame) :
    ∀ frame ∈ (replayEntries X timeoutSecs now entries env r).frames, P frame := by
  induction entries generalizing env r with
  | nil => exact hr
  | cons entry rest ih =>
    cases entry with
    | ok entry => exact ih (replayLoop_frames hP hr)
    | error e =>
      refine ih fun frame hf => ?_
      rcases List.mem_append.1 hf with hf | hf
      · rw [Replayed.mark_frames] at hf
        exact hr frame hf
      · obtain rfl := List.mem_singleton.1 hf
        exact hP.reread _ _ _

/-- The frames sent after the first registration. -/
theorem Boot.replay_frames (hP : Emits P) (b : Boot) : ∀ frame ∈ (b.replay X).frames, P frame := by
  unfold Boot.replay replayJournal
  cases b.entries with
  | error e => simp
  | ok entries => exact replayEntries_frames hP (by simp)

end

end FaultForge.Agent
