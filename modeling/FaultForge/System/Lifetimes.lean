import FaultForge.Agent.History
import FaultForge.Agent.Replay
import FaultForge.Plugin.NoopMarker
import FaultForge.System.Deadlines

/-!
# An instance and its host over all lifetimes of the agent

The task of an instance, any number of crashes of the agent, the restart replay of the entry that a crash left, and the
plugin processes that all of them start, on one host. The plugin is a parameter: `Plugin.exec` says how a process ends
and what it makes of the host. A process does not outlive the agent that started it, and the id of the instance is not
dispatched again.

**`launches_agree`**: every process of every lifetime is the plugin of the `RunFault`, with the same input but for the
phase; its deadline counts from the clock as the task read it in its first step (`startedLts`).

| here | there |
| --- | --- |
| `Task.launch` | `invoke_gated` supervisor.rs:460-469 |
| `JournalEntry.launch` | `replay_invoke` supervisor.rs:865-871 |
| `Listing` | `replay_journal` supervisor.rs:709-745, for the entry of the instance |
-/
namespace FaultForge.Agent

open Lts
open NoopMarker (PluginInput)

/-! ## Plugin processes -/

/-- A process that the agent starts. -/
structure Launch where
  pluginName : String
  pluginVersion : String
  pluginDigest : String
  command : PluginCommand
  input : PluginInput

def Task.launch (t : Task) (command : PluginCommand) (phase : Phase) : Launch where
  pluginName := t.run.pluginName
  pluginVersion := t.run.pluginVersion
  pluginDigest := t.run.pluginDigest
  command := command
  input := ⟨t.id, t.params, t.deadlineUnix, phase⟩

def JournalEntry.launch (entry : JournalEntry) (command : PluginCommand) (phase : Phase) : Launch where
  pluginName := entry.pluginName
  pluginVersion := entry.pluginVersion
  pluginDigest := entry.pluginDigest
  command := command
  input := ⟨entry.instanceId, entry.params, entry.deadlineUnix, phase⟩

/-- A plugin on hosts `σ`; `ι` is what its surroundings decide, how far it gets before it is killed included. -/
structure Plugin (ι σ : Type) where
  exec : ι → PluginCommand → PluginInput → σ → ProcessEnd × σ

variable {ι σ : Type}

/-! ## The system -/

inductive Lifetime
  /-- The task of the instance. -/
  | running (c : Instance)
  /-- A restarted agent replays the entry; `r.result` has the disk. -/
  | replaying (entry : JournalEntry) (ctx : Ctx) (r : Replay)
  /-- A restarted agent that is done with the instance. -/
  | idle (ctx : Ctx)
  /-- No agent. -/
  | down (ctx : Ctx)

def Replayed.onto (result : Replayed) (ctx : Ctx) : Ctx :=
  { ctx with journal := result.journal, taint := result.taint }

def Lifetime.ctx : Lifetime → Ctx
  | .running c => c.ctx
  | .replaying _ ctx r => r.result.onto ctx
  | .idle ctx | .down ctx => ctx

structure Site (σ : Type) where
  life : Lifetime
  host : σ
  /-- The processes started, newest first. -/
  launched : List Launch

/-- What the listing of the journal says of the entry. -/
inductive Listing
  | failed
  | unreadable (error : String) (markError : Option String)
  | read

inductive SiteLabel (ι : Type)
  | task (choice : Choice) (i : ι)
  | stop (cause : StopCause)
  | interfere (i : Interference)
  /-- With `some i`, the process of the moment has had its effect. -/
  | crash (i : Option ι)
  | restart (now : Int) (listing : Listing)
  | turn (answer : Answer) (i : ι)

/-- The host after a step of the task; `none` for a result that is not its process's. -/
def Plugin.settle (P : Plugin ι σ) (i : ι) (t : Task) (choice : Choice) (host : σ) : Option σ :=
  match t.pc, choice with
  | .running command phase, .exit invocation =>
    let (status, host) := P.exec i command (t.launch command phase).input host
    if invocation.status = status then some host else none
  | .running command phase, .joinError _ => some (P.exec i command (t.launch command phase).input host).2
  | _, _ => some host

/-- The process that a step of the task starts. -/
def launches (t t' : Task) : List Launch :=
  match t.pc, t'.pc with
  | .verify .., .running command phase => [t'.launch command phase]
  | _, _ => []

/-- The process of the next turn of a replay. -/
def Replay.launch (entry : JournalEntry) (answer : Answer) (r : Replay) : Option Launch :=
  match r.effects with
  | .invoke command phase :: _ =>
    match replayGate entry.pluginDigest answer.resolved with
    | .ok _ => some (entry.launch command phase)
    | .error _ => none
  | _ => none

/-- A restart, as far as it concerns the instance `id`. -/
def restart (id : String) (now : Int) (ctx : Ctx) : Listing → Lifetime
  | .failed => .idle ctx
  | .unreadable error markError =>
    if (ctx.journal.lookup id).isSome then
      .idle (ctx.mark ⟨s!"unreadable journal entry at startup: {error}", now, ""⟩ markError)
    else .idle ctx
  | .read =>
    match ctx.journal.lookup id with
    | none => .idle ctx
    | some entry =>
      let (state, effects) := State.replayRecovery (replayOutcome now entry) "recovered after agent restart"
      .replaying entry ctx { state, queue := [], effects, result := ⟨ctx.journal, ctx.taint, [], []⟩ }

/-- The host after a process that a crash took down. -/
def Plugin.cut (P : Plugin ι σ) (launch : Option Launch) (i : Option ι) (host : σ) : σ :=
  match launch, i with
  | some launch, some i => (P.exec i launch.command launch.input host).2
  | _, _ => host

/-- The process of the moment. -/
def Lifetime.process : Lifetime → Option Launch
  | .running c =>
    match c.task.pc with
    | .running command phase => some (c.task.launch command phase)
    | _ => none
  | .replaying entry _ r =>
    match r.effects with
    | .invoke command phase :: _ => some (entry.launch command phase)
    | _ => none
  | _ => none

/-- A process that only starts as the agent crashes. -/
def Lifetime.starting : Lifetime → Option ι → List Launch
  | .replaying entry ctx r, some _ => (Lifetime.replaying entry ctx r).process.toList
  | _, _ => []

def siteLts (X : Ext) (P : Plugin ι σ) (run : RunFault) : System (Site σ) (SiteLabel ι) where
  init s := s.launched = [] ∧
    ∃ ctx, s.life = .running ⟨ctx, .spawn run, [], false, false⟩ ∧ ctx.journal.lookup run.instanceId = none
  step s label :=
    match s.life, label with
    | .running c, .task choice i => do
      let c' ← (instanceLts X).step c (.task choice)
      let host ← P.settle i c.task choice s.host
      some ⟨.running c', host, launches c.task c'.task ++ s.launched⟩
    | .running c, .stop cause => ((instanceLts X).step c (.stop cause)).map fun c => { s with life := .running c }
    | .running c, .interfere i =>
      ((instanceLts X).step c (.interfere i)).map fun c => { s with life := .running c }
    | .replaying entry ctx r, .turn answer i =>
      match replayTurn X ctx.invocationTimeoutSecs entry answer r with
      | none => some { s with life := .idle (r.result.onto ctx) }
      | some r' =>
        match r.launch entry answer with
        | none => some { s with life := .replaying entry ctx r' }
        | some launch =>
          let (status, host) := P.exec i launch.command launch.input s.host
          if answer.invocation.status = status then
            some ⟨.replaying entry ctx r', host, launch :: s.launched⟩
          else none
    | .idle ctx, .interfere i => (i.apply run.instanceId ctx).map fun ctx => { s with life := .idle ctx }
    | .down ctx, .interfere i => (i.apply run.instanceId ctx).map fun ctx => { s with life := .down ctx }
    | .down ctx, .restart now listing => some { s with life := restart run.instanceId now ctx listing }
    | .down _, _ => none
    | life, .crash i =>
      some ⟨.down life.ctx, P.cut life.process i s.host, life.starting i ++ s.launched⟩
    | _, _ => none

/-! ## The steps of the site -/

section
variable {X : Ext} {P : Plugin ι σ} {run : RunFault} {s s' : Site σ} {label : SiteLabel ι}

inductive SiteStep (X : Ext) (P : Plugin ι σ) (run : RunFault) (s : Site σ) : SiteLabel ι → Site σ → Prop
  | task {c c' : Instance} {choice : Choice} {i : ι} {host : σ} : s.life = .running c →
      (instanceLts X).step c (.task choice) = some c' → P.settle i c.task choice s.host = some host →
      SiteStep X P run s (.task choice i) ⟨.running c', host, launches c.task c'.task ++ s.launched⟩
  | stop {c c' : Instance} {cause : StopCause} : s.life = .running c →
      (instanceLts X).step c (.stop cause) = some c' →
      SiteStep X P run s (.stop cause) { s with life := .running c' }
  | interfere {c c' : Instance} {i : Interference} : s.life = .running c →
      (instanceLts X).step c (.interfere i) = some c' →
      SiteStep X P run s (.interfere i) { s with life := .running c' }
  | ended {entry : JournalEntry} {ctx : Ctx} {r : Replay} {answer : Answer} {i : ι} :
      s.life = .replaying entry ctx r →
      SiteStep X P run s (.turn answer i) { s with life := .idle (r.result.onto ctx) }
  | turn {entry : JournalEntry} {ctx : Ctx} {r r' : Replay} {answer : Answer} {i : ι} :
      s.life = .replaying entry ctx r → replayTurn X ctx.invocationTimeoutSecs entry answer r = some r' →
      r.launch entry answer = none →
      SiteStep X P run s (.turn answer i) { s with life := .replaying entry ctx r' }
  | process {entry : JournalEntry} {ctx : Ctx} {r r' : Replay} {answer : Answer} {i : ι} {launch : Launch} :
      s.life = .replaying entry ctx r → replayTurn X ctx.invocationTimeoutSecs entry answer r = some r' →
      r.launch entry answer = some launch →
      answer.invocation.status = (P.exec i launch.command launch.input s.host).1 →
      SiteStep X P run s (.turn answer i)
        ⟨.replaying entry ctx r', (P.exec i launch.command launch.input s.host).2, launch :: s.launched⟩
  | idle {ctx ctx' : Ctx} {i : Interference} : s.life = .idle ctx → i.apply run.instanceId ctx = some ctx' →
      SiteStep X P run s (.interfere i) { s with life := .idle ctx' }
  | down {ctx ctx' : Ctx} {i : Interference} : s.life = .down ctx → i.apply run.instanceId ctx = some ctx' →
      SiteStep X P run s (.interfere i) { s with life := .down ctx' }
  | restart {ctx : Ctx} {now : Int} {listing : Listing} : s.life = .down ctx →
      SiteStep X P run s (.restart now listing) { s with life := Agent.restart run.instanceId now ctx listing }
  | crash {i : Option ι} : SiteStep X P run s (.crash i)
      ⟨.down s.life.ctx, P.cut s.life.process i s.host, s.life.starting i ++ s.launched⟩

/-- The inversion lemma of the site. -/
theorem siteStep_cases (h : (siteLts X P run).step s label = some s') : SiteStep X P run s label s' := by
  simp only [siteLts] at h
  split at h
  next c choice i hlife =>
    obtain ⟨c', hc, h⟩ := Option.bind_eq_some_iff.1 h
    obtain ⟨host, hset, h⟩ := Option.bind_eq_some_iff.1 h
    cases h
    exact .task hlife hc hset
  next c cause hlife =>
    obtain ⟨c', hc, rfl⟩ := Option.map_eq_some_iff.1 h
    exact .stop hlife hc
  next c i hlife =>
    obtain ⟨c', hc, rfl⟩ := Option.map_eq_some_iff.1 h
    exact .interfere hlife hc
  next entry ctx r answer i hlife =>
    split at h
    next => cases h; exact .ended hlife
    next r' hturn =>
      split at h
      next hl => cases h; exact .turn hlife hturn hl
      next launch hl =>
        split at h
        next hstatus => cases h; exact .process hlife hturn hl hstatus
        next => cases h
  next ctx i hlife =>
    obtain ⟨ctx', hi, rfl⟩ := Option.map_eq_some_iff.1 h
    exact .idle hlife hi
  next ctx i hlife =>
    obtain ⟨ctx', hi, rfl⟩ := Option.map_eq_some_iff.1 h
    exact .down hlife hi
  next ctx now listing hlife => cases h; exact .restart hlife
  next => cases h
  next => cases h; exact .crash
  next => cases h

end

/-! ## What the processes are given -/

/-- A process of the instance of `run` that was started at `startMs`. -/
structure Launch.Of (X : Ext) (run : RunFault) (startMs : Int) (l : Launch) : Prop where
  pluginName : l.pluginName = run.pluginName
  pluginVersion : l.pluginVersion = run.pluginVersion
  pluginDigest : l.pluginDigest = run.pluginDigest
  instanceId : l.input.instanceId = run.instanceId
  params : X.parseParams run.paramsJson = .ok l.input.params
  deadline : l.input.deadlineUnix = startMs.tdiv 1000 + run.durationSecs.toNat + run.graceSecs.toNat

def JournalEntry.Of (X : Ext) (run : RunFault) (startMs : Int) (entry : JournalEntry) : Prop :=
  ∀ command phase, (entry.launch command phase).Of X run startMs

/-- A process of the instance of `run`, whose task has read the clock at its start. -/
def Launch.Since (X : Ext) (run : RunFault) (seen : Option Int) (l : Launch) : Prop :=
  ∃ startMs, seen = some startMs ∧ l.Of X run startMs

def JournalEntry.Since (X : Ext) (run : RunFault) (seen : Option Int) (entry : JournalEntry) : Prop :=
  ∃ startMs, seen = some startMs ∧ entry.Of X run startMs

theorem JournalEntry.Since.launch {X : Ext} {run : RunFault} {seen : Option Int} {entry : JournalEntry}
    (h : entry.Since X run seen) (command : PluginCommand) (phase : Phase) :
    (entry.launch command phase).Since X run seen := by
  obtain ⟨startMs, hseen, hof⟩ := h
  exact ⟨startMs, hseen, hof command phase⟩

/-- Past setup the parameters are those of the `RunFault`. -/
structure Task.Briefed (X : Ext) (t : Task) : Prop where
  params : t.state ≠ .pending → t.state.isTerminal = false → X.parseParams t.run.paramsJson = .ok t.params
  setup : .setupOk ∈ t.queue → X.parseParams t.run.paramsJson = .ok t.params

section
variable {X : Ext} {ctx ctx' : Ctx} {t t' : Task} {obs : List Obs} {choice : Choice} {command : PluginCommand}
  {phase : Phase} {run : RunFault}

theorem hears_mem {event : Event} (h : t.hears ctx choice = some event) :
    event ∈ t.queue ∨ event.answers = none := by
  unfold Task.hears at h
  split at h
  · split at h
    next hq => exact .inl (by rw [hq, Option.some.inj h]; exact List.mem_cons_self)
    next =>
      split at h
      · cases h
      · exact .inr (by rw [← Option.some.inj h]; rfl)
    next => cases h
  · split at h
    · exact .inr (by rw [← Option.some.inj h]; rfl)
    · cases h
  · exact .inr (by rw [← Option.some.inj h]; rfl)
  · obtain ⟨cause, -, rfl⟩ := Option.map_eq_some_iff.1 h
    exact .inr rfl
  · cases h

theorem setup_params {taint : Option TaintRecord} {resolved : Except String VerifiedPlugin} {plugin : VerifiedPlugin}
    {params : Params} (h : setup X taint run resolved = .ok (plugin, params)) :
    X.parseParams run.paramsJson = .ok params := by
  unfold setup at h
  repeat' split at h
  all_goals first | cases h; done | skip
  cases h
  assumption

theorem taskStep_setup (hpc : t.pc = .setup) (h : taskStep X ctx t choice = some (ctx', t', obs)) :
    t'.run = t.run ∧ t'.state = t.state ∧
      (X.parseParams t.run.paramsJson = .ok t'.params ∨ ∃ reason, t'.queue = [.setupFailed reason]) := by
  cases choice with
  | resolved result =>
    simp only [taskStep, hpc] at h
    split at h
    next hs => cases h; exact ⟨rfl, rfl, .inl (setup_params hs)⟩
    next reason _ => cases h; exact ⟨rfl, rfl, .inr ⟨reason, rfl⟩⟩
  | joinError msg =>
    simp only [taskStep, hpc] at h
    cases h
    exact ⟨rfl, rfl, .inr ⟨_, rfl⟩⟩
  | _ => simp [taskStep, hpc] at h

/-- Outside setup the parameters stay, and no `SetupOk` is queued. -/
theorem TaskStep.briefing (h : TaskStep X ctx t ctx' t' obs) (hshape : t.Shape) (hpc : t.pc ≠ .setup) :
    t'.params = t.params ∧ (.setupOk ∈ t'.queue → .setupOk ∈ t.queue) := by
  cases h with
  | setupDone _ hs => exact absurd hs hpc
  | next _ _ hq => exact ⟨rfl, fun hm => by rw [hq]; exact List.mem_cons_of_mem _ hm⟩
  | wedged => exact ⟨rfl, fun hm => by simp [consume] at hm⟩
  | write | writeFailed => exact ⟨rfl, fun hm => by simpa [Task.push] using hm⟩
  | refused _ he => obtain ⟨reason, rfl | rfl⟩ := he <;> exact ⟨rfl, fun hm => by simpa [Task.push] using hm⟩
  | stopRunning | lost => exact ⟨rfl, fun hm => by simpa [Task.push] using hm⟩
  | @forwarded event hf =>
    obtain ⟨-, -, hne, -⟩ : t.InFlight event.answers := by simpa only [Task.Shape, hf] using hshape
    refine ⟨rfl, fun hm => ?_⟩
    rcases List.mem_append.1 hm with hm | hm
    · exact hm
    · obtain rfl := List.mem_singleton.1 hm
      exact absurd rfl hne
  | _ => exact ⟨rfl, id⟩

theorem Task.Briefed.step (hb : t.Briefed X) (hshape : t.Shape) (h : taskStep X ctx t choice = some (ctx', t', obs)) :
    t'.Briefed X := by
  have hcases := taskStep_cases h
  by_cases hpc : t.pc = .setup
  · obtain ⟨hst, -, -⟩ : t.state = .pending ∧ t.queue = [] ∧ t.effects = [] := by
      simpa only [Task.Shape, hpc] using hshape
    obtain ⟨hrun, hsame, hp⟩ := taskStep_setup hpc h
    refine ⟨fun hne => absurd (hsame.trans hst) hne, fun hm => ?_⟩
    rcases hp with hp | ⟨reason, hq⟩
    · rw [hrun]
      exact hp
    · rw [hq] at hm
      simp at hm
  · obtain ⟨hparams, hback⟩ := hcases.briefing hshape hpc
    refine ⟨fun hne hlive => ?_, fun hm => by rw [hcases.run_eq, hparams]; exact hb.setup (hback hm)⟩
    rw [hcases.run_eq, hparams]
    have hf := taskStep_follows h
    cases hh : t.hears ctx choice with
    | none =>
      rw [hh] at hf
      rw [hf.1] at hne hlive
      exact hb.params hne hlive
    | some event =>
      rw [hh] at hf
      have hst : t'.state = (Agent.step t.state event).1 := congrArg Prod.fst hf.1
      rw [hst] at hne hlive
      obtain ⟨-, hfit⟩ := hshape.hears hh
      have htr := step_trans t.state event (hfit.imp_right fun h => .inl h.1)
      have hlive₀ : t.state.isTerminal = false := by
        refine Bool.eq_false_iff.2 fun hterm => ?_
        rw [(htr.of_terminal hterm).1, hterm] at hlive
        cases hlive
      by_cases hp : t.state = .pending
      · -- out of `PENDING` by the answer of setup only
        rw [hp] at hne hlive
        cases event with
        | setupOk => exact hb.setup ((hears_mem hh).resolve_right (by simp [Event.answers]))
        | _ => simp [Agent.step, stepPending, abortedWith, State.isTerminal] at hne hlive
      · exact hb.params hp hlive₀

theorem taskStep_reads (hpc : t.pc = .start) (h : taskStep X ctx t choice = some (ctx', t', obs)) :
    ctx' = ctx ∧ t'.startMs = ctx.now := by
  cases choice with
  | go =>
    simp only [taskStep, hpc] at h
    cases h
    exact ⟨rfl, rfl⟩
  | _ => simp [taskStep, hpc] at h

/-- What a task, its entry and its processes have in common. -/
structure Carries (X : Ext) (run : RunFault) (entry : Option JournalEntry) (launched : List Launch) (t : Task) :
    Prop where
  run_eq : t.run = run
  briefed : t.Briefed X
  fresh : t.pc = .start → launched = [] ∧ entry = none
  launched : ∀ l ∈ launched, l.Of X run t.startMs
  entry : ∀ e, entry = some e → e.Of X run t.startMs

theorem Task.InFlight.briefed (hb : t.Briefed X) (hf : t.InFlight (some (.command command))) :
    X.parseParams t.run.paramsJson = .ok t.params := by
  refine hb.params (fun hp => ?_) hf.live
  have haw := hf.1
  rw [hp] at haw
  simp [State.awaits] at haw

theorem Carries.launch_of {entry : Option JournalEntry} {launched : List Launch}
    (hc : Carries X run entry launched t) (hd : t.Dated) (hpc : t.pc ≠ .start)
    (hp : X.parseParams t.run.paramsJson = .ok t.params) (command : PluginCommand) (phase : Phase) :
    (t.launch command phase).Of X run t.startMs := by
  have hdeadline := hd hpc
  have hrun := hc.run_eq
  subst hrun
  exact ⟨rfl, rfl, rfl, rfl, hp, hdeadline⟩

theorem Carries.since {entry : Option JournalEntry} {launched : List Launch} {seen : Option Int}
    (hc : Carries X run entry launched t) (hseen : t.pc ≠ .start → seen = some t.startMs) :
    (∀ l ∈ launched, l.Since X run seen) ∧ ∀ e, entry = some e → e.Since X run seen := by
  by_cases hpc : t.pc = .start
  · obtain ⟨rfl, rfl⟩ := hc.fresh hpc
    exact ⟨by simp, by simp⟩
  · exact ⟨fun l hl => ⟨_, hseen hpc, hc.launched l hl⟩, fun e he => ⟨_, hseen hpc, hc.entry e he⟩⟩

/-- The step lemma; `journal` is where the entry is looked up. -/
theorem Carries.step {launched : List Launch} (hc : Carries X run (ctx.journal.lookup run.instanceId) launched t)
    (hshape : t.Shape) (hd : t.Dated) (h : taskStep X ctx t choice = some (ctx', t', obs)) :
    Carries X run (ctx'.journal.lookup run.instanceId) (launches t t' ++ launched) t' := by
  have hcases := taskStep_cases h
  have hid : t.id = run.instanceId := by rw [Task.id, hc.run_eq]
  by_cases hpc : t.pc = .start
  · obtain ⟨hl, he⟩ := hc.fresh hpc
    have hnone : launches t t' = [] := by simp [launches, hpc]
    rw [hnone, hl, (taskStep_reads hpc h).1, he]
    exact ⟨hcases.run_eq.trans hc.run_eq, hc.briefed.step hshape h, fun _ => ⟨rfl, rfl⟩, by simp, by simp⟩
  · obtain ⟨hstart, hdeadline, hrun⟩ := hcases.dates_eq hpc
    have hpc' : t'.pc ≠ .start := by
      cases hcases with
      | @send frame after hs _ => cases after <;> simp [After.pc]
      | remove | removeFailed | stopRunning => exact hpc
      | _ => simp [consume, Task.push]
    refine ⟨hrun.trans hc.run_eq, hc.briefed.step hshape h, fun hs => absurd hs hpc', ?_, ?_⟩
    · rw [hstart]
      intro l hl
      rcases List.mem_append.1 hl with hl | hl
      · unfold launches at hl
        split at hl
        next verified _ command phase hv hr =>
          obtain rfl := List.mem_singleton.1 hl
          have hf : t.InFlight (some (.command verified)) := by simpa only [Task.Shape, hv] using hshape
          have hparams := (hcases.briefing hshape (by simp [hv])).1
          have hsame : t'.launch command phase = t.launch command phase := by
            simp only [Task.launch, Task.id, hrun, hparams, hdeadline]
          rw [hsame]
          exact hc.launch_of hd hpc (hf.briefed hc.briefed) command phase
        next => cases hl
      · exact hc.launched l hl
    · rw [hstart]
      intro e he
      cases hcases with
      | write hl heff =>
        rw [hid, AList.lookup_insert] at he
        obtain rfl := Option.some.inj he
        obtain ⟨stop, hst⟩ := (hshape.inLoop hl).awaits_journal heff
        have hp := hc.briefed.params (by simp [hst]) (by simp [hst, State.isTerminal])
        exact hc.launch_of hd hpc hp
      | remove =>
        rw [hid, AList.lookup_erase] at he
        cases he
      | mark =>
        rw [Ctx.mark_journal] at he
        exact hc.entry e he
      | _ => exact hc.entry e he

end

/-- The clock as the task reads it in its first step (supervisor.rs:591); later readings change nothing. -/
def followStart (s : Site σ) (seen : Option Int) : SiteLabel ι → Site σ → Option Int
  | .task _ _, _ =>
    match s.life with
    | .running c => if c.task.pc = .start then some c.ctx.now else seen
    | _ => seen
  | _, _ => seen

/-- The site, with the reading that its task started at. -/
def startedLts (X : Ext) (P : Plugin ι σ) (run : RunFault) : System (Watched (Site σ) (Option Int)) (SiteLabel ι) :=
  watch (siteLts X P run) (fun _ => none) followStart

/-- The task, the entry and the processes of a site. -/
def Site.Agrees (X : Ext) (run : RunFault) (seen : Option Int) (s : Site σ) : Prop :=
  match s.life with
  | .running c => Reach (instanceLts X) c ∧ Carries X run (c.ctx.journal.lookup run.instanceId) s.launched c.task ∧
      (c.task.pc ≠ .start → seen = some c.task.startMs)
  | .replaying entry _ r => (∀ l ∈ s.launched, l.Since X run seen) ∧ entry.Since X run seen ∧
      ∀ e, r.result.journal.lookup run.instanceId = some e → e.Since X run seen
  | .idle ctx | .down ctx => (∀ l ∈ s.launched, l.Since X run seen) ∧
      ∀ e, ctx.journal.lookup run.instanceId = some e → e.Since X run seen

section
variable {X : Ext} {P : Plugin ι σ} {run : RunFault} {s s' : Site σ} {label : SiteLabel ι}

/-- A replay only ever removes the entry. -/
theorem replayTurn_journal {timeoutSecs : UInt64} {entry : JournalEntry} {answer : Answer} {r r' : Replay} {id : String}
    (h : replayTurn X timeoutSecs entry answer r = some r') {e : JournalEntry}
    (he : r'.result.journal.lookup id = some e) : r.result.journal.lookup id = some e := by
  unfold replayTurn at h
  split at h
  next effect rest heff =>
    obtain rfl := Option.some.inj h
    cases effect with
    | removeJournal =>
      simp only [replayEffect] at he
      split at he
      · by_cases hid : id = entry.instanceId
        · subst hid
          rw [AList.lookup_erase] at he
          cases he
        · rwa [AList.lookup_erase_ne hid] at he
      · exact he
    | markTainted reason =>
      have hj : ∀ (r : Replayed) (record : TaintRecord) (error : Option String),
          (r.mark record error).journal = r.journal := fun r record error => by unfold Replayed.mark; split <;> rfl
      simpa only [replayEffect, hj] using he
    | emitStatus | invoke | writeJournal => exact he
  next =>
    split at h
    · cases h
    · obtain rfl := Option.some.inj h
      exact he

theorem Replay.launch_some {entry : JournalEntry} {answer : Answer} {r : Replay} {launch : Launch}
    (h : r.launch entry answer = some launch) :
    ∃ command phase rest, r.effects = .invoke command phase :: rest ∧ launch = entry.launch command phase ∧
      ∃ plugin, replayGate entry.pluginDigest answer.resolved = .ok plugin := by
  unfold Replay.launch at h
  split at h
  next command phase rest heff =>
    split at h
    next plugin hg => exact ⟨command, phase, rest, heff, (Option.some.inj h).symm, plugin, hg⟩
    next => cases h
  next => cases h

theorem Lifetime.starting_of {life : Lifetime} {i : Option ι} {l : Launch} (h : l ∈ life.starting i) :
    ∃ entry ctx r command phase, life = .replaying entry ctx r ∧ l = entry.launch command phase := by
  unfold Lifetime.starting at h
  split at h
  next entry ctx r _ =>
    simp only [Lifetime.process, Option.mem_toList] at h
    split at h
    next command phase _ _ => exact ⟨entry, ctx, r, command, phase, rfl, (Option.some.inj h).symm⟩
    next => cases h
  next => cases h

theorem instance_step {c c' : Instance} {choice : Choice} (h : (instanceLts X).step c (.task choice) = some c') :
    ∃ obs, taskStep X c.ctx c.task choice = some (c'.ctx, c'.task, obs) ∧ c'.seen = obs ++ c.seen := by
  simp only [instanceLts] at h
  split at h
  · cases h
  · obtain ⟨⟨ctx', t', obs⟩, hstep, rfl⟩ := Option.map_eq_some_iff.1 h
    exact ⟨obs, hstep, rfl⟩

theorem instance_stop {c c' : Instance} {cause : StopCause} (h : (instanceLts X).step c (.stop cause) = some c') :
    c' = { c with task := { c.task with stopRx := c.task.stopRx ++ [cause] } } := by
  simp only [instanceLts] at h
  split at h
  · cases h
  · exact (Option.some.inj h).symm

theorem instance_interfere {c c' : Instance} {i : Interference}
    (h : (instanceLts X).step c (.interfere i) = some c') :
    ∃ ctx', i.apply c.task.id c.ctx = some ctx' ∧ c' = { c with ctx := ctx' } := by
  simp only [instanceLts] at h
  split at h
  · cases h
  · obtain ⟨ctx', hi, rfl⟩ := Option.map_eq_some_iff.1 h
    exact ⟨ctx', hi, rfl⟩

/-- The replay starts from the entry on disk. -/
theorem restart_agrees {id : String} {now : Int} {ctx : Ctx} {listing : Listing} {seen : Option Int} {host : σ}
    {launched : List Launch} (hid : id = run.instanceId) (hl : ∀ l ∈ launched, l.Since X run seen)
    (he : ∀ e, ctx.journal.lookup id = some e → e.Since X run seen) :
    Site.Agrees X run seen ⟨restart id now ctx listing, host, launched⟩ := by
  subst hid
  cases listing with
  | failed => exact ⟨hl, he⟩
  | unreadable error markError =>
    simp only [restart]
    split
    · exact ⟨hl, by rw [Ctx.mark_journal]; exact he⟩
    · exact ⟨hl, he⟩
  | read =>
    simp only [restart]
    cases hentry : ctx.journal.lookup run.instanceId with
    | none => exact ⟨hl, he⟩
    | some entry => exact ⟨hl, he entry hentry, fun e he' => he e he'⟩

theorem Site.Agrees.step {seen : Option Int} (ha : s.Agrees X run seen)
    (h : (siteLts X P run).step s label = some s') : s'.Agrees X run (followStart s seen label s') := by
  cases siteStep_cases h with
  | @task c c' choice i host hlife hc hset =>
    simp only [Site.Agrees, hlife] at ha
    obtain ⟨hreach, hcar, hseen⟩ := ha
    obtain ⟨obs, hstep, -⟩ := instance_step hc
    refine ⟨.step hreach hc, hcar.step (reach_accounted hreach).1 (reach_dated hreach) hstep, fun _ => ?_⟩
    simp only [followStart, hlife]
    split
    next hpc => exact congrArg some (taskStep_reads hpc hstep).2.symm
    next hpc => rw [hseen hpc, ((taskStep_cases hstep).dates_eq hpc).1]
  | stop hlife hc =>
    simp only [Site.Agrees, hlife] at ha
    obtain ⟨hreach, hcar, hseen⟩ := ha
    have hreach' := Reach.step hreach hc
    obtain rfl := instance_stop hc
    refine ⟨hreach', ?_, hseen⟩
    exact ⟨hcar.run_eq, ⟨hcar.briefed.params, hcar.briefed.setup⟩, hcar.fresh, hcar.launched, hcar.entry⟩
  | interfere hlife hc =>
    simp only [Site.Agrees, hlife] at ha
    obtain ⟨hreach, hcar, hseen⟩ := ha
    have hreach' := Reach.step hreach hc
    obtain ⟨ctx', hi, rfl⟩ := instance_interfere hc
    have hsame := (Interference.frame hi).1
    rw [Task.id, hcar.run_eq] at hsame
    refine ⟨hreach', ?_, hseen⟩
    simp only [hsame]
    exact hcar
  | ended hlife =>
    simp only [Site.Agrees, hlife] at ha
    exact ⟨ha.1, ha.2.2⟩
  | turn hlife hturn _ =>
    simp only [Site.Agrees, hlife] at ha
    obtain ⟨hl, hentry, he⟩ := ha
    exact ⟨hl, hentry, fun e hm => he e (replayTurn_journal hturn hm)⟩
  | process hlife hturn hlaunch _ =>
    simp only [Site.Agrees, hlife] at ha
    obtain ⟨hl, hentry, he⟩ := ha
    obtain ⟨command, phase, -, -, rfl, -⟩ := Replay.launch_some hlaunch
    refine ⟨fun l hm => ?_, hentry, fun e hm => he e (replayTurn_journal hturn hm)⟩
    rcases List.mem_cons.1 hm with rfl | hm
    · exact hentry.launch command phase
    · exact hl l hm
  | idle hlife hi | down hlife hi =>
    simp only [Site.Agrees, hlife] at ha
    obtain ⟨hl, he⟩ := ha
    exact ⟨hl, by rw [(Interference.frame hi).1]; exact he⟩
  | restart hlife =>
    simp only [Site.Agrees, hlife] at ha
    obtain ⟨hl, he⟩ := ha
    exact restart_agrees rfl hl he
  | @crash i =>
    cases hlife : s.life with
    | running c =>
      simp only [Site.Agrees, hlife] at ha
      exact ha.2.1.since ha.2.2
    | replaying entry ctx r =>
      simp only [Site.Agrees, hlife] at ha
      obtain ⟨hl, hentry, he⟩ := ha
      refine ⟨fun l hm => ?_, he⟩
      rcases List.mem_append.1 hm with hm | hm
      · obtain ⟨_, _, _, command, phase, heq, rfl⟩ := Lifetime.starting_of hm
        obtain ⟨rfl, -, -⟩ := Lifetime.replaying.inj heq
        exact hentry.launch command phase
      · exact hl l hm
    | idle ctx | down ctx =>
      simp only [Site.Agrees, hlife] at ha
      exact ha

theorem reach_agrees {w : Watched (Site σ) (Option Int)} (h : Reach (startedLts X P run) w) :
    w.state.Agrees X run w.seen := by
  refine h.inv (P := fun w => w.state.Agrees X run w.seen) ?_ fun w label w' ha hs => ?_
  · rintro ⟨⟨life, host, launched⟩, seen⟩ ⟨⟨rfl, ctx, rfl, hfree⟩, hseen⟩
    obtain rfl : seen = none := hseen
    refine ⟨.init ⟨run, rfl, rfl, ?_, rfl⟩, ⟨rfl, ⟨fun hne => absurd rfl hne, ?_⟩, fun _ => ⟨rfl, hfree⟩, ?_, ?_⟩,
      fun hne => absurd rfl hne⟩
    · simp only [Instance.entry, Task.id, Task.spawn, hfree, Option.isSome_none]
    · intro hm; simp [Task.spawn] at hm
    · intro l hl; cases hl
    · intro e he
      rw [hfree] at he
      cases he
  · obtain ⟨hstep, hseen⟩ := watch_step_some.1 hs
    exact hseen ▸ ha.step hstep

/-- **All processes of an instance agree**, over all lifetimes of the agent: one plugin, the parameters of the
`RunFault`, and one deadline, which the task fixed when it started. -/
theorem launches_agree {w : Watched (Site σ) (Option Int)} (h : Reach (startedLts X P run) w) {l : Launch}
    (hl : l ∈ w.state.launched) : ∃ startMs, w.seen = some startMs ∧ l.Of X run startMs := by
  have ha := reach_agrees h
  cases hlife : w.state.life with
  | running c =>
    simp only [Site.Agrees, hlife] at ha
    exact (ha.2.1.since ha.2.2).1 l hl
  | replaying entry ctx r | idle ctx | down ctx =>
    simp only [Site.Agrees, hlife] at ha
    exact ha.1 l hl

end

/-! ## A crash during `inject`, and the replay after it -/

/-- A switch that `inject` turns on and `cleanup` turns off. -/
def switchPlugin : Plugin Unit Bool where
  exec _ command _ on :=
    match command with
    | .inject => (.code 0, true)
    | .cleanup => (.code 0, false)
    | _ => (.code 0, on)

def sampleSite : Site Bool := ⟨.running sampleInstance, false, []⟩

/-- The entry of the disk is replayed; every process exits 0. -/
def replayLabels : List (SiteLabel Unit) :=
  .restart 5000 .read :: List.replicate 7 (.turn ⟨5000, .ok samplePlugin, ⟨[], "", .code 0⟩, none⟩ ())

/-- The switch is on when `inject` is taken down with the agent. -/
def crashLabels : List (SiteLabel Unit) := injectChoices.map (.task · ()) ++ [.crash (some ())]

theorem sampleSite_init : ((siteLts plainExt switchPlugin sampleRun).startIn fun s => s.host = false).init sampleSite :=
  ⟨⟨rfl, sampleCtx, rfl, rfl⟩, rfl⟩

/-- Five processes in two lifetimes, the second of them four seconds after the first. -/
theorem launches_agree_sample : ∃ w : Watched (Site Bool) (Option Int), w.state.launched.length = 5 ∧
    w.seen = some 1000 ∧ ∀ l ∈ w.state.launched, l.Of plainExt sampleRun 1000 := by
  obtain ⟨w, hw, hp⟩ := reach_of_run (L := startedLts plainExt switchPlugin sampleRun)
    (fun w => decide (w.state.launched.length = 5) && decide (w.seen = some 1000)) (s := ⟨sampleSite, none⟩)
    ⟨sampleSite_init.1, rfl⟩ (crashLabels ++ replayLabels) (by decide +kernel)
  obtain ⟨hfive, hseen⟩ := Bool.and_eq_true_iff.1 hp
  refine ⟨w, of_decide_eq_true hfive, of_decide_eq_true hseen, fun l hl => ?_⟩
  obtain ⟨startMs, hstart, hof⟩ := launches_agree hw hl
  rw [of_decide_eq_true hseen] at hstart
  exact Option.some.inj hstart ▸ hof

end FaultForge.Agent
