import FaultForge.Agent.TaskShape
import FaultForge.Agent.MachineRun

/-!
# No crash strands an injected fault

`instanceLts` is one instance task under everything that can happen around it: any choice of the environment, stop
requests of any cause at any time, steps of the rest of the agent (`Interference`), and a crash between any two steps.
`Safe` is the invariant that ties the effect order of the machine to the two records on disk; `crash_safe` reads the
law off it, for runs in which `Taint::mark`'s write succeeds and nobody clears the taint (`Assumed`).
-/
namespace FaultForge.Agent

open Lts

/-! ## One instance and its surroundings -/

/-- A step of the rest of the agent: another instance's journal entry, a taint record, frames of the shared channel,
the connectivity, the clock. -/
inductive Interference
  | journal (id : String) (entry : Option JournalEntry)
  | mark (record : TaintRecord) (error : Option String)
  | clear
  | out (frames : List AgentMessage)
  | conn (state : ConnState)
  | tick (now : Int)

/-- The step, in the surroundings of instance `own`. -/
def Interference.apply (own : String) (ctx : Ctx) : Interference → Option Ctx
  | .journal id entry =>
    if id = own then none
    else match entry with
      | some e => some { ctx with journal := ctx.journal.insert id e }
      | none => some { ctx with journal := ctx.journal.erase id }
  | .mark record error => some (ctx.mark record error)
  | .clear => some { ctx with taint := none }
  | .out frames => some { ctx with out := frames }
  | .conn state => some { ctx with conn := state }
  | .tick now => some { ctx with now }

structure Instance where
  ctx : Ctx
  task : Task
  /-- What happened to the instance, newest first. -/
  seen : List Obs
  /-- The journal already had an entry of this id when the task was spawned. -/
  stale : Bool
  crashed : Bool

inductive InstanceLabel
  | task (choice : Choice)
  | stop (cause : StopCause)
  | interfere (i : Interference)
  | crash

/-- The entry of the instance on disk. -/
def Instance.entry (c : Instance) : Option JournalEntry := c.ctx.journal.lookup c.task.id

def instanceLts (X : Ext) : System Instance InstanceLabel where
  init c := ∃ run, c.task = .spawn run ∧ c.seen = [] ∧ c.stale = c.entry.isSome ∧ c.crashed = false
  step c label :=
    if c.crashed then none
    else match label with
      | .task choice =>
        (taskStep X c.ctx c.task choice).map fun (ctx, task, obs) => { c with ctx, task, seen := obs ++ c.seen }
      | .stop cause => some { c with task := { c.task with stopRx := c.task.stopRx ++ [cause] } }
      | .interfere i => (i.apply c.task.id c.ctx).map fun ctx => { c with ctx }
      | .crash => some { c with crashed := true }

/-- The write of `Taint::mark` succeeds, and no `ClearTaint` is issued. -/
def assumed (c : Instance) : InstanceLabel → Bool
  | .task (.io (some _)) =>
    match c.task.effects with
    | .markTainted _ :: _ => false
    | _ => true
  | .interfere .clear => false
  | _ => true

def Assumed (c : Instance) (label : InstanceLabel) : Prop := assumed c label = true

/-! ## The invariant -/

/-- The result a program counter carries to the queue. -/
def Pc.event : Pc → Option Event
  | .forward _ event | .send _ (.forward _ event) => some event
  | _ => none

/-- An exit the event reports has been observed. -/
def Recorded (seen : List Obs) (event : Event) : Prop :=
  ∀ c d, event = .commandFinished c d → ∃ code, classifyExit code = d ∧ .exited c (.code code) ∈ seen

/-- The entry is written and relied upon: `inject` may have run, or the machine is about to be told of the write. -/
def Task.Exposed (t : Task) : Prop :=
  (t.state.afterInject = true ∧ t.state.isTerminal = false) ∨ .journalWritten ∈ t.queue

/-- `inject` is still to be started, or was refused. -/
def Task.Unstarted (t : Task) : Prop :=
  t.effects ≠ [] ∨ (∃ c p, t.pc = .verify c p) ∨ ∃ reason, .invokeRejected .inject reason ∈ t.queue

/-- What ties a task to the disk; `seen`, `entry` and `tainted` are its part of the context. -/
structure Safe (seen : List Obs) (entry : Option JournalEntry) (tainted : Bool) (stale : Bool) (t : Task) : Prop where
  recovery : t.state.Shape
  injected : .spawned .inject ∈ seen → t.state.afterInject
  unstarted : ∀ stop, t.state = .injecting stop → t.Unstarted → .spawned .inject ∉ seen
  result : ∀ event ∈ t.queue, Recorded seen event
  carried : ∀ event, t.pc.event = some event →
    Recorded seen event ∧ event ≠ .journalWritten ∧ ∀ reason, event ≠ .invokeRejected .inject reason
  journaled : t.Exposed → entry.isSome
  removal : .removeJournal ∈ t.effects → t.state.isTerminal
  removed : ∀ ok, .removed ok ∈ seen → t.state.isTerminal
  gone : .removed true ∈ seen → entry = none
  final : t.state.isTerminal → .spawned .inject ∈ seen →
    .exited .inject (.code 20) ∈ seen ∨ .exited .cleanup (.code 0) ∈ seen ∨ tainted = true ∨
      ∃ reason rest, t.effects = .markTainted reason :: rest ∧ entry.isSome
  fresh : entry.isSome → stale = true ∨ t.Exposed ∨ .removeJournal ∈ t.effects ∨ ∃ ok, .removed ok ∈ seen

def Instance.Safe (c : Instance) : Prop :=
  c.task.Shape ∧ Agent.Safe c.seen c.entry c.ctx.taint.isSome c.stale c.task

theorem Recorded.cons {seen : List Obs} {event : Event} (h : Recorded seen event) (o : Obs) :
    Recorded (o :: seen) event := fun c d he =>
  (h c d he).imp fun _ hc => ⟨hc.1, List.mem_cons_of_mem _ hc.2⟩

theorem classifyExit_success (code : Int) : classifyExit code = .success ↔ code = 0 := by
  unfold classifyExit EXIT_SUCCESS EXIT_PREFLIGHT_FAILED EXIT_INJECT_FAILED EXIT_CLEANUP_FAILED
  repeat' split
  all_goals simp
  all_goals omega

section
variable {seen : List Obs} {entry : Option JournalEntry} {tainted stale : Bool} {t t' : Task}

theorem Safe.spawn (run : RunFault) : Safe [] entry tainted entry.isSome (Task.spawn run) where
  recovery := trivial
  injected h := by simp at h
  unstarted stop h := by simp [Task.spawn] at h
  result event h := by simp [Task.spawn] at h
  carried event h := by simp [Task.spawn, Pc.event] at h
  journaled h := by simp [Task.Exposed, Task.spawn, State.afterInject] at h
  removal h := by simp [Task.spawn] at h
  removed ok h := by simp at h
  gone h := by simp at h
  final h := by simp [Task.spawn, State.isTerminal] at h
  fresh h := .inl h

/-! ### Steps that keep the state of the machine -/

/-- A step that keeps state, queue and effects; a result it carries is accounted for. -/
theorem Safe.move (h : Safe seen entry tainted stale t) (hstate : t'.state = t.state) (hqueue : t'.queue = t.queue)
    (heff : t'.effects = t.effects) (hpc : ∀ c p, t'.pc ≠ .verify c p)
    (hcar : ∀ event, t'.pc.event = some event →
      Recorded seen event ∧ event ≠ .journalWritten ∧ ∀ reason, event ≠ .invokeRejected .inject reason) :
    Safe seen entry tainted stale t' := by
  have hexp : t'.Exposed ↔ t.Exposed := by simp only [Task.Exposed, hstate, hqueue]
  have hun : t'.Unstarted → t.Unstarted := by
    rintro (hn | ⟨c, p, hv⟩ | hq)
    · exact .inl (heff ▸ hn)
    · exact absurd hv (hpc c p)
    · exact .inr (.inr (hqueue ▸ hq))
  exact {
    recovery := hstate ▸ h.recovery
    injected := hstate ▸ h.injected
    unstarted := fun stop hs hu => h.unstarted stop (hstate ▸ hs) (hun hu)
    result := hqueue ▸ h.result
    carried := hcar
    journaled := fun he => h.journaled (hexp.1 he)
    removal := fun hm => hstate ▸ h.removal (heff ▸ hm)
    removed := hstate ▸ h.removed
    gone := h.gone
    final := by simpa only [hstate, heff] using h.final
    fresh := by simpa only [hexp, heff] using h.fresh }

/-- A stop request is put in front of the queue. -/
theorem Safe.push_stop (h : Safe seen entry tainted stale t) (cause : StopCause) (stopRx : List StopCause) :
    Safe seen entry tainted stale { t with stopRx, queue := .stopRequested cause :: t.queue } := by
  have hexp : ({ t with stopRx, queue := .stopRequested cause :: t.queue } : Task).Exposed ↔ t.Exposed := by
    simp [Task.Exposed]
  exact {
    recovery := h.recovery
    injected := h.injected
    unstarted := fun stop hs hu => h.unstarted stop hs (by simpa [Task.Unstarted] using hu)
    result := by
      intro e he
      rcases List.mem_cons.1 he with rfl | he
      · exact fun c d hc => by cases hc
      · exact h.result e he
    carried := h.carried
    journaled := fun he => h.journaled (hexp.1 he)
    removal := h.removal
    removed := h.removed
    gone := h.gone
    final := h.final
    fresh := fun he => (h.fresh he).imp_right (Or.imp_left hexp.2) }

/-- The stop channel is none of its business. -/
theorem Safe.placed (h : Safe seen entry tainted stale t) (stopRx : List StopCause) :
    Safe seen entry tainted stale { t with stopRx } :=
  { h with }

/-- A result is queued behind the stop requests. -/
theorem Safe.push (h : Safe seen entry tainted stale t) {event : Event}
    (hrec : Recorded seen event) (hwr : event ≠ .journalWritten)
    (hrej : ∀ reason, event = .invokeRejected .inject reason → ∃ c p, t.pc = .verify c p) :
    Safe seen entry tainted stale (t.push event) := by
  have hexp : (t.push event).Exposed ↔ t.Exposed := by
    simp [Task.Exposed, Task.push, hwr.symm]
  exact {
    recovery := h.recovery
    injected := h.injected
    unstarted := by
      rintro stop hs (hn | ⟨c, p, hv⟩ | ⟨reason, hq⟩)
      · exact h.unstarted stop hs (.inl hn)
      · cases hv
      · rcases List.mem_append.1 hq with hq | hq
        · exact h.unstarted stop hs (.inr (.inr ⟨reason, hq⟩))
        · exact h.unstarted stop hs (.inr (.inl (hrej reason (List.mem_singleton.1 hq).symm)))
    result := by
      intro e hq
      rcases List.mem_append.1 hq with hq | hq
      · exact h.result e hq
      · exact List.mem_singleton.1 hq ▸ hrec
    carried := fun e he => by cases he
    journaled := fun he => h.journaled (hexp.1 he)
    removal := h.removal
    removed := h.removed
    gone := h.gone
    final := h.final
    fresh := fun he => (h.fresh he).imp_right (Or.imp_left hexp.2) }

/-- An observation that is neither the start of `inject` nor a removal. -/
theorem Safe.observe (h : Safe seen entry tainted stale t) {o : Obs} (hsp : o ≠ .spawned .inject)
    (hrm : ∀ ok, o ≠ .removed ok) : Safe (o :: seen) entry tainted stale t := by
  have hsp' : .spawned .inject ∈ o :: seen ↔ .spawned .inject ∈ seen := by simp [hsp.symm]
  have hrm' : ∀ ok, .removed ok ∈ o :: seen ↔ .removed ok ∈ seen := fun ok => by simp [(hrm ok).symm]
  exact {
    recovery := h.recovery
    injected := by simpa only [hsp'] using h.injected
    unstarted := by simpa only [hsp'] using h.unstarted
    result := fun e he => (h.result e he).cons o
    carried := fun e he => ⟨(h.carried e he).1.cons o, (h.carried e he).2⟩
    journaled := h.journaled
    removal := h.removal
    removed := by simpa only [hrm'] using h.removed
    gone := by simpa only [hrm'] using h.gone
    final := fun ht hs => (h.final ht (hsp'.1 hs)).imp (List.mem_cons_of_mem _) (Or.imp_left (List.mem_cons_of_mem _))
    fresh := by simpa only [hrm'] using h.fresh }

/-- The process of a command is started; `inject` only from `INJECTING`. -/
theorem Safe.spawned (h : Safe seen entry tainted stale t) {command : PluginCommand} {phase : Phase}
    (hf : t.InFlight (some (.command command))) :
    Safe (.spawned command :: seen) entry tainted stale { t with pc := .running command phase } := by
  obtain ⟨haw, -, -, heff, hq⟩ := hf
  have hun : ¬ ({ t with pc := .running command phase } : Task).Unstarted := by
    rintro (hn | ⟨c, p, hv⟩ | ⟨reason, hr⟩)
    · exact hn heff
    · cases hv
    · simpa [Event.answers] using hq _ hr
  have hm : Safe seen entry tainted stale { t with pc := .running command phase } :=
    h.move rfl rfl rfl (by simp) (by simp [Pc.event])
  by_cases hc : command = .inject
  · subst hc
    have hinj : t.state.afterInject ∧ t.state.isTerminal = false := by
      cases hs : t.state with
      | injecting stop => exact ⟨rfl, rfl⟩
      | recovering rec =>
        have hshape : rec.Shape := by simpa [hs, State.Shape] using h.recovery
        simp [hs, State.awaits, hshape.ne_inject] at haw
      | _ => simp [hs, State.awaits] at haw
    exact {
      recovery := hm.recovery
      injected := fun _ => hinj.1
      unstarted := fun stop _ hu => absurd hu hun
      result := fun e he => (hm.result e he).cons _
      carried := fun e he => by cases he
      journaled := hm.journaled
      removal := hm.removal
      removed := fun ok hr => hm.removed ok (by simpa using hr)
      gone := fun hr => hm.gone (by simpa using hr)
      final := fun ht => by simp [hinj.2] at ht
      fresh := fun he => (hm.fresh he).imp_right (Or.imp_right (Or.imp_right fun hr =>
        hr.imp fun _ => List.mem_cons_of_mem _)) }
  · exact hm.observe (by simpa using hc) (by simp)

/-! ### Effects -/

/-- An effect that touches neither record is done. -/
theorem Safe.pop (h : Safe seen entry tainted stale t) {effect : Effect} {rest : List Effect} {pc : Pc}
    (heff : t.effects = effect :: rest) (hmark : ∀ reason, effect ≠ .markTainted reason)
    (hrem : effect ≠ .removeJournal) (hpc : pc.event = none) :
    Safe seen entry tainted stale { t with effects := rest, pc } where
  recovery := h.recovery
  injected := h.injected
  unstarted := fun stop hs _ => h.unstarted stop hs (.inl (by simp [heff]))
  result := h.result
  carried := fun e he => by simp [hpc] at he
  journaled := h.journaled
  removal := fun hm => h.removal (heff ▸ List.mem_cons_of_mem _ hm)
  removed := h.removed
  gone := h.gone
  final := by
    intro ht hs
    rcases h.final ht hs with h' | h' | h' | ⟨reason, rest', he, -⟩
    · exact .inl h'
    · exact .inr (.inl h')
    · exact .inr (.inr (.inl h'))
    · exact absurd (List.cons.inj (heff.symm.trans he)).1 (hmark reason)
  fresh := fun he => (h.fresh he).imp_right
    (Or.imp_right (Or.imp_left fun hm => by simpa [heff, hrem.symm] using hm))

/-- The taint record is on disk. -/
theorem Safe.marked (h : Safe seen entry tainted stale t) {reason : String} {rest : List Effect} {pc : Pc}
    (heff : t.effects = .markTainted reason :: rest) (hpc : pc.event = none) :
    Safe seen entry true stale { t with effects := rest, pc } where
  recovery := h.recovery
  injected := h.injected
  unstarted := fun stop hs _ => h.unstarted stop hs (.inl (by simp [heff]))
  result := h.result
  carried := fun e he => by simp [hpc] at he
  journaled := h.journaled
  removal := fun hm => h.removal (heff ▸ List.mem_cons_of_mem _ hm)
  removed := h.removed
  gone := h.gone
  final := fun _ _ => .inr (.inr (.inl rfl))
  fresh := fun he => (h.fresh he).imp_right (Or.imp_right (Or.imp_left fun hm => by simpa [heff] using hm))

/-- The removal is attempted; the taint, if it was asked for, has been marked before. -/
theorem Safe.tried_remove (h : Safe seen entry tainted stale t) {rest : List Effect} (ok : Bool)
    (heff : t.effects = .removeJournal :: rest) (hq : t.queue = []) (hpc : t.pc.event = none) :
    Safe (.removed ok :: seen) (if ok then none else entry) tainted stale { t with effects := rest } := by
  have hterm : t.state.isTerminal := h.removal (by simp [heff])
  have hexp : ¬ ({ t with effects := rest } : Task).Exposed := by
    rintro (⟨-, hl⟩ | hw)
    · rw [hterm] at hl; cases hl
    · simp [hq] at hw
  exact {
    recovery := h.recovery
    injected := fun hs => h.injected (by simpa using hs)
    unstarted := fun stop hs => by rw [show t.state = .injecting stop from hs] at hterm; cases hterm
    result := fun e he => (h.result e he).cons _
    carried := fun e he => by simp [hpc] at he
    journaled := fun he => absurd he hexp
    removal := fun _ => hterm
    removed := fun _ _ => hterm
    gone := by
      intro hr
      cases ok with
      | true => rfl
      | false => exact h.gone (by simpa using hr)
    final := by
      intro ht hs
      rcases h.final ht (by simpa using hs) with h' | h' | h' | ⟨reason, rest', he, -⟩
      · exact .inl (List.mem_cons_of_mem _ h')
      · exact .inr (.inl (List.mem_cons_of_mem _ h'))
      · exact .inr (.inr (.inl h'))
      · simp [heff] at he
    fresh := fun _ => .inr (.inr (.inr ⟨ok, List.mem_cons_self⟩)) }

/-- The entry is on disk. -/
theorem Safe.wrote (h : Safe seen entry tainted stale t) (e : JournalEntry) {stop : Option StopCause}
    (hs : t.state = .writingJournal stop) :
    Safe seen (some e) tainted stale (t.push .journalWritten) where
  recovery := h.recovery
  injected := h.injected
  unstarted := fun stop' hi => by rw [show t.state = .injecting stop' from hi] at hs; cases hs
  result := by
    intro e' hq
    rcases List.mem_append.1 hq with hq | hq
    · exact h.result e' hq
    · exact fun c d hc => by rw [List.mem_singleton.1 hq] at hc; cases hc
  carried := fun e he => by cases he
  journaled := fun _ => rfl
  removal := h.removal
  removed := h.removed
  gone := fun hr => by simpa [hs, State.isTerminal] using h.removed true hr
  final := fun ht => by
    rw [show (t.push .journalWritten).state = .writingJournal stop from hs] at ht
    cases ht
  fresh := fun _ => .inr (.inl (.inr (by simp [Task.push])))

/-! ### One turn of the loop -/

theorem Trans.remove_terminal {s s' : State} {e : Event} {effects : List Effect} (h : Trans s e s' effects)
    (hm : .removeJournal ∈ effects) : s'.isTerminal := by
  cases h with
  | recovered rec _ => exact rec.outcome.state_isTerminal
  | _ => first | rfl | simp [startRecovery] at hm

/-- Leaving the exposed states, the machine asks for the removal of the entry. -/
theorem Trans.exposed {s s' : State} {e : Event} {effects : List Effect} (h : Trans s e s' effects)
    (hs : s.afterInject = true ∧ s.isTerminal = false ∨ e = .journalWritten) (hlive : s.isTerminal = false) :
    (s'.afterInject = true ∧ s'.isTerminal = false) ∨ .removeJournal ∈ effects := by
  cases h with
  | absorbed e ht => simp [ht] at hlive
  | stopPreflight which => cases which <;> simp [rebuildPreflight, State.afterInject] at hs
  | preflightStopped which => cases which <;> simp [rebuildPreflight, State.afterInject] at hs
  | preflightFailed which stop reason hf =>
    rcases hs with ⟨hs, -⟩ | rfl
    · cases which <;> simp [rebuildPreflight, State.afterInject] at hs
    · cases hf
  | journalStopped | injectUnaffected | recovered | recoveryFailed => exact .inr (by simp)
  | setupOk | setupFailed | stopPending | installOk | runtimeOk | stopJournal | journalFailed =>
    simp [State.afterInject] at hs
  | inject | stopInject | injected | injectedStopped | injectAmbiguous | stopActive | stopRecovery | recoveryNext
  | recoveryRetry => exact .inl ⟨rfl, rfl⟩

/-- The exposed states are entered by the journal write. -/
theorem Trans.exposed_back {s s' : State} {e : Event} {effects : List Effect} (h : Trans s e s' effects)
    (hs : s'.afterInject = true ∧ s'.isTerminal = false) :
    (s.afterInject = true ∧ s.isTerminal = false) ∨ e = .journalWritten := by
  cases h with
  | absorbed => exact .inl hs
  | inject => exact .inr rfl
  | stopPreflight which => cases which <;> simp [rebuildPreflight, State.afterInject] at hs
  | recovered | stopInject | injected | injectedStopped | injectAmbiguous | stopActive | stopRecovery | recoveryNext
  | recoveryRetry => exact .inl ⟨rfl, rfl⟩
  | _ => simp [State.afterInject, State.isTerminal] at hs

/-- The machine comes to `INJECTING` by the journal write, or stays there on a stop request. -/
theorem Trans.injecting {s s' : State} {e : Event} {effects : List Effect} (h : Trans s e s' effects)
    {stop : Option StopCause} (hs : s' = .injecting stop) :
    s = .writingJournal none ∨ (∃ stop', s = .injecting stop') ∧ effects = [] := by
  cases h with
  | absorbed e ht => simp [hs, State.isTerminal] at ht
  | inject => exact .inl rfl
  | stopInject stop' cause => exact .inr ⟨⟨stop', rfl⟩, rfl⟩
  | stopPreflight which => cases which <;> simp [rebuildPreflight] at hs
  | recovered rec _ => cases ho : rec.outcome <;> simp [ho, Outcome.state] at hs
  | _ => simp [startRecovery] at hs

/-- A refusal of `inject` is the answer of no other state. -/
theorem Trans.inject_rejected {s s' : State} {reason : String} {effects : List Effect}
    (h : Trans s (.invokeRejected .inject reason) s' effects) (hs : s.Shape) (hlive : s.isTerminal = false) :
    ∃ stop, s = .injecting stop := by
  cases h with
  | absorbed e ht => simp [ht] at hlive
  | preflightFailed which stop reason hf => cases hf
  | injectUnaffected stop reason _ => exact ⟨stop, rfl⟩
  | injectAmbiguous stop reason he => exact ⟨stop, rfl⟩
  | recoveryRetry rec hf _ | recoveryFailed rec reason hf _ =>
    have hcur : rec.current ≠ .inject := Recovery.Shape.ne_inject hs
    generalize rec.current = c at hf hcur
    cases hf
    exact absurd rfl hcur

/-- The invariant over one turn of the loop, on an event that fits and is accounted for. -/
theorem Safe.consume (h : Safe seen entry tainted stale t) {now : Int} {event : Event} {queue : List Event}
    {stopRx : List StopCause}
    (ht : Trans t.state event (step t.state event).1 (step t.state event).2)
    (hlive : t.state.isTerminal = false) (heff : t.effects = [])
    (hqueue : t.queue = event :: queue ∨ t.queue = [] ∧ queue = [] ∧ event.answers = none) :
    Safe seen entry tainted stale (consume now { t with stopRx } event queue) := by
  have hsub : ∀ e, e ∈ queue → e ∈ t.queue := by
    rcases hqueue with hq | ⟨-, hq, -⟩
    · exact fun e he => hq ▸ List.mem_cons_of_mem _ he
    · simp [hq]
  have hin : event.answers ≠ none → event ∈ t.queue := by
    rcases hqueue with hq | ⟨-, -, hn⟩
    · simp [hq]
    · exact fun hne => absurd hn hne
  have hexp : (Agent.step t.state event).1.afterInject = true ∧ (Agent.step t.state event).1.isTerminal = false →
      t.Exposed := by
    intro hs
    rcases ht.exposed_back hs with hb | he
    · exact .inl hb
    · exact .inr (he ▸ hin (by simp [he, Event.answers]))
  exact {
    recovery := ht.shape h.recovery
    injected := fun hs => ht.afterInject (h.injected hs)
    unstarted := by
      rintro stop hs hun hsp
      rcases ht.injecting hs with hwj | ⟨⟨stop', hinj⟩, hnil⟩
      · simpa [hwj, State.afterInject] using h.injected hsp
      · rcases hun with hn | ⟨c, p, hv⟩ | ⟨reason, hq⟩
        · exact hn hnil
        · cases hv
        · exact h.unstarted stop' hinj (.inr (.inr ⟨reason, hsub _ hq⟩)) hsp
    result := fun e hq => h.result e (hsub _ hq)
    carried := fun e he => by cases he
    journaled := by
      rintro (he | hq)
      · exact h.journaled (hexp he)
      · exact h.journaled (.inr (hsub _ hq))
    removal := fun hm => ht.remove_terminal hm
    removed := fun ok hr => by simpa [hlive] using h.removed ok hr
    gone := h.gone
    final := by
      intro hterm hsp
      rcases ht.terminal_cases (h.injected hsp) hlive hterm with
        ⟨rfl | ⟨r, rfl⟩, -⟩ | ⟨rec, hrec, hrem, rfl⟩ | ⟨rec, reason, hrec, -, -, -, hm⟩
      · obtain ⟨code, hc, hex⟩ := h.result _ (hin (by simp [Event.answers])) _ _ rfl
        exact .inl ((classifyExit_injectFailed code).1 hc ▸ hex)
      · obtain ⟨stop, hinj⟩ := ht.inject_rejected h.recovery hlive
        exact absurd hsp (h.unstarted stop hinj (.inr (.inr ⟨r, hin (by simp [Event.answers])⟩)))
      · obtain ⟨code, hc, hex⟩ := h.result _ (hin (by simp [Event.answers])) _ _ rfl
        have hcur : rec.current = .cleanup := by
          have hshape : rec.Shape := by simpa [hrec, State.Shape] using h.recovery
          rcases hshape with ⟨-, hrem'⟩ | ⟨hcur, -⟩
          · simp [hrem] at hrem'
          · exact hcur
        exact .inr (.inl (by rw [(classifyExit_success code).1 hc, hcur] at hex; exact hex))
      · have hexposed : t.Exposed := .inl (by simp [hrec, State.afterInject, State.isTerminal])
        exact .inr (.inr (.inr ⟨reason, _, hm, h.journaled hexposed⟩))
    fresh := by
      intro he
      rcases h.fresh he with hst | hex | hrm | ⟨ok, hr⟩
      · exact .inl hst
      · rcases hex with hex | hq
        · rcases ht.exposed (.inl hex) hlive with h' | h'
          · exact .inr (.inl (.inl h'))
          · exact .inr (.inr (.inl h'))
        · rcases hqueue with hq' | ⟨hq', -, -⟩
          · rw [hq'] at hq
            rcases List.mem_cons.1 hq with rfl | hq
            · rcases ht.exposed (.inr rfl) hlive with h' | h'
              · exact .inr (.inl (.inl h'))
              · exact .inr (.inr (.inl h'))
            · exact .inr (.inl (.inr hq))
          · simp [hq'] at hq
      · simp [heff] at hrm
      · exact .inr (.inr (.inr ⟨ok, hr⟩)) }

end

/-! ## Every step keeps the invariant -/

section
variable {X : Ext} {ctx ctx' : Ctx} {t t' : Task} {seen obs : List Obs} {stale : Bool}

/-- The invariant of a task over its part of the context. -/
def SafeIn (seen : List Obs) (ctx : Ctx) (t : Task) (stale : Bool) : Prop :=
  t.Shape ∧ Safe seen (ctx.journal.lookup t.id) ctx.taint.isSome stale t

theorem Task.InLoop.awaits_journal (h : t.InLoop) {rest : List Effect} (heff : t.effects = .writeJournal :: rest) :
    ∃ stop, t.state = .writingJournal stop := by
  obtain ⟨-, ha⟩ := h.of_effect heff
  obtain ⟨haw, -⟩ := ha.head rfl
  cases hs : t.state <;> simp [hs, State.awaits] at haw
  exact ⟨_, rfl⟩

theorem Task.InLoop.live (h : t.InLoop) {event : Event} {queue : List Event} (hq : t.queue = event :: queue) :
    t.state.isTerminal = false := by
  obtain ⟨-, ⟨stops, a, -, -, -, ho⟩, -⟩ := h.of_event hq
  refine Bool.eq_false_iff.2 fun ht => ho (State.awaits_of_terminal ht)

theorem Safe.tainted {entry : Option JournalEntry} {tainted tainted' : Bool}
    (h : Safe seen entry tainted stale t) (ht : tainted = true → tainted' = true) :
    Safe seen entry tainted' stale t :=
  { h with final := fun hterm hs => (h.final hterm hs).imp_right (Or.imp_right (Or.imp_left ht)) }

/-- A task step keeps the invariant, over a taint that is already counted as on disk when a write of it ends. -/
theorem TaskStep.safe_at {tainted : Bool} (h : TaskStep X ctx t ctx' t' obs) (hshape : t.Shape)
    (hsafe : Safe seen (ctx.journal.lookup t.id) tainted stale t)
    (hmark : ∀ reason rest, t.pc = .loop → t.effects = .markTainted reason :: rest → tainted = true) :
    Safe (obs ++ seen) (ctx'.journal.lookup t'.id) tainted stale t' := by
  have hloop : t.pc = .loop → t.pc.event = none := fun hpc => by rw [hpc]; rfl
  rw [h.id_eq]
  cases h with
  | start hpc => exact hsafe.move rfl rfl rfl (by simp) (by simp [Pc.event])
  | @send frame after hpc _ =>
    refine hsafe.move rfl rfl rfl (by cases after <;> simp [After.pc]) (fun e he => hsafe.carried e ?_)
    cases after <;> simp_all [After.pc, Pc.event]
  | @setupDone event params hpc he =>
    obtain ⟨hst, hq, heff⟩ : t.state = .pending ∧ t.queue = [] ∧ t.effects = [] := by
      simpa only [Task.Shape, hpc] using hshape
    have hpush : Safe _ _ _ stale (t.push event) :=
      hsafe.push (fun c d hc => by simp [hc, Event.answers] at he) (fun hc => by simp [hc, Event.answers] at he)
        (fun r hc => by simp [hc, Event.answers] at he)
    exact hpush.move rfl (by simp [Task.push, hq]) rfl (by simp) (by simp [Pc.event])
  | emit hpc heff => exact hsafe.pop heff (by simp) (by simp) rfl
  | invoke hpc heff =>
    exact (hsafe.observe (by simp) (by simp)).pop heff (by simp) (by simp) rfl
  | write hpc heff =>
    obtain ⟨stop, hst⟩ := (hshape.inLoop hpc).awaits_journal heff
    simp only [AList.lookup_insert]
    exact (hsafe.pop heff (by simp) (by simp) (hloop hpc)).wrote (journalEntry t) hst
  | writeFailed error hpc heff =>
    exact (hsafe.pop heff (by simp) (by simp) (hloop hpc)).push (by simp [Recorded]) (by simp) (by simp)
  | remove hpc heff =>
    obtain ⟨hq, -⟩ := (hshape.inLoop hpc).of_effect heff
    simp only [AList.lookup_erase]
    exact hsafe.tried_remove true heff hq (hloop hpc)
  | removeFailed hpc heff =>
    obtain ⟨hq, -⟩ := (hshape.inLoop hpc).of_effect heff
    exact hsafe.tried_remove false heff hq (hloop hpc)
  | mark error hpc heff =>
    rw [hmark _ _ hpc heff, Ctx.mark_journal]
    exact hsafe.marked heff rfl
  | next hpc heff hq =>
    have hl := hshape.inLoop hpc
    exact hsafe.consume (hl.fits hq) (hl.live hq) heff (.inl hq)
  | finish hpc heff hq hterm => exact hsafe.move rfl rfl rfl (by simp) (by simp [Pc.event])
  | activate hpc heff hq hact => exact hsafe.move rfl rfl rfl (by simp) (by simp [Pc.event])
  | wedged hpc heff hq hterm hact => exact absurd (hshape.unwedged hpc heff hq hterm) hact
  | @spawn command phase hpc =>
    have hf : t.InFlight (some (.command command)) := by simpa only [Task.Shape, hpc] using hshape
    exact hsafe.spawned hf
  | @refused command phase event hpc he =>
    obtain ⟨reason, rfl | rfl⟩ := he
    · exact hsafe.push (by simp [Recorded]) (by simp) (fun _ _ => ⟨_, _, hpc⟩)
    · exact hsafe.push (by simp [Recorded]) (by simp) (by simp)
  | stopRunning hpc hrx => exact hsafe.push_stop _ _
  | exit invocation hpc =>
    refine (hsafe.observe (by simp) (by simp)).move rfl rfl rfl (by simp) (fun e he => ?_)
    obtain rfl := Option.some.inj he
    cases hst : invocation.status with
    | code k =>
      refine ⟨fun c d hc => ?_, by simp [invocationEvent], by simp [invocationEvent]⟩
      obtain ⟨rfl, rfl⟩ := Event.commandFinished.inj hc
      exact ⟨k, rfl, List.mem_cons_self⟩
    | timedOut | signalled | failed => simp [invocationEvent, Recorded]
  | lost reason hpc => exact hsafe.push (by simp [Recorded]) (by simp) (by simp)
  | forward hpc _ | forwardSkip hpc _ =>
    refine hsafe.move rfl rfl rfl (by simp) (fun e he => hsafe.carried e ?_)
    simpa [hpc, Pc.event] using he
  | @forwarded event hpc =>
    obtain ⟨hrec, hwr, hrej⟩ := hsafe.carried event (by rw [hpc]; rfl)
    exact hsafe.push hrec hwr (fun r hr => absurd hr (hrej r))
  | arm d c hpc | rearm hpc => exact hsafe.move rfl rfl rfl (by simp) (by simp [Pc.event])
  | stop cause stopRx hpc =>
    obtain ⟨hact, hq, heff⟩ := hshape.active hpc
    exact hsafe.consume (stop_fits _ _) (by simp [hact, State.isTerminal]) heff (.inr ⟨hq, hq, rfl⟩)
  | reread hpc => exact hsafe.move rfl rfl rfl (by simp) (by simp [Pc.event])

/-- **The step lemma**: a task step keeps the invariant, when a write of the taint succeeds. -/
theorem TaskStep.safe (h : TaskStep X ctx t ctx' t' obs) (hs : SafeIn seen ctx t stale)
    (hmark : ∀ reason rest, t.pc = .loop → t.effects = .markTainted reason :: rest → ctx'.taint.isSome) :
    SafeIn (obs ++ seen) ctx' t' stale :=
  ⟨h.shape hs.1, h.safe_at hs.1 (hs.2.tainted h.taint_kept) hmark⟩

end

/-! ## The law -/

/-- The rest of the agent leaves the instance's own entry alone, and only `ClearTaint` clears the taint. -/
theorem Interference.frame {own : String} {ctx ctx' : Ctx} {i : Interference} (h : i.apply own ctx = some ctx') :
    ctx'.journal.lookup own = ctx.journal.lookup own ∧
      (i ≠ .clear → ctx.taint.isSome → ctx'.taint.isSome) := by
  cases i with
  | journal id entry =>
    simp only [Interference.apply] at h
    split at h
    case isTrue => cases h
    case isFalse hne =>
      cases entry with
      | some e =>
        obtain rfl := Option.some.inj h
        exact ⟨AList.lookup_insert_ne (Ne.symm hne), fun _ ht => ht⟩
      | none =>
        obtain rfl := Option.some.inj h
        exact ⟨AList.lookup_erase_ne (Ne.symm hne), fun _ ht => ht⟩
  | mark record error =>
    obtain rfl := Option.some.inj h
    exact ⟨by rw [Ctx.mark_journal], fun _ => ctx.mark_taint _ _⟩
  | clear => obtain rfl := Option.some.inj h; exact ⟨rfl, fun hc => absurd rfl hc⟩
  | out | conn | tick => obtain rfl := Option.some.inj h; exact ⟨rfl, fun _ ht => ht⟩

theorem Instance.Safe.step {X : Ext} {c c' : Instance} {label : InstanceLabel} (hs : c.Safe) (ha : Assumed c label)
    (h : (instanceLts X).step c label = some c') : c'.Safe := by
  simp only [instanceLts] at h
  split at h
  case isTrue => cases h
  case isFalse =>
    cases label with
    | task choice =>
      obtain ⟨⟨ctx', t', obs⟩, hstep, rfl⟩ := Option.map_eq_some_iff.1 h
      refine (taskStep_cases hstep).safe hs fun reason rest hpc heff => ?_
      obtain ⟨error, rfl, rfl⟩ := taskStep_mark hstep hpc heff
      cases error with
      | none => exact c.ctx.mark_ok _
      | some e => simp [Assumed, assumed, heff] at ha
    | stop cause =>
      obtain rfl := Option.some.inj h
      exact ⟨hs.1, hs.2.placed _⟩
    | interfere i =>
      obtain ⟨ctx', hi, rfl⟩ := Option.map_eq_some_iff.1 h
      obtain ⟨hentry, htaint⟩ := Interference.frame hi
      have hne : i ≠ .clear := by rintro rfl; cases ha
      refine ⟨hs.1, ?_⟩
      simp only [Instance.entry, hentry]
      exact hs.2.tainted (htaint hne)
    | crash =>
      obtain rfl := Option.some.inj h
      exact hs

theorem reachIf_safe {X : Ext} {c : Instance} (h : ReachIf (instanceLts X) Assumed c) : c.Safe := by
  induction h with
  | init hi =>
    obtain ⟨run, htask, hseen, hstale, -⟩ := hi
    unfold Instance.Safe
    rw [hseen, hstale, htask]
    exact ⟨Task.spawn_shape run, Safe.spawn run⟩
  | step _ ha hs ih => exact ih.step ha hs

/-- In every run, with any failed write and any `ClearTaint`, the invariant holds but for what it says of the taint. -/
theorem reach_accounted {X : Ext} {c : Instance} (h : Reach (instanceLts X) c) :
    c.task.Shape ∧ Agent.Safe c.seen c.entry true c.stale c.task := by
  induction h with
  | init hi =>
    obtain ⟨run, htask, hseen, hstale, -⟩ := hi
    rw [hseen, hstale, htask]
    exact ⟨Task.spawn_shape run, Safe.spawn run⟩
  | @step c c' label _ hs ih =>
    obtain ⟨hshape, hsafe⟩ := ih
    simp only [instanceLts] at hs
    split at hs
    case isTrue => cases hs
    case isFalse =>
      cases label with
      | task choice =>
        obtain ⟨⟨ctx', t', obs⟩, hstep, rfl⟩ := Option.map_eq_some_iff.1 hs
        have hcases := taskStep_cases hstep
        exact ⟨hcases.shape hshape, hcases.safe_at hshape hsafe fun _ _ _ _ => rfl⟩
      | stop cause =>
        obtain rfl := Option.some.inj hs
        exact ⟨hshape, hsafe.placed _⟩
      | interfere i =>
        obtain ⟨ctx', hi, rfl⟩ := Option.map_eq_some_iff.1 hs
        refine ⟨hshape, ?_⟩
        simp only [Instance.entry, (Interference.frame hi).1]
        exact hsafe
      | crash =>
        obtain rfl := Option.some.inj hs
        exact ⟨hshape, hsafe⟩

/-- **No crash strands an injected fault.** At every point of every run, crashed or not: when `inject` has been
started, has not exited 20, and no `cleanup` has succeeded, the journal entry or the taint record is on disk. And
once every effect of the terminal step is performed and every removal succeeded, no entry of the instance is left. -/
theorem crash_safe {X : Ext} {c : Instance} (h : ReachIf (instanceLts X) Assumed c) :
    (.spawned .inject ∈ c.seen → .exited .inject (.code 20) ∉ c.seen → .exited .cleanup (.code 0) ∉ c.seen →
      c.entry.isSome ∨ c.ctx.taint.isSome) ∧
    (c.task.state.isTerminal → c.task.effects = [] → .removed false ∉ c.seen →
      (.removed true ∈ c.seen ∨ c.stale = false) → c.entry = none) := by
  obtain ⟨hshape, hsafe⟩ := reachIf_safe h
  refine ⟨fun hsp h20 hcl => ?_, fun hterm heff hfail hrm => ?_⟩
  · cases hterm : c.task.state.isTerminal with
    | false => exact .inl (hsafe.journaled (.inl ⟨hsafe.injected hsp, hterm⟩))
    | true =>
      rcases hsafe.final hterm hsp with h' | h' | h' | ⟨-, -, -, h'⟩
      · exact absurd h' h20
      · exact absurd h' hcl
      · exact .inr h'
      · exact .inl h'
  · cases he : c.entry with
    | none => rfl
    | some e =>
      have hgone : .removed true ∉ c.seen := fun hr => by simpa [he] using hsafe.gone hr
      rcases hsafe.fresh (by rw [he]; rfl) with hst | (⟨-, hlive⟩ | hq) | hm | ⟨ok, hok⟩
      · rcases hrm with hr | hst'
        · exact absurd hr hgone
        · rw [hst] at hst'; cases hst'
      · rw [hterm] at hlive; cases hlive
      · rw [hshape.terminal_queue hterm] at hq; cases hq
      · rw [heff] at hm; cases hm
      · cases ok with
        | true => exact absurd hok hgone
        | false => exact absurd hok hfail

/-- `inject` exits 20 and the entry is removed. -/
def failedChoices : List Choice := [.exit ⟨[], "", .code 20⟩, .go, .go, .io none, .go, .go]

def sampleInstance : Instance := ⟨sampleCtx, .spawn sampleRun, [], false, false⟩

/-- A crash while `inject` runs, and an `inject` that exits 20. -/
theorem crash_safe_sample :
    (∃ c : Instance, c.crashed = true ∧ (c.entry.isSome ∨ c.ctx.taint.isSome)) ∧
    (∃ c : Instance, c.task.state = .aborted ∧ c.entry = none) := by
  have hinit : (instanceLts plainExt).init sampleInstance := ⟨sampleRun, rfl, rfl, rfl, rfl⟩
  have hg : ∀ c label, assumed c label = true → Assumed c label := fun _ _ h => h
  constructor
  · let p : Instance → Bool := fun c => c.crashed && decide (.spawned .inject ∈ c.seen) &&
      decide (.exited .inject (.code 20) ∉ c.seen) && decide (.exited .cleanup (.code 0) ∉ c.seen)
    obtain ⟨c, hc, hp⟩ := reachIf_of_run hg p hinit (injectChoices.map .task ++ [.crash]) (by decide)
    simp only [p, Bool.and_eq_true, decide_eq_true_eq] at hp
    exact ⟨c, hp.1.1.1, (crash_safe hc).1 hp.1.1.2 hp.1.2 hp.2⟩
  · let p : Instance → Bool := fun c => decide (c.task.state = .aborted) && decide (c.task.effects = []) &&
      decide (.removed false ∉ c.seen) && decide (.removed true ∈ c.seen)
    obtain ⟨c, hc, hp⟩ := reachIf_of_run hg p hinit ((injectChoices ++ failedChoices).map .task) (by decide)
    simp only [p, Bool.and_eq_true, decide_eq_true_eq] at hp
    exact ⟨c, hp.1.1.1, (crash_safe hc).2 (by rw [hp.1.1.1]; rfl) hp.1.1.2 hp.1.2 (.inl hp.2)⟩

end FaultForge.Agent
