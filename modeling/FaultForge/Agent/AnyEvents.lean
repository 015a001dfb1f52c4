import FaultForge.Agent.MachineRun

/-!
# The machine fed anything

`machineLts` feeds the machine what a well-behaved shell would; here every list of events is fed to `step`, stray
and out-of-order ones included. `step_any` adds to `Trans` what a misplaced event can do: nothing, or, in
`INJECTING`, what a failure or a rejection of `inject` would do (`Event.Misread`).

| here | there |
| --- | --- |
| `feed` | the test driver `drive`, on any events |
| `Tick.Stray` | "out-of-band" results, machine.rs:823-824 |
| `Event.Misread` | the arms `InvocationFailed { reason, .. }`, `InvokeRejected { reason, .. }` of `step_injecting` |

* `stray_absorbed` — a stray result is absorbed everywhere, except as a failure or a rejection in `INJECTING`.
* `inject_guarded` — `inject` is invoked only after the setup, both preflights and the journal entry, in that order,
  with one journal write asked for and no stop request consumed.
-/
namespace FaultForge.Agent

/-- The steps of a list of events, oldest first. -/
def feed : State → List Event → List Tick
  | _, [] => []
  | s, e :: events => ⟨s, e, (step s e).1, (step s e).2⟩ :: feed (step s e).1 events

/-! ## One step on any event -/

/-- The failure and rejection arms of `step_injecting` do not look at the command. -/
def Event.Misread (s : State) (e : Event) : Prop :=
  s.instanceState = .injecting ∧
    ∃ command reason, e = .invocationFailed command reason ∨ e = .invokeRejected command reason

/-- The command whose failure `step_injecting` takes the event for. -/
def Event.asInject : Event → Event
  | .invocationFailed _ reason => .invocationFailed .inject reason
  | .invokeRejected _ reason => .invokeRejected .inject reason
  | e => e

theorem stepInjecting_asInject (stop : Option StopCause) (e : Event) :
    stepInjecting stop e.asInject = stepInjecting stop e := by
  cases e <;> rfl

section
variable {s : State} {e : Event}

theorem stepPreflight_stray (which : Phase) (stop : Option StopCause)
    (hresult : e.answers ≠ none) (hother : e.answers ≠ some (.command .preflight)) :
    stepPreflight which stop e = (rebuildPreflight which stop, []) := by
  cases e with
  | stopRequested cause => simp [Event.answers] at hresult
  | commandFinished c d => cases c <;> simp_all [Event.answers, stepPreflight]
  | invocationFailed c r | invokeRejected c r => cases c <;> simp_all [Event.answers, stepPreflight]
  | _ => rfl

theorem stepRecovering_stray (rec : Recovery)
    (hresult : e.answers ≠ none) (hother : e.answers ≠ some (.command rec.current)) :
    stepRecovering rec e = (.recovering rec, []) := by
  have hne : ∀ c, e.answers = some (.command c) → c ≠ rec.current := by
    rintro c hc rfl
    exact hother hc
  cases e with
  | stopRequested cause => simp [Event.answers] at hresult
  | commandFinished c d => cases d <;> simp [stepRecovering, hne c rfl]
  | invocationFailed c r | invokeRejected c r => simp [stepRecovering, hne c rfl]
  | _ => rfl

theorem stepInjecting_stray (stop : Option StopCause)
    (hresult : e.answers ≠ none) (hother : e.answers ≠ some (.command .inject))
    (hread : ¬ e.Misread (.injecting stop)) : stepInjecting stop e = (.injecting stop, []) := by
  cases e with
  | stopRequested cause => simp [Event.answers] at hresult
  | commandFinished c d => cases c <;> simp_all [Event.answers, stepInjecting]
  | invocationFailed c r => exact absurd ⟨rfl, c, r, .inl rfl⟩ hread
  | invokeRejected c r => exact absurd ⟨rfl, c, r, .inr rfl⟩ hread
  | _ => rfl

/-- A result nobody is waiting for is ignored, unless `step_injecting` misreads it. -/
theorem step_stray (hresult : e.answers ≠ none) (hother : e.answers ≠ s.awaits) (hread : ¬ e.Misread s) :
    step s e = (s, []) := by
  cases s with
  | preflightInstall stop => exact stepPreflight_stray .install stop hresult hother
  | preflightRuntime stop => exact stepPreflight_stray .runtime stop hresult hother
  | injecting stop => exact stepInjecting_stray stop hresult hother hread
  | recovering rec => exact stepRecovering_stray rec hresult hother
  | pending | writingJournal | active | done | aborted | error =>
    cases e <;> simp_all [Event.answers, State.awaits, step, stepPending, stepWritingJournal]

/-- A misread event never leaves the machine as it was. -/
theorem step_misread (h : e.Misread s) : (step s e).1 ≠ s := by
  obtain ⟨hs, command, reason, rfl | rfl⟩ := h <;>
    cases s <;> simp_all [State.instanceState, step, stepInjecting, startRecovery]

/-- **What one step does with any event**: a listed transition, nothing, or the transition for a result of `inject`. -/
theorem step_any (s : State) (e : Event) :
    Trans s e (step s e).1 (step s e).2 ∨ (e.answers ≠ none ∧ step s e = (s, [])) ∨
      (e.Misread s ∧ Trans s e.asInject (step s e).1 (step s e).2) := by
  by_cases hfit : e.answers = none ∨ e.answers = s.awaits
  · exact .inl (step_trans s e (hfit.imp_right .inl))
  · obtain ⟨hresult, hother⟩ := not_or.1 hfit
    by_cases hread : e.Misread s
    · refine .inr (.inr ⟨hread, ?_⟩)
      obtain ⟨hs, command, reason, he⟩ := hread
      cases s with
      | injecting stop =>
        have hanswers : e.asInject.answers = some (.command .inject) := by rcases he with rfl | rfl <;> rfl
        have htrans : Trans (.injecting stop) e.asInject _ _ := stepInjecting_trans (.inr hanswers)
        rwa [stepInjecting_asInject] at htrans
      | _ => simp [State.instanceState] at hs
    · exact .inr (.inl ⟨hresult, step_stray hresult hother hread⟩)

end

/-! ## What is fed in a run -/

/-- Every tick of a run is a step of the machine. -/
theorem feed_tick {s : State} {events : List Event} {t : Tick} (h : t ∈ feed s events) :
    (t.post, t.effects) = step t.pre t.event := by
  induction events generalizing s with
  | nil => cases h
  | cons e events ih =>
    rcases List.mem_cons.1 h with rfl | h
    · rfl
    · exact ih h

/-- A result event whose command is not the one in flight in the state that consumes it. -/
def Tick.Stray (t : Tick) : Prop :=
  ∃ command, t.event.answers = some (.command command) ∧ t.pre.awaits ≠ some (.command command)

/-- **A stray result is absorbed exactly when it is not misread**: in every run, from `PENDING`, from a replayed
recovery or from anywhere else, a result whose command is not in flight changes nothing and asks for nothing, unless
the machine is in `INJECTING` and the event says that an invocation failed or was rejected. -/
theorem stray_absorbed (start : State) (events : List Event) {t : Tick} (ht : t ∈ feed start events)
    (hstray : t.Stray) : (t.post = t.pre ∧ t.effects = []) ↔ ¬ t.event.Misread t.pre := by
  obtain ⟨command, hanswers, hother⟩ := hstray
  have hstep := feed_tick ht
  constructor
  · rintro ⟨hpost, -⟩ hread
    exact step_misread hread (by rw [← hstep, hpost])
  · intro hread
    have habsorb := step_stray (by simp [hanswers]) (by rw [hanswers]; exact hother.symm) hread
    rw [← hstep] at habsorb
    exact Prod.mk.inj habsorb

/-- From `PENDING` to `INJECTING`, where a `cleanup` that is not running is reported. -/
def strayRun (stray : Event) : List Event :=
  [.setupOk, .commandFinished .preflight .success, .commandFinished .preflight .success, .journalWritten, stray]

/-- The step of `INJECTING` on a stray event. -/
def strayTick (stray : Event) : Tick :=
  ⟨.injecting none, stray, (step (.injecting none) stray).1, (step (.injecting none) stray).2⟩

theorem strayTick_mem (stray : Event) : strayTick stray ∈ feed .pending (strayRun stray) := by
  simp [strayRun, feed, strayTick, step, stepPending, stepPreflight, stepWritingJournal]

/-- A `cleanup` exit in `INJECTING` is absorbed. -/
theorem stray_absorbed_exit :
    let t := strayTick (.commandFinished .cleanup .success)
    (t.post = t.pre ∧ t.effects = []) ↔ ¬ t.event.Misread t.pre :=
  stray_absorbed .pending (strayRun _) (strayTick_mem _) ⟨.cleanup, rfl, by decide⟩

/-- A timeout of a `cleanup` that is not running ends the injection: recovery starts while `inject` still runs. -/
theorem stray_misread :
    let t := strayTick (.invocationFailed .cleanup "timeout")
    t ∈ feed .pending (strayRun t.event) ∧ t.Stray ∧ t.post ≠ t.pre ∧
      .invoke .abort .runtime ∈ t.effects :=
  ⟨strayTick_mem _, ⟨.cleanup, rfl, by decide⟩, by decide, by decide⟩

/-! ## The way to `inject` -/

/-- What the machine must have consumed, in order and in the states that await it, to be where it is with no stop
recorded. -/
def State.path : State → Option (List (State × Event))
  | .pending => some []
  | .preflightInstall none => some [(.pending, .setupOk)]
  | .preflightRuntime none =>
    some [(.pending, .setupOk), (.preflightInstall none, .commandFinished .preflight .success)]
  | .writingJournal none =>
    some [(.pending, .setupOk), (.preflightInstall none, .commandFinished .preflight .success),
      (.preflightRuntime none, .commandFinished .preflight .success)]
  | _ => none

def Tick.consumed (t : Tick) : State × Event := (t.pre, t.event)

/-- How often a journal write was asked for. -/
def journalWrites (ticks : List Tick) : Nat := (ticks.flatMap Tick.effects).count .writeJournal

/-- The journal writes asked for on the way to a state. -/
def State.journalWrites : State → Nat
  | .writingJournal _ => 1
  | _ => 0

section
variable {s s' : State} {e : Event} {effects : List Effect}

/-- A step along the way: it is no stop, it extends the way by what it consumes, and it accounts for the journal
writes it asks for. -/
theorem Trans.path (h : Trans s e s' effects) {path : List (State × Event)} (hpath : s'.path = some path)
    (hlive : s.isTerminal = false) :
    ∃ before, s.path = some before ∧ path = before ++ [(s, e)] ∧ (∀ cause, e ≠ .stopRequested cause) ∧
      s.journalWrites + effects.count .writeJournal = s'.journalWrites := by
  cases h with
  | setupOk | installOk | runtimeOk =>
    obtain rfl := Option.some.inj hpath
    exact ⟨_, rfl, rfl, by simp, rfl⟩
  | absorbed e ht => simp [ht] at hlive
  | stopPreflight which stop cause => cases which <;> cases stop <;> simp [rebuildPreflight, State.path] at hpath
  | stopJournal stop cause => cases stop <;> simp [State.path] at hpath
  | recovered rec _ => cases ho : rec.outcome <;> simp [ho, Outcome.state, State.path] at hpath
  | _ => simp [State.path, startRecovery] at hpath

end

/-- The way a run has gone when the machine is in `s`, as far as `inject` may still be invoked. -/
structure OnTheWay (s : State) (ticks : List Tick) : Prop where
  shape : s.Shape
  way : ∀ path, s.path = some path →
    path.Sublist (ticks.map Tick.consumed) ∧ (∀ t ∈ ticks, ∀ cause, t.event ≠ .stopRequested cause) ∧
      journalWrites ticks = s.journalWrites

theorem OnTheWay.start : OnTheWay .pending [] :=
  ⟨trivial, fun path h => by obtain rfl := Option.some.inj h; exact ⟨.slnil, by simp, rfl⟩⟩

theorem journalWrites_append (ticks : List Tick) (t : Tick) :
    journalWrites (ticks ++ [t]) = journalWrites ticks + t.effects.count .writeJournal := by
  simp [journalWrites]

/-- What a step must do to keep `OnTheWay`: extend the way, or stay where it is on a result. -/
theorem OnTheWay.next {s s' : State} {e : Event} {effects : List Effect} {ticks : List Tick} (h : OnTheWay s ticks)
    (hshape : s'.Shape)
    (hnext : ∀ path, s'.path = some path → ∃ before, s.path = some before ∧ path.Sublist (before ++ [(s, e)]) ∧
      (∀ cause, e ≠ .stopRequested cause) ∧ s.journalWrites + effects.count .writeJournal = s'.journalWrites) :
    OnTheWay s' (ticks ++ [⟨s, e, s', effects⟩]) := by
  refine ⟨hshape, fun path hpath => ?_⟩
  obtain ⟨before, hbefore, hsub, hstop, hcount⟩ := hnext path hpath
  obtain ⟨hway, hstops, hwrites⟩ := h.way before hbefore
  refine ⟨?_, fun t ht => ?_, ?_⟩
  · rw [List.map_append]
    exact hsub.trans (hway.append (.refl _))
  · rcases List.mem_append.1 ht with ht | ht
    · exact hstops t ht
    · obtain rfl := List.mem_singleton.1 ht
      exact hstop
  · rw [journalWrites_append, hwrites]
    exact hcount

theorem OnTheWay.step {s : State} {ticks : List Tick} (h : OnTheWay s ticks) (e : Event) :
    OnTheWay (step s e).1 (ticks ++ [⟨s, e, (step s e).1, (step s e).2⟩]) := by
  rcases step_any s e with htrans | ⟨hresult, hsame⟩ | ⟨hread, htrans⟩
  · refine h.next (htrans.shape h.shape) fun path hpath => ?_
    cases hterm : s.isTerminal with
    | true => rw [(htrans.of_terminal hterm).1] at hpath; cases s <;> simp [State.path, State.isTerminal] at hpath hterm
    | false =>
      obtain ⟨before, hbefore, rfl, hrest⟩ := htrans.path hpath hterm
      exact ⟨before, hbefore, .refl _, hrest⟩
  · rw [hsame]
    refine h.next h.shape fun path hpath => ⟨path, hpath, List.sublist_append_left _ _, ?_, by simp⟩
    rintro cause rfl
    exact hresult rfl
  · refine h.next (htrans.shape h.shape) fun path hpath => ?_
    -- a misread event is consumed in `INJECTING`, which is past the way
    cases s with
    | injecting stop =>
      obtain ⟨before, hbefore, -⟩ := htrans.path hpath rfl
      cases hbefore
    | _ => simp [Event.Misread, State.instanceState] at hread

theorem OnTheWay.feed {before : List Tick} :
    ∀ {s : State} {done : List Tick} {events : List Event} {t : Tick} {after : List Tick},
      OnTheWay s done → feed s events = before ++ t :: after → OnTheWay t.pre (done ++ before) := by
  induction before with
  | nil =>
    intro s done events t after h hfeed
    cases events with
    | nil => simp [Agent.feed] at hfeed
    | cons e events =>
      obtain ⟨rfl, -⟩ := List.cons.inj hfeed
      simpa using h
  | cons u before ih =>
    intro s done events t after h hfeed
    cases events with
    | nil => simp [Agent.feed] at hfeed
    | cons e events =>
      obtain ⟨rfl, htail⟩ := List.cons.inj hfeed
      simpa using ih (h.step e) htail

/-- Only a written journal entry with no stop recorded makes a step invoke `inject`. -/
theorem step_invoke_inject {s : State} {e : Event} {phase : Phase} (hshape : s.Shape)
    (hi : .invoke .inject phase ∈ (step s e).2) : s = .writingJournal none ∧ e = .journalWritten := by
  rcases step_any s e with htrans | ⟨-, hsame⟩ | ⟨hread, htrans⟩
  · obtain ⟨hs, he, -⟩ := htrans.invoke_inject hshape hi
    exact ⟨hs, he⟩
  · simp [hsame] at hi
  · obtain ⟨rfl, -⟩ := htrans.invoke_inject hshape hi
    simp [Event.Misread, State.instanceState] at hread

/-- **The inject guard**: whatever is fed to the machine from `PENDING`, a step that invokes `inject` is the last of
the setup, the two preflights and the journal write, consumed in this order in the states that await them; one
journal write was asked for before it, and no stop request was consumed. -/
theorem inject_guarded (events : List Event) {before after : List Tick} {t : Tick}
    (hfeed : feed .pending events = before ++ t :: after) (hi : .invoke .inject .runtime ∈ t.effects) :
    [(State.pending, Event.setupOk), (.preflightInstall none, .commandFinished .preflight .success),
        (.preflightRuntime none, .commandFinished .preflight .success),
        (.writingJournal none, .journalWritten)].Sublist ((before ++ [t]).map Tick.consumed) ∧
      t.consumed = (.writingJournal none, .journalWritten) ∧
      journalWrites before = 1 ∧ ∀ u ∈ before ++ [t], ∀ cause, u.event ≠ .stopRequested cause := by
  have hon : OnTheWay t.pre before := OnTheWay.start.feed hfeed
  have hstep := feed_tick (t := t) (by rw [hfeed]; simp)
  obtain ⟨hpre, hevent⟩ := step_invoke_inject hon.shape (by rw [← hstep]; exact hi)
  rw [hpre] at hon
  obtain ⟨hway, hstops, hwrites⟩ := hon.way _ rfl
  have hlast : t.consumed = (.writingJournal none, .journalWritten) := by rw [Tick.consumed, hpre, hevent]
  refine ⟨?_, hlast, hwrites, fun u hu cause => ?_⟩
  · rw [List.map_append, List.map_singleton, hlast]
    exact hway.append (.refl [_])
  · rcases List.mem_append.1 hu with hu | hu
    · exact hstops u hu cause
    · rw [List.mem_singleton.1 hu, hevent]
      simp

/-- To `INJECTING`, with a stray `cleanup` result on the way. -/
def guardedRun : List Event :=
  [.setupOk, .invocationFailed .cleanup "timeout", .commandFinished .preflight .success,
   .commandFinished .preflight .success, .journalWritten]

def injectTick : Tick :=
  ⟨.writingJournal none, .journalWritten, .injecting none, [.emitStatus .injecting none, .invoke .inject .runtime]⟩

theorem inject_guarded_stray :
    let before := (feed .pending guardedRun).take 4
    [(State.pending, Event.setupOk), (.preflightInstall none, .commandFinished .preflight .success),
        (.preflightRuntime none, .commandFinished .preflight .success),
        (.writingJournal none, .journalWritten)].Sublist ((before ++ [injectTick]).map Tick.consumed) ∧
      injectTick.consumed = (.writingJournal none, .journalWritten) ∧
      journalWrites before = 1 ∧ ∀ u ∈ before ++ [injectTick], ∀ cause, u.event ≠ .stopRequested cause := by
  have hfeed : feed .pending guardedRun = (feed .pending guardedRun).take 4 ++ injectTick :: [] := by decide
  exact inject_guarded guardedRun hfeed (by decide)

end FaultForge.Agent
