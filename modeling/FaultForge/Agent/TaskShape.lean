import FaultForge.Agent.Instance

/-!
# The shape of a task

Between the machine and its shell there is at any time at most one request in flight: it is the last effect to
perform, or the blocking call the task is in, or the last event of the queue, with only stop requests before it.
`Task.Shape` says which, for each program counter, and `TaskStep.shape` that every step keeps it. It follows that
the events the loop consumes always fit the state (`Task.Shape.fits`), and that the `wedged` branch is never taken.
-/
namespace FaultForge.Agent

/-! ## Requests in effects, answers in queues -/

/-- The effects ask for `o` with their last element, and for nothing before it. -/
def AsksLast : List Effect → Option Awaited → Prop
  | [], o => o = none
  | effect :: rest, o => effect.asks = none ∧ AsksLast rest o ∨ effect.asks = o ∧ o ≠ none ∧ rest = []

theorem AsksLast.tail {effect : Effect} {rest : List Effect} {o : Option Awaited} (h : AsksLast (effect :: rest) o)
    (he : effect.asks = none) : AsksLast rest o := by
  rcases h with ⟨-, h⟩ | ⟨ha, ho, -⟩
  · exact h
  · exact absurd (ha.symm.trans he) ho

theorem AsksLast.head {effect : Effect} {rest : List Effect} {o : Option Awaited} {a : Awaited}
    (h : AsksLast (effect :: rest) o) (he : effect.asks = some a) : o = some a ∧ rest = [] := by
  rcases h with ⟨hn, -⟩ | ⟨ha, -, hr⟩
  · simp [he] at hn
  · exact ⟨ha.symm.trans he, hr⟩

/-- Stop requests, then the answer to `o`. -/
def AnswersLast (queue : List Event) (o : Option Awaited) : Prop :=
  ∃ stops a, queue = stops ++ [a] ∧ (∀ e ∈ stops, e.answers = none) ∧ a.answers = o ∧ o ≠ none

theorem AnswersLast.push {queue : List Event} {event : Event} {a : Awaited} (hq : ∀ e ∈ queue, e.answers = none)
    (he : event.answers = some a) : AnswersLast (queue ++ [event]) (some a) :=
  ⟨queue, event, rfl, hq, he, by simp⟩

theorem AnswersLast.head {event : Event} {queue : List Event} {o : Option Awaited}
    (h : AnswersLast (event :: queue) o) :
    (event.answers = o ∧ o ≠ none ∧ queue = []) ∨ (event.answers = none ∧ AnswersLast queue o) := by
  obtain ⟨stops, a, hq, hs, ha, ho⟩ := h
  cases stops with
  | nil => obtain ⟨rfl, rfl⟩ := List.cons.inj hq; exact .inl ⟨ha, ho, rfl⟩
  | cons s stops =>
    obtain ⟨rfl, rfl⟩ := List.cons.inj hq
    exact .inr ⟨hs _ List.mem_cons_self, stops, a, rfl, fun e he => hs e (List.mem_cons_of_mem _ he), ha, ho⟩

theorem AnswersLast.ne_nil {o : Option Awaited} : ¬ AnswersLast [] o := by
  rintro ⟨stops, a, h, -⟩
  simp at h

/-! ## What the machine's transitions do to them -/

theorem State.awaits_of_terminal {s : State} (h : s.isTerminal) : s.awaits = none := by
  cases s <;> first | rfl | cases h

theorem State.awaits_none {s : State} (h : s.awaits = none) : s.isTerminal ∨ s = .active := by
  cases s <;> first | exact .inl rfl | exact .inr rfl | cases h

theorem State.awaits_setup {s : State} (h : s.awaits = some .setup) : s = .pending := by
  cases s <;> first | rfl | cases h

section
variable {s s' : State} {e : Event} {effects : List Effect}

/-- A result, or a stop of an active fault, leaves one request: what the new state awaits, asked for last. -/
theorem Trans.asksLast (h : Trans s e s' effects) (he : e.answers ≠ none ∨ s = .active) :
    AsksLast effects s'.awaits := by
  cases h with
  | absorbed e ht => exact State.awaits_of_terminal ht
  | recovered rec _ => cases ho : rec.outcome <;> simp [AsksLast, Effect.asks, Outcome.state, State.awaits]
  | injectedStopped cause | stopActive cause =>
    cases cause <;> simp [startRecovery, StopCause.recoverySteps, AsksLast, Effect.asks, State.awaits]
  | stopPreflight which => cases which <;> simp [rebuildPreflight, Event.answers] at he
  | stopJournal | stopInject | stopRecovery => simp [Event.answers] at he
  | _ => simp [AsksLast, Effect.asks, State.awaits, startRecovery, StopCause.recoverySteps]

/-- A stop request in a state that awaits a result is only recorded. -/
theorem Trans.stop_recorded (h : Trans s e s' effects) (he : e.answers = none) (hs : s.awaits ≠ none)
    (hp : s ≠ .pending) : effects = [] ∧ s'.awaits = s.awaits := by
  cases h with
  | absorbed e ht => exact ⟨rfl, rfl⟩
  | preflightFailed which stop reason hf => simp [hf.answers] at he
  | injectUnaffected stop reason h' => rcases h' with rfl | ⟨r, rfl⟩ <;> simp [Event.answers] at he
  | injectAmbiguous stop reason h' => rcases h' with ⟨d, rfl, -⟩ | ⟨r, rfl⟩ <;> simp [Event.answers] at he
  | recoveryRetry rec hf _ | recoveryFailed rec reason hf _ => simp [hf.answers] at he
  | stopPreflight which => simp [rebuildPreflight_awaits]
  | stopPending => exact absurd rfl hp
  | stopActive => simp [State.awaits] at hs
  | _ => first | exact ⟨rfl, rfl⟩ | simp [Event.answers] at he

end

/-! ## The shape -/

/-- In the loop: the request is still to be made by the effects, or its answer is at the end of the queue. -/
def Task.InLoop (t : Task) : Prop :=
  (t.queue = [] ∧ AsksLast t.effects t.state.awaits) ∨
    (t.effects = [] ∧ AnswersLast t.queue t.state.awaits ∧ (t.state = .pending → t.queue.length = 1))

/-- The task is in the call that answers `o`; only stop requests are queued. -/
def Task.InFlight (t : Task) (o : Option Awaited) : Prop :=
  t.state.awaits = o ∧ o ≠ none ∧ o ≠ some .setup ∧ t.effects = [] ∧ ∀ e ∈ t.queue, e.answers = none

def Task.Shape (t : Task) : Prop :=
  match t.pc with
  | .start | .setup | .send _ .setup => t.state = .pending ∧ t.queue = [] ∧ t.effects = []
  | .loop | .send _ .loop | .reread .. => t.InLoop
  | .verify command _ | .running command _ => t.InFlight (some (.command command))
  | .forward _ event | .send _ (.forward _ event) => t.InFlight event.answers
  | .waiting | .armed .. => t.state = .active ∧ t.queue = [] ∧ t.effects = []
  | .finished => t.state.isTerminal ∧ t.queue = [] ∧ t.effects = []

theorem Task.spawn_shape (run : RunFault) : (Task.spawn run).Shape := ⟨rfl, rfl, rfl⟩

section
variable {X : Ext} {ctx ctx' : Ctx} {t t' : Task} {obs : List Obs}

theorem Task.InLoop.of_effect (h : t.InLoop) {effect : Effect} {rest : List Effect} (he : t.effects = effect :: rest) :
    t.queue = [] ∧ AsksLast (effect :: rest) t.state.awaits := by
  rcases h with ⟨hq, ha⟩ | ⟨hn, -⟩
  · exact ⟨hq, he ▸ ha⟩
  · simp [he] at hn

theorem Task.InLoop.of_event (h : t.InLoop) {event : Event} {queue : List Event} (hq : t.queue = event :: queue) :
    t.effects = [] ∧ AnswersLast (event :: queue) t.state.awaits ∧ (t.state = .pending → queue = []) := by
  rcases h with ⟨hn, -⟩ | ⟨he, ha, hp⟩
  · simp [hq] at hn
  · exact ⟨he, hq ▸ ha, fun hs => by simpa [hq] using hp hs⟩

/-- An event taken from the queue is a stop request or what the state awaits. -/
theorem Task.InLoop.fits (h : t.InLoop) {event : Event} {queue : List Event} (hq : t.queue = event :: queue) :
    Trans t.state event (step t.state event).1 (step t.state event).2 := by
  obtain ⟨-, ha, -⟩ := h.of_event hq
  rcases ha.head with ⟨he, -, -⟩ | ⟨he, -⟩
  · exact step_trans _ _ (.inr (.inl he))
  · exact step_trans _ _ (.inl he)

theorem stop_fits (s : State) (cause : StopCause) :
    Trans s (.stopRequested cause) (step s (.stopRequested cause)).1 (step s (.stopRequested cause)).2 :=
  step_trans _ _ (.inl rfl)

theorem Task.InFlight.push {event : Event} (h : t.InFlight event.answers) : (t.push event).InLoop := by
  obtain ⟨hs, hne, hsetup, he, hq⟩ := h
  obtain ⟨a, ha⟩ := Option.ne_none_iff_exists'.1 hne
  refine .inr ⟨he, ?_, fun hp => ?_⟩
  · rw [show (t.push event).state.awaits = some a from hs.trans ha]
    exact AnswersLast.push hq ha
  · rw [show t.state = .pending from hp] at hs
    exact absurd hs.symm hsetup

theorem consume_inLoop {now : Int} {event : Event} {queue : List Event}
    (h : Trans t.state event (step t.state event).1 (step t.state event).2)
    (hq : (event.answers ≠ none ∨ t.state = .active) ∧ queue = [] ∨
      event.answers = none ∧ AnswersLast queue t.state.awaits ∧ t.state ≠ .pending) :
    (consume now t event queue).InLoop := by
  rcases hq with ⟨he, rfl⟩ | ⟨he, ha, hp⟩
  · exact .inl ⟨rfl, h.asksLast he⟩
  · have hne : t.state.awaits ≠ none := by obtain ⟨_, _, -, -, -, ho⟩ := ha; exact ho
    obtain ⟨heff, haw⟩ := h.stop_recorded he hne hp
    refine .inr ⟨heff, ?_, fun hs => ?_⟩
    · rw [show (consume now t event queue).state.awaits = t.state.awaits from haw]
      exact ha
    · have hs' : (step t.state event).1 = .pending := hs
      rw [hs'] at haw
      exact absurd (State.awaits_setup haw.symm) hp

theorem Task.Shape.inLoop (h : t.Shape) (hpc : t.pc = .loop) : t.InLoop := by
  simpa only [Task.Shape, hpc] using h

theorem Task.Shape.active (h : t.Shape) (hpc : t.pc = .waiting ∨ ∃ d c, t.pc = .armed d c) :
    t.state = .active ∧ t.queue = [] ∧ t.effects = [] := by
  rcases hpc with hpc | ⟨d, c, hpc⟩ <;> simpa only [Task.Shape, hpc] using h

/-- The `wedged` branch is never taken. -/
theorem Task.Shape.unwedged (h : t.Shape) (hpc : t.pc = .loop) (heff : t.effects = []) (hq : t.queue = [])
    (hterm : t.state.isTerminal = false) : t.state = .active := by
  rcases h.inLoop hpc with ⟨-, ha⟩ | ⟨-, ha, -⟩
  · rw [heff] at ha
    rcases State.awaits_none ha with hend | hact
    · rw [hterm] at hend
      cases hend
    · exact hact
  · rw [hq] at ha
    exact absurd ha AnswersLast.ne_nil

/-- A stop that ends `ACTIVE`. -/
theorem consume_stopped {now : Int} {cause : StopCause} {stopRx : List StopCause} {queue : List Event}
    (hact : t.state = .active) :
    (consume now { t with stopRx } (.stopRequested cause) queue).state = (startRecovery cause none).1 := by
  show (step t.state _).1 = _
  rw [hact]
  rfl

theorem Task.InLoop.terminal_queue (h : t.InLoop) (ht : t.state.isTerminal) : t.queue = [] := by
  rcases h with ⟨hq, -⟩ | ⟨-, ⟨_, _, -, -, -, ho⟩, -⟩
  · exact hq
  · exact absurd (State.awaits_of_terminal ht) ho

theorem Task.InFlight.live {o : Option Awaited} (h : t.InFlight o) : t.state.isTerminal = false := by
  obtain ⟨haw, hne, -⟩ := h
  exact Bool.eq_false_iff.2 fun ht => hne (haw ▸ State.awaits_of_terminal ht)

/-- A task in a terminal state has no event left. -/
theorem Task.Shape.terminal_queue (h : t.Shape) (ht : t.state.isTerminal) : t.queue = [] := by
  unfold Task.Shape at h
  split at h
  all_goals first
    | exact h.2.1
    | exact Task.InLoop.terminal_queue h ht
    | exact absurd ht (by simp [Task.InFlight.live h])

/-- **Every step keeps the shape.** -/
theorem TaskStep.shape (h : TaskStep X ctx t ctx' t' obs) (hs : t.Shape) : t'.Shape := by
  cases h with
  | start hpc => simp only [Task.Shape, hpc] at hs; exact hs
  | @send frame after hpc _ => cases after <;> simp only [Task.Shape, hpc] at hs <;> exact hs
  | setupDone params hpc he =>
    obtain ⟨hst, -, heff⟩ : t.state = .pending ∧ t.queue = [] ∧ t.effects = [] := by
      simpa only [Task.Shape, hpc] using hs
    refine .inr ⟨heff, ?_, fun _ => rfl⟩
    rw [hst]
    exact ⟨[], _, rfl, by simp, he, by simp [State.awaits]⟩
  | emit hpc heff =>
    obtain ⟨hq, ha⟩ := (hs.inLoop hpc).of_effect heff
    exact .inl ⟨hq, ha.tail rfl⟩
  | invoke hpc heff =>
    obtain ⟨hq, ha⟩ := (hs.inLoop hpc).of_effect heff
    obtain ⟨haw, hrest⟩ := ha.head rfl
    exact ⟨haw, by simp, by simp, hrest, by simp [hq]⟩
  | write hpc heff =>
    obtain ⟨hq, ha⟩ := (hs.inLoop hpc).of_effect heff
    obtain ⟨haw, hrest⟩ := ha.head rfl
    exact Task.InFlight.push ⟨haw, by simp [Event.answers], by simp [Event.answers], hrest, by simp [hq]⟩
  | writeFailed error hpc heff =>
    obtain ⟨hq, ha⟩ := (hs.inLoop hpc).of_effect heff
    obtain ⟨haw, hrest⟩ := ha.head rfl
    exact Task.InFlight.push ⟨haw, by simp [Event.answers], by simp [Event.answers], hrest, by simp [hq]⟩
  | remove hpc heff | removeFailed hpc heff =>
    obtain ⟨hq, ha⟩ := (hs.inLoop hpc).of_effect heff
    simp only [Task.Shape, hpc]
    exact .inl ⟨hq, ha.tail rfl⟩
  | mark error hpc heff =>
    obtain ⟨hq, ha⟩ := (hs.inLoop hpc).of_effect heff
    exact .inl ⟨hq, ha.tail rfl⟩
  | next hpc heff hq =>
    have hl := hs.inLoop hpc
    obtain ⟨-, ha, hp⟩ := hl.of_event hq
    refine consume_inLoop (hl.fits hq) ?_
    rcases ha.head with ⟨he, hne, hnil⟩ | ⟨he, hrest⟩
    · exact .inl ⟨.inl (he ▸ hne), hnil⟩
    · exact .inr ⟨he, hrest, fun hst => AnswersLast.ne_nil (hp hst ▸ hrest)⟩
  | finish hpc heff hq hterm => exact ⟨hterm, hq, heff⟩
  | activate hpc heff hq hact => exact ⟨hact, hq, heff⟩
  | wedged hpc heff hq hterm hact => exact absurd (hs.unwedged hpc heff hq hterm) hact
  | spawn hpc => simp only [Task.Shape, hpc] at hs; exact hs
  | @refused command _ _ hpc he =>
    have hf : t.InFlight (some (.command command)) := by simpa only [Task.Shape, hpc] using hs
    obtain ⟨reason, rfl | rfl⟩ := he <;> exact Task.InFlight.push hf
  | stopRunning hpc hrx =>
    simp only [Task.Shape, hpc] at hs ⊢
    obtain ⟨haw, hne, hsetup, heff, hq⟩ := hs
    refine ⟨haw, hne, hsetup, heff, fun e he => ?_⟩
    rcases List.mem_cons.1 he with rfl | he
    · rfl
    · exact hq e he
  | exit invocation hpc =>
    simp only [Task.Shape, hpc] at hs ⊢
    rw [invocationEvent_answers]
    exact hs
  | @lost command _ reason hpc =>
    have hf : t.InFlight (some (.command command)) := by simpa only [Task.Shape, hpc] using hs
    exact Task.InFlight.push hf
  | forward hpc _ | forwardSkip hpc _ => simp only [Task.Shape, hpc] at hs; exact hs
  | @forwarded event hpc =>
    have hf : t.InFlight event.answers := by simpa only [Task.Shape, hpc] using hs
    exact Task.InFlight.push hf
  | arm d c hpc => simp only [Task.Shape, hpc] at hs; exact hs
  | rearm hpc => simp only [Task.Shape, hpc] at hs; exact hs
  | stop cause stopRx hpc =>
    obtain ⟨hact, hq, -⟩ := hs.active hpc
    exact consume_inLoop (stop_fits _ _) (.inl ⟨.inr hact, hq⟩)
  | reread hpc => simp only [Task.Shape, hpc] at hs; exact hs

/-! ## Frame conditions -/

theorem TaskStep.run_eq (h : TaskStep X ctx t ctx' t' obs) : t'.run = t.run := by
  cases h <;> rfl

theorem TaskStep.conn_eq (h : TaskStep X ctx t ctx' t' obs) : ctx'.conn = ctx.conn := by
  cases h with
  | mark => unfold Ctx.mark; split <;> rfl
  | _ => rfl

theorem TaskStep.id_eq (h : TaskStep X ctx t ctx' t' obs) : t'.id = t.id := by
  simp only [Task.id, h.run_eq]

end

end FaultForge.Agent
