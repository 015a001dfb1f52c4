import FaultForge.Master.Once
import FaultForge.Master.TaintGap

/-!
# The deadline of a record (dispatch.rs:123-149, 179-235)

`start_experiment` puts the record into the store, then awaits one send for every instance, and only then spawns the
deadline task. `deadline_unarmed` is what can happen in between: a send that waits for a full channel keeps the call
from arming the deadline, and a client that goes away meanwhile takes the call with it. **`deadline_armed`** says when
the deadline of a record in the store is safe, in every reachable state: its call has not been dropped, and the frames
that the call still has to send fit into their channels.

| here | what it says |
| --- | --- |
| `Covers` | the tasks that will resolve a record: its call, or its deadline task |
| `reach_covered` | a record that is not concluded has such a task, unless its call was dropped |
| `reach_booked` | it has one at most |
| `completes_iff` | a call runs to its end alone if and only if its frames fit |
| `Covers.settles` | past the deadline, those tasks alone conclude the record |
-/
namespace FaultForge.Master

open Lts Tasks

/-! ## Calls and deadline tasks -/

def Act.arms : Act → Option ExperimentId
  | .arm id _ => some id
  | _ => none

def Act.resolves : Act → Option ExperimentId
  | .timer id _ | .resolve id => some id
  | _ => none

/-- The task is the `start_experiment` call of `x`, with the deadline still to arm. -/
def Starting (x : ExperimentId) (task : List Act) : Prop := ∃ a ∈ task, a.arms = some x

instance (x : ExperimentId) (task : List Act) : Decidable (Starting x task) :=
  inferInstanceAs (Decidable (∃ a ∈ task, a.arms = some x))

/-- A deadline task of `x` has been spawned, and has not resolved it yet. -/
def Armed (m : MasterState) (x : ExperimentId) : Prop := ∃ task ∈ m.tasks, ∃ a ∈ task, a.resolves = some x

/-- Task `p` runs to its end with no help: nobody drains a channel, no other task moves. -/
def Completes (C : Config) (m : MasterState) (p : Nat) : Prop :=
  ∃ m', Solo (exec C) p m m' ∧ m'.tasks[p]? = some []

def DeadlineSafe (C : Config) (m : MasterState) (x : ExperimentId) : Prop :=
  (∃ p task, m.tasks[p]? = some task ∧ Starting x task ∧ Completes C m p) ∨ Armed m x

/-- The master, and the experiments whose `start_experiment` call was dropped before it armed the deadline. -/
def deadlineLts (C : Config) : System (Watched MasterState (List ExperimentId)) Label :=
  watch (masterLts C) (fun _ => []) fun m lost label _ => match label with
    | .drop p => (m.tasks.getD p []).filterMap Act.arms ++ lost
    | _ => lost

/-! ## Room for what is still to be sent -/

/-- The channel an act puts its frame on, as the session map stands. -/
def Act.channel (s : Dispatcher) : Act → Option StreamId
  | .toHost hostname _ => s.sessions.sender hostname
  | .enqueue t _ => some t
  | _ => none

/-- The frames of the task for channel `t`. -/
def demand (s : Dispatcher) (t : StreamId) (task : List Act) : Nat :=
  task.countP fun a => decide (a.channel s = some t)

/-- No open channel has less room than the task has frames for it. -/
def Fits (s : Dispatcher) (task : List Act) : Prop := ∀ t, s.closed t = false → demand s t task ≤ s.room t

/-- Only the channels that a frame is for can be too full. -/
theorem fits_iff {s : Dispatcher} {task : List Act} :
    Fits s task ↔ ∀ a ∈ task, ∀ t ∈ a.channel s, s.closed t = false → demand s t task ≤ s.room t := by
  refine ⟨fun h _ _ t _ => h t, fun h t hopen => ?_⟩
  by_cases hz : demand s t task = 0
  · omega
  · obtain ⟨a, ha, hc⟩ := List.countP_pos_iff.1 (Nat.pos_of_ne_zero hz)
    exact h a ha t (of_decide_eq_true hc) hopen

instance (s : Dispatcher) (task : List Act) : Decidable (Fits s task) := decidable_of_iff _ fits_iff.symm

section
variable {C : Config} {s : Dispatcher} {p : Nat} {a : Act} {r : Effect Dispatcher Act} {rest tl pre : List Act}
  {tasks : List (List Act)} {t : StreamId}

theorem demand_cons (s : Dispatcher) (t : StreamId) (a : Act) (rest : List Act) :
    demand s t (a :: rest) = demand s t rest + if a.channel s = some t then 1 else 0 := by
  simp [demand, List.countP_cons]

theorem room_log (s : Dispatcher) (d : Delivery) (t : StreamId) :
    ({ s with log := s.log ++ [d] } : Dispatcher).room t = s.room t - if (d.on t).isSome then 1 else 0 := by
  have hsent : ({ s with log := s.log ++ [d] } : Dispatcher).sent t = s.sent t ++ [d].filterMap (Delivery.on t) :=
    List.filterMap_append
  have htaken : ({ s with log := s.log ++ [d] } : Dispatcher).taken t = s.taken t := rfl
  unfold Dispatcher.room
  rw [hsent, htaken, List.length_append]
  cases h : d.on t with
  | none => simp [h]
  | some o =>
    simp only [h, List.filterMap_cons, List.filterMap_nil, List.length_singleton, Option.isSome_some, if_true]
    omega

/-- A send of a call: the look-up of the session, or the send itself. -/
inductive Sent (s : Dispatcher) : Act → Effect Dispatcher Act → Prop
  | noSession (h : Hostname) (f : ServerMessage) : s.sessions.sender h = none →
    Sent s (.toHost h f) ⟨{ s with log := s.log ++ [.noSession h f] }, [], []⟩
  | found (h : Hostname) (f : ServerMessage) (t : StreamId) : s.sessions.sender h = some t →
    Sent s (.toHost h f) ⟨s, [.enqueue t f], []⟩
  | gone (t : StreamId) (f : ServerMessage) : s.closed t = true →
    Sent s (.enqueue t f) ⟨{ s with log := s.log ++ [.sessionClosed t f] }, [], []⟩
  | enqueued (t : StreamId) (f : ServerMessage) : s.closed t = false → s.room t ≠ 0 →
    Sent s (.enqueue t f) ⟨{ s with log := s.log ++ [.enqueued t (.ok f)] }, [], []⟩

def Act.sends (a : Act) : Bool := a.frame.isSome

theorem Sent.of_exec (h : exec C s p a = some r) (ha : a.sends = true) : Sent s a r := by
  have hs := exec_step h
  cases hs with
  | noSession host f hn => exact .noSession host f hn
  | found host f t ht => exact .found host f t ht
  | gone t f hc => exact .gone t f hc
  | enqueued t f hc hr => exact .enqueued t f hc hr
  | touch htouch _ =>
    cases a with
    | toHost | enqueue => cases htouch
    | _ => cases ha
  | quiet hq _ _ =>
    cases a with
    | toHost | enqueue => cases hq
    | _ => cases ha
  | _ => cases ha

theorem Sent.frame (h : Sent s a r) : r.spawned = [] ∧ (∀ b ∈ r.acts, b.sends = true) ∧
    r.shared.store = s.store ∧ r.shared.now = s.now := by
  cases h with
  | found => exact ⟨rfl, by simp [Act.sends, Act.frame], rfl, rfl⟩
  | _ => exact ⟨rfl, by simp, rfl, rfl⟩

/-- A send makes no frame fit that did not fit, and none not fit that did. -/
theorem Sent.fits (h : Sent s a r) (rest : List Act) : Fits r.shared (r.acts ++ rest) ↔ Fits s (a :: rest) := by
  have key : ∀ t, s.closed t = false → (demand r.shared t (r.acts ++ rest) ≤ r.shared.room t ↔
      demand s t (a :: rest) ≤ s.room t) := by
    intro t hopen
    cases h with
    | noSession h f hn =>
      rw [demand_cons, room_log]
      simp [Act.channel, hn, Delivery.on, demand]
      rfl
    | found h f t' ht =>
      rw [List.singleton_append, demand_cons, demand_cons]
      simp [Act.channel, ht]
    | gone t' f hc =>
      have hne : t' ≠ t := by
        rintro rfl
        rw [hc] at hopen
        cases hopen
      rw [demand_cons, room_log]
      simp [Act.channel, hne, Delivery.on, demand]
      rfl
    | enqueued t' f hc hr =>
      rw [demand_cons, room_log]
      by_cases he : t' = t
      · subst he
        have hd : demand ({ s with log := s.log ++ [.enqueued t' (.ok f)] } : Dispatcher) t' rest = demand s t' rest :=
          rfl
        simp only [List.nil_append, Act.channel, Delivery.on, if_true, Option.isSome_some, hd]
        omega
      · have hd : demand ({ s with log := s.log ++ [.enqueued t' (.ok f)] } : Dispatcher) t rest = demand s t rest :=
          rfl
        simp [Act.channel, he, Delivery.on, hd]
  have hclosed : ∀ t, r.shared.closed t = s.closed t := by
    intro t
    cases h <;> rfl
  constructor
  · exact fun hf t hopen => (key t hopen).1 (hf t ((hclosed t).trans hopen))
  · exact fun hf t hopen => (key t ((hclosed t).symm.trans hopen)).2 (hf t ((hclosed t).symm.trans hopen))

/-! ## A call on its own -/

theorem Fits.enabled (h : Fits s (a :: rest)) (ha : a.sends = true) : ∃ r, exec C s p a = some r := by
  cases a with
  | toHost host f =>
    cases hs : s.sessions.sender host with
    | none => exact ⟨_, by simp only [exec, hs]; rfl⟩
    | some t => exact ⟨_, by simp only [exec, hs, goOn]; rfl⟩
  | enqueue t f =>
    by_cases hc : s.closed t = true
    · exact ⟨_, by simp only [exec, Dispatcher.send, hc, if_true]; rfl⟩
    · have hfit := h t (Bool.eq_false_iff.2 hc)
      rw [demand_cons, Act.channel, if_pos rfl] at hfit
      have hroom : s.room t ≠ 0 := by omega
      exact ⟨_, by simp only [exec, Dispatcher.send, if_neg hc, if_neg hroom, goOn]; rfl⟩
  | _ => cases ha

theorem step_sent (hs : Sent s a r) (hr : exec C s p a = some r) (ht : tasks[p]? = some (a :: rest)) :
    step (exec C) ⟨s, tasks⟩ p = some ⟨r.shared, tasks.set p (r.acts ++ rest)⟩ := by
  rw [step_of_exec ht hr, hs.frame.1, List.append_nil]

/-- The sends of a task leave everything but the log. -/
structure SentOnly (s s' : Dispatcher) : Prop where
  store : s'.store = s.store
  now : s'.now = s.now
  sessions : s'.sessions = s.sessions
  streams : s'.streams = s.streams

theorem SentOnly.refl (s : Dispatcher) : SentOnly s s := ⟨rfl, rfl, rfl, rfl⟩

theorem SentOnly.trans {s₁ s₂ s₃ : Dispatcher} (h : SentOnly s₁ s₂) (k : SentOnly s₂ s₃) : SentOnly s₁ s₃ :=
  ⟨k.store.trans h.store, k.now.trans h.now, k.sessions.trans h.sessions, k.streams.trans h.streams⟩

theorem Sent.only (h : Sent s a r) : SentOnly s r.shared := by
  cases h <;> exact ⟨rfl, rfl, rfl, rfl⟩

/-- The steps that one frame takes: the send, with the look-up before it. What fits after it is what did before. -/
theorem solo_send (ha : a.sends = true) (ht : tasks[p]? = some (a :: rest)) {more : List Act}
    (hf : Fits s (a :: more)) :
    ∃ s', Solo (exec C) p ⟨s, tasks⟩ ⟨s', tasks.set p rest⟩ ∧ Fits s' more ∧ SentOnly s s' := by
  have hlt : p < tasks.length := (List.getElem?_eq_some_iff.1 ht).1
  obtain ⟨r, hr⟩ := hf.enabled (C := C) (p := p) ha
  have hs := Sent.of_exec hr ha
  have hstep := step_sent hs hr ht
  have hfit := (hs.fits more).2 hf
  have honly := hs.only
  cases hs with
  | found host f t hsender =>
    have ht' : (tasks.set p (.enqueue t f :: rest))[p]? = some (.enqueue t f :: rest) := List.getElem?_set_self hlt
    obtain ⟨r', hr'⟩ := Fits.enabled (C := C) (p := p) hfit rfl
    have hs' := Sent.of_exec hr' rfl
    have hstep' := step_sent hs' hr' ht'
    have hfit' := (hs'.fits more).2 hfit
    rw [List.set_set] at hstep'
    refine ⟨r'.shared, .head hstep (.head hstep' ?_), ?_, hs'.only⟩
    · cases hs' <;> exact .refl _
    · cases hs' <;> exact hfit'
  | noSession host f hn => exact ⟨_, .head hstep (.refl _), hfit, honly⟩
  | gone t f hc => exact ⟨_, .head hstep (.refl _), hfit, honly⟩
  | enqueued t f hc hroom => exact ⟨_, .head hstep (.refl _), hfit, honly⟩

/-- What fits is sent. -/
theorem solo_sends (hpre : ∀ a ∈ pre, a.sends = true) (ht : tasks[p]? = some (pre ++ tl)) {more : List Act}
    (hf : Fits s (pre ++ more)) :
    ∃ s', Solo (exec C) p ⟨s, tasks⟩ ⟨s', tasks.set p tl⟩ ∧ Fits s' more ∧ SentOnly s s' := by
  have hlt : p < tasks.length := (List.getElem?_eq_some_iff.1 ht).1
  induction pre generalizing s tasks with
  | nil =>
    have hsame : tasks.set p tl = tasks := by
      have htl : tasks[p] = tl := (List.getElem?_eq_some_iff.1 ht).2
      rw [← htl]
      exact List.set_getElem_self hlt
    rw [hsame]
    exact ⟨s, .refl _, hf, .refl s⟩
  | cons a pre ih =>
    obtain ⟨s₁, hsolo, hfit, honly⟩ := solo_send (C := C) (hpre a List.mem_cons_self) ht hf
    obtain ⟨s₂, hsolo', hfit', honly'⟩ := ih (fun b hb => hpre b (List.mem_cons_of_mem _ hb))
      (List.getElem?_set_self hlt) hfit (by rwa [List.length_set])
    rw [List.set_set] at hsolo'
    exact ⟨s₂, hsolo.trans hsolo', hfit', honly.trans honly'⟩

/-- The call sends what fits, arms the deadline and answers. -/
theorem solo_call {x : ExperimentId} {dl : Int} {res : Response} (hpre : ∀ a ∈ pre, a.sends = true)
    (ht : tasks[p]? = some (pre ++ [.arm x dl, .respond res])) (hf : Fits s (pre ++ [.arm x dl, .respond res])) :
    ∃ s', Solo (exec C) p ⟨s, tasks⟩ ⟨s', tasks.set p [] ++ [[.timer x dl]]⟩ ∧ s'.store = s.store ∧ s'.now = s.now := by
  have hlt : p < tasks.length := (List.getElem?_eq_some_iff.1 ht).1
  obtain ⟨s₁, hsolo, -, honly⟩ := solo_sends (C := C) hpre ht hf
  have harm : step (exec C) ⟨s₁, tasks.set p [.arm x dl, .respond res]⟩ p =
      some ⟨s₁, tasks.set p [.respond res] ++ [[.timer x dl]]⟩ := by
    rw [step_of_exec (List.getElem?_set_self hlt) rfl, List.set_set]
    rfl
  have hrespond : step (exec C) ⟨s₁, tasks.set p [.respond res] ++ [[.timer x dl]]⟩ p =
      some ⟨{ s₁ with responses := s₁.responses ++ [(p, res)] }, tasks.set p [] ++ [[.timer x dl]]⟩ := by
    have hget : (tasks.set p [.respond res] ++ [[.timer x dl]])[p]? = some [.respond res] := by
      rw [List.getElem?_append_left (by rwa [List.length_set]), List.getElem?_set_self hlt]
    rw [step_of_exec hget rfl]
    simp [hlt]
  exact ⟨_, hsolo.trans (.head harm (.head hrespond (.refl _))), honly.store, honly.now⟩

theorem fits_nil (s : Dispatcher) : Fits s [] := fun _ _ => Nat.zero_le _

/-- Acts that send nothing need no room. -/
theorem fits_append_quiet {quiet : List Act} (h : ∀ a ∈ quiet, a.channel s = none) :
    Fits s (pre ++ quiet) ↔ Fits s pre := by
  have hzero : ∀ t, demand s t quiet = 0 := fun t =>
    List.countP_eq_zero.2 fun a ha => by simp [h a ha]
  have hsum : ∀ t, demand s t (pre ++ quiet) = demand s t pre := by
    intro t
    have happend : demand s t (pre ++ quiet) = demand s t pre + demand s t quiet := List.countP_append
    rw [happend, hzero t, Nat.add_zero]
  unfold Fits
  simp only [hsum]

/-- What has been sent has fitted: a task that has as little left as `tl` has sent all that came before it. -/
theorem fits_of_solo {m m' : MasterState} {n : Nat} {left : List Act}
    (hn : solo (exec C) p n m = some m') (hdone : m'.tasks[p]? = some left) (hle : left.length ≤ tl.length)
    (hpre : ∀ a ∈ pre, a.sends = true) (ht : m.tasks[p]? = some (pre ++ tl)) : Fits m.shared pre := by
  induction n generalizing m pre with
  | zero =>
    obtain rfl := Option.some.inj hn
    obtain rfl := Option.some.inj (ht.symm.trans hdone)
    have hnil : pre = [] := List.length_eq_zero_iff.1 (by rw [List.length_append] at hle; omega)
    rw [hnil]
    exact fits_nil _
  | succ n ih =>
    cases pre with
    | nil => exact fits_nil _
    | cons a pre =>
      rw [List.cons_append] at ht
      obtain ⟨m₁, hstep, hrest⟩ := Option.bind_eq_some_iff.1 hn
      obtain ⟨a', rest', r, ht', hr, rfl⟩ := step_some hstep
      obtain ⟨rfl, rfl⟩ := List.cons.inj (Option.some.inj (ht.symm.trans ht'))
      have hs := Sent.of_exec hr (hpre a List.mem_cons_self)
      have hlt : p < m.tasks.length := (List.getElem?_eq_some_iff.1 ht).1
      obtain ⟨hspawned, hacts, -, -⟩ := hs.frame
      rw [hspawned, List.append_nil] at hrest
      refine (hs.fits _).1 (ih hrest (fun b hb => ?_) ?_)
      · rcases List.mem_append.1 hb with hb | hb
        · exact hacts b hb
        · exact hpre b (List.mem_cons_of_mem _ hb)
      · simp only [List.append_assoc]
        exact List.getElem?_set_self hlt

theorem completes_iff {x : ExperimentId} {dl : Int} {res : Response} {m : MasterState}
    (hpre : ∀ a ∈ pre, a.sends = true) (ht : m.tasks[p]? = some (pre ++ [.arm x dl, .respond res])) :
    Completes C m p ↔ Fits m.shared (pre ++ [.arm x dl, .respond res]) := by
  constructor
  · rintro ⟨m', ⟨n, hn⟩, hdone⟩
    refine (fits_append_quiet ?_).2 (fits_of_solo hn hdone (Nat.zero_le _) hpre ht)
    simp [Act.channel]
  · intro hf
    have hlt : p < m.tasks.length := (List.getElem?_eq_some_iff.1 ht).1
    obtain ⟨s', hsolo, -, -⟩ := solo_call (C := C) hpre ht hf
    refine ⟨_, hsolo, ?_⟩
    rw [List.getElem?_append_left (by rwa [List.length_set]), List.getElem?_set_self hlt]

/-! ## From a submission to its deadline task -/

/-- The acts of a `start_experiment` call before the record is in the store. -/
def Act.starts : Act → Bool
  | .start _ | .gather .. | .mint _ | .publish _ => true
  | _ => false

/-- Such a call, or an act of a deadline task. -/
def Act.staged (a : Act) : Bool := a.starts || a.arms.isSome || a.resolves.isSome

/-- What an act leaves of a call and of a deadline task. -/
inductive Stage (C : Config) (s : Dispatcher) : Act → Effect Dispatcher Act → Prop
  | other {a : Act} {r : Effect Dispatcher Act} : (∀ b ∈ r.acts, b.staged = false) → r.spawned = [] → Stage C s a r
  | next {a b : Act} {r : Effect Dispatcher Act} : a.starts = true → b.starts = true → r.acts = [b] → r.spawned = [] →
    Stage C s a r
  | publish (e : Experiment) {r : Effect Dispatcher Act} :
    r.acts = sendRunFaults C e ++ [.arm e.id e.deadlineUnixMs, .respond (.created e)] → r.spawned = [] →
    Stage C s (.publish e) r
  | arm (x : ExperimentId) (dl : Int) {r : Effect Dispatcher Act} : r.acts = [] → r.spawned = [[.timer x dl]] →
    Stage C s (.arm x dl) r
  | timer (x : ExperimentId) (dl : Int) {r : Effect Dispatcher Act} :
    r.acts = [.sleep (max s.now dl), .resolve x] → r.spawned = [] → Stage C s (.timer x dl) r

theorem sends_staged {b : Act} (h : b.sends = true) : b.staged = false := by
  cases b <;> first | rfl | cases h

theorem sendRunFaults_sends {e : Experiment} {b : Act} (h : b ∈ sendRunFaults C e) : b.sends = true := by
  obtain ⟨i, f, -, -, rfl⟩ := mem_sendRunFaults h
  rfl

theorem sendAborts_staged {aborts : List Target} {b : Act} (h : b ∈ sendAborts aborts) : b.staged = false := by
  obtain ⟨t, -, rfl⟩ := mem_sendAborts h
  rfl

theorem unstaged_singleton {b : Act} (h : b.staged = false) : ∀ c ∈ [b], c.staged = false := by
  simpa using h

theorem goOn_stage {s' : Dispatcher} {acts : List Act} (h : goOn s' acts = some r)
    (hacts : ∀ b ∈ acts, b.staged = false) :
    Stage C s a r := by
  obtain rfl := Option.some.inj h
  exact .other hacts rfl

theorem onStore_stage {st : Store × List Target} {acts : List Act} (h : onStore s st acts = some r)
    (hacts : ∀ b ∈ acts, b.staged = false) : Stage C s a r := by
  obtain rfl := Option.some.inj h
  refine .other (fun b hb => ?_) rfl
  rcases List.mem_append.1 hb with hb | hb
  · exact sendAborts_staged hb
  · exact hacts b hb

theorem exec_stage (h : exec C s p a = some r) : Stage C s a r := by
  cases a with
  | start d => obtain rfl := Option.some.inj h; exact .next rfl rfl rfl rfl
  | gather d registry facts hosts =>
    cases hosts with
    | cons host hosts => obtain rfl := Option.some.inj h; exact .next rfl rfl rfl rfl
    | nil =>
      simp only [exec] at h
      split at h
      · obtain rfl := Option.some.inj h
        exact .next rfl rfl rfl rfl
      · exact goOn_stage h (unstaged_singleton rfl)
  | mint d => obtain rfl := Option.some.inj h; exact .next rfl rfl rfl rfl
  | publish e => obtain rfl := Option.some.inj h; exact .publish e rfl rfl
  | arm x dl => obtain rfl := Option.some.inj h; exact .arm x dl rfl rfl
  | timer x dl => obtain rfl := Option.some.inj h; exact .timer x dl rfl rfl
  | toHost | enqueue =>
    obtain ⟨hspawned, hacts, -, -⟩ := (Sent.of_exec h rfl).frame
    exact .other (fun b hb => sends_staged (hacts b hb)) hspawned
  | sleep wake =>
    simp only [exec] at h
    split at h
    · exact goOn_stage h (by simp)
    · cases h
  | resolve x => exact onStore_stage h (by simp)
  | status iid state reason ts =>
    simp only [exec, handleStatus] at h
    split at h
    · exact goOn_stage h (by simp)
    · exact onStore_stage h (by simp)
  | halt x reason =>
    simp only [exec, handleHalt] at h
    split at h
    · exact goOn_stage h (unstaged_singleton rfl)
    · split at h
      · exact goOn_stage h (unstaged_singleton rfl)
      · exact onStore_stage h (unstaged_singleton rfl)
  | sweep host reason ts => exact onStore_stage h (by simp)
  | setTaint host tainted reason ts =>
    obtain rfl := Option.some.inj h
    cases tainted with
    | true => exact .other (unstaged_singleton rfl) rfl
    | false => exact .other (by simp) rfl
  | clearTaint host =>
    simp only [exec] at h
    split at h <;> exact goOn_stage h (unstaged_singleton rfl)
  | relay host =>
    simp only [exec] at h
    split at h <;> exact goOn_stage h (unstaged_singleton rfl)
  | relayTo t | reject =>
    simp only [exec] at h
    split at h
    · cases h
    · exact goOn_stage h (unstaged_singleton rfl)
    · exact goOn_stage h (unstaged_singleton rfl)
  | reply =>
    simp only [exec] at h
    split at h
    · cases h
    · exact goOn_stage h (unstaged_singleton rfl)
    · exact goOn_stage h (by simp)
  | registerAgent | fetchEpoch | insertSession | updateHeartbeat =>
    obtain rfl := Option.some.inj h
    exact .other (unstaged_singleton rfl) rfl
  | leave | respond =>
    obtain rfl := Option.some.inj h
    exact .other (by simp) rfl

/-! ## A call is a task of its own -/

variable {m m' : MasterState} {l : Label} {x : ExperimentId}

def Alone (tasks : List (List Act)) : Prop := ∀ task ∈ tasks, ∀ a ∈ task, a.starts = true → task = [a]

theorem Alone.append (h : Alone tasks) {more : List Act} (hm : ∀ a ∈ more, a.starts = true → more = [a]) :
    Alone (tasks ++ [more]) := by
  intro task ht
  rcases List.mem_append.1 ht with ht | ht
  · exact h task ht
  · obtain rfl := List.mem_singleton.1 ht
    exact hm

theorem Alone.set (h : Alone tasks) {task' : List Act} (ht : ∀ a ∈ task', a.starts = true → task' = [a]) :
    Alone (tasks.set p task') := by
  intro task hm
  rcases List.mem_or_eq_of_mem_set hm with hm | rfl
  · exact h task hm
  · exact ht

theorem Alone.others (h : Alone tasks) (ht : tasks[p]? = some (a :: rest)) :
    (a.starts = true → rest = []) ∧ ∀ b ∈ rest, b.starts = false := by
  have hmem := List.mem_of_getElem? ht
  refine ⟨fun ha => (List.cons.inj (h _ hmem a List.mem_cons_self ha)).2, fun b hb => ?_⟩
  by_contra hs
  have heq := h _ hmem b (List.mem_cons_of_mem _ hb) (by simpa using hs)
  rw [(List.cons.inj heq).2] at hb
  cases hb

theorem Stage.alone (h : Stage C s a r) (hrest : (a.starts = true → rest = []) ∧ ∀ b ∈ rest, b.starts = false) :
    (∀ b ∈ r.acts ++ rest, b.starts = true → r.acts ++ rest = [b]) ∧
      ∀ task ∈ r.spawned, ∀ b ∈ task, b.starts = true → task = [b] := by
  have none : (∀ b ∈ r.acts, b.starts = false) → ∀ b ∈ r.acts ++ rest, b.starts = true → r.acts ++ rest = [b] := by
    intro hacts b hb hs
    rcases List.mem_append.1 hb with hb | hb
    · rw [hacts b hb] at hs
      cases hs
    · rw [hrest.2 b hb] at hs
      cases hs
  cases h with
  | other hacts hspawned =>
    rw [hspawned]
    refine ⟨none fun b hb => ?_, by simp⟩
    have hstaged := hacts b hb
    rw [Act.staged, Bool.or_assoc, Bool.or_eq_false_iff] at hstaged
    exact hstaged.1
  | next ha hb hacts hspawned =>
    rw [hspawned, hacts, hrest.1 ha]
    exact ⟨fun c hc _ => by rw [List.mem_singleton.1 hc]; rfl, by simp⟩
  | publish e hacts hspawned =>
    rw [hspawned]
    refine ⟨none fun b hb => ?_, by simp⟩
    rw [hacts] at hb
    rcases List.mem_append.1 hb with hb | hb
    · have hsends := sendRunFaults_sends hb
      cases b <;> first | rfl | cases hsends
    · simp only [List.mem_cons, List.not_mem_nil, or_false] at hb
      rcases hb with rfl | rfl <;> rfl
  | arm x dl hacts hspawned =>
    refine ⟨none (by rw [hacts]; simp), fun task ht b hb hs => ?_⟩
    rw [hspawned] at ht
    obtain rfl := List.mem_singleton.1 ht
    obtain rfl := List.mem_singleton.1 hb
    cases hs
  | timer x dl hacts hspawned =>
    rw [hspawned]
    refine ⟨none fun b hb => ?_, by simp⟩
    rw [hacts] at hb
    simp only [List.mem_cons, List.not_mem_nil, or_false] at hb
    rcases hb with rfl | rfl <;> rfl

theorem handleFrame_starts {now : Int} {stream : Stream} {payload : Option AgentMessage} {b : Act}
    (h : b ∈ handleFrame now stream payload) : b.starts = false := by
  have hdecode : ∀ {status : InstanceStatus}, decodeStatus status = some b → b.starts = false := by
    intro status hd
    unfold decodeStatus at hd
    split at hd
    · cases hd
    · obtain rfl := Option.some.inj hd
      rfl
  unfold handleFrame at h
  split at h
  · split at h <;> (obtain rfl := List.mem_singleton.1 h; rfl)
  · split at h <;> (obtain rfl := List.mem_singleton.1 h; rfl)
  · exact hdecode (Option.mem_toList.1 h)
  · obtain ⟨status, -, hd⟩ := List.mem_filterMap.1 h
    exact hdecode hd
  · split at h
    · obtain rfl := List.mem_singleton.1 h
      rfl
    · cases h
  · cases h
  · cases h

theorem intake_some {acts : Stream → List Act} (h : intake m p acts = some m') :
    ∃ stream, m.tasks[p]? = some [] ∧ m' = ⟨m.shared, m.tasks.set p (acts stream)⟩ := by
  unfold intake at h
  split at h
  next stream _ ht =>
    split at h
    · cases h
    · exact ⟨stream, ht, (Option.some.inj h).symm⟩
  next => cases h

theorem drop_some (h : masterStep C m (.drop p) = some m') : ∃ a rest, m.tasks[p]? = some (a :: rest) ∧
    (a :: rest).any Act.answers = true ∧ m'.tasks = m.tasks.set p [] ∧ m'.shared.store = m.shared.store := by
  simp only [masterStep] at h
  split at h
  next a rest ht =>
    split at h
    next hg =>
      obtain rfl := Option.some.inj h
      exact ⟨a, rest, ht, (Bool.and_eq_true_iff.1 hg).2, rfl, rfl⟩
    next => cases h
  next => cases h

theorem Alone.step (ha : Alone m.tasks) (h : masterStep C m l = some m') : Alone m'.tasks := by
  have hone : ∀ {b : Act}, ∀ a ∈ [b], a.starts = true → [b] = [a] := fun a hm _ => by rw [List.mem_singleton.1 hm]
  cases l with
  | run p =>
    obtain ⟨a, rest, r, ht, hr, rfl⟩ := step_some h
    obtain ⟨hacts, hspawned⟩ := (exec_stage hr).alone (ha.others ht)
    intro task hm
    rcases List.mem_append.1 hm with hm | hm
    · exact ha.set hacts task hm
    · exact hspawned task hm
  | submit | haltRequest | clearTaintRequest => obtain rfl := Option.some.inj h; exact ha.append hone
  | connect => obtain rfl := Option.some.inj h; exact ha.append (by simp)
  | recv p payload =>
    obtain ⟨stream, -, rfl⟩ := intake_some h
    exact ha.set fun b hb hs => by rw [handleFrame_starts hb] at hs; cases hs
  | eof | streamError =>
    obtain ⟨stream, -, rfl⟩ := intake_some h
    exact ha.set hone
  | drop p =>
    obtain ⟨_, _, -, -, htasks, -⟩ := drop_some h
    rw [htasks]
    exact ha.set (by simp)
  | close t =>
    simp only [masterStep] at h
    split at h
    · obtain rfl := Option.some.inj h
      exact ha
    · cases h
  | drain t =>
    simp only [masterStep] at h
    split at h
    · split at h
      · obtain rfl := Option.some.inj h
        exact ha
      · cases h
    · cases h
  | tick ms => obtain rfl := Option.some.inj h; exact ha

theorem reach_alone (h : Reach (masterLts C) m) : Alone m.tasks := by
  refine h.inv (P := fun m => Alone m.tasks) ?_ fun m l m' ha hs => ha.step hs
  rintro m ⟨now, rfl⟩ task ht
  cases ht

/-! ## One task at most for each record -/

/-- The act is that of a call of `x` that has yet to arm the deadline, or of a deadline task of `x`. -/
def pending (x : ExperimentId) (a : Act) : Nat := if a.arms = some x ∨ a.resolves = some x then 1 else 0

theorem pending_unstaged {b : Act} (h : b.staged = false) (x : ExperimentId) : pending x b = 0 := by
  cases b <;> first | rfl | cases h

theorem pending_opens {b : Act} (h : b.opens = true) (x : ExperimentId) : pending x b = 0 := by
  cases b <;> first | rfl | cases h

theorem pending_pos {task : List Act} : 0 < load (pending x) task ↔
    Starting x task ∨ ∃ a ∈ task, a.resolves = some x := by
  constructor
  · intro h
    obtain ⟨a, ha, hw⟩ := exists_of_load_pos h
    unfold pending at hw
    split at hw
    next hor => exact hor.imp (fun h => ⟨a, ha, h⟩) fun h => ⟨a, ha, h⟩
    next => cases hw
  · rintro (⟨a, ha, hx⟩ | ⟨a, ha, hx⟩)
    · exact load_pos ha (by simp [pending, hx])
    · exact load_pos ha (by simp [pending, hx])

theorem Stage.pending_le (h : Stage C s a r) (x : ExperimentId) :
    load (pending x) r.acts + weigh (pending x) r.spawned ≤ pending x a + pubs x a := by
  cases h with
  | other hacts hspawned =>
    rw [hspawned, load_eq_zero fun b hb => pending_unstaged (hacts b hb) x]
    exact Nat.zero_le _
  | @next a b _ ha hb hacts hspawned =>
    have hzero : pending x b = 0 := by cases b <;> first | rfl | cases hb
    rw [hspawned, hacts, load_cons, hzero]
    exact Nat.zero_le _
  | publish e hacts hspawned =>
    have hzero : load (pending x) (sendRunFaults C e) = 0 :=
      load_eq_zero fun b hb => pending_unstaged (sends_staged (sendRunFaults_sends hb)) x
    rw [hspawned, hacts, load_append, hzero]
    simp [pending, pubs, Act.arms, Act.resolves]
  | arm y dl hacts hspawned =>
    rw [hspawned, hacts]
    simp [pending, Act.arms, Act.resolves]
  | timer y dl hacts hspawned =>
    rw [hspawned, hacts]
    simp [pending, Act.arms, Act.resolves]

/-- A record is in the store from its publication on. -/
theorem ActStep.stored_le (h : ActStep C s p a r) (hnew : ∀ e, a = .publish e → s.store.lookup e.id = none)
    (x : ExperimentId) : stored s.store x + pubs x a ≤ stored r.shared.store x := by
  cases h with
  | publish e =>
    by_cases hx : e.id = x
    · subst hx
      simp [stored, pubs, hnew e rfl]
    · have hstored : stored (s.store.insert e.id e) x = stored s.store x := by
        unfold stored
        rw [AList.lookup_insert_ne (Ne.symm hx)]
      simp [hstored, pubs, hx]
  | @touch _ op ids acts htouch hacts =>
    have hzero : pubs x a = 0 := by
      cases a with
      | publish => cases htouch
      | _ => rfl
    rw [hzero, Store.updateAll_stored]
    exact Nat.le_refl _
  | leave =>
    rw [(endSession_fields s p).1]
    exact Nat.le_refl _
  | quiet hq _ _ =>
    have hzero : pubs x a = 0 := by
      cases a with
      | publish => cases hq
      | _ => rfl
    rw [hzero]
    exact Nat.le_refl _
  | _ => exact Nat.le_refl _

theorem count_arms_le (x : ExperimentId) (task : List Act) :
    (task.filterMap Act.arms).count x ≤ load (pending x) task := by
  induction task with
  | nil => exact Nat.le_refl _
  | cons a task ih =>
    rw [load_cons]
    cases ha : a.arms with
    | none =>
      rw [List.filterMap_cons_none ha]
      omega
    | some y =>
      rw [List.filterMap_cons_some ha, List.count_cons]
      by_cases hy : y = x
      · subst hy
        simp only [pending, ha, beq_self_eq_true, if_true, true_or]
        omega
      · simp only [beq_iff_eq, hy, if_false]
        omega

/-- A record that is in the store has at most one call or deadline task, or its call was dropped; one that is not in the
store yet has none. -/
def Booked (w : Watched MasterState (List ExperimentId)) : Prop :=
  ∀ x, weigh (pending x) w.state.tasks + w.seen.count x ≤ stored w.state.shared.store x

variable {w w' : Watched MasterState (List ExperimentId)}

/-- What a step of `deadlineLts` is. -/
theorem deadline_step (h : (deadlineLts C).step w l = some w') : masterStep C w.state l = some w'.state ∧
    ((∃ p, l = .drop p ∧ w'.seen = (w.state.tasks.getD p []).filterMap Act.arms ++ w.seen) ∨
      ((∀ p, l ≠ .drop p) ∧ w'.seen = w.seen)) := by
  obtain ⟨hs, hseen⟩ := watch_step_some.1 h
  refine ⟨hs, ?_⟩
  cases l with
  | drop p => exact .inl ⟨p, rfl, hseen⟩
  | _ => exact .inr ⟨by simp, hseen⟩

theorem Booked.step (hb : Booked w) (hm : Sound C w.state) (h : (deadlineLts C).step w l = some w') : Booked w' := by
  intro x
  have hx := hb x
  obtain ⟨hs, ⟨p, rfl, hseen⟩ | ⟨hnd, hseen⟩⟩ := deadline_step h
  · obtain ⟨a, rest, ht, -, htasks, hstore⟩ := drop_some hs
    have hset := weigh_set (w := pending x) ht []
    have hcount := count_arms_le x (a :: rest)
    have hget : w.state.tasks.getD p [] = a :: rest := by
      rw [List.getD_eq_getElem?_getD, ht]
      rfl
    rw [htasks, hstore, hseen, hget, List.count_append]
    simp only [load_nil] at hset
    omega
  · rw [hseen]
    have hstep := masterStep_step hs
    generalize hm' : w'.state = m' at hs hstep
    cases hstep with
    | act =>
      obtain ⟨a, rest, r, ht, hr, he⟩ := step_some hs
      rw [he]
      have hload := (exec_stage hr).pending_le x
      have hstored := (exec_step hr).stored_le (fun e he => (hm.publish (he ▸ ht)).2) x
      have hweigh := weigh_step (w := pending x) (r := r) ht
      show weigh (pending x) (w.state.tasks.set _ (r.acts ++ rest) ++ r.spawned) + w.seen.count x ≤
        stored r.shared.store x
      omega
    | request ho _ =>
      rw [weigh_append, weigh_cons, weigh_nil, load_eq_zero fun b hb => pending_opens (ho b hb) x]
      omega
    | connect => simpa [Dispatcher.setStream] using hx
    | @intake _ p stream task _ _ ht ho _ =>
      have hset := weigh_set (w := pending x) ht task
      rw [load_eq_zero fun b hb => pending_opens (ho b hb) x, load_nil] at hset
      show weigh (pending x) (w.state.tasks.set p task) + w.seen.count x ≤ stored w.state.shared.store x
      omega
    | @drop p => exact absurd rfl (hnd p)
    | channel => exact hx
    | tick => exact hx

theorem reach_booked (h : Reach (deadlineLts C) w) : Booked w := by
  refine h.inv_of (I := fun w => Sound C w.state) (P := Booked) (fun w hw => reach_sound hw.unwatched) ?_
    fun w l w' hm hb hs => hb.step hm hs
  rintro ⟨m, lost⟩ ⟨⟨now, hm⟩, hlost⟩ x
  obtain rfl : m = ⟨.new now, []⟩ := hm
  obtain rfl : lost = [] := hlost
  exact Nat.zero_le _

theorem stored_le_one (st : Store) (x : ExperimentId) : stored st x ≤ 1 := by
  unfold stored
  split <;> omega

/-- Two tasks of one record are one task. -/
theorem Booked.unique (hb : Booked w) {q : Nat} {task task' : List Act} (hp : w.state.tasks[p]? = some task)
    (hq : w.state.tasks[q]? = some task') (h : 0 < load (pending x) task) (h' : 0 < load (pending x) task') :
    p = q := by
  by_contra hne
  have hx := hb x
  have hone := stored_le_one w.state.shared.store x
  have hset := weigh_set (w := pending x) hp []
  have hq' : (w.state.tasks.set p [])[q]? = some task' := by rwa [List.getElem?_set_ne hne]
  have hset' := weigh_set (w := pending x) hq' []
  simp only [load_nil] at hset hset'
  omega

theorem Booked.not_lost (hb : Booked w) {task : List Act} (hp : w.state.tasks[p]? = some task)
    (h : 0 < load (pending x) task) : x ∉ w.seen := by
  intro hm
  have hx := hb x
  have hone := stored_le_one w.state.shared.store x
  have hpos := weigh_pos hp h
  have hcount := List.count_pos_iff.2 hm
  omega

/-! ## One task at least -/

/-- The tasks that will resolve a record whose deadline is `dl`. -/
inductive Covers (now dl : Int) (x : ExperimentId) : List Act → Prop
  | call (pre : List Act) (res : Response) : (∀ a ∈ pre, a.sends = true) →
    Covers now dl x (pre ++ [.arm x dl, .respond res])
  | timer : Covers now dl x [.timer x dl]
  | asleep (wake : Int) : wake ≤ max now dl → Covers now dl x [.sleep wake, .resolve x]
  | due : Covers now dl x [.resolve x]

theorem Covers.pending_pos {now dl : Int} {task : List Act} (h : Covers now dl x task) : 0 < load (pending x) task := by
  refine FaultForge.Master.pending_pos.2 ?_
  cases h with
  | call pre res _ => exact .inl ⟨.arm x dl, by simp, rfl⟩
  | timer => exact .inr ⟨_, List.mem_singleton_self _, rfl⟩
  | asleep wake _ => exact .inr ⟨.resolve x, by simp, rfl⟩
  | due => exact .inr ⟨_, List.mem_singleton_self _, rfl⟩

/-- Of these tasks only a call has an answer to give. -/
theorem Covers.starting {now dl : Int} {task : List Act} (h : Covers now dl x task)
    (hans : task.any Act.answers = true) : Starting x task := by
  cases h with
  | call pre res _ => exact ⟨.arm x dl, by simp, rfl⟩
  | timer | asleep | due => cases hans

theorem Covers.mono {now now' dl : Int} {task : List Act} (h : Covers now dl x task) (hn : now ≤ now') :
    Covers now' dl x task := by
  cases h with
  | call pre res hpre => exact .call pre res hpre
  | timer => exact .timer
  | asleep wake hw => exact .asleep wake (by omega)
  | due => exact .due

/-- Some task will resolve the record. -/
def Covered (m : MasterState) (x : ExperimentId) (dl : Int) : Prop :=
  ∃ (p : Nat) (task : List Act), m.tasks[p]? = some task ∧ Covers m.shared.now dl x task

/-- The task moves on, or resolves the record. -/
theorem Covers.run {dl : Int} {task : List Act} (hc : Covers m.shared.now dl x task) (ht : m.tasks[p]? = some task)
    (h : step (exec C) m p = some m') : Covered m' x dl ∨ task = [.resolve x] := by
  obtain ⟨a, rest, r, ht', hr, rfl⟩ := step_some h
  obtain rfl := Option.some.inj (ht.symm.trans ht')
  have hlt : p < m.tasks.length := (List.getElem?_eq_some_iff.1 ht).1
  have hself : ∀ {task' : List Act}, r.acts ++ rest = task' → Covers r.shared.now dl x task' →
      Covered ⟨r.shared, m.tasks.set p (r.acts ++ rest) ++ r.spawned⟩ x dl := by
    rintro _ rfl hcov
    refine ⟨p, _, ?_, hcov⟩
    rw [List.getElem?_append_left (by rwa [List.length_set]), List.getElem?_set_self hlt]
  generalize htask : a :: rest = task at hc
  cases hc with
  | call pre res hpre =>
    cases pre with
    | nil =>
      obtain ⟨rfl, rfl⟩ := List.cons.inj htask
      obtain rfl := Option.some.inj hr
      refine .inl ⟨m.tasks.length, [.timer x dl], ?_, .timer⟩
      rw [List.getElem?_append_right (by simp), List.length_set, Nat.sub_self]
      rfl
    | cons b pre =>
      obtain ⟨rfl, rfl⟩ := List.cons.inj htask
      have hs := Sent.of_exec hr (hpre a List.mem_cons_self)
      obtain ⟨-, hacts, -, hnow⟩ := hs.frame
      refine .inl (hself (List.append_assoc ..).symm (.call _ res fun b hb => ?_))
      rcases List.mem_append.1 hb with hb | hb
      · exact hacts b hb
      · exact hpre b (List.mem_cons_of_mem _ hb)
  | timer =>
    obtain ⟨rfl, rfl⟩ := List.cons.inj htask
    obtain rfl := Option.some.inj hr
    exact .inl (hself rfl (.asleep _ (Int.le_refl _)))
  | asleep wake hw =>
    obtain ⟨rfl, rfl⟩ := List.cons.inj htask
    simp only [exec] at hr
    split at hr
    · obtain rfl := Option.some.inj hr
      exact .inl (hself rfl .due)
    · cases hr
  | due => exact .inr rfl

/-- Where a record that is not concluded comes from: it has just been published, or was there before. -/
theorem MasterStep.record_back (h : MasterStep C m l m') (hm : Sound C m) {e' : Experiment}
    (he' : m'.shared.store.lookup x = some e') (hc' : e'.isConcluded = false) :
    (∃ p rest, l = .run p ∧ m.tasks[p]? = some (.publish e' :: rest) ∧ e'.id = x) ∨
      ∃ e, m.shared.store.lookup x = some e ∧ e.isConcluded = false ∧ e.deadlineUnixMs = e'.deadlineUnixMs := by
  cases he : m.shared.store.lookup x with
  | none =>
    have hno : m'.shared.store ≠ m.shared.store := fun heq => by rw [heq, he] at he'; cases he'
    cases h with
    | @act p a rest r ht hs =>
      cases hs with
      | publish e₀ =>
        by_cases hx : x = e₀.id
        · subst hx
          obtain rfl : e₀ = e' := by simpa using he'
          exact .inl ⟨p, rest, rfl, ht, rfl⟩
        · rw [AList.lookup_insert_ne hx, he] at he'
          cases he'
      | @touch _ op ids acts _ _ =>
        have hst := Store.updateAll_stored m.shared.store op ids x
        simp [stored, he, he'] at hst
      | leave => exact absurd (endSession_fields m.shared p).1 hno
      | _ => exact absurd rfl hno
    | _ => exact absurd rfl hno
  | some e =>
    refine .inr ⟨e, rfl, ?_⟩
    rcases h.record hm he with hsame | ⟨r, a, op, ids, -, -, hst⟩
    · obtain rfl := Option.some.inj (hsame.symm.trans he')
      exact ⟨hc', rfl⟩
    · let Q : Experiment → Prop := fun e₁ =>
        Reach recordLts e₁ ∧ e₁.deadlineUnixMs = e.deadlineUnixMs ∧ (e.isConcluded = true → e₁.isConcluded = true)
      have hQ : ∀ e₁, Q e₁ → Q (e₁.apply op).1 := by
        rintro e₁ ⟨hr, hdl, hcon⟩
        refine ⟨.step hr rfl, ((e₁.apply_kept op).deadlineUnixMs).trans hdl, fun hc => ?_⟩
        rw [(reach_consistent hr).1.final (hcon hc) op]
        exact hcon hc
      obtain ⟨e'', he'', -, hdl, hcon⟩ := Store.updateAll_keeps hQ he ⟨(hm.records x e he).2.1, rfl, id⟩ ids
      rw [hst, he''] at he'
      obtain rfl := Option.some.inj he'
      refine ⟨Bool.eq_false_iff.2 fun hc => ?_, hdl.symm⟩
      rw [hcon hc] at hc'
      cases hc'

/-- The deadline concludes the record. -/
theorem resolve_concludes (ht : m.tasks[p]? = some (.resolve x :: rest)) (h : step (exec C) m p = some m')
    {e : Experiment} (he : m.shared.store.lookup x = some e) (hrec : Reach recordLts e) :
    ∃ e', m'.shared.store.lookup x = some e' ∧ e'.isConcluded = true := by
  obtain ⟨a, rest', r, ht', hr, rfl⟩ := step_some h
  obtain ⟨rfl, rfl⟩ := List.cons.inj (Option.some.inj (ht.symm.trans ht'))
  obtain rfl := Option.some.inj hr
  refine ⟨(e.apply (.deadline m.shared.now)).1, ?_, ?_⟩
  · show (m.shared.store.update x (.deadline m.shared.now)).1.lookup x = _
    rw [Store.update_lookup, if_pos rfl, he]
    rfl
  · obtain ⟨hcons, hd⟩ := reach_consistent hrec
    exact (hcons.resolveDeadline hd m.shared.now).2.1

theorem MasterStep.now_le (h : MasterStep C m l m') : m.shared.now ≤ m'.shared.now := by
  cases h with
  | @act p a rest r ht hs =>
    cases hs with
    | leave =>
      show m.shared.now ≤ (endSession m.shared p).now
      unfold endSession
      split <;> exact Int.le_refl _
    | _ => exact Int.le_refl _
  | tick ms =>
    show m.shared.now ≤ m.shared.now + ms
    omega
  | _ => exact Int.le_refl _

/-- The records of a state whose call has not been dropped are covered. -/
def AllCovered (w : Watched MasterState (List ExperimentId)) : Prop :=
  ∀ x e, w.state.shared.store.lookup x = some e → e.isConcluded = false → x ∉ w.seen →
    Covered w.state x e.deadlineUnixMs

theorem AllCovered.step (hc : AllCovered w) (hm : Sound C w.state) (ha : Alone w.state.tasks)
    (h : (deadlineLts C).step w l = some w') : AllCovered w' := by
  intro x e' he' hcon' hlost'
  obtain ⟨hs, hseen⟩ := deadline_step h
  have hstep := masterStep_step hs
  rcases hstep.record_back hm he' hcon' with ⟨p, rest, rfl, ht, rfl⟩ | ⟨e, he, hcon, hdl⟩
  · -- the call has just published the record, and is alone in its task
    obtain ⟨a, rest', r, ht', hr, hw'⟩ := step_some hs
    obtain ⟨rfl, rfl⟩ := List.cons.inj (Option.some.inj (ht.symm.trans ht'))
    obtain rfl := (ha.others ht).1 rfl
    obtain rfl := Option.some.inj hr
    rw [hw']
    refine ⟨p, _, ?_, .call (sendRunFaults C e') (.created e') fun _ hb => sendRunFaults_sends hb⟩
    rw [List.append_nil, List.append_nil, List.getElem?_set_self (List.getElem?_eq_some_iff.1 ht).1]
  · rw [← hdl]
    have hlost : x ∉ w.seen := by
      rcases hseen with ⟨p, -, hseen⟩ | ⟨-, hseen⟩
      · rw [hseen] at hlost'
        exact fun hm => hlost' (List.mem_append_right _ hm)
      · rwa [← hseen]
    obtain ⟨q, task, ht, hcov⟩ := hc x e he hcon hlost
    by_cases hl : l = .run q
    · subst hl
      rcases hcov.run ht hs with hcov' | rfl
      · exact hcov'
      · obtain ⟨e'', he'', hcon''⟩ := resolve_concludes ht hs he (hm.records x e he).2.1
        rw [he''] at he'
        obtain rfl := Option.some.inj he'
        rw [hcon''] at hcon'
        cases hcon'
    · by_cases hd : l = .drop q
      · -- only a call can be dropped, and then it is lost
        subst hd
        obtain ⟨a, rest, ht', hans, -, -⟩ := drop_some hs
        obtain rfl := Option.some.inj (ht.symm.trans ht')
        rcases hseen with ⟨p, hp, hseen⟩ | ⟨hnd, -⟩
        · obtain rfl := Label.drop.inj hp
          have hget : w.state.tasks.getD q [] = a :: rest := by
            rw [List.getD_eq_getElem?_getD, ht]
            rfl
          rw [hseen, hget] at hlost'
          obtain ⟨b, hb, hx⟩ := hcov.starting hans
          exact absurd (List.mem_append_left _ (List.mem_filterMap.2 ⟨b, hb, hx⟩)) hlost'
        · exact absurd rfl (hnd q)
      · obtain ⟨a, rest, rfl⟩ : ∃ a rest, task = a :: rest := by
          cases hcov with
          | call pre res _ => cases pre <;> exact ⟨_, _, rfl⟩
          | timer | asleep | due => exact ⟨_, _, rfl⟩
        exact ⟨q, _, hstep.task_kept ht (fun he => absurd he hd) hl, hcov.mono hstep.now_le⟩

theorem reach_covered (h : Reach (deadlineLts C) w) : AllCovered w := by
  refine h.inv_of (I := fun w => Reach (masterLts C) w.state) (P := AllCovered) (fun w hw => hw.unwatched) ?_
    fun w l w' hr hc hs => hc.step (reach_sound hr) (reach_alone hr) hs
  rintro ⟨m, lost⟩ ⟨⟨now, hm⟩, -⟩ x e he
  obtain rfl : m = ⟨.new now, []⟩ := hm
  cases he

/-! ## Past the deadline -/

/-- Tasks of the master alone, with no help from outside, conclude the record. -/
def Settles (C : Config) (m : MasterState) (x : ExperimentId) : Prop :=
  ∃ (ps : List Nat) (m' : MasterState) (e' : Experiment), Lts.run (masterLts C) m (ps.map .run) = some m' ∧
    m'.shared.store.lookup x = some e' ∧ e'.isConcluded = true

theorem Settles.step (hs : Settles C m' x) (h : Tasks.step (exec C) m p = some m') : Settles C m x := by
  obtain ⟨ps, m'', e', hrun, he', hc'⟩ := hs
  refine ⟨p :: ps, m'', e', ?_, he', hc'⟩
  rw [List.map_cons, Lts.run, show (masterLts C).step m (.run p) = some m' from h]
  exact hrun

theorem Settles.solo (hs : Settles C m' x) (h : Solo (exec C) p m m') : Settles C m x := by
  obtain ⟨n, hn⟩ := h
  induction n generalizing m with
  | zero =>
    obtain rfl := Option.some.inj hn
    exact hs
  | succ n ih =>
    obtain ⟨m₁, hstep, hrest⟩ := Option.bind_eq_some_iff.1 hn
    exact (ih hrest).step hstep

section
variable {e : Experiment} {dl : Int}

theorem settles_due (he : m.shared.store.lookup x = some e) (hrec : Reach recordLts e)
    (ht : m.tasks[p]? = some [.resolve x]) : Settles C m x := by
  have hexec : exec C m.shared p (.resolve x) = _ := rfl
  have hstep := step_of_exec ht hexec
  obtain ⟨e', he', hc'⟩ := resolve_concludes ht hstep he hrec
  refine ⟨[p], _, e', ?_, he', hc'⟩
  rw [List.map_singleton, Lts.run, show (masterLts C).step m (.run p) = _ from hstep]
  rfl

theorem settles_asleep (he : m.shared.store.lookup x = some e) (hrec : Reach recordLts e) {wake : Int}
    (hw : wake ≤ m.shared.now) (ht : m.tasks[p]? = some [.sleep wake, .resolve x]) : Settles C m x := by
  have hlt : p < m.tasks.length := (List.getElem?_eq_some_iff.1 ht).1
  have hexec : exec C m.shared p (.sleep wake) = some ⟨m.shared, [], []⟩ := by
    simp only [exec, if_pos hw]
    rfl
  have hstep := step_of_exec ht hexec
  rw [List.append_nil] at hstep
  exact (settles_due (m := ⟨m.shared, m.tasks.set p [.resolve x]⟩) he hrec (List.getElem?_set_self hlt)).step hstep

theorem settles_timer (he : m.shared.store.lookup x = some e) (hrec : Reach recordLts e) (hdl : dl ≤ m.shared.now)
    (ht : m.tasks[p]? = some [.timer x dl]) : Settles C m x := by
  have hlt : p < m.tasks.length := (List.getElem?_eq_some_iff.1 ht).1
  have hexec : exec C m.shared p (.timer x dl) = _ := rfl
  have hstep := step_of_exec ht hexec
  have hw : max m.shared.now dl ≤ m.shared.now := by omega
  rw [List.append_nil] at hstep
  exact (settles_asleep (m := ⟨m.shared, m.tasks.set p [.sleep (max m.shared.now dl), .resolve x]⟩) he hrec hw
    (List.getElem?_set_self hlt)).step hstep

theorem Covers.settles {task : List Act} (h : Covers m.shared.now dl x task) (ht : m.tasks[p]? = some task)
    (he : m.shared.store.lookup x = some e) (hrec : Reach recordLts e) (hdl : dl ≤ m.shared.now)
    (hf : Starting x task → Fits m.shared task) : Settles C m x := by
  cases h with
  | call pre res hpre =>
    obtain ⟨s', hsolo, hstore, hnow⟩ := solo_call (C := C) hpre ht (hf ⟨.arm x dl, by simp, rfl⟩)
    have htimer : (m.tasks.set p [] ++ [[.timer x dl]])[m.tasks.length]? = some [.timer x dl] := by
      rw [List.getElem?_append_right (by simp), List.length_set, Nat.sub_self]
      rfl
    have he' : s'.store.lookup x = some e := hstore ▸ he
    have hdl' : dl ≤ s'.now := hnow ▸ hdl
    have hdone : Settles C ⟨s', m.tasks.set p [] ++ [[.timer x dl]]⟩ x := settles_timer he' hrec hdl' htimer
    exact hdone.solo hsolo
  | timer => exact settles_timer he hrec hdl ht
  | asleep wake hw => exact settles_asleep he hrec (by omega) ht
  | due => exact settles_due he hrec ht

end

/-! ## When the deadline is safe -/

theorem Covers.resolves {now dl : Int} {task : List Act} (h : Covers now dl x task) :
    (∃ pre res, (∀ a ∈ pre, a.sends = true) ∧ task = pre ++ [.arm x dl, .respond res]) ∨
      (∃ a ∈ task, a.resolves = some x) ∧ ¬ Starting x task := by
  cases h with
  | call pre res hpre => exact .inl ⟨pre, res, hpre, rfl⟩
  | timer => exact .inr ⟨⟨_, List.mem_singleton_self _, rfl⟩, by simp [Starting, Act.arms]⟩
  | asleep wake _ => exact .inr ⟨⟨.resolve x, by simp, rfl⟩, by simp [Starting, Act.arms]⟩
  | due => exact .inr ⟨⟨_, List.mem_singleton_self _, rfl⟩, by simp [Starting, Act.arms]⟩

theorem deadlineSafe_iff (h : Reach (deadlineLts C) w) {e : Experiment}
    (he : w.state.shared.store.lookup x = some e) (hc : e.isConcluded = false) :
    DeadlineSafe C w.state x ↔
      x ∉ w.seen ∧ ∀ task ∈ w.state.tasks, Starting x task → Fits w.state.shared task := by
  have hb := reach_booked h
  have hcovered := reach_covered h x e he hc
  constructor
  · intro hsafe
    -- the task that makes the deadline safe is the one that covers the record
    obtain ⟨p, task, ht, hpos, hdone⟩ : ∃ p task, w.state.tasks[p]? = some task ∧ 0 < load (pending x) task ∧
        ((∃ a ∈ task, a.resolves = some x) ∨ Completes C w.state p) := by
      rcases hsafe with ⟨p, task, ht, hstart, hcomp⟩ | ⟨task, hm, hres⟩
      · exact ⟨p, task, ht, pending_pos.2 (.inl hstart), .inr hcomp⟩
      · obtain ⟨p, ht⟩ := List.mem_iff_getElem?.1 hm
        exact ⟨p, task, ht, pending_pos.2 (.inr hres), .inl hres⟩
    have hlost := hb.not_lost ht hpos
    refine ⟨hlost, fun task' hm' hstart => ?_⟩
    obtain ⟨q, ht'⟩ := List.mem_iff_getElem?.1 hm'
    obtain ⟨k, task'', ht'', hcov⟩ := hcovered hlost
    obtain rfl := hb.unique ht ht' hpos (pending_pos.2 (.inl hstart))
    obtain rfl := hb.unique ht ht'' hpos hcov.pending_pos
    obtain rfl := Option.some.inj (ht.symm.trans ht')
    obtain rfl := Option.some.inj (ht.symm.trans ht'')
    rcases hcov.resolves with ⟨pre, res, hpre, rfl⟩ | ⟨-, hno⟩
    · rcases hdone with ⟨a, ha, hres⟩ | hcomp
      · rcases List.mem_append.1 ha with ha | ha
        · have hsends := hpre a ha
          cases a with
          | toHost | enqueue => cases hres
          | _ => cases hsends
        · simp only [List.mem_cons, List.not_mem_nil, or_false] at ha
          rcases ha with rfl | rfl <;> cases hres
      · exact (completes_iff hpre ht).1 hcomp
    · exact absurd hstart hno
  · rintro ⟨hlost, hfits⟩
    obtain ⟨p, task, ht, hcov⟩ := hcovered hlost
    rcases hcov.resolves with ⟨pre, res, hpre, rfl⟩ | ⟨hres, -⟩
    · have hstart : Starting x (pre ++ [.arm x e.deadlineUnixMs, .respond res]) :=
        ⟨.arm x e.deadlineUnixMs, by simp, rfl⟩
      exact .inl ⟨p, _, ht, hstart, (completes_iff hpre ht).2 (hfits _ (List.mem_of_getElem? ht) hstart)⟩
    · exact .inr ⟨task, List.mem_of_getElem? ht, hres⟩

/-- **The deadline of a record that is not concluded is safe if and only if** its `start_experiment` call has not been
dropped, and the frames the call still has to send fit into their channels. Past its deadline, such a record is
concluded by tasks of the master alone. -/
theorem deadline_armed (h : Reach (deadlineLts C) w) {e : Experiment} (he : w.state.shared.store.lookup x = some e)
    (hc : e.isConcluded = false) :
    (DeadlineSafe C w.state x ↔
      x ∉ w.seen ∧ ∀ task ∈ w.state.tasks, Starting x task → Fits w.state.shared task) ∧
    (DeadlineSafe C w.state x → e.deadlineUnixMs ≤ w.state.shared.now → Settles C w.state x) := by
  have hiff := deadlineSafe_iff h he hc
  refine ⟨hiff, fun hsafe hdl => ?_⟩
  obtain ⟨hlost, hfits⟩ := hiff.1 hsafe
  obtain ⟨p, task, ht, hcov⟩ := reach_covered h x e he hc hlost
  exact hcov.settles ht he ((reach_sound h.unwatched).records x e he).2.1 hdl (hfits task (List.mem_of_getElem? ht))

end

/-! ## Three runs -/

def deadlineStart : Watched MasterState (List ExperimentId) := ⟨sampleMaster, []⟩

/-- web-01 is sent 31 heartbeat acks and drains nothing: with its `RegisterAck` they fill its channel. -/
def fillsChannel : List Label := (List.range 31).flatMap fun _ => [.recv 0 (some .heartbeat)] ++ runs 0 2

/-- A submission for both hosts; task 2 is its call, and has looked up the session of web-01. -/
def submitted : List Label := [.submit sampleDefinition] ++ runs 2 7

/-- The record of the sample run, with its deadline in the past. -/
def overdue (m : MasterState) : Bool :=
  (m.shared.store.lookup "exp-1000-1").any fun e => !e.isConcluded && e.deadlineUnixMs < m.shared.now

theorem overdue_record {m : MasterState} (h : overdue m = true) : ∃ e, m.shared.store.lookup "exp-1000-1" = some e ∧
    e.isConcluded = false ∧ e.deadlineUnixMs < m.shared.now := by
  obtain ⟨e, he, hp⟩ := (Option.any_eq_true _ _).1 h
  obtain ⟨hc, hdl⟩ := Bool.and_eq_true_iff.1 hp
  exact ⟨e, he, by simpa using hc, of_decide_eq_true hdl⟩

/-- The call of the sample run is at its first send, and both channels have room: the deadline is safe, and now that it
has passed, the call and its deadline task conclude the record. -/
theorem deadline_armed_calling : ∃ w : Watched MasterState (List ExperimentId),
    DeadlineSafe sampleConfig w.state "exp-1000-1" ∧ Settles sampleConfig w.state "exp-1000-1" := by
  let p : Watched MasterState (List ExperimentId) → Bool := fun w => overdue w.state && w.seen.isEmpty &&
    w.state.tasks.all fun task => !decide (Starting "exp-1000-1" task) || decide (Fits w.state.shared task)
  obtain ⟨w, hw, hp⟩ := reach_of_run (L := deadlineLts sampleConfig) p (s := deadlineStart) ⟨⟨1000, rfl⟩, rfl⟩
    (joins 0 "web-01" ++ joins 1 "web-02" ++ submitted ++ [.tick 1000000]) (by decide +kernel)
  simp only [p, Bool.and_eq_true, List.isEmpty_iff, List.all_eq_true, Bool.or_eq_true, Bool.not_eq_true',
    decide_eq_true_eq, decide_eq_false_iff_not] at hp
  obtain ⟨⟨hover, hseen⟩, hfits⟩ := hp
  obtain ⟨e, he, hc, hdl⟩ := overdue_record hover
  obtain ⟨hiff, hsettles⟩ := deadline_armed hw he hc
  have hsafe := hiff.2 ⟨by simp [hseen], fun task hm hs => (hfits task hm).resolve_left fun hn => hn hs⟩
  exact ⟨w, hsafe, hsettles hsafe (Int.le_of_lt hdl)⟩

/-- The call waits for the full channel of web-01, and no deadline task is armed; then the client goes away, and nobody
is left to conclude the record, long after its deadline. -/
theorem deadline_unarmed :
    (∃ w, Reach (deadlineLts sampleConfig) w ∧ w.seen = [] ∧ ∃ x e, w.state.shared.store.lookup x = some e ∧
      e.isConcluded = false ∧ ¬ DeadlineSafe sampleConfig w.state x) ∧
    ∃ w, Reach (deadlineLts sampleConfig) w ∧ ∃ x e, w.state.shared.store.lookup x = some e ∧ e.isConcluded = false ∧
      e.deadlineUnixMs < w.state.shared.now ∧ ¬ DeadlineSafe sampleConfig w.state x ∧
      ∀ task ∈ w.state.tasks, task = [] := by
  have hinit : (deadlineLts sampleConfig).init deadlineStart := ⟨⟨1000, rfl⟩, rfl⟩
  let blocked : List Label := joins 0 "web-01" ++ joins 1 "web-02" ++ fillsChannel ++ submitted
  constructor
  · let p : Watched MasterState (List ExperimentId) → Bool := fun w => w.seen.isEmpty &&
      (w.state.shared.store.lookup "exp-1000-1").any (fun e => !e.isConcluded) &&
      w.state.tasks.any fun task => decide (Starting "exp-1000-1" task) && !decide (Fits w.state.shared task)
    obtain ⟨w, hw, hp⟩ := reach_of_run p hinit blocked (by decide +kernel)
    simp only [p, Bool.and_eq_true, List.isEmpty_iff, Option.any_eq_true, List.any_eq_true, Bool.not_eq_true',
      decide_eq_true_eq, decide_eq_false_iff_not] at hp
    obtain ⟨⟨hseen, e, he, hc⟩, task, hm, hs, hf⟩ := hp
    exact ⟨w, hw, hseen, _, e, he, hc, fun hsafe => hf (((deadlineSafe_iff hw he hc).1 hsafe).2 task hm hs)⟩
  · let p : Watched MasterState (List ExperimentId) → Bool := fun w => overdue w.state &&
      w.seen.contains "exp-1000-1" && w.state.tasks.all List.isEmpty
    obtain ⟨w, hw, hp⟩ := reach_of_run p hinit (blocked ++ [.drop 2, .tick 1000000]) (by decide +kernel)
    simp only [p, Bool.and_eq_true, List.contains_iff_mem, List.all_eq_true, List.isEmpty_iff] at hp
    obtain ⟨⟨hover, hlost⟩, hnone⟩ := hp
    obtain ⟨e, he, hc, hdl⟩ := overdue_record hover
    exact ⟨w, hw, _, e, he, hc, hdl, fun hsafe => ((deadlineSafe_iff hw he hc).1 hsafe).1 hlost, hnone⟩

end FaultForge.Master
