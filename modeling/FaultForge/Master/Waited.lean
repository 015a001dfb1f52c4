import FaultForge.Master.Deadline
import FaultForge.Master.Final
import FaultForge.Master.Requests

/-!
# A record that was answered for is resolved (master/src/dispatch.rs:215-239, 352)

`start_experiment` arms the deadline before it answers. A client that has its record can therefore wait for the end:
whatever becomes of hosts, channels and other clients, the record is concluded or a deadline task counts down for it
(`Timed.step`), and time and the tasks of the master alone conclude it (`Ticking.settles`).
-/
namespace FaultForge.Master

open Lts Tasks

/-! ## Deadline tasks -/

/-- The tasks of an armed deadline. -/
inductive Counts (now dl : Int) (x : ExperimentId) : List Act → Prop
  | timer : Counts now dl x [.timer x dl]
  | asleep (wake : Int) : wake ≤ max now dl → Counts now dl x [.sleep wake, .resolve x]
  | due : Counts now dl x [.resolve x]

/-- The record is stored, and is concluded or has an armed deadline. -/
def Ticking (m : MasterState) (x : ExperimentId) : Prop :=
  ∃ e, m.shared.store.lookup x = some e ∧ (e.isConcluded = true ∨
    ∃ (p : Nat) (task : List Act), m.tasks[p]? = some task ∧ Counts m.shared.now e.deadlineUnixMs x task)

section
variable {C : Config} {m m' : MasterState} {l : Label} {x : ExperimentId} {now now' dl : Int} {task : List Act}

theorem Counts.mono (h : Counts now dl x task) (hn : now ≤ now') : Counts now' dl x task := by
  cases h with
  | timer => exact .timer
  | asleep wake hw => exact .asleep wake (by omega)
  | due => exact .due

theorem Counts.covers (h : Counts now dl x task) : Covers now dl x task ∧ ¬ Starting x task := by
  cases h with
  | timer => exact ⟨.timer, by simp [Starting, Act.arms]⟩
  | asleep wake hw => exact ⟨.asleep wake hw, by simp [Starting, Act.arms]⟩
  | due => exact ⟨.due, by simp [Starting, Act.arms]⟩

/-- A deadline task moves on, or is about to resolve the record. -/
theorem Counts.run {p : Nat} (hc : Counts m.shared.now dl x task) (ht : m.tasks[p]? = some task)
    (h : step (exec C) m p = some m') :
    (∃ task', m'.tasks[p]? = some task' ∧ Counts m'.shared.now dl x task') ∨ task = [.resolve x] := by
  obtain ⟨a, rest, r, ht', hr, rfl⟩ := step_some h
  obtain rfl := Option.some.inj (ht.symm.trans ht')
  have hlt : p < m.tasks.length := (List.getElem?_eq_some_iff.1 ht).1
  have hself : (m.tasks.set p (r.acts ++ rest) ++ r.spawned)[p]? = some (r.acts ++ rest) := by
    rw [List.getElem?_append_left (by rwa [List.length_set]), List.getElem?_set_self hlt]
  generalize htask : a :: rest = task at hc
  cases hc with
  | timer =>
    obtain ⟨rfl, rfl⟩ := List.cons.inj htask
    obtain rfl := Option.some.inj hr
    exact .inl ⟨_, hself, .asleep _ (Int.le_refl _)⟩
  | asleep wake hw =>
    obtain ⟨rfl, rfl⟩ := List.cons.inj htask
    simp only [exec] at hr
    split at hr
    · obtain rfl := Option.some.inj hr
      exact .inl ⟨_, hself, .due⟩
    · cases hr
  | due => exact .inr rfl

theorem Ticking.step (hk : Ticking m x) (hm : Sound C m) (h : masterStep C m l = some m') : Ticking m' x := by
  obtain ⟨e, he, hc⟩ := hk
  have hstep := masterStep_step h
  by_cases hcon : e.isConcluded = true
  · have hsettled : Settled m.shared.store x e := ⟨he, hcon⟩
    exact ⟨e, (hsettled.step hm hstep).1.stored, .inl hcon⟩
  obtain ⟨p, task, ht, hcounts⟩ := hc.resolve_left hcon
  obtain ⟨e', he', hon⟩ := masterStep_onward hm h x e he
  refine ⟨e', he', ?_⟩
  rw [hon.kept.deadlineUnixMs]
  by_cases hl : l = .run p
  · subst hl
    rcases hcounts.run ht h with ⟨task', ht', hcounts'⟩ | rfl
    · exact .inr ⟨p, task', ht', hcounts'⟩
    · obtain ⟨e'', he'', hcon''⟩ := resolve_concludes ht h he (hm.records x e he).2.1
      rw [he''] at he'
      obtain rfl := Option.some.inj he'
      exact .inl hcon''
  · obtain ⟨a, rest, rfl, hawaits⟩ : ∃ a rest, task = a :: rest ∧ a.awaits = false := by
      cases hcounts <;> exact ⟨_, _, rfl, rfl⟩
    exact .inr ⟨p, _, hstep.task_kept ht (fun _ => hawaits) hl, hcounts.mono hstep.now_le⟩

/-- Past the deadline, the tasks of the master alone conclude the record. -/
theorem Ticking.settles (hk : Ticking m x) (hm : Sound C m)
    (hdl : ∀ e, m.shared.store.lookup x = some e → e.deadlineUnixMs ≤ m.shared.now) : Settles C m x := by
  obtain ⟨e, he, hc | ⟨p, task, ht, hcounts⟩⟩ := hk
  · exact ⟨[], m, e, rfl, he, hc⟩
  · obtain ⟨hcovers, hno⟩ := hcounts.covers
    exact hcovers.settles ht he (hm.records x e he).2.1 (hdl e he) fun hs => absurd hs hno

end

/-! ## The handler of a submission -/

/-- How far the handler has come. -/
inductive Calling (m : MasterState) : List Act → Prop
  | starting {a : Act} : a.starts = true → Calling m [a]
  | rejected (failures : List ValidationFailure) : Calling m [.respond (.rejected failures)]
  | sending (e : Experiment) (pre : List Act) : (∀ a ∈ pre, a.sends = true) → e.Recorded m.shared.store →
      Calling m (pre ++ [.arm e.id e.deadlineUnixMs, .respond (.created e)])
  | armed (e : Experiment) : Ticking m e.id → Calling m [.respond (.created e)]
  | done : Calling m []

/-- A record that handler `p` has answered with has its deadline armed. -/
structure Timed (m : MasterState) (p : Nat) : Prop where
  task : ∀ task, m.tasks[p]? = some task → Calling m task
  answers : ∀ e, (p, .created e) ∈ m.shared.responses → Ticking m e.id

section
variable {C : Config} {m m' : MasterState} {l : Label} {p : Nat} {d : ExperimentDefinition}

theorem Calling.step {task : List Act} (hk : Calling m task) (hm : Sound C m) (h : masterStep C m l = some m') :
    Calling m' task := by
  cases hk with
  | starting ha => exact .starting ha
  | rejected failures => exact .rejected failures
  | sending e pre hpre hrec => exact .sending e pre hpre (hrec.mono (masterStep_onward hm h))
  | armed e ht => exact .armed e (ht.step hm h)
  | done => exact .done

/-- Before the record is in the store. -/
theorem Calling.start {a : Act} (ha : a.starts = true) {r : Effect Dispatcher Act} (hr : exec C m.shared p a = some r)
    {tasks : List (List Act)} : Calling ⟨r.shared, tasks⟩ r.acts := by
  cases a with
  | start d =>
    obtain rfl := Option.some.inj hr
    exact .starting rfl
  | gather d registry facts hosts =>
    cases hosts with
    | cons host hosts =>
      obtain rfl := Option.some.inj hr
      exact .starting rfl
    | nil =>
      simp only [exec] at hr
      split at hr <;> obtain rfl := Option.some.inj hr
      · exact .starting rfl
      · exact .rejected _
  | mint d =>
    obtain rfl := Option.some.inj hr
    exact .starting rfl
  | publish e =>
    obtain rfl := Option.some.inj hr
    exact .sending e _ (fun _ ha => sendRunFaults_sends ha) ⟨e, AList.lookup_insert _, .refl e⟩
  | _ => cases ha

/-- The handler does an act. -/
theorem Calling.run {a : Act} {rest : List Act} {r : Effect Dispatcher Act} (hk : Calling m (a :: rest))
    (hm : Sound C m) (ht : m.tasks[p]? = some (a :: rest)) (hr : exec C m.shared p a = some r) :
    Calling ⟨r.shared, m.tasks.set p (r.acts ++ rest) ++ r.spawned⟩ (r.acts ++ rest) ∧
      ∀ e, a = .respond (.created e) →
        Ticking ⟨r.shared, m.tasks.set p (r.acts ++ rest) ++ r.spawned⟩ e.id := by
  have hstep : masterStep C m (.run p) = some ⟨r.shared, m.tasks.set p (r.acts ++ rest) ++ r.spawned⟩ :=
    step_of_exec ht hr
  generalize htask : a :: rest = task at hk
  cases hk with
  | starting ha =>
    obtain ⟨rfl, rfl⟩ := List.cons.inj htask
    rw [List.append_nil]
    exact ⟨.start ha hr, by rintro e rfl; cases ha⟩
  | rejected failures =>
    obtain ⟨rfl, rfl⟩ := List.cons.inj htask
    obtain rfl := Option.some.inj hr
    exact ⟨.done, fun e he => by cases he⟩
  | sending e pre hpre hrec =>
    cases pre with
    | nil =>
      obtain ⟨rfl, rfl⟩ := List.cons.inj htask
      obtain rfl := Option.some.inj hr
      obtain ⟨e', he', hkept⟩ := hrec
      refine ⟨.armed e ⟨e', he', .inr ⟨m.tasks.length, [.timer e.id e.deadlineUnixMs], ?_, ?_⟩⟩,
        fun _ he => by cases he⟩
      · rw [List.getElem?_append_right (by simp), List.length_set, Nat.sub_self]
        rfl
      · rw [hkept.deadlineUnixMs]
        exact .timer
    | cons b pre =>
      obtain ⟨rfl, rfl⟩ := List.cons.inj htask
      have hb := hpre a List.mem_cons_self
      obtain ⟨-, hacts, hstore, -⟩ := (Sent.of_exec hr hb).frame
      refine ⟨(congrArg (Calling _) (List.append_assoc ..)).mp (.sending e (r.acts ++ pre) (fun c hc => ?_) ?_), by
        rintro e rfl; cases hb⟩
      · rcases List.mem_append.1 hc with hc | hc
        · exact hacts c hc
        · exact hpre c (List.mem_cons_of_mem _ hc)
      · exact (congrArg (fun st => e.Recorded st) hstore).mpr hrec
  | armed e htick =>
    obtain ⟨rfl, rfl⟩ := List.cons.inj htask
    have hafter := htick.step hm hstep
    obtain rfl := Option.some.inj hr
    refine ⟨.done, fun e' he => ?_⟩
    cases he
    exact hafter
  | done => cases htask

/-- **The deadline of a record is armed before its client knows of it.** -/
theorem Timed.step {q : Request} (hd : Timed m p) (hh : Handled q m p) (hm : Sound C m)
    (h : masterStep C m l = some m') : Timed m' p := by
  have hstep := masterStep_step h
  refine ⟨fun task ht => ?_, fun e he => ?_⟩
  · by_cases hl : l = .run p
    · subst hl
      obtain ⟨a, rest, r, htask, hr, rfl⟩ := step_some h
      have hlt : p < m.tasks.length := hh.bound
      replace ht : (m.tasks.set p (r.acts ++ rest) ++ r.spawned)[p]? = some task := ht
      rw [List.getElem?_append_left (by rwa [List.length_set]), List.getElem?_set_self hlt] at ht
      obtain rfl := Option.some.inj ht
      exact ((hd.task _ htask).run hm htask hr).1
    · rcases hstep.other_task hh.bound hh.plain hl ht with ht | rfl
      · exact (hd.task task ht).step hm h
      · exact .done
  · rcases hstep.answers he with he | ⟨rest, hl, ht⟩
    · exact (hd.answers e he).step hm h
    · replace hl : l = .run p := hl
      subst hl
      obtain ⟨a, rest', r, ht', hr, rfl⟩ := step_some h
      obtain ⟨rfl, rfl⟩ := List.cons.inj (Option.some.inj (ht.symm.trans ht'))
      exact ((hd.task _ ht).run hm ht hr).2 e rfl

/-- The request comes in. -/
theorem Timed.request (h : Reach (masterLts C) m) (q : Request) (hq : ∀ id reason, q ≠ .halt id reason) :
    Timed ⟨m.shared, m.tasks ++ [q.task]⟩ m.tasks.length := by
  refine ⟨fun task ht => ?_, fun e he => absurd (reach_answered h _ he) (Nat.lt_irrefl _)⟩
  replace ht : (m.tasks ++ [q.task])[m.tasks.length]? = some task := ht
  rw [List.getElem?_concat_length] at ht
  obtain rfl := Option.some.inj ht
  cases q with
  | submit d => exact .starting rfl
  | halt id reason => exact absurd rfl (hq id reason)

end

end FaultForge.Master
