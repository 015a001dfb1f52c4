import FaultForge.Master.Provenance

/-!
# What the answer of a handler tells (master/src: dispatch.rs, management.rs)

A handler runs between all the other tasks, and its client reads the answer later still. `Handled` is what is known of
a handler from the request on: its acts are about this request, and its answer stays true (`Handled.step`), whatever
becomes of the master: the record that was created is still stored, one that was halted never runs again.
-/
namespace FaultForge.Master

open Lts Tasks

/-- The requests on experiments. -/
inductive Request
  | submit (definition : ExperimentDefinition)
  | halt (id : ExperimentId) (reason : String)

def Request.label : Request → Label
  | .submit definition => .submit definition
  | .halt id reason => .haltRequest id reason

def Request.task : Request → List Act
  | .submit definition => [.start definition]
  | .halt id reason => [.halt id reason]

/-- The record is stored, up to what operations change. -/
def Experiment.Recorded (st : Store) (e : Experiment) : Prop := ∃ e', st.lookup e.id = some e' ∧ e.Kept e'

/-- The answer is true of the store. -/
def AnswerFor (st : Store) : Request → Response → Prop
  | .submit definition, .created e => e.definition = definition ∧ e.Recorded st
  | .submit _, .rejected failures => failures ≠ []
  | .halt _ _, .halted .notFound => True
  | .halt id _, .halted _ => ∃ e, st.lookup id = some e ∧ e.phase ≠ .running
  | _, _ => False

/-- The act is one of the handler of the request. -/
def ActFor (st : Store) (q : Request) : Act → Prop
  | .start definition | .gather definition _ _ _ | .mint definition => q = .submit definition
  | .publish e => q = .submit e.definition
  | .halt id reason => q = .halt id reason
  | .respond r => AnswerFor st q r
  | .toHost _ _ | .enqueue _ _ | .arm _ _ => True
  | _ => False

section
variable {st st' : Store} {q : Request}

theorem Experiment.Recorded.mono (h : st.Onward st') {e : Experiment} (he : e.Recorded st) : e.Recorded st' := by
  obtain ⟨e', hl, hk⟩ := he
  obtain ⟨e'', hl', hon⟩ := h e.id e' hl
  exact ⟨e'', hl', hk.trans hon.kept⟩

theorem AnswerFor.mono (h : st.Onward st') {r : Response} (ha : AnswerFor st q r) : AnswerFor st' q r := by
  have left : ∀ {id : ExperimentId}, (∃ e, st.lookup id = some e ∧ e.phase ≠ .running) →
      ∃ e, st'.lookup id = some e ∧ e.phase ≠ .running := by
    rintro id ⟨e, he, hp⟩
    obtain ⟨e', he', hon⟩ := h id e he
    exact ⟨e', he', hon.left hp⟩
  cases q with
  | submit definition =>
    cases r with
    | created e => exact ⟨ha.1, ha.2.mono h⟩
    | rejected failures => exact ha
    | _ => exact ha.elim
  | halt id reason =>
    cases r with
    | halted outcome =>
      cases outcome with
      | notFound => trivial
      | alreadyConcluded | accepted => exact left ha
    | _ => exact ha.elim

theorem ActFor.mono (h : st.Onward st') {a : Act} (ha : ActFor st q a) : ActFor st' q a := by
  cases a with
  | respond r => exact AnswerFor.mono h ha
  | _ => exact ha

end

/-! ## One act -/

theorem halt_left (e : Experiment) (reason : String) (nowMs : Int) : (e.halt reason nowMs).1.phase ≠ .running := by
  unfold Experiment.halt
  split
  next hc =>
    intro hp
    replace hp : e.phase = .running := hp
    simp [Experiment.isConcluded, hp] at hc
  next hc =>
    refine concludeIfDone_phase ?_
    rw [(fireKillSwitch_fst (by simpa using hc) _).1]
    simp

section
variable {C : Config} {s : Dispatcher} {p : Nat} {q : Request}

/-- The frames of a salvo and of aborts are part of any request. -/
theorem actFor_sends {st : Store} {acts : List Act} (h : ∀ a ∈ acts, ∃ hostname frame, a = .toHost hostname frame) :
    ∀ a ∈ acts, ActFor st q a := by
  intro a ha
  obtain ⟨hostname, frame, rfl⟩ := h a ha
  trivial

theorem sendRunFaults_actFor (st : Store) (e : Experiment) : ∀ a ∈ sendRunFaults C e, ActFor st q a :=
  actFor_sends fun a ha => by
    obtain ⟨i, f, -, -, rfl⟩ := mem_sendRunFaults ha
    exact ⟨_, _, rfl⟩

theorem sendAborts_actFor (st : Store) (aborts : List Target) : ∀ a ∈ sendAborts aborts, ActFor st q a :=
  actFor_sends fun a ha => by
    obtain ⟨t, -, rfl⟩ := mem_sendAborts ha
    exact ⟨_, _, rfl⟩

theorem handleHalt_actFor {id : ExperimentId} {reason : String} {r : Effect Dispatcher Act}
    (h : handleHalt s id reason = some r) : ∀ b ∈ r.acts, ActFor r.shared.store (.halt id reason) b := by
  unfold handleHalt at h
  split at h
  next =>
    obtain rfl := Option.some.inj h
    intro b hb
    obtain rfl := List.mem_singleton.1 hb
    trivial
  next e he =>
    split at h
    next hc =>
      obtain rfl := Option.some.inj h
      intro b hb
      obtain rfl := List.mem_singleton.1 hb
      exact ⟨e, he, fun hp => by simp [Experiment.isConcluded, hp] at hc⟩
    next =>
      obtain rfl := Option.some.inj h
      intro b hb
      rcases List.mem_append.1 hb with hb | hb
      · exact sendAborts_actFor _ _ b hb
      · obtain rfl := List.mem_singleton.1 hb
        refine ⟨(e.apply (.halt reason s.now)).1, ?_, halt_left e reason s.now⟩
        rw [Store.update_lookup, if_pos rfl, he, Option.map_some]

/-- What an act of the handler leaves to do is for the request too. -/
theorem exec_actFor {a : Act} {r : Effect Dispatcher Act} (ha : ActFor s.store q a) (h : exec C s p a = some r) :
    ∀ b ∈ r.acts, ActFor r.shared.store q b := by
  have none : r.acts = [] → ∀ b ∈ r.acts, ActFor r.shared.store q b := fun he b hb => by rw [he] at hb; cases hb
  cases a with
  | start d =>
    obtain rfl := Option.some.inj h
    intro b hb
    obtain rfl := List.mem_singleton.1 hb
    exact ha
  | gather d registry facts hosts =>
    cases hosts with
    | cons host hosts =>
      obtain rfl := Option.some.inj h
      intro b hb
      obtain rfl := List.mem_singleton.1 hb
      exact ha
    | nil =>
      simp only [exec] at h
      split at h <;> obtain rfl := Option.some.inj h <;> intro b hb <;> obtain rfl := List.mem_singleton.1 hb
      · exact ha
      · obtain rfl : q = .submit d := ha
        exact List.cons_ne_nil _ _
  | mint d =>
    obtain rfl := Option.some.inj h
    intro b hb
    obtain rfl := List.mem_singleton.1 hb
    exact ha
  | publish e =>
    obtain rfl := Option.some.inj h
    obtain rfl : q = .submit e.definition := ha
    intro b hb
    rcases List.mem_append.1 hb with hb | hb
    · exact sendRunFaults_actFor _ _ b hb
    · simp only [List.mem_cons, List.not_mem_nil, or_false] at hb
      rcases hb with rfl | rfl
      · trivial
      · exact ⟨rfl, e, AList.lookup_insert _, .refl e⟩
  | halt id reason =>
    obtain rfl : q = .halt id reason := ha
    exact handleHalt_actFor h
  | toHost hostname frame =>
    simp only [exec] at h
    split at h <;> obtain rfl := Option.some.inj h
    · exact none rfl
    · intro b hb
      obtain rfl := List.mem_singleton.1 hb
      trivial
  | enqueue t frame =>
    simp only [exec] at h
    split at h
    next => cases h
    next => obtain rfl := Option.some.inj h; exact none rfl
    next => obtain rfl := Option.some.inj h; exact none rfl
  | arm id deadlineUnixMs => obtain rfl := Option.some.inj h; exact none rfl
  | respond r => obtain rfl := Option.some.inj h; exact none rfl
  | _ => exact ha.elim

/-- Only an answer adds to the answers. -/
theorem ActStep.responses {a : Act} {r : Effect Dispatcher Act} (h : ActStep C s p a r) :
    r.shared.responses = s.responses ∨ ∃ x, a = .respond x ∧ r.shared.responses = s.responses ++ [(p, x)] := by
  cases h with
  | respond x => exact .inr ⟨x, rfl, rfl⟩
  | leave =>
    unfold endSession
    split <;> exact .inl rfl
  | _ => exact .inl rfl

end

/-! ## The targets of a definition -/

/-- A record has an instance for every host that an action of its definition names. -/
theorem reach_covers {e : Experiment} (h : Reach recordLts e) {action : Nat} {d : ActionDefinition} {host : String}
    (hd : e.definition.actions[action]? = some d) (hh : host ∈ d.hosts) :
    ∃ i ∈ e.instances, i.hostname.val = host ∧ i.actionIndex = action := by
  induction h with
  | init hi =>
    obtain ⟨definition, catalog, facts, nowMs, seq, graceSecs, marginMs, hg, hv, rfl⟩ := hi
    replace hd : definition.actions[action]? = some d := hd
    obtain ⟨hsafe, hostname, hp⟩ := ((validate_nil hg hv).each d (List.mem_of_getElem? hd)).parse host hh
    refine ⟨⟨instanceId (.mint nowMs seq) hostname action, hostname, action, .pending, "", nowMs, false⟩, ?_,
      parse_val hsafe hp, rfl⟩
    refine List.mem_flatMap.2 ⟨(d, action), List.mem_zipIdx_iff_getElem?.2 hd, ?_⟩
    exact List.mem_filterMap.2 ⟨host, hh, by rw [mintInstance, hp]⟩
  | @step e e' op _ hs ih =>
    obtain rfl := Option.some.inj hs
    have hkept := e.apply_kept op
    rw [hkept.definition] at hd
    obtain ⟨i, hi, hhost, haction⟩ := ih hd
    obtain ⟨j, hj, hk⟩ := List.mem_map.1 (hkept.keys ▸ List.mem_map_of_mem (f := InstanceRecord.key) hi)
    obtain ⟨-, hk⟩ := Prod.mk.inj hk
    obtain ⟨hjhost, hjaction⟩ := Prod.mk.inj hk
    exact ⟨j, hj, by rw [hjhost, hhost], by rw [hjaction, haction]⟩

/-! ## A handler among the other tasks -/

structure Handled (q : Request) (m : MasterState) (p : Nat) : Prop where
  bound : p < m.tasks.length
  /-- It is no session. -/
  plain : m.shared.streams p = none
  acts : ∀ task, m.tasks[p]? = some task → ∀ a ∈ task, ActFor m.shared.store q a
  answers : ∀ r, (p, r) ∈ m.shared.responses → AnswerFor m.shared.store q r

section
variable {C : Config} {m m' : MasterState} {l : Label} {q : Request} {p : Nat}

/-- What happens to a task that is no session, other than its own acts: it is dropped, or nothing. -/
theorem MasterStep.other_task (h : MasterStep C m l m') (hb : p < m.tasks.length) (hplain : m.shared.streams p = none)
    (hl : l ≠ .run p) {task : List Act} (ht : m'.tasks[p]? = some task) : m.tasks[p]? = some task ∨ task = [] := by
  cases h with
  | @act p' a rest r ht' hact =>
    have hne : p' ≠ p := fun he => hl (by rw [he])
    rcases get_step ht with ⟨rfl, -⟩ | ⟨-, ht⟩ | hm
    · exact absurd rfl hne
    · exact .inl ht
    · rw [List.getElem?_append_left (by rwa [List.length_set]), List.getElem?_set_ne hne] at ht
      exact .inl ht
  | request | connect => exact .inl ((List.getElem?_append_left hb).symm.trans ht)
  | @intake _ p' stream _ hs =>
    have hne : p' ≠ p := fun he => by rw [he, hplain] at hs; cases hs
    exact .inl ((List.getElem?_set_ne hne).symm.trans ht)
  | @drop p' =>
    replace ht : (m.tasks.set p' [])[p]? = some task := ht
    rw [List.getElem?_set] at ht
    by_cases hp : p' = p
    · rw [if_pos hp] at ht
      split at ht
      · exact .inr (Option.some.inj ht).symm
      · cases ht
    · rw [if_neg hp] at ht
      exact .inl ht
  | channel | tick => exact .inl ht

/-- A task that is no session becomes none. -/
theorem MasterStep.plain (h : MasterStep C m l m') (hb : p < m.tasks.length) (hplain : m.shared.streams p = none) :
    m'.shared.streams p = none := by
  cases h with
  | @act p' a rest r ht hact =>
    by_cases hp : p = p'
    · subst hp
      show r.shared.streams p = none
      cases hs : r.shared.streams p with
      | none => rfl
      | some stream =>
        have hsome := hact.streams.2 (by rw [hs]; rfl)
        rw [hplain] at hsome
        cases hsome
    · exact (hact.streams.1 p hp).trans hplain
  | connect => exact (Function.update_of_ne (Nat.ne_of_lt hb) _ _).trans hplain
  | @channel _ t stream taken closed hs =>
    have hne : p ≠ t := fun he => by rw [← he, hplain] at hs; cases hs
    exact (Function.update_of_ne hne _ _).trans hplain
  | _ => exact hplain

/-- A new answer is that of the task that moved. -/
theorem MasterStep.answers (h : MasterStep C m l m') {x : Nat × Response} (hx : x ∈ m'.shared.responses) :
    x ∈ m.shared.responses ∨ ∃ rest, l = .run x.1 ∧ m.tasks[x.1]? = some (.respond x.2 :: rest) := by
  cases h with
  | @act p' a rest r ht hact =>
    rcases hact.responses with he | ⟨y, rfl, he⟩
    · exact .inl (he ▸ hx)
    · replace hx : x ∈ r.shared.responses := hx
      rw [he] at hx
      rcases List.mem_append.1 hx with hx | hx
      · exact .inl hx
      · obtain rfl := List.mem_singleton.1 hx
        exact .inr ⟨rest, rfl, ht⟩
  | _ => exact .inl hx

/-- **What is known of a handler stays known**, and its answer true. -/
theorem Handled.step (hh : Handled q m p) (hm : Sound C m) (h : masterStep C m l = some m') : Handled q m' p := by
  have hon := masterStep_onward hm h
  have hstep := masterStep_step h
  refine ⟨Nat.lt_of_lt_of_le hh.bound (masterStep_length h), hstep.plain hh.bound hh.plain, fun task ht a ha => ?_,
    fun r hr => ?_⟩
  · by_cases hl : l = .run p
    · subst hl
      obtain ⟨b, rest, r, htask, hr, rfl⟩ := step_some h
      replace ht : (m.tasks.set p (r.acts ++ rest) ++ r.spawned)[p]? = some task := ht
      rw [List.getElem?_append_left (by rw [List.length_set]; exact hh.bound), List.getElem?_set_self hh.bound] at ht
      obtain rfl := Option.some.inj ht
      rcases List.mem_append.1 ha with ha | ha
      · exact exec_actFor (hh.acts _ htask b List.mem_cons_self) hr a ha
      · exact (hh.acts _ htask a (List.mem_cons_of_mem _ ha)).mono hon
    · rcases hstep.other_task hh.bound hh.plain hl ht with ht | rfl
      · exact (hh.acts task ht a ha).mono hon
      · cases ha
  · rcases hstep.answers hr with hr | ⟨rest, -, ht⟩
    · exact (hh.answers r hr).mono hon
    · exact AnswerFor.mono hon (hh.acts _ ht _ List.mem_cons_self)

/-! ## The request comes in -/

/-- Only tasks have answered. -/
theorem reach_answered (h : Reach (masterLts C) m) : ∀ x ∈ m.shared.responses, x.1 < m.tasks.length := by
  refine h.inv (P := fun m => ∀ x ∈ m.shared.responses, x.1 < m.tasks.length) ?_ fun m l m' ih hs x hx => ?_
  · rintro m ⟨now, rfl⟩ x hx
    cases hx
  · refine Nat.lt_of_lt_of_le ?_ (masterStep_length hs)
    rcases (masterStep_step hs).answers hx with hx | ⟨rest, -, ht⟩
    · exact ih x hx
    · exact (List.getElem?_eq_some_iff.1 ht).1

theorem request_step (C : Config) (m : MasterState) (q : Request) :
    masterStep C m q.label = some ⟨m.shared, m.tasks ++ [q.task]⟩ := by
  cases q <;> rfl

theorem Handled.request (h : Reach (masterLts C) m) (q : Request) :
    Handled q ⟨m.shared, m.tasks ++ [q.task]⟩ m.tasks.length := by
  refine ⟨by simp, ?_, fun task ht a ha => ?_, fun r hr => ?_⟩
  · cases hs : m.shared.streams m.tasks.length with
    | none => rfl
    | some stream => exact absurd ((reach_routed h).bound _ stream hs) (Nat.lt_irrefl _)
  · replace ht : (m.tasks ++ [q.task])[m.tasks.length]? = some task := ht
    rw [List.getElem?_concat_length] at ht
    obtain rfl := Option.some.inj ht
    cases q <;> (obtain rfl := List.mem_singleton.1 ha; exact rfl)
  · exact absurd (reach_answered h _ hr) (Nat.lt_irrefl _)

end

end FaultForge.Master
