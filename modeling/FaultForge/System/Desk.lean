import FaultForge.Cli.Wire
import FaultForge.Master.Waited
import FaultForge.System.Account

/-!
# One call of the CLI against the whole system (cli/src/api/mod.rs, master/src/management.rs)

A `Desk` is the system and a call of the CLI: whether its request has reached the master, the answer it got, and what
its polls came back with. Between any two of these anything may happen to the system. Requests and answers can be lost,
an answer can break off in its body, a request that the CLI has given up may still reach the master. The master lives as
long as the call.

What an answer told is still true when the CLI acts on it (`reach_desk`): the record that it was given is stored and has
its deadline armed, and one that it has seen concluded is the same ever after (`Seen`).
-/
namespace FaultForge.System

open Lts Master

/-! ## HTTP -/

/-- What the CLI gets of an answer, its body printed; `cut` when reading the body fails. -/
def received (print : Value → String) (a : HttpAnswer) (cut : Option String) : Cli.Response where
  status := a.status
  body := match cut with
    | some e => .error e
    | none => .ok ((a.body.map print).getD "")

/-- The errors of a request without an answer (`classify_transport`). -/
def unanswered : Cli.ApiError → Bool
  | .connect _ | .timeout | .transport _ => true
  | _ => false

/-- What a call of the CLI sends, and the record that it then polls. -/
structure Call where
  /-- `none` when the body is no definition. -/
  request : Option Request
  follows : Cli.Sent → Option ExperimentId

structure Desk where
  system : Deployment
  /-- The task that handles the request. -/
  handler : Option Nat
  answer : Option Cli.Sent
  /-- Oldest first. -/
  polls : List Cli.Sent

inductive DeskLabel
  | system (label : DeployLabel)
  /-- The request reaches the master. -/
  | deliver
  /-- The answer of the handler reaches the CLI. -/
  | answer (cut : Option String)
  /-- The framework answers in place of a handler: the body is no definition. -/
  | undecodable (body : Except String String)
  /-- The framework or a proxy turns the request away for another reason. -/
  | refuse (r : Cli.Response)
  | fail (e : Cli.ApiError)
  /-- `GET /experiments/<id>`. -/
  | poll (cut : Option String)
  | pollFail (e : Cli.ApiError)

def deskStep (X : Agent.Ext) (C : Master.Config) (print : Value → String) (c : Call) (s : Desk) :
    DeskLabel → Option Desk
  | .system label => (deployStep X C s.system label).map fun system => { s with system }
  | .deliver =>
    match s.handler, c.request with
    | none, some q =>
      (deployStep X C s.system (.master q.label)).map fun system =>
        { s with system, handler := some s.system.master.tasks.length }
    | _, _ => none
  | .answer cut =>
    match s.answer, s.handler with
    | none, some p =>
      (s.system.master.shared.responses.lookup p).map fun r =>
        { s with answer := some (.ok (received print r.answer cut)) }
    | _, _ => none
  | .undecodable body =>
    if s.answer.isNone && c.request.isNone then some { s with answer := some (.ok ⟨422, body⟩) } else none
  | .refuse r =>
    if s.answer.isNone && !r.isSuccess && r.status != 422 then some { s with answer := some (.ok r) } else none
  | .fail e => if s.answer.isNone && unanswered e then some { s with answer := some (.error e) } else none
  | .poll cut =>
    (s.answer.bind c.follows).map fun id =>
      { s with polls := s.polls ++ [.ok (received print (getExperiment s.system.master.shared id) cut)] }
  | .pollFail e =>
    if (s.answer.bind c.follows).isSome && unanswered e then some { s with polls := s.polls ++ [.error e] } else none

def deskLts (X : Agent.Ext) (C : Master.Config) (print : Value → String) (c : Call) : System Desk DeskLabel where
  init s := (deployLts X C).init s.system ∧ s.handler = none ∧ s.answer = none ∧ s.polls = []
  step := deskStep X C print c

/-! ## What was seen of a record -/

/-- The record has been in the store; it still is, and as it was if it was concluded. -/
def Seen (st : Master.Store) (e : Experiment) : Prop :=
  ∃ e', st.lookup e.id = some e' ∧ e.Kept e' ∧ (e.isConcluded = true → e' = e)

theorem Seen.step {C : Master.Config} {m m' : MasterState} {l : Label} {e : Experiment} (hs : Seen m.shared.store e)
    (hm : Sound C m) (h : masterStep C m l = some m') : Seen m'.shared.store e := by
  obtain ⟨e', he, hkept, hsame⟩ := hs
  by_cases hc : e.isConcluded = true
  · obtain rfl := hsame hc
    have hsettled : Master.Settled m.shared.store e'.id e' := ⟨he, hc⟩
    exact ⟨e', (hsettled.step hm (masterStep_step h)).1.stored, .refl _, fun _ => rfl⟩
  · obtain ⟨e'', he', hon⟩ := masterStep_onward hm h e.id e' he
    exact ⟨e'', he', hkept.trans hon.kept, fun h => absurd h hc⟩

/-! ## What a call knows -/

/-- Where an answer has come from. -/
inductive Answered (print : Value → String) (c : Call) (m : MasterState) : Cli.Sent → Prop
  | handler {q : Request} {r : Response} (cut : Option String) : c.request = some q → AnswerFor m.shared.store q r →
      (∀ e, r = .created e → Ticking m e.id) → Answered print c m (.ok (received print r.answer cut))
  | undecodable (body : Except String String) : c.request = none → Answered print c m (.ok ⟨422, body⟩)
  | refused {r : Cli.Response} : r.isSuccess = false → r.status ≠ 422 → Answered print c m (.ok r)
  | failed {e : Cli.ApiError} : unanswered e = true → Answered print c m (.error e)

/-- Where the answer to a poll of `id` has come from. -/
inductive Polled (print : Value → String) (st : Master.Store) (id : Option ExperimentId) : Cli.Sent → Prop
  | missing (cut : Option String) : Polled print st id (.ok (received print ⟨404, none⟩ cut))
  | record {e : Experiment} (cut : Option String) : id = some e.id → Seen st e →
      Polled print st id (.ok (received print ⟨200, some (experimentView e).toJson⟩ cut))
  | failed {e : Cli.ApiError} : unanswered e = true → Polled print st id (.error e)

structure DeskSound (X : Agent.Ext) (C : Master.Config) (print : Value → String) (c : Call) (s : Desk) : Prop where
  system : Reach (deployLts X C) s.system
  handled : ∀ p, s.handler = some p → ∃ q, c.request = some q ∧ Handled q s.system.master p ∧
    ((∀ id reason, q ≠ .halt id reason) → Timed s.system.master p)
  answer : ∀ sent, s.answer = some sent → Answered print c s.system.master sent
  waiting : s.answer = none → s.polls = []
  polls : ∀ sent ∈ s.polls, Polled print s.system.master.shared.store (s.answer.bind c.follows) sent

section
variable {X : Agent.Ext} {C : Master.Config} {print : Value → String} {c : Call} {s s' : Desk}

theorem Answered.step {m m' : MasterState} {l : Label} {sent : Cli.Sent} (ha : Answered print c m sent)
    (hm : Sound C m) (h : masterStep C m l = some m') : Answered print c m' sent := by
  cases ha with
  | handler cut hq ha htick =>
    exact .handler cut hq (ha.mono (masterStep_onward hm h)) fun e he => (htick e he).step hm h
  | undecodable body hq => exact .undecodable body hq
  | refused hs h422 => exact .refused hs h422
  | failed he => exact .failed he

theorem Polled.step {m m' : MasterState} {l : Label} {id : Option ExperimentId} {sent : Cli.Sent}
    (hp : Polled print m.shared.store id sent) (hm : Sound C m) (h : masterStep C m l = some m') :
    Polled print m'.shared.store id sent := by
  cases hp with
  | missing cut => exact .missing cut
  | record cut hid hs => exact .record cut hid (hs.step hm h)
  | failed he => exact .failed he

/-- The system takes a step of its own. -/
theorem DeskSound.move (hs : DeskSound X C print c s) {system : Deployment} {label : DeployLabel}
    (h : deployStep X C s.system label = some system) : DeskSound X C print c { s with system } := by
  have hm := reach_sound (reach_master hs.system)
  rcases (deployStep_cases h).onMaster with he | ⟨l, hl, -⟩
  · exact ⟨.step hs.system h, he ▸ hs.handled, he ▸ hs.answer, hs.waiting, he ▸ hs.polls⟩
  · refine ⟨.step hs.system h, fun p hp => ?_, fun sent ha => (hs.answer sent ha).step hm hl, hs.waiting,
      fun sent ha => (hs.polls sent ha).step hm hl⟩
    obtain ⟨q, hq, hh, hd⟩ := hs.handled p hp
    exact ⟨q, hq, hh.step hm hl, fun hno => (hd hno).step hh hm hl⟩

/-- The first answer of the call. -/
theorem DeskSound.answered (hs : DeskSound X C print c s) (hnone : s.answer = none) {sent : Cli.Sent}
    (ha : Answered print c s.system.master sent) : DeskSound X C print c { s with answer := some sent } := by
  refine ⟨hs.system, hs.handled, fun sent' h => ?_, fun h => (by cases h), fun sent' h => ?_⟩
  · obtain rfl := Option.some.inj h
    exact ha
  · replace h : sent' ∈ s.polls := h
    rw [hs.waiting hnone] at h
    cases h

/-- One more poll. -/
theorem DeskSound.polled (hs : DeskSound X C print c s) (hsome : (s.answer.bind c.follows).isSome = true)
    {sent : Cli.Sent} (hp : Polled print s.system.master.shared.store (s.answer.bind c.follows) sent) :
    DeskSound X C print c { s with polls := s.polls ++ [sent] } := by
  refine ⟨hs.system, hs.handled, hs.answer, fun h => ?_, fun sent' h => ?_⟩
  · replace h : s.answer = none := h
    rw [h] at hsome
    cases hsome
  · rcases List.mem_append.1 h with h | h
    · exact hs.polls sent' h
    · exact List.mem_singleton.1 h ▸ hp

theorem lookup_seen {m : MasterState} (hm : Sound C m) {x : ExperimentId} {e : Experiment}
    (he : m.shared.store.lookup x = some e) : e.id = x ∧ Seen m.shared.store e := by
  obtain ⟨rfl, -⟩ := hm.records x e he
  exact ⟨rfl, e, he, .refl e, fun _ => rfl⟩

theorem DeskSound.step (hs : DeskSound X C print c s) {label : DeskLabel} (h : deskStep X C print c s label = some s') :
    DeskSound X C print c s' := by
  have hm := reach_sound (reach_master hs.system)
  cases label with
  | system label =>
    obtain ⟨system, hsys, rfl⟩ := Option.map_eq_some_iff.1 h
    exact hs.move hsys
  | deliver =>
    simp only [deskStep] at h
    split at h
    next q hnone hq =>
      obtain ⟨system, hsys, rfl⟩ := Option.map_eq_some_iff.1 h
      have hmoved := hs.move hsys
      refine ⟨hmoved.system, fun p hp => ⟨q, hq, ?_⟩, hmoved.answer, hmoved.waiting, hmoved.polls⟩
      obtain rfl := Option.some.inj hp
      have hwired : wired q.label = false := by cases q <;> rfl
      simp only [deployStep, hwired, request_step, Bool.false_eq_true, if_false, Option.map_some] at hsys
      obtain rfl := Option.some.inj hsys
      exact ⟨.request (reach_master hs.system) q, .request (reach_master hs.system) q⟩
    next => cases h
  | answer cut =>
    simp only [deskStep] at h
    split at h
    next p hnone hp =>
      obtain ⟨r, hr, rfl⟩ := Option.map_eq_some_iff.1 h
      obtain ⟨q, hq, hh, hd⟩ := hs.handled p hp
      obtain ⟨before, after, hmem, -⟩ := List.lookup_eq_some_iff.1 hr
      have hr : (p, r) ∈ s.system.master.shared.responses := by rw [hmem]; simp
      have ha := hh.answers r hr
      refine hs.answered hnone (.handler cut hq ha ?_)
      rintro e rfl
      refine (hd ?_).answers e hr
      rintro id reason rfl
      exact ha.elim
    next => cases h
  | undecodable body =>
    simp only [deskStep] at h
    split at h
    next hg =>
      obtain rfl := Option.some.inj h
      simp only [Bool.and_eq_true, Option.isNone_iff_eq_none] at hg
      exact hs.answered hg.1 (.undecodable body hg.2)
    next => cases h
  | refuse r =>
    simp only [deskStep] at h
    split at h
    next hg =>
      obtain rfl := Option.some.inj h
      simp only [Bool.and_eq_true, Option.isNone_iff_eq_none, Bool.not_eq_true', bne_iff_ne] at hg
      exact hs.answered hg.1.1 (.refused hg.1.2 hg.2)
    next => cases h
  | fail e =>
    simp only [deskStep] at h
    split at h
    next hg =>
      obtain rfl := Option.some.inj h
      simp only [Bool.and_eq_true, Option.isNone_iff_eq_none] at hg
      exact hs.answered hg.1 (.failed hg.2)
    next => cases h
  | poll cut =>
    obtain ⟨id, hid, rfl⟩ := Option.map_eq_some_iff.1 h
    refine hs.polled (by rw [hid]; rfl) ?_
    unfold getExperiment
    split
    next => exact .missing cut
    next e he =>
      obtain ⟨rfl, hseen⟩ := lookup_seen hm he
      exact .record cut hid hseen
  | pollFail e =>
    simp only [deskStep] at h
    split at h
    next hg =>
      obtain rfl := Option.some.inj h
      simp only [Bool.and_eq_true] at hg
      exact hs.polled hg.1 (.failed hg.2)
    next => cases h

/-- **What a call was told stays true.** -/
theorem reach_desk (h : Reach (deskLts X C print c) s) : DeskSound X C print c s := by
  refine h.inv (P := DeskSound X C print c) ?_ fun s label s' hs hstep => hs.step hstep
  rintro s ⟨hinit, hhandler, hanswer, hpolls⟩
  refine ⟨.init hinit, fun p hp => ?_, fun sent ha => ?_, fun _ => hpolls, fun sent hp => ?_⟩
  · rw [hhandler] at hp; cases hp
  · rw [hanswer] at ha; cases ha
  · rw [hpolls] at hp; cases hp

end

end FaultForge.System
