import FaultForge.Agent.Session
import FaultForge.Master.Routing
import FaultForge.Master.Salvo

/-!
# `RegisterAck` and the frames before it

A session goes into the map before its `RegisterAck` goes into the channel (session.rs:146), and a dispatch that finds
it in between puts its frame in front. The agent, which waits for the ack, reads that frame and drops it
(`ack_overtaken`). `register_ack_first` says when this cannot happen: when no dispatch sends on a session whose
`register` call still has its ack to send.

| here | there |
| --- | --- |
| `isControl` | the frames `dispatch` acts on, agent session.rs:356 |
| `discarded` | the await-ack loop, agent session.rs:236 |
| `Registering` | `register` between session.rs:146 and 149 |
-/
namespace FaultForge.System

open Lts Tasks Master

/-! ## Frames -/

def isControl : ServerMessage → Bool
  | .runFault _ | .abortFault _ | .clearTaint => true
  | _ => false

def isAck : Outbound → Bool
  | .ok (.registerAck _ _) => true
  | _ => false

/-- What the await-ack loop drops of a response stream. -/
def discarded : List Outbound → List ServerMessage
  | [] | .err _ :: _ | .ok (.registerAck _ _) :: _ => []
  | .ok f :: rest => f :: discarded rest

/-- On this sequence `RegisterAck` comes before every control frame. -/
def AckFirst (sent : List Outbound) : Prop :=
  ∀ before f after, sent = before ++ .ok f :: after → isControl f = true → ∃ o ∈ before, isAck o = true

theorem AckFirst.append {sent more : List Outbound} (h : AckFirst sent)
    (hm : (∃ o ∈ sent, isAck o = true) ∨ ∀ f, .ok f ∈ more → isControl f = false) : AckFirst (sent ++ more) := by
  intro before f after he hf
  rcases List.append_eq_append_iff.1 he with ⟨mid, rfl, hmid⟩ | ⟨mid, rfl, hmid⟩
  -- the frame is in the new part
  · rcases hm with ⟨o, ho, hack⟩ | hm
    · exact ⟨o, List.mem_append_left _ ho, hack⟩
    · rw [hm f (hmid ▸ List.mem_append_right _ List.mem_cons_self)] at hf
      cases hf
  · cases mid with
    | nil =>
      rcases hm with ⟨o, ho, hack⟩ | hm
      · exact ⟨o, by simpa using ho, hack⟩
      · rw [List.nil_append] at hmid
        rw [hm f (hmid ▸ List.mem_cons_self)] at hf
        cases hf
    | cons o mid =>
      obtain ⟨rfl, -⟩ := List.cons.inj hmid
      exact h before f mid rfl hf

theorem discarded_split {sent : List Outbound} {f : ServerMessage} (h : f ∈ discarded sent) :
    ∃ before after, sent = before ++ .ok f :: after ∧ ∀ o ∈ before, isAck o = false := by
  fun_induction discarded sent with
  | case1 | case2 | case3 => cases h
  | case4 g rest hne ih =>
    rcases List.mem_cons.1 h with rfl | h
    · exact ⟨[], rest, rfl, by simp⟩
    · obtain ⟨before, after, rfl, hb⟩ := ih h
      refine ⟨.ok g :: before, after, rfl, fun o ho => ?_⟩
      rcases List.mem_cons.1 ho with rfl | ho
      · cases g with
        | registerAck a b => exact absurd rfl (hne a b)
        | _ => rfl
      · exact hb o ho

theorem AckFirst.discarded {sent : List Outbound} (h : AckFirst sent) {f : ServerMessage} (hf : f ∈ discarded sent) :
    isControl f = false := by
  obtain ⟨before, after, he, hno⟩ := discarded_split hf
  by_contra hc
  obtain ⟨o, ho, hack⟩ := h before f after he (by simpa using hc)
  rw [hno o ho] at hack
  cases hack

/-- The agent waits for its ack through all of them, and none reaches the supervisor. -/
theorem discarded_unread {n : Agent.Node} (hn : n.pc = .at .awaitAck) (sent : List Outbound) :
    ∃ n', (discarded sent).foldlM (fun n f => Agent.sessionStep n (.recv f)) n = some n' ∧ n'.agent = n.agent ∧
      n'.pc = .at .awaitAck := by
  fun_induction discarded sent generalizing n with
  | case1 | case2 | case3 => exact ⟨n, rfl, rfl, hn⟩
  | case4 f rest hne ih =>
    have hstep : Agent.sessionStep n (.recv f) = some n.received := by
      unfold Agent.sessionStep
      rw [hn]
      cases f with
      | registerAck a b => exact absurd rfl (hne a b)
      | _ => rfl
    obtain ⟨n', hrun, hagent, hpc⟩ := ih (n := n.received) hn
    exact ⟨n', by rw [List.foldlM_cons, hstep]; exact hrun, hagent, hpc⟩

/-! ## The gap -/

/-- Task `t` is a `register` call that still has its ack to send. -/
def Registering (m : MasterState) (t : StreamId) : Prop :=
  ∃ now secs rest, m.tasks[t]? = some (.reply (.registerAck now secs) :: rest)

/-- The channel a dispatch is about to send on. -/
def channelOf : Act → Option StreamId
  | .enqueue t _ | .relayTo t => some t
  | _ => none

/-- No dispatch sends on a session that is in the gap. -/
def OutsideGap (m : MasterState) (l : Label) : Prop :=
  ∀ p a rest t, l = .run p → m.tasks[p]? = some (a :: rest) → channelOf a = some t → m.shared.closed t = false →
    ¬ Registering m t

/-- A stream with a host is in the gap, has had its ack, or has lost its receiving end. -/
def AckDue (m : MasterState) : Prop :=
  ∀ t stream, m.shared.streams t = some stream → stream.hostname ≠ none →
    Registering m t ∨ (∃ o ∈ m.shared.sent t, isAck o = true) ∨ stream.closed = true

section
variable {C : Config} {m m' : MasterState} {l : Label}

theorem sent_log (s s' : Dispatcher) {ds : List Delivery} (h : s'.log = s.log ++ ds) (t : StreamId) :
    s'.sent t = s.sent t ++ ds.filterMap (Delivery.on t) := by
  unfold Dispatcher.sent
  rw [h, List.filterMap_append]

/-- An ack that has gone out stays. -/
theorem acked_log {s s' : Dispatcher} {ds : List Delivery} (h : s'.log = s.log ++ ds) {t : StreamId}
    (ha : ∃ o ∈ s.sent t, isAck o = true) : ∃ o ∈ s'.sent t, isAck o = true := by
  obtain ⟨o, ho, hack⟩ := ha
  exact ⟨o, by rw [sent_log s s' h]; exact List.mem_append_left _ ho, hack⟩

/-- Where a stream with a host comes from, over an act. -/
theorem named_stream {p t : Nat} {a : Act} {r : Effect Dispatcher Act} (h : ActStep C m.shared p a r)
    {stream : Stream} (hs : r.shared.streams t = some stream) (hn : stream.hostname ≠ none) :
    (t = p ∧ ∃ now secs, r.acts = [.reply (.registerAck now secs)]) ∨
      ∃ stream', m.shared.streams t = some stream' ∧ stream'.hostname ≠ none ∧ stream'.closed = stream.closed := by
  cases h with
  | insertSession h epoch now =>
    by_cases ht : t = p
    · exact .inl ⟨ht, _, _, rfl⟩
    · exact .inr ⟨stream, (Function.update_of_ne ht _ _).symm.trans hs, hn, rfl⟩
  | leave =>
    refine .inr ?_
    unfold endSession at hs
    cases hp : m.shared.streams p with
    | none =>
      rw [hp] at hs
      exact ⟨stream, hs, hn, rfl⟩
    | some old =>
      rw [hp] at hs
      by_cases ht : t = p
      · subst ht
        obtain rfl := Option.some.inj ((Function.update_self (f := m.shared.streams) _ _).symm.trans hs)
        exact ⟨old, hp, hn, rfl⟩
      · exact ⟨stream, (Function.update_of_ne ht _ _).symm.trans hs, hn, rfl⟩
  | _ => exact .inr ⟨stream, hs, hn, rfl⟩

/-- The gap of a stream is left by its own task only. -/
theorem Registering.of_get {t : Nat} (h : Registering m t) (hg : m'.tasks[t]? = m.tasks[t]?) : Registering m' t := by
  obtain ⟨now, secs, rest, ht⟩ := h
  exact ⟨now, secs, rest, hg.trans ht⟩

theorem AckDue.act {p : Nat} {a : Act} {rest : List Act} {r : Effect Dispatcher Act} (h : AckDue m)
    (ht : m.tasks[p]? = some (a :: rest)) (hs : ActStep C m.shared p a r) :
    AckDue ⟨r.shared, m.tasks.set p (r.acts ++ rest) ++ r.spawned⟩ := by
  obtain ⟨ds, hlog, hds⟩ := (MasterStep.act ht hs).logged
  have hlt : p < m.tasks.length := (List.getElem?_eq_some_iff.1 ht).1
  intro t stream hstr hn
  rcases named_stream hs hstr hn with ⟨rfl, now, secs, hacts⟩ | ⟨old, hold, hnold, hclosed⟩
  · refine .inl ⟨now, secs, rest, ?_⟩
    rw [List.getElem?_append_left (by rw [List.length_set]; exact hlt), List.getElem?_set_self hlt, hacts]
    rfl
  · rcases h t old hold hnold with hreg | hack | hc
    · by_cases htp : t = p
      · subst htp
        obtain ⟨now, secs, rest', hreg⟩ := hreg
        rw [ht] at hreg
        obtain ⟨rfl, rfl⟩ := List.cons.inj (Option.some.inj hreg)
        -- the ack goes out, or the receiving end is gone
        cases hs with
        | reply r' _ _ =>
          refine .inr (.inl ⟨.ok (.registerAck now secs), ?_, rfl⟩)
          simp [Dispatcher.sent, Delivery.on, Reply.frame]
        | touch htouch => cases htouch
        | notReplied r' hc =>
          refine .inr (.inr ?_)
          unfold Dispatcher.closed at hc
          rw [hold] at hc
          exact hclosed ▸ hc
        | quiet hq => cases hq
      · refine .inl (hreg.of_get ?_)
        obtain ⟨now, secs, rest', hg⟩ := hreg
        have hlt' : t < m.tasks.length := (List.getElem?_eq_some_iff.1 hg).1
        rw [List.getElem?_append_left (by rw [List.length_set]; exact hlt'), List.getElem?_set_ne (Ne.symm htp)]
    · exact .inr (.inl (acked_log hlog hack))
    · exact .inr (.inr (hclosed ▸ hc))

theorem Registering.append {t : Nat} (h : Registering m t) (s : Dispatcher) (task : List Act) :
    Registering ⟨s, m.tasks ++ [task]⟩ t := by
  obtain ⟨now, secs, rest, ht⟩ := h
  exact ⟨now, secs, rest, (List.getElem?_append_left (List.getElem?_eq_some_iff.1 ht).1).trans ht⟩

theorem Registering.set {t p : Nat} {old : List Act} (h : Registering m t) (hp : m.tasks[p]? = some old)
    (hold : ∀ r rest, old ≠ .reply r :: rest) (s : Dispatcher) (task : List Act) :
    Registering ⟨s, m.tasks.set p task⟩ t := by
  obtain ⟨now, secs, rest, ht⟩ := h
  refine ⟨now, secs, rest, (List.getElem?_set_ne fun he => ?_).trans ht⟩
  rw [he, ht] at hp
  exact hold _ _ (Option.some.inj hp).symm

theorem AckDue.keep (h : AckDue m) (hreg : ∀ t, Registering m t → Registering m' t)
    (hlog : ∃ ds, m'.shared.log = m.shared.log ++ ds)
    (hstr : ∀ t stream, m'.shared.streams t = some stream → stream.hostname ≠ none →
      ∃ old, m.shared.streams t = some old ∧ old.hostname ≠ none ∧ (old.closed = true → stream.closed = true)) :
    AckDue m' := by
  intro t stream hs hn
  obtain ⟨old, hold, hnold, hclosed⟩ := hstr t stream hs hn
  obtain ⟨ds, hlog⟩ := hlog
  rcases h t old hold hnold with hr | ha | hc
  · exact .inl (hreg t hr)
  · exact .inr (.inl (acked_log hlog ha))
  · exact .inr (.inr (hclosed hc))

theorem AckDue.step (h : AckDue m) (hs : MasterStep C m l m') : AckDue m' := by
  cases hs with
  | act ht hs => exact h.act ht hs
  | request => exact h.keep (fun t hr => hr.append _ _) ⟨[], by simp⟩ fun t stream hs hn => ⟨stream, hs, hn, id⟩
  | connect =>
    refine h.keep (fun t hr => hr.append _ _) ⟨[], by simp [Dispatcher.setStream]⟩ fun t stream hs hn => ?_
    by_cases ht : t = m.tasks.length
    · subst ht
      obtain rfl := Option.some.inj ((Function.update_self (f := m.shared.streams) _ _).symm.trans hs)
      exact absurd rfl hn
    · exact ⟨stream, (Function.update_of_ne ht _ _).symm.trans hs, hn, id⟩
  | intake _ _ hp =>
    exact h.keep (fun t hr => hr.set hp (by simp) _ _) ⟨[], by simp⟩ fun t stream hs hn => ⟨stream, hs, hn, id⟩
  | drop hp _ haw =>
    refine h.keep (fun t hr => hr.set hp ?_ _ _) ⟨_, rfl⟩ fun t stream hs hn => ⟨stream, hs, hn, id⟩
    rintro r rest rfl
    cases haw
  | @channel _ t old taken closed hold _ hclosed =>
    refine h.keep (fun t hr => hr) ⟨[], by simp [Dispatcher.setStream]⟩ fun t' stream hs hn => ?_
    by_cases ht : t' = t
    · subst ht
      obtain rfl := Option.some.inj ((Function.update_self (f := m.shared.streams) _ _).symm.trans hs)
      exact ⟨old, hold, hn, hclosed⟩
    · exact ⟨stream, (Function.update_of_ne ht _ _).symm.trans hs, hn, id⟩
  | tick => exact h.keep (fun t hr => hr) ⟨[], by simp⟩ fun t stream hs hn => ⟨stream, hs, hn, id⟩

theorem reach_ackDue (h : Reach (masterLts C) m) : AckDue m := by
  refine h.inv (P := AckDue) ?_ fun m l m' ha hs => ha.step (masterStep_step hs)
  rintro m ⟨now, rfl⟩ t stream hs
  cases hs

/-! ## Runs outside the gap -/

/-- A dispatch that sends outside the gap finds the ack sent. -/
theorem OutsideGap.acked (hr : Reach (masterLts C) m) (hg : OutsideGap m l) {p : Nat} {a : Act} {rest : List Act}
    {t : StreamId} {f : ServerMessage} (hl : l = .run p) (ht : m.tasks[p]? = some (a :: rest))
    (hch : channelOf a = some t) (hon : OnStream m.shared t f) (hc : m.shared.closed t = false) :
    ∃ o ∈ m.shared.sent t, isAck o = true := by
  obtain ⟨h, ⟨stream, hs, hh⟩, -⟩ := hon
  rcases reach_ackDue hr t stream hs (by rw [hh]; simp) with hreg | hack | hclosed
  · exact absurd hreg (hg p a rest t hl ht hch hc)
  · exact hack
  · have : m.shared.closed t = stream.closed := by simp [Dispatcher.closed, hs]
    rw [this, hclosed] at hc
    cases hc

theorem ackFirst_step (hr : Reach (masterLts C) m) (h : ∀ t, AckFirst (m.shared.sent t)) (hg : OutsideGap m l)
    (hs : MasterStep C m l m') (t : StreamId) : AckFirst (m'.shared.sent t) := by
  obtain ⟨ds, hlog, hds⟩ := hs.logged
  rw [sent_log _ _ hlog]
  refine (h t).append ?_
  cases hds with
  | @frame p t' f rest hl ht hc =>
    by_cases he : t' = t
    · subst he
      exact .inl (hg.acked hr hl ht rfl ((reach_routed hr).acts.get ht _ List.mem_cons_self) hc)
    · exact .inr (by simp [Delivery.on, he])
  | @relayed p t' rest hl ht hc =>
    by_cases he : t' = t
    · subst he
      exact .inl (hg.acked hr hl ht rfl ((reach_routed hr).acts.get ht _ List.mem_cons_self) hc)
    · exact .inr (by simp [Delivery.on, he])
  | @reply p r rest hl ht =>
    refine .inr fun f hf => ?_
    obtain ⟨d, hd, hon⟩ := List.mem_filterMap.1 hf
    obtain rfl := List.mem_singleton.1 hd
    cases r <;> cases Delivery.on_some hon <;> rfl
  | reject => exact .inr (by simp [Delivery.on])
  | other hno =>
    refine .inr fun f hf => ?_
    obtain ⟨d, hd, hon⟩ := List.mem_filterMap.1 hf
    exact absurd (Delivery.on_some hon ▸ hd) (hno t _)

/-- **`RegisterAck` comes first** in every run that stays outside the gap, and then the await-ack loop drops no control
frame. -/
theorem register_ack_first (C : Config) (m : MasterState) (h : ReachIf (masterLts C) OutsideGap m) (t : StreamId) :
    AckFirst (m.shared.sent t) ∧ ∀ f ∈ discarded (m.shared.sent t), isControl f = false := by
  have key : ∀ t, AckFirst (m.shared.sent t) := by
    refine h.inv (I := fun m => Reach (masterLts C) m) (P := fun m => ∀ t, AckFirst (m.shared.sent t)) (fun _ h => h)
      ?_ fun m l m' hr ha hg hs => ackFirst_step hr ha hg (masterStep_step hs)
    rintro m ⟨now, rfl⟩ t before f after he
    cases before <;> cases he
  exact ⟨key t, fun f hf => (key t).discarded hf⟩

end

/-! ## Two runs -/

def outsideGap (m : MasterState) (l : Label) : Bool :=
  match l with
  | .run p => match m.tasks[p]? with
    | some (a :: _) => match channelOf a with
      | some t => m.shared.closed t || match m.tasks[t]? with
        | some (.reply (.registerAck _ _) :: _) => false
        | _ => true
      | none => true
    | _ => true
  | _ => true

theorem outsideGap_sound (m : MasterState) (l : Label) (h : outsideGap m l = true) : OutsideGap m l := by
  rintro p a rest t rfl ht hch hc ⟨now, secs, rest', hreg⟩
  simp [outsideGap, ht, hch, hc, hreg] at h

/-- Both sessions have their ack before the salvo. -/
def salvoAfter : List Label := published ++ runs 2 4

/-- The salvo finds the session of web-02 in the gap; then the ack goes out. -/
def salvoInGap : List Label :=
  joins 0 "web-01" ++ [.connect, .recv 1 (some (.register "web-02"))] ++ runs 1 3 ++ [.submit sampleDefinition] ++
    runs 2 10 ++ runs 1 1

theorem register_ack_first_salvo :
    ∃ m : MasterState, m.shared.sent 1 = [.ok (.registerAck 1000 10), .ok (.runFault runFault02)] ∧
      AckFirst (m.shared.sent 1) := by
  obtain ⟨m, hm, hp⟩ := reachIf_of_run outsideGap_sound
    (fun m => decide (m.shared.sent 1 = [.ok (.registerAck 1000 10), .ok (.runFault runFault02)]))
    (L := masterLts sampleConfig) (s := sampleMaster) ⟨1000, rfl⟩ salvoAfter (by decide +kernel)
  exact ⟨m, of_decide_eq_true hp, (register_ack_first sampleConfig m hm 1).1⟩

/-- The agent of web-02 reads its `RunFault` while it waits for the ack, and drops it. -/
theorem ack_overtaken : ∃ m, Reach (masterLts sampleConfig) m ∧ ∃ t, ¬ AckFirst (m.shared.sent t) ∧
    ∃ f ∈ discarded (m.shared.sent t), isControl f = true := by
  obtain ⟨m, hm, hp⟩ := reach_of_run
    (fun m => decide (m.shared.sent 1 = [.ok (.runFault runFault02), .ok (.registerAck 1000 10)]))
    (L := masterLts sampleConfig) (s := sampleMaster) ⟨1000, rfl⟩ salvoInGap (by decide +kernel)
  refine ⟨m, hm, 1, fun hfirst => ?_, .runFault runFault02, ?_, rfl⟩
  · rw [of_decide_eq_true hp] at hfirst
    obtain ⟨o, ho, -⟩ := hfirst [] _ _ rfl rfl
    cases ho
  · rw [of_decide_eq_true hp]
    exact List.mem_cons_self

end FaultForge.System
