import FaultForge.Master.Once

/-!
# Frames and sessions

A stream is given its host once, when its session goes into the map (`Routed.joining`), and keeps it. So whatever looks
up a host finds a stream of that host, and every frame that is sent, or about to be, is on a stream of the host that its
instance id names (`reach_routed`).
-/
namespace FaultForge.Master

open Lts Tasks

/-- Stream `t` was registered by `hostname`. -/
def Serves (s : Dispatcher) (t : StreamId) (hostname : Hostname) : Prop :=
  ∃ stream, s.streams t = some stream ∧ stream.hostname = some hostname

/-- The instance a dispatched frame is about. -/
def instanceOf : ServerMessage → Option String
  | .runFault r => some r.instanceId
  | .abortFault iid => some iid
  | _ => none

/-- The instance id names the host. -/
def Names (iid : String) (hostname : Hostname) : Prop :=
  ∃ nowMs seq action, iid = instanceId (.mint nowMs seq) hostname action

def FrameFor (f : ServerMessage) (hostname : Hostname) : Prop := ∀ iid, instanceOf f = some iid → Names iid hostname

/-- The frame, if it is dispatched, is on a stream of its host. -/
def OnStream (s : Dispatcher) (t : StreamId) (f : ServerMessage) : Prop := ∃ h, Serves s t h ∧ FrameFor f h

def ActRouted (s : Dispatcher) : Act → Prop
  | .toHost h f => FrameFor f h
  | .enqueue t f => OnStream s t f
  | .relayTo t => OnStream s t .clearTaint
  | .publish e => e.Named
  | _ => True

def DeliveryRouted (s : Dispatcher) : Delivery → Prop
  | .enqueued t (.ok f) => Outbound.ownReply (.ok f) = false ∨ f = .clearTaint → OnStream s t f
  | .sessionClosed t f => OnStream s t f
  | .noSession h f => FrameFor f h
  | .enqueued _ (.err _) | .abandoned _ => True

structure Routed (m : MasterState) : Prop where
  bound : ∀ t stream, m.shared.streams t = some stream → t < m.tasks.length
  map : ∀ h t, m.shared.sessions.sender h = some t → Serves m.shared t h
  /-- A task on its way into the map does nothing else, and its stream has no host yet. -/
  joining : ∀ p task a, m.tasks[p]? = some task → a ∈ task → a.joins = true →
    task = [a] ∧ ∃ stream, m.shared.streams p = some stream ∧ stream.hostname = none
  acts : Each (ActRouted m.shared) m.tasks
  records : ∀ x e, m.shared.store.lookup x = some e → e.Named
  log : ∀ d ∈ m.shared.log, DeliveryRouted m.shared d

/-! ## What stays -/

/-- Hosts of streams stay, where they are known. -/
def HostsKept (s s' : Dispatcher) : Prop := ∀ t h, Serves s t h → Serves s' t h

section
variable {s s' : Dispatcher}

theorem HostsKept.of_streams (h : s'.streams = s.streams) : HostsKept s s' := by
  intro t hn ⟨stream, hs, hh⟩
  exact ⟨stream, h ▸ hs, hh⟩

theorem OnStream.mono (h : HostsKept s s') {t : StreamId} {f : ServerMessage} (ho : OnStream s t f) :
    OnStream s' t f := by
  obtain ⟨hn, hs, hf⟩ := ho
  exact ⟨hn, h t hn hs, hf⟩

theorem ActRouted.mono (h : HostsKept s s') {a : Act} (ha : ActRouted s a) : ActRouted s' a := by
  cases a with
  | enqueue | relayTo => exact OnStream.mono h ha
  | _ => exact ha

theorem DeliveryRouted.mono (h : HostsKept s s') {d : Delivery} (hd : DeliveryRouted s d) : DeliveryRouted s' d := by
  cases d with
  | enqueued t o =>
    cases o with
    | ok f => exact fun hf => OnStream.mono h (hd hf)
    | err => trivial
  | sessionClosed => exact OnStream.mono h hd
  | noSession => exact hd
  | abandoned => trivial

theorem plain_routed {a : Act} (h : a.plain = true) (s : Dispatcher) : ActRouted s a := by
  cases a with
  | toHost | enqueue | relayTo | publish => cases h
  | _ => trivial

/-! ## The session map -/

theorem sender_insert (m : SessionMap) (h h' : Hostname) (epoch : Nat) (t : StreamId) :
    (m.insert h epoch t).sender h' = if h' = h then some t else m.sender h' := by
  unfold SessionMap.sender SessionMap.insert
  by_cases he : h' = h
  · rw [if_pos he, he, AList.lookup_insert]
    rfl
  · rw [if_neg he, AList.lookup_insert_ne he]

theorem lookup_removeIfCurrent {s : SessionMap} {h h' : Hostname} {epoch : Nat} {v : Nat × StreamId}
    (hl : (s.removeIfCurrent h epoch).inner.lookup h' = some v) : s.inner.lookup h' = some v := by
  unfold SessionMap.removeIfCurrent at hl
  split at hl
  · split at hl
    · by_cases he : h' = h
      · rw [he] at hl
        simp [AList.lookup_erase] at hl
      · rwa [AList.lookup_erase_ne he] at hl
    · exact hl
  · exact hl

theorem sender_removeIfCurrent {s : SessionMap} {h h' : Hostname} {epoch : Nat} {t : StreamId}
    (hs : (s.removeIfCurrent h epoch).sender h' = some t) : s.sender h' = some t := by
  obtain ⟨v, hv, rfl⟩ := Option.map_eq_some_iff.1 hs
  exact Option.map_eq_some_iff.2 ⟨v, lookup_removeIfCurrent hv, rfl⟩

end

section
variable {C : Config} {m m' : MasterState} {l : Label}

/-! ## Steps -/

theorem endSession_serves (s : Dispatcher) (p : Nat) : HostsKept s (endSession s p) := by
  intro t h ⟨stream, hs, hh⟩
  unfold endSession
  split
  · exact ⟨stream, hs, hh⟩
  next stream' hp =>
    by_cases ht : t = p
    · subst ht
      rw [hp] at hs
      obtain rfl := Option.some.inj hs
      exact ⟨{ stream' with ended := true }, Function.update_self _ _ _, hh⟩
    · exact ⟨stream, (Function.update_of_ne ht _ _).trans hs, hh⟩

theorem endSession_sender {s : Dispatcher} {p : Nat} {h : Hostname} {t : StreamId}
    (hs : (endSession s p).sessions.sender h = some t) : s.sessions.sender h = some t := by
  unfold endSession at hs
  split at hs
  · exact hs
  · simp only at hs
    split at hs
    · exact sender_removeIfCurrent hs
    · exact hs

theorem setStream_serves {s : Dispatcher} {t : StreamId} {stream stream' : Stream} (hs : s.streams t = some stream)
    (hh : stream'.hostname = stream.hostname) : HostsKept s (s.setStream t stream') := by
  intro t' h ⟨st, hst, hsh⟩
  by_cases ht : t' = t
  · subst ht
    rw [hs] at hst
    obtain rfl := Option.some.inj hst
    exact ⟨stream', Function.update_self _ _ _, hh.trans hsh⟩
  · exact ⟨st, (Function.update_of_ne ht _ _).trans hst, hsh⟩

/-- A stream that joins had no host, so none is lost. -/
theorem insertSession_serves {s : Dispatcher} {p : Nat} {stream : Stream} (hs : s.streams p = some stream)
    (hn : stream.hostname = none) (h : Hostname) (epoch : Nat) :
    HostsKept s (insertSession s p h epoch) ∧ Serves (insertSession s p h epoch) p h := by
  have hself : (insertSession s p h epoch).streams p =
      some { stream with hostname := some h, epoch := some epoch } := by
    simp [insertSession, hs]
  refine ⟨fun t h' hserves => ?_, ⟨_, hself, rfl⟩⟩
  obtain ⟨st, hst, hsh⟩ := hserves
  by_cases ht : t = p
  · subst ht
    rw [hs] at hst
    obtain rfl := Option.some.inj hst
    rw [hn] at hsh
    cases hsh
  · exact ⟨st, (Function.update_of_ne ht _ _).trans hst, hsh⟩

theorem Experiment.Named.names {e : Experiment} (h : e.Named) {i : InstanceRecord} (hi : i ∈ e.instances) :
    Names i.instanceId i.hostname := by
  obtain ⟨nowMs, seq, hid⟩ := h.minted
  exact ⟨nowMs, seq, i.actionIndex, hid ▸ h.spelled i hi⟩

theorem sendRunFaults_routed {e : Experiment} (h : e.Named) (s : Dispatcher) :
    ∀ a ∈ sendRunFaults C e, ActRouted s a := by
  intro a ha
  obtain ⟨i, f, hi, hf, rfl⟩ := mem_sendRunFaults ha
  intro iid hiid
  obtain rfl := Option.some.inj hiid
  rw [runFault_instanceId hf]
  exact h.names hi

/-- What the operations on a store hand over is addressed to the right hosts. -/
theorem updateAll_routed {st : Store} (h : ∀ x e, st.lookup x = some e → e.Named ∧ e.Consistent ∧ e.IdsDistinct)
    (op : RecordOp) (ids : List ExperimentId) :
    (∀ x e, (st.updateAll op ids).1.lookup x = some e → e.Named) ∧
      ∀ t ∈ (st.updateAll op ids).2, Names t.2 t.1 := by
  have key := Store.updateAll_inv op
    (P := fun st acc => (∀ x e, st.lookup x = some e → e.Named ∧ e.Consistent ∧ e.IdsDistinct) ∧
      ∀ t ∈ acc, Names t.2 t.1) ?_ [] ⟨h, by simp⟩ ids
  · exact ⟨fun x e he => (key.1 x e he).1, by simpa using key.2⟩
  · rintro st acc id ⟨hst, hacc⟩
    constructor
    · intro x e he
      refine Store.update_each (P := fun _ e => e.Named ∧ e.Consistent ∧ e.IdsDistinct) ?_ hst id he
      rintro x e ⟨hn, hc, hd⟩
      exact ⟨(e.apply_kept op).named hn, hc.apply hd op⟩
    · intro t ht
      rcases List.mem_append.1 ht with ht | ht
      · exact hacc t ht
      · unfold Store.update at ht
        cases hl : st.lookup id with
        | none => rw [hl] at ht; cases ht
        | some e =>
          rw [hl] at ht
          obtain ⟨hn, hc, hd⟩ := hst id e hl
          obtain ⟨i, hi, rfl⟩ := List.mem_map.1 (hc.target hd ht).1
          exact hn.names hi

/-- What an act leaves of the streams: all others, and its own one but for the end of a join. -/
theorem ActStep.streams {p : Nat} {a : Act} {r : Effect Dispatcher Act} (h : ActStep C m.shared p a r) :
    (∀ t, t ≠ p → r.shared.streams t = m.shared.streams t) ∧
      ((r.shared.streams p).isSome = true → (m.shared.streams p).isSome = true) := by
  cases h with
  | insertSession h epoch now =>
    exact ⟨fun t ht => Function.update_of_ne ht _ _, by simp [FaultForge.Master.insertSession]⟩
  | leave =>
    unfold endSession
    split
    next => exact ⟨fun _ _ => rfl, id⟩
    next stream hp => exact ⟨fun t ht => Function.update_of_ne ht _ _, by simp [hp]⟩
  | _ => exact ⟨fun _ _ => rfl, id⟩

theorem ActStep.hosts {p : Nat} {a : Act} {r : Effect Dispatcher Act} (h : ActStep C m.shared p a r)
    (hj : a.joins = true → ∃ stream, m.shared.streams p = some stream ∧ stream.hostname = none) :
    HostsKept m.shared r.shared := by
  cases h with
  | insertSession h epoch now =>
    obtain ⟨stream, hs, hn⟩ := hj rfl
    exact (insertSession_serves hs hn h epoch).1
  | leave => exact endSession_serves m.shared p
  | _ => exact .of_streams rfl

/-- A task that joins goes on joining, and nothing else begins to. -/
theorem ActStep.joins {p : Nat} {a : Act} {r : Effect Dispatcher Act} (h : ActStep C m.shared p a r) {b : Act}
    (hb : b ∈ r.acts) (hj : b.joins = true) :
    a.joins = true ∧ r.acts = [b] ∧ r.shared.streams = m.shared.streams := by
  cases h with
  | registerAgent h now => exact ⟨rfl, by rw [List.mem_singleton.1 hb], rfl⟩
  | fetchEpoch h now => exact ⟨rfl, by rw [List.mem_singleton.1 hb], rfl⟩
  | publish e =>
    rcases List.mem_append.1 hb with hb | hb
    · obtain ⟨i, f, -, -, rfl⟩ := mem_sendRunFaults hb
      cases hj
    · simp only [List.mem_cons, List.not_mem_nil, or_false] at hb
      rcases hb with rfl | rfl <;> cases hj
  | touch htouch hacts =>
    rcases List.mem_append.1 hb with hb | hb
    · obtain ⟨t, -, rfl⟩ := mem_sendAborts hb
      cases hj
    · obtain ⟨r, rfl⟩ := hacts b hb
      cases hj
  | setTaint h tainted reason ts =>
    cases tainted with
    | true => obtain rfl := List.mem_singleton.1 hb; cases hj
    | false => cases hb
  | quiet hq hacts hno => rw [hno b hb] at hj; cases hj
  | noSession | gone | enqueued | arm | reply | leave | respond => cases hb
  | _ => obtain rfl := List.mem_singleton.1 hb; cases hj

/-- What an act leaves to do is routed. -/
theorem ActStep.routed {p : Nat} {a : Act} {r : Effect Dispatcher Act} (hr : Routed m) (hm : Sound C m)
    (h : ActStep C m.shared p a r) (ha : ActRouted m.shared a) (hs : ActSound C m.shared a) :
    (∀ b ∈ r.acts, ActRouted r.shared b) ∧ Each (ActRouted r.shared) r.spawned := by
  have hnil : Each (ActRouted r.shared) [] := fun _ ht => by cases ht
  cases h with
  | mint d =>
    refine ⟨fun b hb => ?_, hnil⟩
    obtain rfl := List.mem_singleton.1 hb
    exact mint_named _ _ _ _ _ _
  | publish e =>
    refine ⟨fun b hb => ?_, hnil⟩
    rcases List.mem_append.1 hb with hb | hb
    · exact sendRunFaults_routed ha _ b hb
    · simp only [List.mem_cons, List.not_mem_nil, or_false] at hb
      rcases hb with rfl | rfl <;> trivial
  | @touch _ op ids acts htouch hacts =>
    refine ⟨fun b hb => ?_, hnil⟩
    rcases List.mem_append.1 hb with hb | hb
    · obtain ⟨t, ht, rfl⟩ := mem_sendAborts hb
      have hall := updateAll_routed (fun x e he => ⟨hr.records x e he,
        reach_consistent (hm.records x e he).2.1⟩) op ids
      intro iid hiid
      obtain rfl := Option.some.inj hiid
      exact hall.2 t ht
    · obtain ⟨r, rfl⟩ := hacts b hb
      trivial
  | found h f t hsend =>
    refine ⟨fun b hb => ?_, hnil⟩
    obtain rfl := List.mem_singleton.1 hb
    exact ⟨h, hr.map h t hsend, ha⟩
  | relay h t hsend =>
    refine ⟨fun b hb => ?_, hnil⟩
    obtain rfl := List.mem_singleton.1 hb
    exact ⟨h, hr.map h t hsend, fun iid hiid => by cases hiid⟩
  | arm id dl =>
    refine ⟨by simp, fun task ht b hb => ?_⟩
    obtain rfl := List.mem_singleton.1 ht
    obtain rfl := List.mem_singleton.1 hb
    trivial
  | setTaint h tainted reason ts => cases tainted <;> exact ⟨by simp [ActRouted], hnil⟩
  | quiet hq hacts => exact ⟨fun b hb => plain_routed (hacts b hb) _, hnil⟩
  | _ => exact ⟨by simp [ActRouted], hnil⟩

/-- Every host that is looked up leads to a stream of that host, after an act as before it. -/
theorem ActStep.map {p : Nat} {a : Act} {r : Effect Dispatcher Act} (hr : Routed m) (h : ActStep C m.shared p a r)
    (hj : a.joins = true → ∃ stream, m.shared.streams p = some stream ∧ stream.hostname = none) {h' : Hostname}
    {t : StreamId} (hs : r.shared.sessions.sender h' = some t) : Serves r.shared t h' := by
  have hkept := h.hosts hj
  cases h with
  | insertSession hn epoch now =>
    obtain ⟨stream, hp, hnone⟩ := hj rfl
    replace hs : (m.shared.sessions.insert hn epoch p).sender h' = some t := hs
    rw [sender_insert] at hs
    by_cases he : h' = hn
    · rw [if_pos he] at hs
      obtain rfl := Option.some.inj hs
      rw [he]
      exact (insertSession_serves hp hnone hn epoch).2
    · rw [if_neg he] at hs
      exact hkept t h' (hr.map h' t hs)
  | leave => exact hkept t h' (hr.map h' t (endSession_sender hs))
  | _ => exact hkept t h' (hr.map h' t hs)

theorem ActStep.records_named {p : Nat} {a : Act} {r : Effect Dispatcher Act} (hr : Routed m) (hm : Sound C m)
    (h : ActStep C m.shared p a r) (ha : ActRouted m.shared a) {x : ExperimentId} {e : Experiment}
    (he : r.shared.store.lookup x = some e) : e.Named := by
  cases h with
  | publish e₀ =>
    by_cases hx : x = e₀.id
    · subst hx
      rw [AList.lookup_insert] at he
      obtain rfl := Option.some.inj he
      exact ha
    · rw [AList.lookup_insert_ne hx] at he
      exact hr.records x e he
  | @touch _ op ids =>
    exact (updateAll_routed (fun x e he => ⟨hr.records x e he,
      reach_consistent (hm.records x e he).2.1⟩) op ids).1 x e he
  | leave => exact hr.records x e ((endSession_fields m.shared p).1 ▸ he)
  | _ => exact hr.records x e he

/-- What an act logs is routed. -/
theorem ActStep.log_routed {p : Nat} {a : Act} {r : Effect Dispatcher Act} (hr : Routed m)
    (h : ActStep C m.shared p a r) (hk : HostsKept m.shared r.shared) (ha : ActRouted m.shared a) :
    ∀ d ∈ r.shared.log, DeliveryRouted r.shared d := by
  have hold : ∀ d ∈ m.shared.log, DeliveryRouted r.shared d := fun d hd => (hr.log d hd).mono hk
  have hnew : ∀ {d}, DeliveryRouted r.shared d → ∀ d' ∈ m.shared.log ++ [d], DeliveryRouted r.shared d' := by
    intro d hd d' hd'
    rcases List.mem_append.1 hd' with hd' | hd'
    · exact hold d' hd'
    · exact List.mem_singleton.1 hd' ▸ hd
  cases h with
  | noSession h f _ => exact hnew ha
  | gone t f _ => exact hnew (OnStream.mono hk ha)
  | enqueued t f _ _ => exact hnew fun _ => OnStream.mono hk ha
  | relayed t _ _ => exact hnew fun _ => OnStream.mono hk ha
  | reply r' _ _ => exact hnew fun hf => by cases r' <;> rcases hf with hf | hf <;> cases hf
  | reject status _ _ => exact hnew trivial
  | leave => exact fun d hd => hold d ((endSession_fields m.shared p).2.1 ▸ hd)
  | _ => exact hold

/-- The tasks that join, after an act. -/
theorem ActStep.joining {p : Nat} {a : Act} {rest : List Act} {r : Effect Dispatcher Act} (hr : Routed m)
    (ht : m.tasks[p]? = some (a :: rest)) (h : ActStep C m.shared p a r) :
    ∀ q task b, (m.tasks.set p (r.acts ++ rest) ++ r.spawned)[q]? = some task → b ∈ task → b.joins = true →
      task = [b] ∧ ∃ stream, r.shared.streams q = some stream ∧ stream.hostname = none := by
  intro q task b hq hb hj
  rcases get_step hq with ⟨rfl, rfl⟩ | ⟨hne, hq⟩ | hq
  · rcases List.mem_append.1 hb with hb | hb
    · obtain ⟨ha, hacts, hst⟩ := h.joins hb hj
      obtain ⟨hone, stream, hs, hn⟩ := hr.joining q _ a ht List.mem_cons_self ha
      obtain rfl : rest = [] := (List.cons.inj hone).2
      exact ⟨by rw [hacts, List.append_nil], stream, by rw [hst]; exact hs, hn⟩
    · obtain ⟨hone, -⟩ := hr.joining q _ b ht (List.mem_cons_of_mem _ hb) hj
      obtain ⟨rfl, rfl⟩ := List.cons.inj hone
      cases hb
  · obtain ⟨hone, stream, hs, hn⟩ := hr.joining q task b hq hb hj
    exact ⟨hone, stream, (h.streams.1 q hne).trans hs, hn⟩
  · cases h with
    | arm id dl =>
      obtain rfl := List.mem_singleton.1 hq
      obtain rfl := List.mem_singleton.1 hb
      cases hj
    | _ => cases hq

theorem Routed.act {p : Nat} {a : Act} {rest : List Act} {r : Effect Dispatcher Act} (hr : Routed m) (hm : Sound C m)
    (ht : m.tasks[p]? = some (a :: rest)) (h : ActStep C m.shared p a r) :
    Routed ⟨r.shared, m.tasks.set p (r.acts ++ rest) ++ r.spawned⟩ := by
  have ha : ActRouted m.shared a := hr.acts.get ht a List.mem_cons_self
  have hj : a.joins = true → ∃ stream, m.shared.streams p = some stream ∧ stream.hostname = none :=
    fun hj => (hr.joining p _ a ht List.mem_cons_self hj).2
  have hk := h.hosts hj
  obtain ⟨hacts, hspawned⟩ := h.routed hr hm ha (hm.acts.get ht a List.mem_cons_self)
  refine ⟨fun t stream hs => ?_, fun h' t => h.map hr hj, h.joining hr ht,
    hr.acts.step ht (fun _ hb => hb.mono hk) hacts hspawned, fun x e => h.records_named hr hm ha, h.log_routed hr hk ha⟩
  have hold : (m.shared.streams t).isSome = true := by
    by_cases he : t = p
    · subst he
      exact h.streams.2 (by rw [hs]; rfl)
    · rw [← h.streams.1 t he, hs]
      rfl
  obtain ⟨stream', hs'⟩ := Option.isSome_iff_exists.1 hold
  rw [List.length_append, List.length_set]
  exact Nat.lt_of_lt_of_le (hr.bound t stream' hs') (Nat.le_add_right _ _)

/-- A change of the streams alone, with new tasks that are only opened. -/
theorem Routed.channel (hr : Routed m) {s : Dispatcher} (hk : HostsKept m.shared s)
    (hb : ∀ t stream, s.streams t = some stream → t < m.tasks.length)
    (hn : ∀ t stream, m.shared.streams t = some stream → stream.hostname = none →
      ∃ stream', s.streams t = some stream' ∧ stream'.hostname = none)
    (h1 : s.sessions = m.shared.sessions) (h2 : s.store = m.shared.store) (h3 : s.log = m.shared.log) :
    Routed ⟨s, m.tasks⟩ := by
  refine ⟨hb, fun h t hs => hk t h (hr.map h t (h1 ▸ hs)), fun p task a ht ha hj => ?_,
    hr.acts.mono fun _ ha => ha.mono hk,
    fun x e he => hr.records x e (h2 ▸ he), fun d hd => (hr.log d (h3 ▸ hd)).mono hk⟩
  obtain ⟨hone, stream, hs, hnone⟩ := hr.joining p task a ht ha hj
  exact ⟨hone, hn p stream hs hnone⟩

theorem opens_routed {task : List Act} (h : ∀ a ∈ task, a.opens = true) (s : Dispatcher) :
    ∀ a ∈ task, ActRouted s a := fun a ha => plain_routed (Act.plain_of_opens (h a ha)) s

theorem Routed.step (hr : Routed m) (hm : Sound C m) (h : MasterStep C m l m') : Routed m' := by
  cases h with
  | act ht hs => exact hr.act hm ht hs
  | @request _ task ho hno =>
    refine ⟨fun t stream hs => ?_, hr.map, fun p task' a ht ha hj => ?_, hr.acts.append fun _ ht => ?_, hr.records,
      hr.log⟩
    · rw [List.length_append]
      exact Nat.lt_of_lt_of_le (hr.bound t stream hs) (Nat.le_add_right _ _)
    · rw [List.getElem?_append] at ht
      split at ht
      · exact hr.joining p task' a ht ha hj
      · obtain rfl := List.mem_singleton.1 (List.mem_of_getElem? ht)
        rw [hno a ha] at hj
        cases hj
    · obtain rfl := List.mem_singleton.1 ht
      exact opens_routed ho m.shared
  | connect =>
    have hnew : m.shared.streams m.tasks.length = none := by
      cases hs : m.shared.streams m.tasks.length with
      | none => rfl
      | some stream => exact absurd (hr.bound _ stream hs) (Nat.lt_irrefl _)
    have hold : ∀ t stream, m.shared.streams t = some stream →
        (m.shared.setStream m.tasks.length .new).streams t = some stream := by
      intro t stream hs
      exact (Function.update_of_ne (fun he => by rw [he, hnew] at hs; cases hs) _ _).trans hs
    have hk : HostsKept m.shared (m.shared.setStream m.tasks.length .new) :=
      fun t h ⟨stream, hs, hh⟩ => ⟨stream, hold t stream hs, hh⟩
    refine ⟨fun t stream hs => ?_, fun h t hs => hk t h (hr.map h t hs), fun p task a ht ha hj => ?_,
      (hr.acts.mono fun _ ha => ha.mono hk).append (by simp [Each]), hr.records, fun d hd => (hr.log d hd).mono hk⟩
    · rw [List.length_append, List.length_singleton]
      by_cases ht : t = m.tasks.length
      · exact ht ▸ Nat.lt_succ_self _
      · exact Nat.lt_succ_of_lt (hr.bound t stream ((Function.update_of_ne ht _ _).symm.trans hs))
    · rw [List.getElem?_append] at ht
      split at ht
      · obtain ⟨hone, stream, hs, hn⟩ := hr.joining p task a ht ha hj
        exact ⟨hone, stream, hold p stream hs, hn⟩
      · obtain rfl := List.mem_singleton.1 (List.mem_of_getElem? ht)
        cases ha
  | @intake _ p stream task hs hover ht ho hj =>
    refine ⟨fun t stream hs => ?_, hr.map, fun q task' a hq ha hja => ?_, hr.acts.set (opens_routed ho m.shared),
      hr.records, hr.log⟩
    · rw [List.length_set]
      exact hr.bound t stream hs
    · rw [← List.append_nil (m.tasks.set p _)] at hq
      rcases get_step hq with ⟨rfl, rfl⟩ | ⟨-, hq⟩ | hq
      · obtain ⟨hone, hn⟩ := hj a ha hja
        exact ⟨hone, stream, hs, hn⟩
      · exact hr.joining q task' a hq ha hja
      · cases hq
  | @drop p task ht hany =>
    refine ⟨fun t stream hs => ?_, hr.map, fun q task' a hq ha hja => ?_, hr.acts.set (by simp), hr.records,
      fun d hd => ?_⟩
    · rw [List.length_set]
      exact hr.bound t stream hs
    · rw [← List.append_nil (m.tasks.set p _)] at hq
      rcases get_step hq with ⟨rfl, rfl⟩ | ⟨-, hq⟩ | hq
      · cases ha
      · exact hr.joining q task' a hq ha hja
      · cases hq
    · rcases List.mem_append.1 hd with hd | hd
      · exact hr.log d hd
      · obtain ⟨f, -, rfl⟩ := List.mem_map.1 hd
        trivial
  | @channel _ t stream taken closed hs _ _ =>
    refine hr.channel (setStream_serves hs rfl) (fun t' stream' hs' => ?_) (fun t' stream' hs' hn => ?_) rfl rfl rfl
    · by_cases ht : t' = t
      · exact ht ▸ hr.bound t stream hs
      · exact hr.bound t' stream' ((Function.update_of_ne ht _ _).symm.trans hs')
    · by_cases ht : t' = t
      · subst ht
        rw [hs] at hs'
        obtain rfl := Option.some.inj hs'
        exact ⟨{ stream with taken, closed }, Function.update_self _ _ _, hn⟩
      · exact ⟨stream', (Function.update_of_ne ht _ _).trans hs', hn⟩
  | tick ms => exact hr.channel (.of_streams rfl) hr.bound (fun t stream hs hn => ⟨stream, hs, hn⟩) rfl rfl rfl

/-- **Every frame goes to its host.** -/
theorem reach_routed (h : Reach (masterLts C) m) : Routed m := by
  refine h.inv_of (I := Sound C) (P := Routed) (fun _ => reach_sound) ?_
    fun m l m' hm hr hs => hr.step hm (masterStep_step hs)
  rintro m ⟨now, rfl⟩
  refine ⟨fun t stream hs => ?_, fun h t hs => ?_, fun p task a ht => ?_, fun task ht => ?_, fun x e he => ?_,
    fun d hd => ?_⟩
  · cases hs
  · cases hs
  · cases ht
  · cases ht
  · cases he
  · cases hd

end

end FaultForge.Master
