import FaultForge.Master.Routing

/-!
# The newest live stream (master/src: sessions.rs, session.rs)

A run is watched for the two things that concern the session map: a stream is inserted for a host
(`Session::register`, session.rs:134-153), and a stream closes (the end of `run`, session.rs:253-258). What the map then
answers is a function of this history alone (`current`), although inserts and closes of several streams and hosts may
come in any order, and an insert takes its epoch before it takes the lock (sessions.rs:38-44).

* `Seats` — the invariant: epochs are held by one stream each, and an entry belongs to the stream that holds its epoch.
* `session_map_newest` — what `sender` and `is_connected` answer, a superseded close, and the map when all are closed.
-/
namespace FaultForge.Master

open Lts Tasks

/-! ## What is watched -/

inductive SessionEvent
  | inserted (hostname : Hostname) (t : StreamId)
  | closed (t : StreamId)
deriving DecidableEq

/-- What a step does to the session map. -/
def sessionEvent (m : MasterState) : Label → Option SessionEvent
  | .run p =>
    match m.tasks[p]? with
    | some (.insertSession hostname _ _ :: _) => some (.inserted hostname p)
    | some (.leave :: _) => some (.closed p)
    | _ => none
  | _ => none

def SessionEvent.insertedFor (h : Hostname) : SessionEvent → Option StreamId
  | .inserted h' t => if h' = h then some t else none
  | .closed _ => none

/-- The stream that was inserted last for `h` (events are newest first). -/
def lastInsert (seen : List SessionEvent) (h : Hostname) : Option StreamId := seen.findSome? (·.insertedFor h)

/-- The last inserted stream, if it has not closed. -/
def current (seen : List SessionEvent) (h : Hostname) : Option StreamId :=
  (lastInsert seen h).filter fun t => SessionEvent.closed t ∉ seen

def sessionsLts (C : Config) : System (Watched MasterState (List SessionEvent)) Label :=
  watch (masterLts C) (fun _ => []) fun m seen l _ => (sessionEvent m l).toList ++ seen

section
variable {seen : List SessionEvent} {h h' : Hostname} {t t' : StreamId}

@[simp] theorem lastInsert_inserted :
    lastInsert (.inserted h t :: seen) h' = if h = h' then some t else lastInsert seen h' := by
  unfold lastInsert
  rw [List.findSome?_cons]
  by_cases he : h = h' <;> simp [SessionEvent.insertedFor, he]

@[simp] theorem lastInsert_closed : lastInsert (.closed t :: seen) h = lastInsert seen h := rfl

theorem current_eq_some : current seen h = some t ↔ lastInsert seen h = some t ∧ SessionEvent.closed t ∉ seen := by
  simp [current, Option.filter_eq_some_iff]

end

/-! ## Who holds an epoch -/

/-- The act is still to be done by task `p`. -/
def Pends (tasks : List (List Act)) (p : Nat) (a : Act) : Prop := ∃ task, tasks[p]? = some task ∧ a ∈ task

/-- Epoch `e` belongs to stream `t`: it has been inserted with it, or is about to be. -/
def HoldsEpoch (m : MasterState) (t : StreamId) (e : Nat) : Prop :=
  (∃ stream, m.shared.streams t = some stream ∧ stream.epoch = some e) ∨
    ∃ h now, Pends m.tasks t (.insertSession h e now)

/-- The same but for its channel. -/
def Stream.Alike (s s' : Stream) : Prop := s'.hostname = s.hostname ∧ s'.epoch = s.epoch ∧ s'.ended = s.ended

/-- The session map after the events `seen`. -/
structure Seats (m : MasterState) (seen : List SessionEvent) : Prop where
  sender : ∀ h, m.shared.sessions.sender h = current seen h
  /-- An entry belongs to the stream that holds its epoch. -/
  entry : ∀ h e t, m.shared.sessions.inner.lookup h = some (e, t) →
    ∃ stream, m.shared.streams t = some stream ∧ stream.hostname = some h ∧ stream.epoch = some e
  ended : ∀ t stream, m.shared.streams t = some stream → (stream.ended = true ↔ SessionEvent.closed t ∈ seen)
  closed : ∀ t, SessionEvent.closed t ∈ seen → t < m.tasks.length
  /-- A task on its way into the map has a stream that has not closed. -/
  live : ∀ p a, Pends m.tasks p a → a.joins = true →
    ∃ stream, m.shared.streams p = some stream ∧ stream.ended = false
  fresh : ∀ t e, HoldsEpoch m t e → e < m.shared.sessions.epochs
  apart : ∀ t t' e, HoldsEpoch m t e → HoldsEpoch m t' e → t = t'

/-! ## Steps that leave the map alone -/

section
variable {C : Config} {m m' : MasterState} {l : Label} {seen : List SessionEvent}

/-- The steps that only change channels, and what other tasks do. -/
theorem Seats.keep (hs : Seats m seen) (hmap : m'.shared.sessions = m.shared.sessions)
    (hlen : m.tasks.length ≤ m'.tasks.length)
    (hold : ∀ t stream, m.shared.streams t = some stream →
      ∃ stream', m'.shared.streams t = some stream' ∧ stream.Alike stream')
    (hnew : ∀ t stream', m'.shared.streams t = some stream' →
      (∃ stream, m.shared.streams t = some stream ∧ stream.Alike stream') ∨
        (stream' = .new ∧ m.tasks.length ≤ t))
    (hjoin : ∀ p a, Pends m'.tasks p a → a.joins = true →
      ∃ stream, m.shared.streams p = some stream ∧ stream.ended = false)
    (hinsert : ∀ p h e now, Pends m'.tasks p (.insertSession h e now) → Pends m.tasks p (.insertSession h e now)) :
    Seats m' seen := by
  have hholds : ∀ t e, HoldsEpoch m' t e → HoldsEpoch m t e := by
    rintro t e (⟨stream', hs', he⟩ | ⟨h, now, hp⟩)
    · rcases hnew t stream' hs' with ⟨stream, hst, -, hep, -⟩ | ⟨rfl, -⟩
      · exact .inl ⟨stream, hst, hep ▸ he⟩
      · cases he
    · exact .inr ⟨h, now, hinsert t h e now hp⟩
  refine ⟨fun h => by rw [hmap]; exact hs.sender h, fun h e t hl => ?_, fun t stream' hs' => ?_,
    fun t hc => Nat.lt_of_lt_of_le (hs.closed t hc) hlen, fun p a hp hj => ?_, fun t e ht => ?_,
    fun t t' e ht ht' => hs.apart t t' e (hholds t e ht) (hholds t' e ht')⟩
  · obtain ⟨stream, hst, hh, he⟩ := hs.entry h e t (by rw [← hmap]; exact hl)
    obtain ⟨stream', hst', ha, hb, -⟩ := hold t stream hst
    exact ⟨stream', hst', ha.trans hh, hb.trans he⟩
  · rcases hnew t stream' hs' with ⟨stream, hst, -, -, hend⟩ | ⟨rfl, hle⟩
    · rw [hend]
      exact hs.ended t stream hst
    · constructor
      · intro hf
        cases hf
      · intro hc
        exact absurd (hs.closed t hc) (Nat.not_lt.2 hle)
  · obtain ⟨stream, hst, hend⟩ := hjoin p a hp hj
    obtain ⟨stream', hst', -, -, hend'⟩ := hold p stream hst
    exact ⟨stream', hst', hend'.trans hend⟩
  · rw [hmap]
    exact hs.fresh t e (hholds t e ht)

/-- The acts that take a seat, or give it up. -/
def Act.seats : Act → Bool
  | .fetchEpoch .. | .insertSession .. | .leave => true
  | _ => false

theorem ActStep.seats_kept {s : Dispatcher} {p : Nat} {a : Act} {r : Effect Dispatcher Act} (h : ActStep C s p a r)
    (ha : a.seats = false) : r.shared.sessions = s.sessions ∧ r.shared.streams = s.streams := by
  cases h with
  | fetchEpoch | insertSession | leave => cases ha
  | _ => exact ⟨rfl, rfl⟩

theorem ActStep.inserts {s : Dispatcher} {p : Nat} {a : Act} {r : Effect Dispatcher Act} (h : ActStep C s p a r)
    {host : Hostname} {e : Nat} {now : Int} (hb : .insertSession host e now ∈ r.acts) :
    a = .fetchEpoch host now ∧ e = s.sessions.epochs := by
  cases h with
  | fetchEpoch h' now' =>
    obtain ⟨rfl, rfl, rfl⟩ := Act.insertSession.inj (List.mem_singleton.1 hb)
    exact ⟨rfl, rfl⟩
  | publish e =>
    rcases List.mem_append.1 hb with hb | hb
    · obtain ⟨i, f, -, -, hb⟩ := mem_sendRunFaults hb
      cases hb
    · simp at hb
  | touch htouch hacts =>
    rcases List.mem_append.1 hb with hb | hb
    · obtain ⟨t, -, hb⟩ := mem_sendAborts hb
      cases hb
    · obtain ⟨r, hb⟩ := hacts _ hb
      cases hb
  | setTaint h tainted reason ts => cases tainted <;> simp at hb
  | quiet hq hacts hno => exact absurd (hno _ hb) (by simp [Act.joins])
  | _ => simp at hb

/-- What task `p` still has to do after an act of it, and the other tasks. -/
theorem Pends.after {p q : Nat} {a b : Act} {rest : List Act} {r : Effect Dispatcher Act}
    (ht : m.tasks[p]? = some (a :: rest)) (h : ActStep C m.shared p a r)
    (hb : Pends (m.tasks.set p (r.acts ++ rest) ++ r.spawned) q b) (hj : b.joins = true) :
    (q = p ∧ b ∈ r.acts) ∨ Pends m.tasks q b := by
  obtain ⟨task, hq, hmem⟩ := hb
  rcases get_step hq with ⟨rfl, rfl⟩ | ⟨-, hq⟩ | hq
  · rcases List.mem_append.1 hmem with hmem | hmem
    · exact .inl ⟨rfl, hmem⟩
    · exact .inr ⟨_, ht, List.mem_cons_of_mem _ hmem⟩
  · exact .inr ⟨task, hq, hmem⟩
  · cases h with
    | arm id dl =>
      obtain rfl := List.mem_singleton.1 hq
      obtain rfl := List.mem_singleton.1 hmem
      cases hj
    | _ => cases hq

theorem Seats.act_other {p : Nat} {a : Act} {rest : List Act} {r : Effect Dispatcher Act} (hs : Seats m seen)
    (ht : m.tasks[p]? = some (a :: rest)) (h : ActStep C m.shared p a r) (ha : a.seats = false) :
    Seats ⟨r.shared, m.tasks.set p (r.acts ++ rest) ++ r.spawned⟩ seen := by
  obtain ⟨hmap, hstreams⟩ := h.seats_kept ha
  refine hs.keep hmap (by simp) (fun t stream hst => ⟨stream, by rw [hstreams]; exact hst, rfl, rfl, rfl⟩)
    (fun t stream hst => .inl ⟨stream, by rw [← hstreams]; exact hst, rfl, rfl, rfl⟩) (fun q b hb hj => ?_)
    fun q host e now hb => ?_
  · rcases Pends.after ht h hb hj with ⟨rfl, hmem⟩ | hb
    · exact hs.live q a ⟨_, ht, List.mem_cons_self⟩ (h.joins hmem hj).1
    · exact hs.live q b hb hj
  · rcases Pends.after ht h hb rfl with ⟨-, hmem⟩ | hb
    · obtain ⟨rfl, -⟩ := h.inserts hmem
      cases ha
    · exact hb

/-! ## Taking a seat -/

/-- A fresh epoch is held by the task that fetched it, and by nothing else. -/
theorem Seats.fetch (C : Config) {p : Nat} {rest : List Act} {host : Hostname} {now : Int} (hs : Seats m seen)
    (ht : m.tasks[p]? = some (.fetchEpoch host now :: rest)) :
    Seats ⟨{ m.shared with sessions := m.shared.sessions.fetchEpoch.2 },
      m.tasks.set p ([.insertSession host m.shared.sessions.fetchEpoch.1 now] ++ rest) ++ []⟩ seen := by
  have hact := ActStep.fetchEpoch (C := C) (s := m.shared) (p := p) host now
  have hholds : ∀ t e, HoldsEpoch ⟨{ m.shared with sessions := m.shared.sessions.fetchEpoch.2 },
      m.tasks.set p ([.insertSession host m.shared.sessions.fetchEpoch.1 now] ++ rest) ++ []⟩ t e →
      HoldsEpoch m t e ∨ (t = p ∧ e = m.shared.sessions.epochs) := by
    rintro t e (hst | ⟨h, now', hb⟩)
    · exact .inl (.inl hst)
    · rcases Pends.after ht hact hb rfl with ⟨rfl, hmem⟩ | hb
      · exact .inr ⟨rfl, (hact.inserts hmem).2⟩
      · exact .inl (.inr ⟨h, now', hb⟩)
  refine ⟨hs.sender, hs.entry, hs.ended, fun t hc => ?_, fun q b hb hj => ?_, fun t e hh => ?_, fun t t' e hh hh' => ?_⟩
  · simpa using hs.closed t hc
  · rcases Pends.after ht hact hb hj with ⟨rfl, -⟩ | hb
    · exact hs.live q _ ⟨_, ht, List.mem_cons_self⟩ rfl
    · exact hs.live q b hb hj
  · rcases hholds t e hh with hh | ⟨-, rfl⟩
    · exact Nat.lt_succ_of_lt (hs.fresh t e hh)
    · exact Nat.lt_succ_self _
  · rcases hholds t e hh with hold | ⟨rfl, rfl⟩
    · rcases hholds t' e hh' with hold' | ⟨-, rfl⟩
      · exact hs.apart t t' e hold hold'
      · exact absurd (hs.fresh t _ hold) (Nat.lt_irrefl _)
    · rcases hholds t' _ hh' with hold' | ⟨rfl, -⟩
      · exact absurd (hs.fresh t' _ hold') (Nat.lt_irrefl _)
      · rfl

/-- The stream of a task that inserts gets its host and its epoch, and the seat. -/
theorem Seats.insert {p : Nat} {rest : List Act} {host : Hostname} {epoch : Nat} {now : Int} (hs : Seats m seen)
    (hr : Routed m) (ht : m.tasks[p]? = some (.insertSession host epoch now :: rest)) :
    Seats ⟨insertSession m.shared p host epoch,
      m.tasks.set p ([.reply (.registerAck now C.heartbeatIntervalSecs)] ++ rest) ++ []⟩
      (.inserted host p :: seen) := by
  have hact := ActStep.insertSession (C := C) (s := m.shared) (p := p) host epoch now
  have hpend : Pends m.tasks p (.insertSession host epoch now) := ⟨_, ht, List.mem_cons_self⟩
  obtain ⟨-, stream, hst, hnone⟩ := hr.joining p _ _ ht List.mem_cons_self rfl
  have hlive : stream.ended = false := by
    obtain ⟨stream', hst', hend⟩ := hs.live p _ hpend rfl
    rw [hst] at hst'
    obtain rfl := Option.some.inj hst'
    exact hend
  have hopen : SessionEvent.closed p ∉ seen := by
    rw [← hs.ended p stream hst, hlive]
    simp
  have hself : (insertSession m.shared p host epoch).streams p =
      some { stream with hostname := some host, epoch := some epoch } := by
    simp [insertSession, hst]
  have hother : ∀ t, t ≠ p → (insertSession m.shared p host epoch).streams t = m.shared.streams t :=
    fun t hne => Function.update_of_ne hne _ _
  have hafter : ∀ q b, Pends (m.tasks.set p ([.reply (.registerAck now C.heartbeatIntervalSecs)] ++ rest) ++ []) q b →
      b.joins = true → Pends m.tasks q b := by
    intro q b hb hj
    rcases Pends.after ht hact hb hj with ⟨-, hmem⟩ | hb
    · obtain rfl := List.mem_singleton.1 hmem
      cases hj
    · exact hb
  have hholds : ∀ t e, HoldsEpoch ⟨insertSession m.shared p host epoch,
      m.tasks.set p ([.reply (.registerAck now C.heartbeatIntervalSecs)] ++ rest) ++ []⟩ t e → HoldsEpoch m t e := by
    rintro t e (⟨stream', hst', he⟩ | ⟨h, now', hb⟩)
    · by_cases htp : t = p
      · subst htp
        replace hst' := Option.some.inj (hself.symm.trans hst')
        rw [← hst'] at he
        obtain rfl := Option.some.inj he
        exact .inr ⟨host, now, hpend⟩
      · exact .inl ⟨stream', (hother t htp).symm.trans hst', he⟩
    · exact .inr ⟨h, now', hafter t _ hb rfl⟩
  refine ⟨fun h => ?_, fun h e t hl => ?_, fun t stream' hst' => ?_, fun t hc => ?_, fun q b hb hj => ?_,
    fun t e hh => hs.fresh t e (hholds t e hh),
    fun t t' e hh hh' => hs.apart t t' e (hholds t e hh) (hholds t' e hh')⟩
  · show (m.shared.sessions.insert host epoch p).sender h = _
    rw [sender_insert, hs.sender h]
    by_cases he : h = host
    · subst he
      simp [current, hopen, Option.filter]
    · simp [current, he, Ne.symm he]
  · replace hl : (m.shared.sessions.inner.insert host (epoch, p)).lookup h = some (e, t) := hl
    by_cases he : h = host
    · subst he
      rw [AList.lookup_insert] at hl
      obtain ⟨rfl, rfl⟩ := Prod.mk.inj (Option.some.inj hl)
      exact ⟨_, hself, rfl, rfl⟩
    · rw [AList.lookup_insert_ne he] at hl
      obtain ⟨stream', hst', hh, hep⟩ := hs.entry h e t hl
      have hne : t ≠ p := by
        rintro rfl
        rw [hst] at hst'
        obtain rfl := Option.some.inj hst'
        rw [hnone] at hh
        cases hh
      exact ⟨stream', (hother t hne).trans hst', hh, hep⟩
  · by_cases htp : t = p
    · subst htp
      replace hst' := Option.some.inj (hself.symm.trans hst')
      rw [← hst']
      simp [hlive, hopen]
    · simpa using hs.ended t stream' ((hother t htp).symm.trans hst')
  · simpa using hs.closed t (by simpa using hc)
  · obtain ⟨stream', hst', hend⟩ := hs.live q b (hafter q b hb hj) hj
    by_cases hq : q = p
    · subst hq
      exact ⟨_, hself, hlive⟩
    · exact ⟨stream', (hother q hq).trans hst', hend⟩

/-! ## Giving it up -/

/-- A stream that does not hold the entry's epoch removes nothing. -/
theorem removeIfCurrent_other {s : SessionMap} {h : Hostname} {epoch : Nat}
    (hl : ∀ t, s.inner.lookup h ≠ some (epoch, t)) : s.removeIfCurrent h epoch = s := by
  unfold SessionMap.removeIfCurrent
  split
  next e t he =>
    rw [if_neg]
    rintro rfl
    exact hl t he
  next => rfl

theorem removeIfCurrent_self {s : SessionMap} {h : Hostname} {epoch : Nat} {t : StreamId}
    (hl : s.inner.lookup h = some (epoch, t)) (h' : Hostname) :
    (s.removeIfCurrent h epoch).sender h' = if h' = h then none else s.sender h' := by
  simp only [SessionMap.removeIfCurrent, hl, if_true, SessionMap.sender]
  by_cases he : h' = h
  · rw [if_pos he, he, AList.lookup_erase]
    rfl
  · rw [if_neg he, AList.lookup_erase_ne he]

theorem endSession_sessions (s : Dispatcher) (p : Nat) :
    ((endSession s p).sessions = s.sessions ∧
      ∀ stream, s.streams p = some stream → stream.hostname = none ∨ stream.epoch = none) ∨
    ∃ stream host epoch, s.streams p = some stream ∧ stream.hostname = some host ∧ stream.epoch = some epoch ∧
      (endSession s p).sessions = s.sessions.removeIfCurrent host epoch := by
  unfold endSession
  split
  next hst => exact .inl ⟨rfl, fun stream hst' => by rw [hst] at hst'; cases hst'⟩
  next stream hst =>
    have hown : ∀ st, s.streams p = some st → st = stream := fun st hst' => by
      rw [hst] at hst'
      exact (Option.some.inj hst').symm
    cases hh : stream.hostname with
    | none => exact .inl ⟨rfl, fun st hst' => .inl (by rw [hown st hst', hh])⟩
    | some host =>
      cases he : stream.epoch with
      | none => exact .inl ⟨rfl, fun st hst' => .inr (by rw [hown st hst', he])⟩
      | some epoch => exact .inr ⟨stream, host, epoch, hst, hh, he, rfl⟩

theorem filter_ne_self {o : Option StreamId} {p : StreamId} (h : o ≠ some p) : o.filter (· ≠ p) = o := by
  cases o with
  | none => rfl
  | some t => simpa [Option.filter] using fun he => h (by rw [he])

/-- A close takes away the closing stream's own entry, and no other. -/
theorem Seats.endSession_sender (hs : Seats m seen) (p : Nat) (h : Hostname) :
    (endSession m.shared p).sessions.sender h = (m.shared.sessions.sender h).filter (· ≠ p) := by
  have hentry : ∀ {h'}, m.shared.sessions.sender h' = some p →
      ∃ e, m.shared.sessions.inner.lookup h' = some (e, p) := by
    intro h' hp
    obtain ⟨⟨e, t⟩, hl, rfl⟩ := Option.map_eq_some_iff.1 hp
    exact ⟨e, hl⟩
  rcases endSession_sessions m.shared p with ⟨hsame, hnone⟩ | ⟨stream, host, epoch, hst, hh, he, hsess⟩
  · -- a stream that never registered has no entry
    rw [hsame, filter_ne_self]
    intro hp
    obtain ⟨e, hl⟩ := hentry hp
    obtain ⟨stream, hst, hh, he⟩ := hs.entry h e p hl
    rcases hnone stream hst with hn | hn
    · rw [hn] at hh; cases hh
    · rw [hn] at he; cases he
  · have hown : ∀ {h' e}, m.shared.sessions.inner.lookup h' = some (e, p) → h' = host ∧ e = epoch := by
      intro h' e hl
      obtain ⟨stream', hst', hh', he'⟩ := hs.entry h' e p hl
      rw [hst] at hst'
      obtain rfl := Option.some.inj hst'
      exact ⟨Option.some.inj (hh'.symm.trans hh), Option.some.inj (he'.symm.trans he)⟩
    rw [hsess]
    by_cases hl : m.shared.sessions.inner.lookup host = some (epoch, p)
    · rw [removeIfCurrent_self hl]
      by_cases hhost : h = host
      · subst hhost
        simp [SessionMap.sender, hl, Option.filter]
      · rw [if_neg hhost, filter_ne_self]
        intro hp
        obtain ⟨e, hl'⟩ := hentry hp
        exact hhost (hown hl').1
    · rw [removeIfCurrent_other, filter_ne_self]
      · intro hp
        obtain ⟨e, hl'⟩ := hentry hp
        obtain ⟨rfl, rfl⟩ := hown hl'
        exact hl hl'
      · -- the epoch is this stream's, so an entry with it would be too
        intro t ht
        obtain ⟨stream', hst', -, he'⟩ := hs.entry host epoch t ht
        have htp : t = p := hs.apart t p epoch (.inl ⟨stream', hst', he'⟩) (.inl ⟨stream, hst, he⟩)
        exact hl (htp ▸ ht)

theorem current_closed (h : Hostname) (p : StreamId) :
    current (.closed p :: seen) h = (current seen h).filter (· ≠ p) := by
  unfold current
  rw [lastInsert_closed]
  cases lastInsert seen h with
  | none => rfl
  | some t =>
    by_cases ht : t = p
    · subst ht
      by_cases hc : SessionEvent.closed t ∈ seen <;> simp [Option.filter, hc]
    · by_cases hc : SessionEvent.closed t ∈ seen <;> simp [Option.filter, hc, ht]

theorem endSession_streams (s : Dispatcher) (p : Nat) (t : StreamId) :
    (endSession s p).streams t = if t = p then (s.streams p).map ({ · with ended := true }) else s.streams t := by
  unfold endSession
  split
  next hst =>
    by_cases ht : t = p
    · rw [if_pos ht, ht, hst]
      rfl
    · rw [if_neg ht]
  next stream hst =>
    by_cases ht : t = p
    · rw [if_pos ht, ht, hst]
      exact Function.update_self _ _ _
    · rw [if_neg ht]
      exact Function.update_of_ne ht _ _

section
variable {s : Dispatcher} {p t : Nat}

/-- The streams are as they were, but for the end of this one. -/
theorem endSession_back {stream' : Stream} (hst' : (endSession s p).streams t = some stream') :
    ∃ stream, s.streams t = some stream ∧ stream'.hostname = stream.hostname ∧ stream'.epoch = stream.epoch ∧
      stream'.ended = (stream.ended || t = p) := by
  rw [endSession_streams] at hst'
  by_cases htp : t = p
  · rw [if_pos htp] at hst'
    obtain ⟨stream, hst, rfl⟩ := Option.map_eq_some_iff.1 hst'
    exact ⟨stream, htp ▸ hst, rfl, rfl, by simp [htp]⟩
  · rw [if_neg htp] at hst'
    exact ⟨stream', hst', rfl, rfl, by simp [htp]⟩

theorem endSession_forth {stream : Stream} (hst : s.streams t = some stream) :
    ∃ stream', (endSession s p).streams t = some stream' ∧ stream'.hostname = stream.hostname ∧
      stream'.epoch = stream.epoch ∧ (t ≠ p → stream'.ended = stream.ended) := by
  rw [endSession_streams]
  by_cases htp : t = p
  · subst htp
    exact ⟨{ stream with ended := true }, by rw [if_pos rfl, hst]; rfl, rfl, rfl, fun hne => absurd rfl hne⟩
  · exact ⟨stream, by rw [if_neg htp, hst], rfl, rfl, fun _ => rfl⟩

theorem endSession_lookup {h : Hostname} {v : Nat × StreamId}
    (hl : (endSession s p).sessions.inner.lookup h = some v) : s.sessions.inner.lookup h = some v := by
  rcases endSession_sessions s p with ⟨hsess, -⟩ | ⟨-, host, epoch, -, -, -, hsess⟩
  · rwa [hsess] at hl
  · rw [hsess] at hl
    exact lookup_removeIfCurrent hl

theorem endSession_epochs : (endSession s p).sessions.epochs = s.sessions.epochs := by
  rcases endSession_sessions s p with ⟨hsess, -⟩ | ⟨-, host, epoch, -, -, -, hsess⟩
  · rw [hsess]
  · rw [hsess]
    unfold SessionMap.removeIfCurrent
    split
    · split <;> rfl
    · rfl

end

theorem Seats.leave (C : Config) {p : Nat} {rest : List Act} (hs : Seats m seen) (hr : Routed m)
    (ht : m.tasks[p]? = some (.leave :: rest)) :
    Seats ⟨endSession m.shared p, m.tasks.set p ([] ++ rest) ++ []⟩ (.closed p :: seen) := by
  have hact := ActStep.leave (C := C) (s := m.shared) (p := p)
  have hafter : ∀ q b, Pends (m.tasks.set p ([] ++ rest) ++ []) q b → b.joins = true → Pends m.tasks q b := by
    intro q b hb hj
    rcases Pends.after ht hact hb hj with ⟨-, hmem⟩ | hb
    · cases hmem
    · exact hb
  have hholds : ∀ t e, HoldsEpoch ⟨endSession m.shared p, m.tasks.set p ([] ++ rest) ++ []⟩ t e → HoldsEpoch m t e := by
    rintro t e (⟨stream', hst', he⟩ | ⟨h, now, hb⟩)
    · obtain ⟨stream, hst, -, hep, -⟩ := endSession_back hst'
      exact .inl ⟨stream, hst, hep ▸ he⟩
    · exact .inr ⟨h, now, hafter t _ hb rfl⟩
  refine ⟨fun h => ?_, fun h e t hl => ?_, fun t stream' hst' => ?_, fun t hc => ?_, fun q b hb hj => ?_,
    fun t e hh => ?_, fun t t' e hh hh' => hs.apart t t' e (hholds t e hh) (hholds t' e hh')⟩
  · rw [hs.endSession_sender, hs.sender, current_closed]
  · obtain ⟨stream, hst, hh, he⟩ := hs.entry h e t (endSession_lookup hl)
    obtain ⟨stream', hst', hh', he', -⟩ := endSession_forth (p := p) hst
    exact ⟨stream', hst', hh'.trans hh, he'.trans he⟩
  · obtain ⟨stream, hst, -, -, hend⟩ := endSession_back hst'
    rw [hend, Bool.or_eq_true, hs.ended t stream hst]
    simp [or_comm]
  · rcases List.mem_cons.1 hc with hc | hc
    · obtain rfl := SessionEvent.closed.inj hc
      simpa using (List.getElem?_eq_some_iff.1 ht).1
    · simpa using hs.closed t hc
  · have hold := hafter q b hb hj
    have hne : q ≠ p := by
      rintro rfl
      obtain ⟨task, hq, hmem⟩ := hold
      rw [ht] at hq
      obtain rfl := Option.some.inj hq
      obtain ⟨hone, -⟩ := hr.joining q _ b ht hmem hj
      obtain ⟨rfl, -⟩ := List.cons.inj hone
      cases hj
    obtain ⟨stream, hst, hend⟩ := hs.live q b hold hj
    obtain ⟨stream', hst', -, -, hend'⟩ := endSession_forth (p := p) hst
    exact ⟨stream', hst', (hend' hne).trans hend⟩
  · rw [endSession_epochs]
    exact hs.fresh t e (hholds t e hh)

/-! ## Steps and runs -/

theorem Seats.run {p : Nat} (hs : Seats m seen) (hr : Routed m) (h : masterStep C m (.run p) = some m') :
    Seats m' ((sessionEvent m (.run p)).toList ++ seen) := by
  obtain ⟨a, rest, r, ht, hexec, rfl⟩ := step_some h
  simp only [sessionEvent, ht]
  cases a with
  | fetchEpoch host now => obtain rfl := Option.some.inj hexec; exact hs.fetch C ht
  | insertSession host epoch now => obtain rfl := Option.some.inj hexec; exact hs.insert hr ht
  | leave => obtain rfl := Option.some.inj hexec; exact hs.leave C hr ht
  | _ => exact hs.act_other ht (exec_step hexec) rfl

theorem Pends.of_push {tasks : List (List Act)} {task : List Act} {q : Nat} {b : Act}
    (h : Pends (tasks ++ [task]) q b) : Pends tasks q b ∨ b ∈ task := by
  obtain ⟨task', hq, hmem⟩ := h
  rw [List.getElem?_append] at hq
  split at hq
  · exact .inl ⟨task', hq, hmem⟩
  · obtain rfl := List.mem_singleton.1 (List.mem_of_getElem? hq)
    exact .inr hmem

/-- What the labels that are not acts of a task do. -/
theorem Seats.other (hs : Seats m seen) (hr : Routed m) (hrun : ∀ p, l ≠ .run p) (h : MasterStep C m l m') :
    Seats m' seen := by
  have hself : ∀ t stream, m.shared.streams t = some stream →
      ∃ stream', m.shared.streams t = some stream' ∧ stream.Alike stream' :=
    fun t stream hst => ⟨stream, hst, rfl, rfl, rfl⟩
  have hback : ∀ t stream', m.shared.streams t = some stream' →
      (∃ stream, m.shared.streams t = some stream ∧ stream.Alike stream') ∨ (stream' = .new ∧ m.tasks.length ≤ t) :=
    fun t stream hst => .inl ⟨stream, hst, rfl, rfl, rfl⟩
  cases h with
  | act => exact absurd rfl (hrun _)
  | @request _ task hopens hno =>
    have hpends : ∀ q b, Pends (m.tasks ++ [task]) q b → b.joins = true → Pends m.tasks q b := by
      intro q b hb hj
      refine hb.of_push.resolve_right fun hmem => ?_
      rw [hno b hmem] at hj
      cases hj
    exact hs.keep rfl (by simp) hself hback
      (fun q b hb hj => hs.live q b (hpends q b hb hj) hj) fun q host e now hb => hpends q _ hb rfl
  | connect =>
    have hpends : ∀ q b, Pends (m.tasks ++ [[]]) q b → Pends m.tasks q b := fun q b hb =>
      hb.of_push.resolve_right List.not_mem_nil
    refine hs.keep rfl (by simp) (fun t stream hst => ?_) (fun t stream hst => ?_)
      (fun q b hb hj => hs.live q b (hpends q b hb) hj) fun q host e now hb => hpends q _ hb
    · have hne : t ≠ m.tasks.length := Nat.ne_of_lt (hr.bound t stream hst)
      exact ⟨stream, (Function.update_of_ne hne _ _).trans hst, rfl, rfl, rfl⟩
    · by_cases ht : t = m.tasks.length
      · subst ht
        rw [show (m.shared.setStream m.tasks.length .new).streams m.tasks.length = some .new from
          Function.update_self _ _ _] at hst
        exact .inr ⟨(Option.some.inj hst).symm, Nat.le_refl _⟩
      · exact .inl ⟨stream, (Function.update_of_ne ht _ _).symm.trans hst, rfl, rfl, rfl⟩
  | @intake _ p stream task hst hend ht hopens hj =>
    have hpends : ∀ q b, Pends (m.tasks.set p task) q b → (q = p ∧ b ∈ task) ∨ Pends m.tasks q b := by
      rintro q b ⟨task', hq, hmem⟩
      rw [← List.append_nil (m.tasks.set p _)] at hq
      rcases get_step hq with ⟨rfl, rfl⟩ | ⟨-, hq⟩ | hq
      · exact .inl ⟨rfl, hmem⟩
      · exact .inr ⟨task', hq, hmem⟩
      · cases hq
    refine hs.keep rfl (by simp) hself hback (fun q b hb hjb => ?_)
      fun q host e now hb => ?_
    · rcases hpends q b hb with ⟨rfl, -⟩ | hb
      · exact ⟨stream, hst, hend⟩
      · exact hs.live q b hb hjb
    · rcases hpends q _ hb with ⟨rfl, hmem⟩ | hb
      · cases hopens _ hmem
      · exact hb
  | @drop p task ht hany hawaits =>
    have hpends : ∀ q b, Pends (m.tasks.set p []) q b → Pends m.tasks q b := by
      rintro q b ⟨task', hq, hmem⟩
      rw [← List.append_nil (m.tasks.set p _)] at hq
      rcases get_step hq with ⟨rfl, rfl⟩ | ⟨-, hq⟩ | hq
      · cases hmem
      · exact ⟨task', hq, hmem⟩
      · cases hq
    exact hs.keep rfl (by simp) hself hback
      (fun q b hb hj => hs.live q b (hpends q b hb) hj) fun q host e now hb => hpends q _ hb
  | @channel _ t stream taken closed hst htaken hclosed =>
    refine hs.keep rfl (Nat.le_refl _) (fun t' stream' hst' => ?_) (fun t' stream' hst' => .inl ?_)
      (fun q b hb hj => hs.live q b hb hj) fun q host e now hb => hb
    · by_cases he : t' = t
      · subst he
        rw [hst] at hst'
        obtain rfl := Option.some.inj hst'
        exact ⟨_, Function.update_self _ _ _, rfl, rfl, rfl⟩
      · exact ⟨stream', (Function.update_of_ne he _ _).trans hst', rfl, rfl, rfl⟩
    · by_cases he : t' = t
      · subst he
        rw [show (m.shared.setStream t' { stream with taken, closed }).streams t' = some { stream with taken, closed }
          from Function.update_self _ _ _] at hst'
        obtain rfl := Option.some.inj hst'
        exact ⟨stream, hst, rfl, rfl, rfl⟩
      · exact ⟨stream', (Function.update_of_ne he _ _).symm.trans hst', rfl, rfl, rfl⟩
  | tick ms =>
    exact hs.keep rfl (Nat.le_refl _) hself hback
      (fun q b hb hj => hs.live q b hb hj) fun q host e now hb => hb

theorem reach_seats {w : Watched MasterState (List SessionEvent)} (h : Reach (sessionsLts C) w) :
    Seats w.state w.seen := by
  induction h with
  | init hi =>
    obtain ⟨⟨now, hm⟩, hseen⟩ := hi
    rw [hm, hseen]
    refine ⟨fun h => rfl, fun h e t hl => ?_, fun t stream hst => ?_, fun t hc => ?_, fun p a hp => ?_,
      fun t e hh => ?_, fun t t' e hh => ?_⟩
    · cases hl
    · cases hst
    · cases hc
    · obtain ⟨task, hq, -⟩ := hp
      cases hq
    · rcases hh with ⟨stream, hst, -⟩ | ⟨h, now, task, hq, -⟩
      · cases hst
      · cases hq
    · rcases hh with ⟨stream, hst, -⟩ | ⟨h, now, task, hq, -⟩
      · cases hst
      · cases hq
  | @step w w' l hreach hs ih =>
    have hr := reach_routed hreach.unwatched
    obtain ⟨hstep, hseen⟩ := watch_step_some.1 hs
    rw [hseen]
    have hmaster : masterStep C w.state l = some w'.state := hstep
    cases l with
    | run p => exact ih.run hr hmaster
    | _ => exact ih.other hr (by simp) (masterStep_step hmaster)

/-! ## The law -/

/-- The close of a stream that is nowhere the last one. -/
theorem Seats.superseded (hs : Seats m seen) {t : StreamId} (hlast : ∀ host, lastInsert seen host ≠ some t) :
    (endSession m.shared t).sessions = m.shared.sessions := by
  rcases endSession_sessions m.shared t with ⟨hsame, -⟩ | ⟨stream, host, epoch, hst, hh, he, hsess⟩
  · exact hsame
  · rw [hsess]
    refine removeIfCurrent_other fun t' hl => ?_
    obtain ⟨stream', hst', -, he'⟩ := hs.entry host epoch t' hl
    have ht : t' = t := hs.apart t' t epoch (.inl ⟨stream', hst', he'⟩) (.inl ⟨stream, hst, he⟩)
    have hsender : m.shared.sessions.sender host = some t := by simp [SessionMap.sender, hl, ht]
    rw [hs.sender] at hsender
    exact hlast host (current_eq_some.1 hsender).1

/-- Only a `leave` closes. -/
theorem leave_of_closed {t : StreamId} (h : sessionEvent m (.run t) = some (.closed t)) :
    ∃ rest, m.tasks[t]? = some (.leave :: rest) := by
  simp only [sessionEvent] at h
  split at h
  next => cases h
  next rest ht => exact ⟨rest, ht⟩
  next => cases h

/-- A map in which every host is absent is empty. -/
theorem inner_eq_empty {s : SessionMap} (h : ∀ host, s.sender host = none) : s.inner = ∅ := by
  have hnone : ∀ host, s.inner.lookup host = none := by
    intro host
    simpa [SessionMap.sender] using h host
  have hkeys : s.inner.entries = [] := by
    refine List.eq_nil_iff_forall_not_mem.2 fun entry hmem => ?_
    have hmem' : entry.1 ∈ s.inner := AList.mem_keys.2 (List.mem_map.2 ⟨entry, hmem, rfl⟩)
    have hsome := AList.lookup_isSome.2 hmem'
    simp [hnone] at hsome
  exact AList.ext hkeys

/-- **The session map follows the newest live stream.** After any interleaving of registrations and closes, `sender`
answers the stream inserted last for a host, if it has not closed; `is_connected` agrees; the close of a stream that is
nowhere the last one changes nothing; and when every stream has closed the map is empty. -/
theorem session_map_newest {w : Watched MasterState (List SessionEvent)} (h : Reach (sessionsLts C) w) :
    (∀ host, w.state.shared.sessions.sender host = current w.seen host) ∧
    (∀ host, w.state.shared.sessions.isConnected host = (w.state.shared.sessions.sender host).isSome) ∧
    (∀ t w', (sessionsLts C).step w (.run t) = some w' → sessionEvent w.state (.run t) = some (.closed t) →
      (∀ host, lastInsert w.seen host ≠ some t) → w'.state.shared.sessions = w.state.shared.sessions) ∧
    ((∀ t stream, w.state.shared.streams t = some stream → SessionEvent.closed t ∈ w.seen) →
      w.state.shared.sessions.inner = ∅) := by
  have hs := reach_seats h
  refine ⟨hs.sender, fun host => ?_, fun t w' hstep hclose hlast => ?_, fun hall => ?_⟩
  · simp [SessionMap.isConnected, SessionMap.sender]
  · obtain ⟨rest, ht⟩ := leave_of_closed hclose
    have hmaster : masterStep C w.state (.run t) = some w'.state := (watch_step_some.1 hstep).1
    have hexec : exec C w.state.shared t .leave = some ⟨endSession w.state.shared t, [], []⟩ := rfl
    have hsome := hmaster.symm.trans (step_of_exec ht hexec)
    rw [Option.some.inj hsome]
    exact hs.superseded hlast
  · refine inner_eq_empty fun host => ?_
    rw [hs.sender]
    cases hc : current w.seen host with
    | none => rfl
    | some t =>
      obtain ⟨hlast, hopen⟩ := current_eq_some.1 hc
      obtain ⟨⟨e, t'⟩, hl, rfl⟩ := Option.map_eq_some_iff.1 ((hs.sender host).trans hc)
      obtain ⟨stream, hst, -⟩ := hs.entry host e _ hl
      exact absurd (hall _ stream hst) hopen

/-- Stream 1 supersedes stream 0 for the host, and stream 0 is about to close. -/
def supersededRun : List Label := joins 0 "web-01" ++ joins 1 "web-01" ++ [.eof 0]

theorem session_map_newest_superseded : ∃ w, Reach (sessionsLts sampleConfig) w ∧
    w.state.shared.sessions.sender web01 = current w.seen web01 ∧ current w.seen web01 = some 1 ∧
    ∀ w', (sessionsLts sampleConfig).step w (.run 0) = some w' →
      w'.state.shared.sessions = w.state.shared.sessions := by
  let p : Watched MasterState (List SessionEvent) → Bool := fun w =>
    w.seen = [.inserted web01 1, .inserted web01 0] ∧ sessionEvent w.state (.run 0) = some (.closed 0)
  obtain ⟨w, hw, hp⟩ := reach_of_run (L := sessionsLts sampleConfig) p (s := ⟨sampleMaster, []⟩) ⟨⟨1000, rfl⟩, rfl⟩
    supersededRun (by decide +kernel)
  obtain ⟨hseen, hclose⟩ := of_decide_eq_true hp
  obtain ⟨hsender, -, hsuperseded, -⟩ := session_map_newest hw
  refine ⟨w, hw, hsender web01, by rw [hseen]; decide, fun w' hstep => hsuperseded 0 w' hstep hclose fun host => ?_⟩
  rw [hseen]
  rw [lastInsert_inserted, lastInsert_inserted]
  by_cases he : web01 = host <;> simp [he, lastInsert]

end

end FaultForge.Master
