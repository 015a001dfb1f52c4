import FaultForge.Master.Dispatch

/-!
# What a step of the master can do

`ActStep` says for every act what it changes and what it leaves to do, `MasterStep` says the same for every label;
`exec_step` and `masterStep_step` are the inversion lemmas. The invariants of the master are proved from these alone.
-/
namespace FaultForge.Master

open Lts Tasks

/-! ## Acts -/

/-- Acts that hold no frame for a host, no record and no session. -/
def Act.plain : Act → Bool
  | .start _ | .timer _ _ | .sleep _ | .resolve _ | .status .. | .setTaint .. | .sweep .. | .halt .. | .clearTaint _
  | .relay _ | .registerAgent .. | .fetchEpoch .. | .updateHeartbeat .. | .reply _ | .reject _ | .leave
  | .respond _ => true
  | _ => false

/-- Acts that can be over without a change of the shared state. -/
def Act.quiet : Act → Bool
  | .gather .. | .timer _ _ | .sleep _ | .status .. | .halt .. | .clearTaint _ | .relay _ => true
  | _ => false

/-- The act is on the way from a `Register` to the session map. -/
def Act.joins : Act → Bool
  | .registerAgent .. | .fetchEpoch .. | .insertSession .. => true
  | _ => false

/-- The operation an act does on records, and on which. -/
def Act.touches (s : Dispatcher) : Act → Option (RecordOp × List ExperimentId)
  | .resolve id => some (.deadline s.now, [id])
  | .status instanceId state reason tsUnixMs =>
    (owningExperimentId instanceId).map fun id => (.status instanceId state reason tsUnixMs, [id])
  | .sweep hostname reason tsUnixMs => some (.taint hostname.val reason tsUnixMs, s.store.keys)
  | .halt id reason => some (.halt reason s.now, [id])
  | _ => none

/-- What a session task or a relay puts on a channel by itself. -/
def Outbound.ownReply : Outbound → Bool
  | .ok (.registerAck _ _) | .ok (.heartbeatAck _) | .ok .clearTaint | .err _ => true
  | _ => false

/-- What act `a` of task `p` does in `s`. -/
inductive ActStep (C : Config) (s : Dispatcher) (p : Nat) : Act → Effect Dispatcher Act → Prop
  | start (d : ExperimentDefinition) :
    ActStep C s p (.start d) ⟨s, [.gather d s.registry ∅ (d.actions.flatMap ActionDefinition.hosts)], []⟩
  | gather (d : ExperimentDefinition) (registry : Registry) (facts : AList fun _ : String => HostFacts) (host : String)
      (hosts : List String) :
    ActStep C s p (.gather d registry facts (host :: hosts))
      ⟨s, [.gather d registry (addFacts registry s.sessions facts host) hosts], []⟩
  | accept (d : ExperimentDefinition) (registry : Registry) (facts : AList fun _ : String => HostFacts) :
    validate d C.catalog facts = [] → ActStep C s p (.gather d registry facts []) ⟨s, [.mint d], []⟩
  | mint (d : ExperimentDefinition) :
    ActStep C s p (.mint d) ⟨{ s with seq := s.seq + 1 },
      [.publish (mintExperiment (.mint s.now s.seq) d C.defaultGraceSecs s.now C.deadlineMarginMs)], []⟩
  | publish (e : Experiment) :
    ActStep C s p (.publish e) ⟨{ s with store := s.store.insert e.id e },
      sendRunFaults C e ++ [.arm e.id e.deadlineUnixMs, .respond (.created e)], []⟩
  | touch {a : Act} {op : RecordOp} {ids : List ExperimentId} {acts : List Act} :
    a.touches s = some (op, ids) → (∀ b ∈ acts, ∃ r, b = .respond r) →
    ActStep C s p a ⟨{ s with store := (s.store.updateAll op ids).1 },
      sendAborts (s.store.updateAll op ids).2 ++ acts, []⟩
  | noSession (h : Hostname) (f : ServerMessage) :
    s.sessions.sender h = none →
    ActStep C s p (.toHost h f) ⟨{ s with log := s.log ++ [.noSession h f] }, [], []⟩
  | found (h : Hostname) (f : ServerMessage) (t : StreamId) :
    s.sessions.sender h = some t → ActStep C s p (.toHost h f) ⟨s, [.enqueue t f], []⟩
  | gone (t : StreamId) (f : ServerMessage) :
    s.closed t = true → ActStep C s p (.enqueue t f) ⟨{ s with log := s.log ++ [.sessionClosed t f] }, [], []⟩
  | enqueued (t : StreamId) (f : ServerMessage) :
    s.closed t = false → s.room t ≠ 0 →
    ActStep C s p (.enqueue t f) ⟨{ s with log := s.log ++ [.enqueued t (.ok f)] }, [], []⟩
  | arm (id : ExperimentId) (deadlineUnixMs : Int) :
    ActStep C s p (.arm id deadlineUnixMs) ⟨s, [], [[.timer id deadlineUnixMs]]⟩
  | relay (h : Hostname) (t : StreamId) :
    s.sessions.sender h = some t → ActStep C s p (.relay h) ⟨s, [.relayTo t], []⟩
  | relayed (t : StreamId) :
    s.closed t = false → s.room t ≠ 0 →
    ActStep C s p (.relayTo t) ⟨{ s with log := s.log ++ [.enqueued t (.ok .clearTaint)] },
      [.respond (.cleared .sent)], []⟩
  | notRelayed (t : StreamId) :
    s.closed t = true → ActStep C s p (.relayTo t) ⟨s, [.respond (.cleared .notConnected)], []⟩
  | fetchEpoch (h : Hostname) (now : Int) :
    ActStep C s p (.fetchEpoch h now) ⟨{ s with sessions := s.sessions.fetchEpoch.2 },
      [.insertSession h s.sessions.fetchEpoch.1 now], []⟩
  | insertSession (h : Hostname) (epoch : Nat) (now : Int) :
    ActStep C s p (.insertSession h epoch now) ⟨insertSession s p h epoch,
      [.reply (.registerAck now C.heartbeatIntervalSecs)], []⟩
  | reply (r : Reply) :
    s.closed p = false → s.room p ≠ 0 →
    ActStep C s p (.reply r) ⟨{ s with log := s.log ++ [.enqueued p (.ok r.frame)] }, [], []⟩
  | reject (status : Status) :
    s.closed p = false → s.room p ≠ 0 →
    ActStep C s p (.reject status) ⟨{ s with log := s.log ++ [.enqueued p (.err status)] }, [.leave], []⟩
  | notReplied (r : Reply) : s.closed p = true → ActStep C s p (.reply r) ⟨s, [.leave], []⟩
  | notRejected (status : Status) : s.closed p = true → ActStep C s p (.reject status) ⟨s, [.leave], []⟩
  | leave : ActStep C s p .leave ⟨endSession s p, [], []⟩
  | setTaint (h : Hostname) (tainted : Bool) (reason : String) (ts : Int) :
    ActStep C s p (.setTaint h tainted reason ts) ⟨{ s with registry := setTaint s.registry h tainted },
      if tainted then [.sweep h reason ts] else [], []⟩
  | registerAgent (h : Hostname) (now : Int) :
    ActStep C s p (.registerAgent h now)
      ⟨{ s with registry := registerAgent s.registry h now }, [.fetchEpoch h now], []⟩
  | updateHeartbeat (h : Hostname) (now : Int) :
    ActStep C s p (.updateHeartbeat h now) ⟨{ s with registry := updateHeartbeat s.registry h now },
      [.reply (.heartbeatAck now)], []⟩
  | respond (r : Response) :
    ActStep C s p (.respond r) ⟨{ s with responses := s.responses ++ [(p, r)] }, [], []⟩
  | quiet {a : Act} {acts : List Act} :
    a.quiet = true → (∀ b ∈ acts, b.plain = true) → (∀ b ∈ acts, b.joins = false) → ActStep C s p a ⟨s, acts, []⟩

theorem Dispatcher.send_done {s s' : Dispatcher} {t : StreamId} {o : Outbound} (h : s.send t o = .done s') :
    s.closed t = false ∧ s.room t ≠ 0 ∧ s' = { s with log := s.log ++ [.enqueued t o] } := by
  unfold Dispatcher.send at h
  by_cases hc : s.closed t = true
  · simp [hc] at h
  · by_cases hr : s.room t = 0
    · simp [hc, hr] at h
    · rw [if_neg hc, if_neg hr] at h
      exact ⟨by simpa using hc, hr, (Sending.done.inj h).symm⟩

theorem Dispatcher.send_closed {s : Dispatcher} {t : StreamId} {o : Outbound} (h : s.send t o = .closed) :
    s.closed t = true := by
  unfold Dispatcher.send at h
  by_cases hc : s.closed t = true
  · exact hc
  · rw [if_neg hc] at h
    split at h <;> cases h

theorem Store.updateAll_single (st : Store) (op : RecordOp) (id : ExperimentId) :
    st.updateAll op [id] = st.update id op := by
  simp [Store.updateAll]

section
variable {C : Config} {s : Dispatcher} {p : Nat} {a : Act} {r : Effect Dispatcher Act}

theorem onStore_touch {op : RecordOp} {ids : List ExperimentId} {acts : List Act}
    (ht : a.touches s = some (op, ids)) (ha : ∀ b ∈ acts, ∃ r, b = .respond r)
    (h : onStore s (s.store.updateAll op ids) acts = some r) : ActStep C s p a r := by
  obtain rfl := Option.some.inj h
  exact .touch ht ha

theorem quiet_step {acts : List Act} (h : goOn s acts = some r) (hq : a.quiet = true)
    (hacts : ∀ b ∈ acts, b.plain = true ∧ b.joins = false) : ActStep C s p a r := by
  obtain rfl := Option.some.inj h
  exact .quiet hq (fun b hb => (hacts b hb).1) fun b hb => (hacts b hb).2

theorem handleStatus_step {iid reason : String} {state : InstanceState} {ts : Int}
    (h : handleStatus s iid state reason ts = some r) : ActStep C s p (.status iid state reason ts) r := by
  unfold handleStatus at h
  cases ho : owningExperimentId iid with
  | none =>
    rw [ho] at h
    exact quiet_step h rfl (by simp)
  | some id =>
    rw [ho] at h
    simp only [← Store.updateAll_single] at h
    exact onStore_touch (by simp [Act.touches, ho]) (by simp) h

theorem handleHalt_step {id : ExperimentId} {reason : String} (h : handleHalt s id reason = some r) :
    ActStep C s p (.halt id reason) r := by
  unfold handleHalt at h
  split at h
  · exact quiet_step h rfl (by simp [Act.plain, Act.joins])
  · split at h
    · exact quiet_step h rfl (by simp [Act.plain, Act.joins])
    · simp only [← Store.updateAll_single] at h
      exact onStore_touch rfl (by simp) h

/-- **Inversion of an act.** -/
theorem exec_step (h : exec C s p a = some r) : ActStep C s p a r := by
  cases a with
  | start d => obtain rfl := Option.some.inj h; exact .start d
  | gather d registry facts hosts =>
    cases hosts with
    | cons host hosts => obtain rfl := Option.some.inj h; exact .gather d registry facts host hosts
    | nil =>
      simp only [exec] at h
      split at h
      next hv => obtain rfl := Option.some.inj h; exact .accept d registry facts hv
      next => exact quiet_step h rfl (by simp [Act.plain, Act.joins])
  | mint d => obtain rfl := Option.some.inj h; exact .mint d
  | publish e => obtain rfl := Option.some.inj h; exact .publish e
  | toHost host f =>
    simp only [exec] at h
    cases hs : s.sessions.sender host with
    | none => rw [hs] at h; obtain rfl := Option.some.inj h; exact .noSession host f hs
    | some t => rw [hs] at h; obtain rfl := Option.some.inj h; exact .found host f t hs
  | enqueue t f =>
    simp only [exec] at h
    split at h
    next => cases h
    next hc => obtain rfl := Option.some.inj h; exact .gone t f (Dispatcher.send_closed hc)
    next hd =>
      obtain ⟨hc, hr, rfl⟩ := Dispatcher.send_done hd
      obtain rfl := Option.some.inj h
      exact .enqueued t f hc hr
  | arm id dl => obtain rfl := Option.some.inj h; exact .arm id dl
  | timer id dl => exact quiet_step h rfl (by simp [Act.plain, Act.joins])
  | sleep wake =>
    simp only [exec] at h
    split at h
    · exact quiet_step h rfl (by simp)
    · cases h
  | resolve id =>
    simp only [exec, ← Store.updateAll_single] at h
    exact onStore_touch rfl (by simp) h
  | status iid state reason ts => exact handleStatus_step h
  | setTaint host tainted reason ts => obtain rfl := Option.some.inj h; exact .setTaint host tainted reason ts
  | sweep host reason ts => exact onStore_touch rfl (by simp) h
  | halt id reason => exact handleHalt_step h
  | clearTaint host =>
    simp only [exec] at h
    split at h <;> exact quiet_step h rfl (by simp [Act.plain, Act.joins])
  | relay host =>
    simp only [exec] at h
    cases hs : s.sessions.sender host with
    | none => rw [hs] at h; exact quiet_step h rfl (by simp [Act.plain, Act.joins])
    | some t => rw [hs] at h; obtain rfl := Option.some.inj h; exact .relay host t hs
  | relayTo t =>
    simp only [exec] at h
    split at h
    next => cases h
    next hc => obtain rfl := Option.some.inj h; exact .notRelayed t (Dispatcher.send_closed hc)
    next hd =>
      obtain ⟨hc, hr, rfl⟩ := Dispatcher.send_done hd
      obtain rfl := Option.some.inj h
      exact .relayed t hc hr
  | registerAgent host now => obtain rfl := Option.some.inj h; exact .registerAgent host now
  | fetchEpoch host now => obtain rfl := Option.some.inj h; exact .fetchEpoch host now
  | insertSession host epoch now => obtain rfl := Option.some.inj h; exact .insertSession host epoch now
  | updateHeartbeat host now => obtain rfl := Option.some.inj h; exact .updateHeartbeat host now
  | reply reply =>
    simp only [exec] at h
    split at h
    next => cases h
    next hc => obtain rfl := Option.some.inj h; exact .notReplied reply (Dispatcher.send_closed hc)
    next hd =>
      obtain ⟨hc, hr, rfl⟩ := Dispatcher.send_done hd
      obtain rfl := Option.some.inj h
      exact .reply reply hc hr
  | reject status =>
    simp only [exec] at h
    split at h
    next => cases h
    next hc => obtain rfl := Option.some.inj h; exact .notRejected status (Dispatcher.send_closed hc)
    next hd =>
      obtain ⟨hc, hr, rfl⟩ := Dispatcher.send_done hd
      obtain rfl := Option.some.inj h
      exact .reject status hc hr
  | leave => obtain rfl := Option.some.inj h; exact .leave
  | respond r' => obtain rfl := Option.some.inj h; exact .respond r'

end

/-! ## Labels -/

/-- The acts a request or a frame from an agent begins with. -/
def Act.opens : Act → Bool
  | .start _ | .halt .. | .clearTaint _ | .status .. | .setTaint .. | .registerAgent .. | .updateHeartbeat ..
  | .reject _ | .leave => true
  | _ => false

theorem Act.plain_of_opens {a : Act} (h : a.opens = true) : a.plain = true := by
  cases a <;> first | rfl | cases h

/-- What label `l` does in `m`. -/
inductive MasterStep (C : Config) (m : MasterState) : Label → MasterState → Prop
  | act {p : Nat} {a : Act} {rest : List Act} {r : Effect Dispatcher Act} :
    m.tasks[p]? = some (a :: rest) → ActStep C m.shared p a r →
    MasterStep C m (.run p) ⟨r.shared, m.tasks.set p (r.acts ++ rest) ++ r.spawned⟩
  | request {l : Label} {task : List Act} :
    (∀ a ∈ task, a.opens = true) → (∀ a ∈ task, a.joins = false) → MasterStep C m l ⟨m.shared, m.tasks ++ [task]⟩
  | connect : MasterStep C m .connect ⟨m.shared.setStream m.tasks.length .new, m.tasks ++ [[]]⟩
  | intake {l : Label} {p : Nat} {stream : Stream} {task : List Act} :
    m.shared.streams p = some stream → stream.ended = false → m.tasks[p]? = some [] →
    (∀ a ∈ task, a.opens = true) → (∀ a ∈ task, a.joins = true → task = [a] ∧ stream.hostname = none) →
    MasterStep C m l ⟨m.shared, m.tasks.set p task⟩
  | drop {p : Nat} {task : List Act} :
    m.tasks[p]? = some task → task.any Act.answers = true → task.head?.any Act.awaits = true →
    MasterStep C m (.drop p)
      ⟨{ m.shared with log := m.shared.log ++ (task.filterMap Act.frame).map .abandoned }, m.tasks.set p []⟩
  | channel {l : Label} {t : StreamId} {stream : Stream} (taken : Nat) (closed : Bool) :
    m.shared.streams t = some stream → stream.taken ≤ taken → (stream.closed = true → closed = true) →
    MasterStep C m l ⟨m.shared.setStream t { stream with taken, closed }, m.tasks⟩
  | tick (ms : Nat) : MasterStep C m (.tick ms) ⟨{ m.shared with now := m.shared.now + ms }, m.tasks⟩

theorem decodeStatus_opens {status : InstanceStatus} {a : Act} (h : decodeStatus status = some a) : a.opens = true := by
  unfold decodeStatus at h
  split at h
  · cases h
  · obtain rfl := Option.some.inj h
    rfl

theorem handleFrame_opens {now : Int} {stream : Stream} {payload : Option AgentMessage} {a : Act}
    (h : a ∈ handleFrame now stream payload) : a.opens = true := by
  unfold handleFrame at h
  split at h
  · split at h <;> (obtain rfl := List.mem_singleton.1 h; rfl)
  · split at h <;> (obtain rfl := List.mem_singleton.1 h; rfl)
  · exact decodeStatus_opens (Option.mem_toList.1 h)
  · obtain ⟨status, -, hd⟩ := List.mem_filterMap.1 h
    exact decodeStatus_opens hd
  · split at h
    · obtain rfl := List.mem_singleton.1 h; rfl
    · cases h
  · cases h
  · cases h

/-- Only a `Register` on a stream that has no host yet joins. -/
theorem handleFrame_joins {now : Int} {stream : Stream} {payload : Option AgentMessage} {a : Act}
    (h : a ∈ handleFrame now stream payload) (hj : a.joins = true) :
    handleFrame now stream payload = [a] ∧ stream.hostname = none := by
  unfold handleFrame at *
  split at h
  · split at h
    next host hr =>
      obtain rfl := List.mem_singleton.1 h
      refine ⟨rfl, ?_⟩
      unfold processRegister at hr
      cases hs : stream.hostname with
      | none => rfl
      | some _ => simp [hs] at hr
    next => obtain rfl := List.mem_singleton.1 h; cases hj
  · split at h <;> (obtain rfl := List.mem_singleton.1 h; cases hj)
  · rw [Option.mem_toList] at h
    unfold decodeStatus at h
    split at h
    · cases h
    · obtain rfl := Option.some.inj h
      cases hj
  · obtain ⟨status, -, hd⟩ := List.mem_filterMap.1 h
    unfold decodeStatus at hd
    split at hd
    · cases hd
    · obtain rfl := Option.some.inj hd
      cases hj
  · split at h
    · obtain rfl := List.mem_singleton.1 h; cases hj
    · cases h
  · cases h
  · cases h

section
variable {C : Config} {m m' : MasterState} {l : Label}

theorem intake_step {p : Nat} {acts : Stream → List Act} (h : intake m p acts = some m')
    (ho : ∀ stream, ∀ a ∈ acts stream, a.opens = true)
    (hj : ∀ stream, ∀ a ∈ acts stream, a.joins = true → acts stream = [a] ∧ stream.hostname = none) :
    MasterStep C m l m' := by
  unfold intake at h
  split at h
  next stream hs ht =>
    split at h
    next => cases h
    next hover =>
      obtain rfl := Option.some.inj h
      exact .intake hs (by simpa using hover) ht (ho stream) (hj stream)
  next => cases h

/-- **Inversion of a step.** -/
theorem masterStep_step (h : masterStep C m l = some m') : MasterStep C m l m' := by
  cases l with
  | run p =>
    obtain ⟨a, rest, r, ht, hr, rfl⟩ := step_some h
    exact .act ht (exec_step hr)
  | submit d => obtain rfl := Option.some.inj h; exact .request (by simp [Act.opens]) (by simp [Act.joins])
  | haltRequest id reason => obtain rfl := Option.some.inj h; exact .request (by simp [Act.opens]) (by simp [Act.joins])
  | clearTaintRequest host =>
    obtain rfl := Option.some.inj h
    exact .request (by simp [Act.opens]) (by simp [Act.joins])
  | connect => obtain rfl := Option.some.inj h; exact .connect
  | recv p payload =>
    exact intake_step h (fun stream a ha => handleFrame_opens ha) fun stream a ha => handleFrame_joins ha
  | eof p => exact intake_step h (by simp [Act.opens]) (by simp [Act.joins])
  | streamError p message => exact intake_step h (by simp [Act.opens]) (by simp [Act.joins])
  | drop p =>
    simp only [masterStep] at h
    split at h
    next a rest ht =>
      split at h
      next hg =>
        obtain rfl := Option.some.inj h
        exact .drop ht (Bool.and_eq_true_iff.1 hg).2 (Bool.and_eq_true_iff.1 hg).1
      next => cases h
    next => cases h
  | close t =>
    simp only [masterStep] at h
    split at h
    next stream hs =>
      obtain rfl := Option.some.inj h
      exact .channel stream.taken true hs (Nat.le_refl _) fun _ => rfl
    next => cases h
  | drain t =>
    simp only [masterStep] at h
    split at h
    next stream hs =>
      split at h
      next =>
        obtain rfl := Option.some.inj h
        exact .channel (stream.taken + 1) stream.closed hs (Nat.le_succ _) id
      next => cases h
    next => cases h
  | tick ms => obtain rfl := Option.some.inj h; exact .tick ms

end

end FaultForge.Master
