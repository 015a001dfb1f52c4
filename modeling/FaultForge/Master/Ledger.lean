import FaultForge.Master.DispatchSteps

/-!
# The ledger of frames

Every frame for a host is handed over once, by the salvo of a record or by an operation on it, and from then on it is
in exactly one place: pending in one task, or in the log (enqueued, no session, session closed, abandoned with its
handler). `account q m` counts the frames with `q` over all places; `MasterStep.handed` says how a step changes it.
`reach_sound` is what the store and the pending acts satisfy in every reachable state.
-/
namespace FaultForge.Master

open Lts Tasks

/-! ## Frames and places -/

def isRun (iid : String) : ServerMessage → Bool
  | .runFault r => r.instanceId = iid
  | _ => false

def isAbort (iid : String) : ServerMessage → Bool
  | .abortFault i => i = iid
  | _ => false

/-- A class of frames that dispatch hands over, and no session task or relay. -/
def Dispatched (q : ServerMessage → Bool) : Prop := ∀ f, Outbound.ownReply (.ok f) = true → q f = false

theorem isRun_dispatched (iid : String) : Dispatched (isRun iid) := by
  intro f hf
  cases f <;> first | rfl | cases hf

theorem isAbort_dispatched (iid : String) : Dispatched (isAbort iid) := by
  intro f hf
  cases f <;> first | rfl | cases hf

def Delivery.frame : Delivery → Option ServerMessage
  | .enqueued _ (.ok f) | .noSession _ f | .sessionClosed _ f | .abandoned f => some f
  | .enqueued _ (.err _) => none

def tally (q : ServerMessage → Bool) : Option ServerMessage → Nat
  | some f => (q f).toNat
  | none => 0

def Act.weight (q : ServerMessage → Bool) (a : Act) : Nat := tally q a.frame

def Delivery.weight (q : ServerMessage → Bool) (d : Delivery) : Nat := tally q d.frame

/-- A frame with `q` has gone out on a channel. -/
def Delivery.sends (q : ServerMessage → Bool) : Delivery → Bool
  | .enqueued _ (.ok f) => q f
  | _ => false

/-- How many frames with `q` are pending or in the log. -/
def account (q : ServerMessage → Bool) (m : MasterState) : Nat :=
  weigh (Act.weight q) m.tasks + load (Delivery.weight q) m.shared.log

section
variable {q : ServerMessage → Bool}

theorem plain_weight {a : Act} (h : a.plain = true) : a.weight q = 0 := by
  cases a <;> first | rfl | cases h

theorem load_plain {acts : List Act} (h : ∀ a ∈ acts, a.plain = true) : load (Act.weight q) acts = 0 :=
  load_eq_zero fun a ha => plain_weight (h a ha)

theorem load_abandoned (task : List Act) :
    load (Delivery.weight q) ((task.filterMap Act.frame).map Delivery.abandoned) = load (Act.weight q) task := by
  induction task with
  | nil => rfl
  | cons a task ih =>
    rw [load_cons, ← ih]
    unfold Act.weight
    cases hf : a.frame with
    | none => rw [List.filterMap_cons_none hf]; simp [tally]
    | some f => rw [List.filterMap_cons_some hf]; rfl

theorem sends_le_account (m : MasterState) : m.shared.log.countP (Delivery.sends q) ≤ account q m := by
  have key : ∀ log : List Delivery, log.countP (Delivery.sends q) ≤ load (Delivery.weight q) log := by
    intro log
    induction log with
    | nil => simp
    | cons d log ih =>
      rw [List.countP_cons, load_cons]
      by_cases hd : d.sends q = true
      · have hw : d.weight q = 1 := by
          unfold Delivery.sends at hd
          split at hd
          · simp [Delivery.weight, Delivery.frame, tally, hd]
          · cases hd
        rw [if_pos hd, hw]
        omega
      · rw [if_neg hd]
        omega
  exact Nat.le_trans (key _) (Nat.le_add_left _ _)

theorem Reply.weight (hq : Dispatched q) (t : StreamId) (r : Reply) :
    (Delivery.enqueued t (.ok r.frame)).weight q = 0 := by
  have hf : q r.frame = false := by cases r <;> exact hq _ rfl
  simp [Delivery.weight, Delivery.frame, tally, hf]

end

/-! ## What a step hands over -/

theorem endSession_fields (s : Dispatcher) (p : Nat) :
    (endSession s p).store = s.store ∧ (endSession s p).log = s.log ∧ (endSession s p).seq = s.seq := by
  unfold endSession
  split <;> exact ⟨rfl, rfl, rfl⟩

/-- The frames that enter the ledger in a step, and what the step does to the store. -/
inductive Handed (C : Config) (m : MasterState) (s' : Dispatcher) : List Act → Prop
  | nothing : s'.store = m.shared.store → Handed C m s' []
  | salvo {p : Nat} {rest : List Act} (e : Experiment) :
    m.tasks[p]? = some (.publish e :: rest) → s'.store = m.shared.store.insert e.id e →
    Handed C m s' (sendRunFaults C e)
  | aborts (op : RecordOp) (ids : List ExperimentId) :
    s'.store = (m.shared.store.updateAll op ids).1 → Handed C m s' (sendAborts (m.shared.store.updateAll op ids).2)

section
variable {C : Config} {m m' : MasterState} {l : Label}

theorem ActStep.handed {p : Nat} {a : Act} {rest : List Act} {r : Effect Dispatcher Act}
    (ht : m.tasks[p]? = some (a :: rest)) (h : ActStep C m.shared p a r) :
    ∃ new, Handed C m r.shared new ∧ ∀ q, Dispatched q →
      load (Act.weight q) r.acts + weigh (Act.weight q) r.spawned + load (Delivery.weight q) r.shared.log =
        a.weight q + load (Delivery.weight q) m.shared.log + load (Act.weight q) new := by
  cases h with
  | publish e =>
    refine ⟨_, .salvo e ht rfl, fun q _ => ?_⟩
    have h1 : (Act.publish e).weight q = 0 := rfl
    have h2 : load (Act.weight q) [.arm e.id e.deadlineUnixMs, .respond (.created e)] = 0 := rfl
    simp only [load_append, weigh_nil, h1, h2]
    omega
  | @touch _ op ids acts htouch hacts =>
    have hpl : ∀ b ∈ acts, b.plain = true := by
      intro b hb
      obtain ⟨r, rfl⟩ := hacts b hb
      rfl
    have hw : ∀ q, a.weight q = 0 := by
      intro q
      cases a <;> first | rfl | cases htouch
    refine ⟨_, .aborts op ids rfl, fun q _ => ?_⟩
    simp only [load_append, load_plain hpl, weigh_nil, hw q]
    omega
  | found h f t hs => exact ⟨_, .nothing rfl, fun q _ => by simp [Act.weight, Act.frame]⟩
  | noSession h f hs =>
    exact ⟨_, .nothing rfl, fun q _ => by
      simp [Act.weight, Act.frame, Delivery.weight, Delivery.frame, Nat.add_comm]⟩
  | gone t f hc =>
    exact ⟨_, .nothing rfl, fun q _ => by
      simp [Act.weight, Act.frame, Delivery.weight, Delivery.frame, Nat.add_comm]⟩
  | enqueued t f hc hr =>
    exact ⟨_, .nothing rfl, fun q _ => by
      simp [Act.weight, Act.frame, Delivery.weight, Delivery.frame, Nat.add_comm]⟩
  | relayed t hc hr =>
    exact ⟨_, .nothing rfl, fun q hq => by
      simp [Act.weight, Act.frame, Delivery.weight, Delivery.frame, tally, hq .clearTaint rfl]⟩
  | reply r' hc hr =>
    exact ⟨_, .nothing rfl, fun q hq => by simp [Reply.weight hq, Act.weight, Act.frame, tally]⟩
  | reject st hc hr =>
    exact ⟨_, .nothing rfl, fun q _ => by simp [Act.weight, Act.frame, Delivery.weight, Delivery.frame, tally]⟩
  | leave =>
    obtain ⟨hstore, hlog, -⟩ := endSession_fields m.shared p
    exact ⟨_, .nothing hstore, fun q _ => by simp [Act.weight, Act.frame, hlog, tally]⟩
  | setTaint h tainted reason ts =>
    refine ⟨_, .nothing rfl, fun q _ => ?_⟩
    cases tainted <;> simp [Act.weight, Act.frame, tally]
  | @quiet _ acts hq hacts =>
    have hw : ∀ q, a.weight q = 0 := by
      intro q
      cases a <;> first | rfl | cases hq
    exact ⟨_, .nothing rfl, fun q _ => by simp [load_plain hacts, hw]⟩
  | start | gather | accept | mint | arm | relay | notRelayed | fetchEpoch | insertSession | registerAgent
  | notReplied | notRejected | updateHeartbeat | respond =>
    exact ⟨_, .nothing rfl, fun q _ => by simp [Act.weight, Act.frame, tally, FaultForge.Master.insertSession]⟩

/-- **The account of a step.** -/
theorem MasterStep.handed (h : MasterStep C m l m') :
    ∃ new, Handed C m m'.shared new ∧
      ∀ q, Dispatched q → account q m' = account q m + load (Act.weight q) new := by
  have hopens : ∀ {q : ServerMessage → Bool} {task : List Act}, (∀ a ∈ task, a.opens = true) →
      load (Act.weight q) task = 0 :=
    fun h => load_plain fun a ha => Act.plain_of_opens (h a ha)
  cases h with
  | @act p a rest r ht hs =>
    obtain ⟨new, hnew, hacc⟩ := hs.handed ht
    refine ⟨new, hnew, fun q hq => ?_⟩
    have h1 := hacc q hq
    have h2 := weigh_step (w := Act.weight q) (r := r) ht
    unfold account
    simp only at *
    omega
  | request ho _ => exact ⟨_, .nothing rfl, fun q _ => by simp [account, hopens ho]⟩
  | connect => exact ⟨_, .nothing rfl, fun q _ => by simp [account, Dispatcher.setStream]⟩
  | @intake _ p stream task _ _ ht ho _ =>
    refine ⟨_, .nothing rfl, fun q _ => ?_⟩
    have h1 := weigh_set (w := Act.weight q) ht task
    simp only [hopens ho, load_nil] at h1
    simp only [account, load_nil]
    omega
  | @drop p task ht _ =>
    refine ⟨_, .nothing rfl, fun q _ => ?_⟩
    have h1 := weigh_set (w := Act.weight q) ht []
    have h2 := load_abandoned (q := q) task
    simp only [load_nil] at h1
    simp only [account, load_nil, load_append]
    omega
  | channel _ _ _ _ _ => exact ⟨_, .nothing rfl, fun q _ => by simp [account, Dispatcher.setStream]⟩
  | tick ms => exact ⟨_, .nothing rfl, fun q _ => by simp [account]⟩

end

/-! ## The log -/

/-- What a step with label `l` appends to the log. -/
inductive Logged (m : MasterState) (l : Label) : List Delivery → Prop
  | frame {p : Nat} {t : StreamId} {f : ServerMessage} {rest : List Act} :
    l = .run p → m.tasks[p]? = some (.enqueue t f :: rest) → m.shared.closed t = false →
    Logged m l [.enqueued t (.ok f)]
  | relayed {p : Nat} {t : StreamId} {rest : List Act} :
    l = .run p → m.tasks[p]? = some (.relayTo t :: rest) → m.shared.closed t = false →
    Logged m l [.enqueued t (.ok .clearTaint)]
  | reply {p : Nat} {r : Reply} {rest : List Act} :
    l = .run p → m.tasks[p]? = some (.reply r :: rest) → Logged m l [.enqueued p (.ok r.frame)]
  | reject {p : Nat} {status : Status} {rest : List Act} :
    l = .run p → m.tasks[p]? = some (.reject status :: rest) → Logged m l [.enqueued p (.err status)]
  | other {ds : List Delivery} : (∀ t o, .enqueued t o ∉ ds) → Logged m l ds

theorem MasterStep.logged {C : Config} {m m' : MasterState} {l : Label} (h : MasterStep C m l m') :
    ∃ ds, m'.shared.log = m.shared.log ++ ds ∧ Logged m l ds := by
  have hsame : ∀ {s : Dispatcher}, s.log = m.shared.log → ∃ ds, s.log = m.shared.log ++ ds ∧ Logged m l ds :=
    fun h => ⟨[], by rw [h, List.append_nil], .other (by simp)⟩
  cases h with
  | act ht hs =>
    cases hs with
    | noSession h f _ => exact ⟨_, rfl, .other (by simp)⟩
    | gone t f _ => exact ⟨_, rfl, .other (by simp)⟩
    | enqueued t f hc _ => exact ⟨_, rfl, .frame rfl ht hc⟩
    | relayed t hc _ => exact ⟨_, rfl, .relayed rfl ht hc⟩
    | reply r _ _ => exact ⟨_, rfl, .reply rfl ht⟩
    | reject status _ _ => exact ⟨_, rfl, .reject rfl ht⟩
    | leave => exact hsame (endSession_fields m.shared _).2.1
    | _ => exact hsame rfl
  | drop ht _ => exact ⟨_, rfl, .other (by simp)⟩
  | _ => exact hsame rfl

theorem Delivery.on_some {t : StreamId} {d : Delivery} {o : Outbound} (h : d.on t = some o) : d = .enqueued t o := by
  unfold Delivery.on at h
  split at h
  · split at h
    next ht => rw [Option.some.inj h, ht]
    next => cases h
  · cases h

/-! ## The store -/

theorem Store.update_lookup (st : Store) (id : ExperimentId) (op : RecordOp) (x : ExperimentId) :
    (st.update id op).1.lookup x =
      if x = id then (st.lookup id).map fun e => (e.apply op).1 else st.lookup x := by
  unfold Store.update
  by_cases hx : x = id
  · subst hx
    rw [if_pos rfl]
    cases h : st.lookup x with
    | none => exact h
    | some e => exact AList.lookup_insert st
  · rw [if_neg hx]
    cases st.lookup id with
    | none => rfl
    | some e => exact AList.lookup_insert_ne hx

/-- The rule for several records under one lock: what one update keeps, all keep. -/
theorem Store.updateAll_inv (op : RecordOp) {P : Store → List Target → Prop}
    (hstep : ∀ st acc id, P st acc → P (st.update id op).1 (acc ++ (st.update id op).2)) {st : Store}
    (acc : List Target) (h : P st acc) (ids : List ExperimentId) :
    P (st.updateAll op ids).1 (acc ++ (st.updateAll op ids).2) := by
  induction ids generalizing st acc with
  | nil => simpa [Store.updateAll] using h
  | cons id ids ih =>
    have := ih _ (hstep st acc id h)
    simpa [Store.updateAll, List.append_assoc] using this

section
variable {st : Store} {op : RecordOp}

/-- What an operation keeps of any record, an update keeps of all. -/
theorem Store.update_each {P : ExperimentId → Experiment → Prop} (hP : ∀ x e, P x e → P x (e.apply op).1)
    (h : ∀ x e, st.lookup x = some e → P x e) (id : ExperimentId) {x : ExperimentId} {e : Experiment}
    (he : (st.update id op).1.lookup x = some e) : P x e := by
  rw [Store.update_lookup] at he
  by_cases hx : x = id
  · rw [if_pos hx] at he
    obtain ⟨e₀, h₀, rfl⟩ := Option.map_eq_some_iff.1 he
    exact hP x e₀ (h x e₀ (hx ▸ h₀))
  · rw [if_neg hx] at he
    exact h x e he

theorem Store.updateAll_each {P : ExperimentId → Experiment → Prop} (hP : ∀ x e, P x e → P x (e.apply op).1)
    (h : ∀ x e, st.lookup x = some e → P x e) (ids : List ExperimentId) {x : ExperimentId} {e : Experiment}
    (he : (st.updateAll op ids).1.lookup x = some e) : P x e :=
  Store.updateAll_inv op (P := fun st _ => ∀ x e, st.lookup x = some e → P x e)
    (fun _ _ id hst _ _ he => Store.update_each hP hst id he) [] h ids x e he

variable {x : ExperimentId} {e : Experiment}

/-- What one operation keeps of a record, several records under one lock keep. -/
theorem Store.updateAll_keeps {Q : Experiment → Prop} (hQ : ∀ e, Q e → Q (e.apply op).1)
    (h : st.lookup x = some e) (hq : Q e) (ids : List ExperimentId) :
    ∃ e', (st.updateAll op ids).1.lookup x = some e' ∧ Q e' := by
  refine Store.updateAll_inv op (P := fun st _ => ∃ e', st.lookup x = some e' ∧ Q e') ?_ [] ⟨e, h, hq⟩ ids
  rintro st acc id ⟨e', he, hq⟩
  rw [Store.update_lookup]
  by_cases hx : x = id
  · subst hx
    rw [if_pos rfl, he]
    exact ⟨_, rfl, hQ e' hq⟩
  · rw [if_neg hx]
    exact ⟨e', he, hq⟩

end

/-! ## Records -/

def Experiment.ids (e : Experiment) : List String := e.instances.map InstanceRecord.instanceId

/-- The id was minted, with a sequence number below `seq`. -/
def MintedBelow (seq : Nat) (x : ExperimentId) : Prop := ∃ nowMs k, k < seq ∧ x = .mint nowMs k

theorem MintedBelow.mono {seq seq' : Nat} (hs : seq ≤ seq') {x : ExperimentId} (h : MintedBelow seq x) :
    MintedBelow seq' x := by
  obtain ⟨nowMs, k, hk, rfl⟩ := h
  exact ⟨nowMs, k, by omega, rfl⟩

theorem not_mintedBelow (seq : Nat) (nowMs : Int) : ¬ MintedBelow seq (.mint nowMs seq) := by
  rintro ⟨nowMs', k, hk, he⟩
  rw [mint_seq_inj he] at hk
  omega

/-- What a pending act of `start_experiment` carries. -/
def ActSound (C : Config) (s : Dispatcher) : Act → Prop
  | .gather _ _ facts _ => GatheredFacts facts
  | .mint d => ∃ facts, GatheredFacts facts ∧ validate d C.catalog facts = []
  | .publish e => recordLts.init e ∧ MintedBelow s.seq e.id
  | _ => True

/-- The record of that id still has to be published. -/
def pubs (x : ExperimentId) : Act → Nat
  | .publish e => if e.id = x then 1 else 0
  | _ => 0

def stored (st : Store) (x : ExperimentId) : Nat := if (st.lookup x).isSome then 1 else 0

structure Sound (C : Config) (m : MasterState) : Prop where
  acts : Each (ActSound C m.shared) m.tasks
  records : ∀ x e, m.shared.store.lookup x = some e → e.id = x ∧ Reach recordLts e ∧ MintedBelow m.shared.seq x
  /-- A record is published once. -/
  single : ∀ x, weigh (pubs x) m.tasks + stored m.shared.store x ≤ 1

section
variable {C : Config} {m m' : MasterState} {l : Label}

theorem plain_pubs {a : Act} (h : a.plain = true) (x : ExperimentId) : pubs x a = 0 := by
  cases a <;> first | rfl | cases h

theorem plain_sound {a : Act} (h : a.plain = true) (s : Dispatcher) : ActSound C s a := by
  cases a with
  | gather | mint | publish => cases h
  | _ => trivial

theorem mem_sendRunFaults {e : Experiment} {a : Act} (h : a ∈ sendRunFaults C e) :
    ∃ i f, i ∈ e.instances ∧ runFault C e i = some f ∧ a = .toHost i.hostname (.runFault f) := by
  obtain ⟨i, hi, hm⟩ := List.mem_filterMap.1 h
  obtain ⟨f, hf, he⟩ := Option.map_eq_some_iff.1 hm
  exact ⟨i, f, hi, hf, he.symm⟩

theorem mem_sendAborts {aborts : List Target} {a : Act} (h : a ∈ sendAborts aborts) :
    ∃ t ∈ aborts, a = .toHost t.1 (.abortFault t.2) := by
  obtain ⟨t, ht, rfl⟩ := List.mem_map.1 h
  exact ⟨t, ht, rfl⟩

/-- Records are only published and operated on. -/
theorem Store.updateAll_records {st : Store} {seq : Nat}
    (h : ∀ x e, st.lookup x = some e → e.id = x ∧ Reach recordLts e ∧ MintedBelow seq x) (op : RecordOp)
    (ids : List ExperimentId) (x : ExperimentId) (e : Experiment)
    (he : (st.updateAll op ids).1.lookup x = some e) : e.id = x ∧ Reach recordLts e ∧ MintedBelow seq x := by
  refine Store.updateAll_each (P := fun x e => e.id = x ∧ Reach recordLts e ∧ MintedBelow seq x) ?_ h ids he
  rintro x e ⟨hid, hr, hm⟩
  exact ⟨(e.apply_kept op).id.trans hid, .step hr rfl, hm⟩

theorem Store.updateAll_stored (st : Store) (op : RecordOp) (ids : List ExperimentId) (x : ExperimentId) :
    stored (st.updateAll op ids).1 x = stored st x := by
  refine Store.updateAll_inv op (P := fun st' _ => stored st' x = stored st x) ?_ [] rfl ids
  intro st' acc id h
  rw [← h]
  unfold stored
  rw [Store.update_lookup]
  by_cases hx : x = id
  · rw [if_pos hx, hx, Option.isSome_map]
  · rw [if_neg hx]

theorem sendRunFaults_pubs (e : Experiment) (x : ExperimentId) : load (pubs x) (sendRunFaults C e) = 0 :=
  load_eq_zero fun a ha => by
    obtain ⟨i, f, -, -, rfl⟩ := mem_sendRunFaults ha
    rfl

theorem sendAborts_pubs (aborts : List Target) (x : ExperimentId) : load (pubs x) (sendAborts aborts) = 0 :=
  load_eq_zero fun a ha => by
    obtain ⟨t, -, rfl⟩ := mem_sendAborts ha
    rfl

theorem ActStep.seq_le {s : Dispatcher} {p : Nat} {a : Act} {r : Effect Dispatcher Act} (h : ActStep C s p a r) :
    s.seq ≤ r.shared.seq := by
  cases h with
  | mint => exact Nat.le_succ _
  | leave => rw [(endSession_fields s p).2.2]
  | _ => exact Nat.le_refl _

theorem ActStep.pubs_le {s : Dispatcher} {p : Nat} {a : Act} {r : Effect Dispatcher Act} (h : ActStep C s p a r)
    (x : ExperimentId) :
    ((∃ d, a = .mint d) ∧ r.shared.store = s.store ∧ r.shared.seq = s.seq + 1 ∧
        load (pubs x) r.acts + weigh (pubs x) r.spawned = if .mint s.now s.seq = x then 1 else 0) ∨
      load (pubs x) r.acts + weigh (pubs x) r.spawned + stored r.shared.store x ≤ pubs x a + stored s.store x := by
  cases h with
  | mint d => exact .inl ⟨⟨d, rfl⟩, rfl, rfl, rfl⟩
  | publish e =>
    refine .inr ?_
    have h1 : load (pubs x) [.arm e.id e.deadlineUnixMs, .respond (.created e)] = 0 := rfl
    simp only [load_append, sendRunFaults_pubs, h1, weigh_nil, pubs, stored]
    by_cases hx : x = e.id
    · subst hx
      rw [AList.lookup_insert, if_pos rfl]
      simp
    · rw [AList.lookup_insert_ne hx, if_neg (Ne.symm hx)]
  | @touch _ op ids acts htouch hacts =>
    refine .inr ?_
    have h1 : load (pubs x) acts = 0 := load_eq_zero fun b hb => by
      obtain ⟨r, rfl⟩ := hacts b hb
      rfl
    simp only [load_append, sendAborts_pubs, h1, weigh_nil, Store.updateAll_stored]
    omega
  | leave => exact .inr (by simp [(endSession_fields s p).1])
  | setTaint h tainted reason ts => cases tainted <;> exact .inr (by simp [pubs])
  | @quiet _ acts hq hacts =>
    exact .inr (by simp [load_eq_zero fun b hb => plain_pubs (hacts b hb) x])
  | _ => exact .inr (by simp [pubs, FaultForge.Master.insertSession])

theorem ActStep.sound {s : Dispatcher} {p : Nat} {a : Act} {r : Effect Dispatcher Act} (h : ActStep C s p a r)
    (ha : ActSound C s a) : (∀ b ∈ r.acts, ActSound C r.shared b) ∧ Each (ActSound C r.shared) r.spawned := by
  have hplain : ∀ {acts : List Act} {s : Dispatcher}, (∀ b ∈ acts, b.plain = true) → ∀ b ∈ acts, ActSound C s b :=
    fun h b hb => plain_sound (h b hb) _
  have hnil : Each (ActSound C r.shared) [] := fun _ ht => by cases ht
  cases h with
  | start d => exact ⟨by simpa [ActSound] using gatheredFacts_empty, hnil⟩
  | gather d registry facts host hosts => exact ⟨by simpa [ActSound] using addFacts_gathered ha registry _ host, hnil⟩
  | accept d registry facts hv =>
    refine ⟨fun b hb => ?_, hnil⟩
    obtain rfl := List.mem_singleton.1 hb
    exact ⟨facts, ha, hv⟩
  | mint d =>
    refine ⟨fun b hb => ?_, hnil⟩
    obtain rfl := List.mem_singleton.1 hb
    obtain ⟨facts, hg, hv⟩ := ha
    exact ⟨⟨d, C.catalog, facts, s.now, s.seq, C.defaultGraceSecs, C.deadlineMarginMs, hg, hv, rfl⟩,
      s.now, s.seq, Nat.lt_succ_self _, rfl⟩
  | publish e =>
    refine ⟨fun b hb => ?_, hnil⟩
    rcases List.mem_append.1 hb with hb | hb
    · obtain ⟨i, f, -, -, rfl⟩ := mem_sendRunFaults hb
      trivial
    · simp only [List.mem_cons, List.not_mem_nil, or_false] at hb
      rcases hb with rfl | rfl <;> trivial
  | @touch _ op ids acts htouch hacts =>
    refine ⟨fun b hb => ?_, hnil⟩
    rcases List.mem_append.1 hb with hb | hb
    · obtain ⟨t, -, rfl⟩ := mem_sendAborts hb
      trivial
    · obtain ⟨r, rfl⟩ := hacts b hb
      trivial
  | arm id dl =>
    refine ⟨by simp, fun task ht b hb => ?_⟩
    obtain rfl := List.mem_singleton.1 ht
    obtain rfl := List.mem_singleton.1 hb
    trivial
  | setTaint h tainted reason ts => cases tainted <;> exact ⟨by simp [ActSound], hnil⟩
  | quiet hq hacts => exact ⟨hplain hacts, hnil⟩
  | _ => exact ⟨by simp [ActSound], hnil⟩

/-- Every pending act stays sound when the counter grows. -/
theorem ActSound.mono {s s' : Dispatcher} (h : s.seq ≤ s'.seq) {a : Act} (ha : ActSound C s a) : ActSound C s' a := by
  cases a with
  | publish e => exact ⟨ha.1, ha.2.mono h⟩
  | _ => exact ha

theorem opens_sound {task : List Act} (h : ∀ a ∈ task, a.opens = true) (s : Dispatcher) :
    ∀ a ∈ task, ActSound C s a := fun a ha => plain_sound (Act.plain_of_opens (h a ha)) s

theorem opens_pubs {task : List Act} (h : ∀ a ∈ task, a.opens = true) (x : ExperimentId) :
    load (pubs x) task = 0 := load_eq_zero fun a ha => plain_pubs (Act.plain_of_opens (h a ha)) x

/-- An id that is published, or about to be, has been minted. -/
theorem Sound.minted (hm : Sound C m) {x : ExperimentId} (h : 0 < weigh (pubs x) m.tasks + stored m.shared.store x) :
    MintedBelow m.shared.seq x := by
  by_cases hw : 0 < weigh (pubs x) m.tasks
  · obtain ⟨task, ht, a, ha, hpos⟩ := exists_of_weigh_pos hw
    have hs := hm.acts task ht a ha
    cases a with
    | publish e =>
      have hx : e.id = x := by
        by_contra hne
        simp [pubs, hne] at hpos
      exact hx ▸ hs.2
    | _ => simp [pubs] at hpos
  · have hst : stored m.shared.store x ≠ 0 := by omega
    unfold stored at hst
    cases hl : m.shared.store.lookup x with
    | none => simp [hl] at hst
    | some e => exact (hm.records x e hl).2.2

/-- The step of a task, for the three parts of `Sound`. -/
theorem Sound.act {p : Nat} {a : Act} {rest : List Act} {r : Effect Dispatcher Act} (hm : Sound C m)
    (ht : m.tasks[p]? = some (a :: rest)) (hs : ActStep C m.shared p a r) :
    Sound C ⟨r.shared, m.tasks.set p (r.acts ++ rest) ++ r.spawned⟩ := by
  have ha : ActSound C m.shared a := hm.acts.get ht a List.mem_cons_self
  obtain ⟨hacts, hspawned⟩ := hs.sound ha
  refine ⟨hm.acts.step ht (fun b hb => hb.mono hs.seq_le) hacts hspawned, fun x e he => ?_, fun x => ?_⟩
  · have hold : ∀ x e, m.shared.store.lookup x = some e →
        e.id = x ∧ Reach recordLts e ∧ MintedBelow r.shared.seq x := fun x e he =>
      have h := hm.records x e he
      ⟨h.1, h.2.1, h.2.2.mono hs.seq_le⟩
    cases hs with
    | publish e₀ =>
      by_cases hx : x = e₀.id
      · subst hx
        rw [AList.lookup_insert] at he
        obtain rfl := Option.some.inj he
        exact ⟨rfl, .init ha.1, ha.2⟩
      · rw [AList.lookup_insert_ne hx] at he
        exact hold x e he
    | touch => exact Store.updateAll_records hold _ _ x e he
    | leave => exact hold x e ((endSession_fields m.shared p).1 ▸ he)
    | _ => exact hold x e he
  · have hw := weigh_step (w := pubs x) (r := r) ht
    have h1 := hm.single x
    rcases hs.pubs_le x with ⟨⟨d, rfl⟩, hstore, hseq, hload⟩ | hle
    · by_cases hx : .mint m.shared.now m.shared.seq = x
      · rw [if_pos hx] at hload
        have hnew : weigh (pubs x) m.tasks + stored m.shared.store x = 0 := by
          by_contra hne
          exact not_mintedBelow m.shared.seq m.shared.now (hx ▸ hm.minted (by omega))
        simp only at *
        rw [hstore]
        omega
      · rw [if_neg hx] at hload
        simp only at *
        rw [hstore]
        omega
    · simp only at *
      omega

theorem Sound.step (hm : Sound C m) (h : MasterStep C m l m') : Sound C m' := by
  cases h with
  | act ht hs => exact hm.act ht hs
  | request ho _ =>
    refine ⟨hm.acts.append fun task ht => ?_, hm.records, fun x => ?_⟩
    · obtain rfl := List.mem_singleton.1 ht
      exact opens_sound ho m.shared
    · simpa [opens_pubs ho] using hm.single x
  | connect => exact ⟨hm.acts.append (by simp [Each]), hm.records, fun x => by
    simpa [Dispatcher.setStream] using hm.single x⟩
  | @intake _ p stream task _ _ ht ho _ =>
    refine ⟨hm.acts.set (opens_sound ho m.shared), hm.records, fun x => ?_⟩
    have h1 := weigh_set (w := pubs x) ht task
    have h2 := hm.single x
    simp only [opens_pubs ho, load_nil] at h1
    simp only
    omega
  | @drop p task ht _ =>
    refine ⟨hm.acts.set (by simp), hm.records, fun x => ?_⟩
    have h1 := weigh_set (w := pubs x) ht []
    have h2 := hm.single x
    simp only [load_nil] at h1
    simp only
    omega
  | channel _ _ _ _ _ => exact ⟨hm.acts, hm.records, hm.single⟩
  | tick ms => exact ⟨hm.acts, hm.records, hm.single⟩

/-- **Every reachable state is sound.** -/
theorem reach_sound (h : Reach (masterLts C) m) : Sound C m := by
  refine h.inv (P := Sound C) ?_ fun m l m' hm hs => hm.step (masterStep_step hs)
  rintro m ⟨now, rfl⟩
  refine ⟨?_, ?_, ?_⟩
  · intro task ht
    cases ht
  · intro x e he
    cases he
  · intro x
    simp [stored, Dispatcher.new]

end

end FaultForge.Master
