import FaultForge.Master.Management

/-!
# What the CLI reads of the master's answers, and prints of them (cli/src/api/model.rs)

Two crates describe the same JSON, each with structs of its own. `answers_pass` says that the two agree: what the
master writes, the CLI reads, and with `-o json` prints field for field.

| here | there |
| --- | --- |
| `Agent`, `AgentWire`, `Agent.ofWire`, `Agent.toWire` | model.rs:14, 31, 40, 54 |
| `ExperimentSummary` | model.rs:136 |
| the `ofJson` and `toJson` functions | the derived `Deserialize` and `Serialize` |
-/
namespace FaultForge.Cli

/-! ## Agents -/

structure Agent where
  hostname : String
  name : String
  /-- Nanoseconds since the epoch. -/
  lastSeen : Int
  tainted : Bool
deriving DecidableEq, Repr

structure AgentWire where
  hostname : String
  name : String
  lastSeenUnixMs : Int
  tainted : Bool
deriving DecidableEq, Repr

/-- A negative offset is clamped to the epoch. -/
def Agent.ofWire (w : AgentWire) : Agent := ⟨w.hostname, w.name, msToTime w.lastSeenUnixMs, w.tainted⟩

def Agent.toWire (a : Agent) : AgentWire :=
  ⟨a.hostname, a.name, if a.lastSeen < 0 then 0 else min (a.lastSeen / 1000000) (2 ^ 63 - 1), a.tainted⟩

def AgentWire.ofJson (v : Value) : Option AgentWire :=
  match v.fieldsOr 1 ["hostname", "name", "last_seen_unix_ms", "tainted"] with
  | some [hostname, name, lastSeenUnixMs, tainted] => do
    return ⟨← required Value.asString hostname, ← required Value.asString name, ← required Value.asI64 lastSeenUnixMs,
      ← defaulted Value.asBool false tainted⟩
  | _ => none

def AgentWire.toJson (w : AgentWire) : Value :=
  .object [("hostname", .string w.hostname), ("name", .string w.name), ("last_seen_unix_ms", .int w.lastSeenUnixMs),
    ("tainted", .bool w.tainted)]

def Agent.ofJson (v : Value) : Option Agent := (AgentWire.ofJson v).map Agent.ofWire

def Agent.toJson (a : Agent) : Value := a.toWire.toJson

/-! ## Experiments -/

def Cause.ofJson (v : Value) : Option Cause :=
  match v.fields ["hostname", "instance_id", "reason", "ts_unix_ms"] with
  | some [hostname, instanceId, reason, tsUnixMs] => do
    return ⟨← optional Value.asString hostname, ← optional Value.asString instanceId, ← required Value.asString reason,
      ← required Value.asI64 tsUnixMs⟩
  | _ => none

def Cause.toJson (c : Cause) : Value :=
  .object [("hostname", .option .string c.hostname), ("instance_id", .option .string c.instanceId),
    ("reason", .string c.reason), ("ts_unix_ms", .int c.tsUnixMs)]

def Instance.ofJson (v : Value) : Option Instance :=
  match v.fields ["instance_id", "hostname", "action_index", "state", "reason", "updated_unix_ms"] with
  | some [instanceId, hostname, actionIndex, state, reason, updatedUnixMs] => do
    return ⟨← required Value.asString instanceId, ← required Value.asString hostname,
      ← required Value.asUsize actionIndex, ← required Value.asString state, ← required Value.asString reason,
      ← required Value.asI64 updatedUnixMs⟩
  | _ => none

def Instance.toJson (i : Instance) : Value :=
  .object [("instance_id", .string i.instanceId), ("hostname", .string i.hostname),
    ("action_index", .unsigned (.ofNat i.actionIndex)), ("state", .string i.state), ("reason", .string i.reason),
    ("updated_unix_ms", .int i.updatedUnixMs)]

def Experiment.ofJson (v : Value) : Option Experiment :=
  match v.fields ["id", "name", "state", "outcome", "grace_secs", "started_unix_ms", "deadline_unix_ms", "cause",
    "instances"] with
  | some [id, name, state, outcome, graceSecs, startedUnixMs, deadlineUnixMs, cause, instances] => do
    return ⟨← required Value.asString id, ← required Value.asString name, ← required Value.asString state,
      ← optional Value.asString outcome, ← required Value.asU32 graceSecs, ← required Value.asI64 startedUnixMs,
      ← required Value.asI64 deadlineUnixMs, ← optional Cause.ofJson cause,
      ← required (Value.asVec Instance.ofJson) instances⟩
  | _ => none

def Experiment.toJson (e : Experiment) : Value :=
  .object [("id", .string e.id), ("name", .string e.name), ("state", .string e.state),
    ("outcome", .option .string e.outcome), ("grace_secs", .unsigned e.graceSecs.toUInt64),
    ("started_unix_ms", .int e.startedUnixMs), ("deadline_unix_ms", .int e.deadlineUnixMs),
    ("cause", .option Cause.toJson e.cause), ("instances", .array (e.instances.map Instance.toJson))]

structure ExperimentSummary where
  id : String
  name : String
  state : String
  outcome : Option String
  startedUnixMs : Int
  instances : Nat
deriving DecidableEq, Repr

def ExperimentSummary.ofJson (v : Value) : Option ExperimentSummary :=
  match v.fields ["id", "name", "state", "outcome", "started_unix_ms", "instances"] with
  | some [id, name, state, outcome, startedUnixMs, instances] => do
    return ⟨← required Value.asString id, ← required Value.asString name, ← required Value.asString state,
      ← optional Value.asString outcome, ← required Value.asI64 startedUnixMs, ← required Value.asUsize instances⟩
  | _ => none

def ExperimentSummary.toJson (e : ExperimentSummary) : Value :=
  .object [("id", .string e.id), ("name", .string e.name), ("state", .string e.state),
    ("outcome", .option .string e.outcome), ("started_unix_ms", .int e.startedUnixMs),
    ("instances", .unsigned (.ofNat e.instances))]

/-! ## What the CLI has read -/

open Master (InstanceRecord experimentView experimentSummary agentView stateLabel)

/-- A cause, an instance and a record as the CLI holds them. -/
def Cause.read (c : Master.Cause) : Cause := ⟨c.hostname, c.instanceId, c.reason, c.tsUnixMs⟩

def Instance.read (i : InstanceRecord) : Instance :=
  ⟨i.instanceId, i.hostname.val, i.actionIndex, stateLabel i.state, i.reason, i.updatedUnixMs⟩

def Experiment.read (e : Master.Experiment) : Experiment :=
  ⟨e.id, e.definition.name, (phaseLabels e.phase).1, (phaseLabels e.phase).2, e.graceSecs, e.startedUnixMs,
    e.deadlineUnixMs, e.cause.map Cause.read, e.instances.map Instance.read⟩

/-- The numbers of a record fit their types in the source. -/
structure Representable (e : Master.Experiment) : Prop where
  started : I64.Fits e.startedUnixMs
  deadline : I64.Fits e.deadlineUnixMs
  cause : ∀ c, e.cause = some c → I64.Fits c.tsUnixMs
  instances : ∀ i ∈ e.instances, i.actionIndex < 2 ^ 64 ∧ I64.Fits i.updatedUnixMs
  count : e.instances.length < 2 ^ 64

theorem optional_string (o : Option String) : optional Value.asString (some (Value.option .string o)) = some o :=
  optional_option asString_string (fun _ h => by cases h) o

theorem cause_read {c : Master.Cause} (h : I64.Fits c.tsUnixMs) :
    Cause.ofJson (Master.causeView c).toJson = some (Cause.read c) := by
  simp [Cause.ofJson, Master.CauseView.toJson, Value.fields, Value.fieldsOr, List.lookup_cons, optional_string,
    required, asI64_int h, Master.causeView, Cause.read]

theorem instance_read {i : InstanceRecord} (hindex : i.actionIndex < 2 ^ 64) (h : I64.Fits i.updatedUnixMs) :
    Instance.ofJson (Master.instanceView i).toJson = some (Instance.read i) := by
  simp [Instance.ofJson, Master.InstanceView.toJson, Value.fields, Value.fieldsOr, List.lookup_cons, required,
    asI64_int h, asUsize_unsigned hindex, Master.instanceView, Instance.read]

theorem experimentView_fields (e : Master.Experiment) :
    (experimentView e).toJson.fields ["id", "name", "state", "outcome", "grace_secs", "started_unix_ms",
        "deadline_unix_ms", "cause", "instances"] =
      some [some (.string e.id), some (.string e.definition.name), some (.string (phaseLabels e.phase).1),
        some (.option .string (phaseLabels e.phase).2), some (.unsigned e.graceSecs.toUInt64),
        some (.int e.startedUnixMs), some (.int e.deadlineUnixMs),
        some (.option Master.CauseView.toJson (e.cause.map Master.causeView)),
        some (.array ((e.instances.map Master.instanceView).map Master.InstanceView.toJson))] := by
  simp [Master.ExperimentView.toJson, Value.fields, Value.fieldsOr, List.lookup_cons, experimentView]

theorem experiment_read {e : Master.Experiment} (h : Representable e) :
    Experiment.ofJson (experimentView e).toJson = some (Experiment.read e) := by
  have hcause : optional Cause.ofJson (some (Value.option Master.CauseView.toJson (e.cause.map Master.causeView))) =
      some (e.cause.map Cause.read) := by
    cases hc : e.cause with
    | none => rfl
    | some c =>
      show Value.asOption Cause.ofJson (Master.causeView c).toJson = _
      show Option.map some (Cause.ofJson (Master.causeView c).toJson) = _
      rw [cause_read (h.cause c hc)]
      rfl
  have hinstances : Value.asVec Instance.ofJson
      (.array (e.instances.map (Master.InstanceView.toJson ∘ Master.instanceView))) =
      some (e.instances.map Instance.read) :=
    asVec_array fun i hi => instance_read (h.instances i hi).1 (h.instances i hi).2
  unfold Experiment.ofJson
  rw [experimentView_fields, List.map_map]
  simp only [required, Option.bind_some, asString_string, optional_string, asU32_unsigned, asI64_int h.started,
    asI64_int h.deadline, hcause, hinstances]
  rfl

/-- Whatever the numbers are, the id and the outcome are those of the record. -/
theorem experiment_named {e : Master.Experiment} {r : Experiment}
    (h : Experiment.ofJson (experimentView e).toJson = some r) : r.id = e.id ∧ r.outcome = (phaseLabels e.phase).2 := by
  unfold Experiment.ofJson at h
  rw [experimentView_fields] at h
  dsimp only at h
  obtain ⟨id, hid, h⟩ := Option.bind_eq_some_iff.1 h
  obtain ⟨name, -, h⟩ := Option.bind_eq_some_iff.1 h
  obtain ⟨state, -, h⟩ := Option.bind_eq_some_iff.1 h
  obtain ⟨outcome, houtcome, h⟩ := Option.bind_eq_some_iff.1 h
  obtain ⟨graceSecs, -, h⟩ := Option.bind_eq_some_iff.1 h
  obtain ⟨started, -, h⟩ := Option.bind_eq_some_iff.1 h
  obtain ⟨deadline, -, h⟩ := Option.bind_eq_some_iff.1 h
  obtain ⟨cause, -, h⟩ := Option.bind_eq_some_iff.1 h
  obtain ⟨instances, -, h⟩ := Option.bind_eq_some_iff.1 h
  obtain rfl := Option.some.inj h
  rw [optional_string] at houtcome
  exact ⟨(Option.some.inj hid).symm, (Option.some.inj houtcome).symm⟩

theorem summary_read {e : Master.Experiment} (h : Representable e) :
    ExperimentSummary.ofJson (experimentSummary e).toJson =
      some ⟨e.id, e.definition.name, (phaseLabels e.phase).1, (phaseLabels e.phase).2, e.startedUnixMs,
        e.instances.length⟩ := by
  simp [ExperimentSummary.ofJson, Master.ExperimentSummary.toJson, Value.fields, Value.fieldsOr, List.lookup_cons,
    optional_string, required, asI64_int h.started, asUsize_unsigned h.count, experimentSummary]

theorem agent_read {hostname : Hostname} {info : Master.AgentInfo} (h : I64.Fits info.lastSeen) :
    Agent.ofJson (agentView hostname info).toJson =
      some ⟨hostname.val, hostname.val, msToTime info.lastSeen, info.tainted⟩ := by
  simp [Agent.ofJson, AgentWire.ofJson, Master.AgentView.toJson, Value.fieldsOr, List.lookup_cons, required, defaulted,
    asI64_int h, agentView, Agent.ofWire]

/-! ## What it prints -/

/-- Times after the epoch come back from nanoseconds as they were. -/
theorem toWire_ofWire {w : AgentWire} (h : 0 ≤ w.lastSeenUnixMs) (hmax : w.lastSeenUnixMs < 2 ^ 63) :
    (Agent.ofWire w).toWire = w := by
  obtain ⟨hostname, name, ms, tainted⟩ := w
  dsimp only at h hmax
  have htime : msToTime ms = ms * 1000000 := by
    unfold msToTime
    rw [if_neg (by omega)]
  simp only [Agent.ofWire, Agent.toWire, htime, AgentWire.mk.injEq, true_and, and_true]
  rw [if_neg (by omega), Int.mul_ediv_cancel _ (by decide)]
  omega

theorem experiment_printed (e : Master.Experiment) : (Experiment.read e).toJson = (experimentView e).toJson := by
  have hcause : Value.option Cause.toJson (e.cause.map Cause.read) =
      Value.option Master.CauseView.toJson (e.cause.map Master.causeView) := by
    cases e.cause <;> rfl
  have hinstances : (e.instances.map Instance.read).map Instance.toJson =
      (e.instances.map Master.instanceView).map Master.InstanceView.toJson := by
    rw [List.map_map, List.map_map]
    rfl
  simp only [Experiment.toJson, Master.ExperimentView.toJson, Experiment.read, experimentView, hcause, hinstances]

theorem experiment_passes {e : Master.Experiment} (h : Representable e) :
    (Experiment.ofJson (experimentView e).toJson).map Experiment.toJson = some (experimentView e).toJson := by
  rw [experiment_read h, Option.map_some, experiment_printed]

theorem summary_passes {e : Master.Experiment} (h : Representable e) :
    (ExperimentSummary.ofJson (experimentSummary e).toJson).map ExperimentSummary.toJson =
      some (experimentSummary e).toJson := by
  rw [summary_read h]
  rfl

theorem agent_passes {hostname : Hostname} {info : Master.AgentInfo} (h : 0 ≤ info.lastSeen)
    (hmax : info.lastSeen < 2 ^ 63) :
    (Agent.ofJson (agentView hostname info).toJson).map Agent.toJson = some (agentView hostname info).toJson := by
  rw [agent_read (I64.fits_of_le h hmax), Option.map_some]
  refine congrArg some ?_
  have hwire := @toWire_ofWire ⟨hostname.val, hostname.val, info.lastSeen, info.tainted⟩ h hmax
  show (Agent.ofWire ⟨hostname.val, hostname.val, info.lastSeen, info.tainted⟩).toWire.toJson = _
  rw [hwire]
  rfl

/-- Elements that pass one by one pass as a list. -/
theorem vec_passes {α β : Type} {f : Value → Option α} {g : α → Value} {k : β → Value} {l : List β}
    (h : ∀ b ∈ l, (f (k b)).map g = some (k b)) :
    ((Value.array (l.map k)).asVec f).map (fun items => Value.array (items.map g)) = some (.array (l.map k)) := by
  have key : ∀ l : List β, (∀ b ∈ l, (f (k b)).map g = some (k b)) →
      ∃ items, (l.map k).mapM f = some items ∧ items.map g = l.map k := by
    intro l
    induction l with
    | nil => exact fun _ => ⟨[], rfl, rfl⟩
    | cons b l ih =>
      intro h
      obtain ⟨a, ha, hg⟩ := Option.map_eq_some_iff.1 (h b List.mem_cons_self)
      obtain ⟨items, hitems, hmap⟩ := ih fun c hc => h c (List.mem_cons_of_mem _ hc)
      refine ⟨a :: items, ?_, by rw [List.map_cons, List.map_cons, hg, hmap]⟩
      rw [List.map_cons, List.mapM_cons, ha, hitems]
      rfl
  obtain ⟨items, hitems, hmap⟩ := key l h
  show ((l.map k).mapM f).map _ = _
  rw [hitems, Option.map_some, hmap]

/-- The numbers of the master's registry and records fit their types; no agent was seen before the epoch. -/
structure InRange (s : Master.Dispatcher) : Prop where
  records : ∀ x e, s.store.lookup x = some e → Representable e
  agents : ∀ h info, s.registry.lookup h = some info → 0 ≤ info.lastSeen ∧ info.lastSeen < 2 ^ 63

/-- **What the master answers is what `-o json` prints**: one record, one agent, and both lists. -/
theorem answers_pass {s : Master.Dispatcher} (h : InRange s) :
    (∀ id body, (Master.getExperiment s id).body = some body →
      (Experiment.ofJson body).map Experiment.toJson = some body) ∧
    (∀ body, (Master.listExperiments s).body = some body →
      (body.asVec ExperimentSummary.ofJson).map (fun items => .array (items.map ExperimentSummary.toJson)) =
        some body) ∧
    (∀ hostname body, (Master.getAgent s hostname).body = some body →
      (Agent.ofJson body).map Agent.toJson = some body) ∧
    (∀ body, (Master.listAgents s).body = some body →
      (body.asVec Agent.ofJson).map (fun items => .array (items.map Agent.toJson)) = some body) := by
  have hentry : ∀ {entry}, entry ∈ s.store.entries → Representable entry.2 := fun he =>
    h.records _ _ (AList.mem_lookup_iff.2 he)
  refine ⟨fun id body hb => ?_, fun body hb => ?_, fun hostname body hb => ?_, fun body hb => ?_⟩
  · unfold Master.getExperiment at hb
    split at hb
    next => cases hb
    next e he => exact Option.some.inj hb ▸ experiment_passes (h.records id e he)
  · obtain rfl := Option.some.inj hb
    refine vec_passes fun e he => summary_passes ?_
    rw [Master.sortedExperiments, List.mem_mergeSort] at he
    obtain ⟨entry, hentry', rfl⟩ := List.mem_map.1 he
    exact hentry hentry'
  · unfold Master.getAgent at hb
    split at hb
    next => cases hb
    next hostname' _ =>
      split at hb
      next => cases hb
      next info hinfo =>
        obtain ⟨h0, hmax⟩ := h.agents hostname' info hinfo
        exact Option.some.inj hb ▸ agent_passes h0 hmax
  · obtain rfl := Option.some.inj hb
    refine vec_passes fun view hview => ?_
    rw [List.mem_mergeSort] at hview
    obtain ⟨entry, hentry', rfl⟩ := List.mem_map.1 hview
    obtain ⟨h0, hmax⟩ := h.agents entry.1 entry.2 (AList.mem_lookup_iff.2 hentry')
    exact agent_passes h0 hmax

/-- Two hosts, and one record of both. -/
def sampleMaster : Master.Dispatcher :=
  { Master.Dispatcher.new 1000 with
    registry := Master.sampleRegistry
    store := AList.singleton Master.sampleRecord.id Master.sampleRecord }

theorem sampleMaster_inRange : InRange sampleMaster := by
  constructor
  · intro x e h
    have hentry : Sigma.mk x e ∈ sampleMaster.store.entries := AList.mem_lookup_iff.1 h
    obtain ⟨-, he⟩ := Sigma.mk.inj_iff.1 (List.mem_singleton.1 hentry)
    obtain rfl := eq_of_heq he
    refine ⟨by decide +kernel, by decide +kernel, fun c hc => ?_, by decide +kernel, by decide +kernel⟩
    cases hc
  · intro h info hinfo
    have hentry : Sigma.mk h info ∈ sampleMaster.registry.entries := AList.mem_lookup_iff.1 hinfo
    have hall : ∀ entry ∈ sampleMaster.registry.entries, 0 ≤ entry.2.lastSeen ∧ entry.2.lastSeen < 2 ^ 63 := by
      decide +kernel
    exact hall _ hentry

theorem answers_pass_sample : ∃ body, (Master.getExperiment sampleMaster Master.sampleRecord.id).body = some body ∧
    (Experiment.ofJson body).map Experiment.toJson = some body := by
  have hlookup : sampleMaster.store.lookup Master.sampleRecord.id = some Master.sampleRecord :=
    AList.lookup_insert (∅ : Master.Store)
  have hbody : (Master.getExperiment sampleMaster Master.sampleRecord.id).body =
      some (experimentView Master.sampleRecord).toJson := by
    simp only [Master.getExperiment, hlookup]
  exact ⟨_, hbody, (answers_pass sampleMaster_inRange).1 _ _ hbody⟩

end FaultForge.Cli
