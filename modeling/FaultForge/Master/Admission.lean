import FaultForge.Master.DispatchSteps
import FaultForge.Master.Rejection

/-!
# What is admitted, and what becomes of it (experiment.rs:216-295, 419-460, dispatch.rs:123-213)

`start_experiment` validates raw host strings against gathered facts, mints with hostnames that it parses again, and
looks the plugin up again before it sends. `Acceptable` says of the registry, the session map and the catalog what a
definition must meet; a call made on its own accepts exactly that (`admission_exact`), and what it then mints and sends
skips nothing (`Complete`).
-/
namespace FaultForge.Master

open Lts Tasks

/-! ## What is acceptable -/

/-- The host is inside the id charset, registered, connected and not quarantined. -/
def TargetOk (r : Registry) (m : SessionMap) (host : String) : Prop :=
  hostnameIdSafe host = true ∧ ∃ hostname info, hostname.val = host ∧ r.lookup hostname = some info ∧
    m.isConnected hostname = true ∧ info.tainted = false

structure ActionAcceptable (catalog : Catalog) (r : Registry) (m : SessionMap) (d : ActionDefinition) : Prop where
  hosts : d.hosts ≠ []
  distinct : d.hosts.Nodup
  plugin : ∃ entry, catalog.get d.plugin.name d.plugin.version = some entry ∧
    validateParams entry.manifest.paramsSchema d.params = .ok () ∧ d.durationSecs ≤ entry.manifest.maxDurationSecs
  duration : 0 < d.durationSecs
  targets : ∀ host ∈ d.hosts, TargetOk r m host

structure Acceptable (catalog : Catalog) (r : Registry) (m : SessionMap) (definition : ExperimentDefinition) :
    Prop where
  actions : definition.actions ≠ []
  each : ∀ d ∈ definition.actions, ActionAcceptable catalog r m d

/-- The record has a `PENDING` instance for each target of each action, in the order of the definition, and the salvo a
frame for each instance whose parameters can be encoded. -/
structure Complete (C : Config) (definition : ExperimentDefinition) (e : Experiment) : Prop where
  instances : e.instances.map (fun i => (i.actionIndex, i.hostname.val, i.state)) =
    definition.actions.zipIdx.flatMap fun x => x.1.hosts.map fun host => (x.2, host, .pending)
  once : (e.instances.map fun i => (i.actionIndex, i.hostname.val)).Nodup
  parses : ∀ (action : Nat) (d : ActionDefinition) (host : String), definition.actions[action]? = some d →
    host ∈ d.hosts → ∃ i, mintInstance e.id e.startedUnixMs action host = some i
  plugins : ∀ i ∈ e.instances, ∃ d entry, e.definition.actions[i.actionIndex]? = some d ∧
    C.catalog.get d.plugin.name d.plugin.version = some entry ∧
    (runFault C e i = none ↔ C.encodeParams d.params = none)

/-- An act of a call that has not been accepted. -/
def Act.judges : Act → Bool
  | .start _ | .gather .. | .respond (.rejected _) => true
  | _ => false

/-! ## The facts -/

theorem addFacts_lookup {r : Registry} {m : SessionMap} (facts : AList fun _ : String => HostFacts)
    (a host : String) : (addFacts r m facts a).lookup host =
      (facts.lookup host).or (if host = a then (Hostname.parse a).toOption.map (hostFacts r m) else none) := by
  unfold addFacts
  by_cases hmem : a ∈ facts
  · rw [if_pos hmem]
    by_cases he : host = a
    · obtain ⟨f, hf⟩ := Option.isSome_iff_exists.1 (AList.lookup_isSome.2 hmem)
      rw [he, hf]
      rfl
    · rw [if_neg he, Option.or_none]
  · rw [if_neg hmem]
    have hnone : facts.lookup a = none := AList.lookup_eq_none.2 hmem
    by_cases he : host = a
    · rw [he, hnone, if_pos rfl, Option.none_or]
      cases Hostname.parse a with
      | error e => exact hnone
      | ok hostname => exact AList.lookup_insert facts
    · rw [if_neg he, Option.or_none]
      cases Hostname.parse a with
      | error e => rfl
      | ok hostname => exact AList.lookup_insert_ne he

theorem foldl_addFacts_lookup {r : Registry} {m : SessionMap} (hosts : List String)
    (facts : AList fun _ : String => HostFacts) (host : String) : (hosts.foldl (addFacts r m) facts).lookup host =
      (facts.lookup host).or (if host ∈ hosts then (Hostname.parse host).toOption.map (hostFacts r m) else none) := by
  induction hosts generalizing facts with
  | nil => simp
  | cons a hosts ih =>
    rw [List.foldl_cons, ih, addFacts_lookup, Option.or_assoc]
    by_cases he : host = a
    · subst he
      by_cases hm : host ∈ hosts
      · simp only [hm, if_true, List.mem_cons, true_or, Option.or_self]
      · simp only [hm, if_true, if_false, List.mem_cons, true_or, Option.or_none]
    · simp only [he, if_false, Option.none_or, List.mem_cons, false_or]

/-- What the gathered facts say of a target inside the id charset. -/
theorem factsOf_gathered {r : Registry} {m : SessionMap} {definition : ExperimentDefinition} {d : ActionDefinition}
    {host : String} (hd : d ∈ definition.actions) (hm : host ∈ d.hosts) :
    factsOf (gatherHostFacts r m definition) host =
      ((Hostname.parse host).toOption.map (hostFacts r m)).getD ⟨false, false, false⟩ := by
  have htarget : host ∈ definition.actions.flatMap ActionDefinition.hosts := List.mem_flatMap.2 ⟨d, hd, hm⟩
  rw [factsOf, gatherHostFacts, foldl_addFacts_lookup, if_pos htarget]
  rfl

/-- No check of the host fails exactly when it is an acceptable target. -/
theorem targetOk_iff {r : Registry} {m : SessionMap} {definition : ExperimentDefinition} {d : ActionDefinition}
    {host : String} (hd : d ∈ definition.actions) (hm : host ∈ d.hosts) :
    (∀ check : HostCheck, check.fails (gatherHostFacts r m definition) host = false) ↔ TargetOk r m host := by
  have hfacts := factsOf_gathered (r := r) (m := m) hd hm
  constructor
  · intro h
    have hsafe : hostnameIdSafe host = true := by simpa [HostCheck.fails] using h .idSafe
    have hreg := h .registered
    have hconn := h .connected
    have htaint := h .untainted
    simp only [HostCheck.fails, hfacts] at hreg hconn htaint
    cases hp : Hostname.parse host with
    | error e => simp [hp, Except.toOption] at hreg
    | ok hostname =>
      simp only [hp, Except.toOption, Option.map_some, Option.getD_some, hostFacts] at hreg hconn htaint
      cases hl : r.lookup hostname with
      | none => simp [hl] at hreg
      | some info =>
        simp only [hl] at htaint
        exact ⟨hsafe, hostname, info, parse_val hsafe hp, hl, by simpa using hconn, htaint⟩
  · rintro ⟨hsafe, hostname, info, rfl, hl, hconn, htaint⟩ check
    rw [hostname.parse_val] at hfacts
    cases check <;> simp [HostCheck.fails, hfacts, Except.toOption, hostFacts, hl, hconn, htaint, hsafe]

/-! ## The verdict -/

theorem acceptable_iff {catalog : Catalog} {r : Registry} {m : SessionMap} {definition : ExperimentDefinition} :
    validate definition catalog (gatherHostFacts r m definition) = [] ↔ Acceptable catalog r m definition := by
  rw [validate_nil_iff]
  constructor
  · intro h
    refine ⟨h .actions, fun d hd => ?_⟩
    obtain ⟨action, hact⟩ := List.mem_iff_getElem?.1 hd
    have hcheck : ∀ check : ActionCheck, ¬ check.Fails catalog (gatherHostFacts r m definition) d :=
      fun check hfails => h (.ofAction action check) ⟨d, hact, hfails⟩
    constructor
    · exact hcheck .hosts
    · exact List.nodup_iff_count_le_one.2 fun host => Nat.le_of_not_lt (hcheck (.distinct host))
    · cases hp : catalog.get d.plugin.name d.plugin.version with
      | none => exact absurd hp (hcheck .plugin)
      | some entry =>
        refine ⟨entry, rfl, ?_, ?_⟩
        · by_contra hparams
          exact hcheck .params ⟨entry, hp, hparams⟩
        · exact UInt32.not_lt.1 fun hlt => hcheck .cap ⟨entry, hp, hlt⟩
    · exact UInt32.pos_iff_ne_zero.2 (hcheck .duration)
    · intro host hm
      refine (targetOk_iff hd hm).1 fun check => ?_
      exact Bool.eq_false_iff.2 fun hfails => hcheck (.host check host) ⟨hm, hfails⟩
  · intro h check hfails
    cases check with
    | actions => exact h.actions hfails
    | ofAction action check =>
      obtain ⟨d, hact, hfails⟩ := hfails
      have hd := List.mem_of_getElem? hact
      have hok := h.each d hd
      obtain ⟨entry, hp, hparams, hcap⟩ := hok.plugin
      cases check with
      | hosts => exact hok.hosts hfails
      | plugin => simp [show catalog.get _ _ = none from hfails] at hp
      | params =>
        obtain ⟨entry', hp', hne⟩ := hfails
        obtain rfl := Option.some.inj (hp.symm.trans hp')
        exact hne hparams
      | duration => exact UInt32.pos_iff_ne_zero.1 hok.duration hfails
      | cap =>
        obtain ⟨entry', hp', hlt⟩ := hfails
        obtain rfl := Option.some.inj (hp.symm.trans hp')
        exact UInt32.not_lt.2 hcap hlt
      | distinct host => exact Nat.not_lt.2 (List.nodup_iff_count_le_one.1 hok.distinct host) hfails
      | host check host =>
        have hnone := (targetOk_iff hd hfails.1).2 (hok.targets host hfails.1) check
        rw [hfails.2] at hnone
        cases hnone

/-! ## The minted record -/

section
variable {C : Config} {r : Registry} {m : SessionMap} {definition : ExperimentDefinition}

/-- An acceptable target is minted. -/
theorem TargetOk.mint {host : String} (h : TargetOk r m host) (id : ExperimentId) (nowMs : Int) (action : Nat) :
    ∃ hostname : Hostname, hostname.val = host ∧ mintInstance id nowMs action host =
      some ⟨instanceId id hostname action, hostname, action, .pending, "", nowMs, false⟩ := by
  obtain ⟨hsafe, hostname, info, rfl, -⟩ := h
  refine ⟨hostname, rfl, ?_⟩
  rw [mintInstance, Hostname.parse_val]

theorem map_filterMap_mint {hosts : List String} (h : ∀ host ∈ hosts, TargetOk r m host) (id : ExperimentId)
    (nowMs : Int) (action : Nat) :
    (hosts.filterMap (mintInstance id nowMs action)).map (fun i => (i.actionIndex, i.hostname.val, i.state)) =
      hosts.map fun host => (action, host, InstanceState.pending) := by
  induction hosts with
  | nil => rfl
  | cons host hosts ih =>
    obtain ⟨hostname, rfl, hmint⟩ := (h host List.mem_cons_self).mint id nowMs action
    rw [List.filterMap_cons_some hmint, List.map_cons, List.map_cons, ih fun a ha => h a (List.mem_cons_of_mem _ ha)]

theorem map_mint (h : Acceptable C.catalog r m definition) (id : ExperimentId) (graceSecs : UInt32)
    (nowMs marginMs : Int) :
    (mintExperiment id definition graceSecs nowMs marginMs).instances.map
      (fun i => (i.actionIndex, i.hostname.val, i.state)) =
    definition.actions.zipIdx.flatMap fun x => x.1.hosts.map fun host => (x.2, host, InstanceState.pending) := by
  rw [mintExperiment, List.map_flatMap]
  refine List.flatMap_congr fun x hx => ?_
  obtain ⟨d, action⟩ := x
  have hd := List.mem_of_getElem? (List.mem_zipIdx_iff_getElem?.1 hx)
  exact map_filterMap_mint (h.each d hd).targets id nowMs action

theorem pairs_nodup (h : Acceptable C.catalog r m definition) :
    (definition.actions.zipIdx.flatMap fun x => x.1.hosts.map fun host => (x.2, host)).Nodup := by
  rw [List.nodup_flatMap]
  constructor
  · intro x hx
    have hd := List.mem_of_getElem? (List.mem_zipIdx_iff_getElem?.1 hx)
    exact (h.each x.1 hd).distinct.map fun a b hab => (Prod.mk.inj hab).2
  · have hsnd : definition.actions.zipIdx.Pairwise fun x y => x.2 ≠ y.2 :=
      List.pairwise_map.1 (List.nodup_zipIdx_map_snd definition.actions)
    refine hsnd.imp fun {x y} hne a hx hy => hne ?_
    obtain ⟨host, -, rfl⟩ := List.mem_map.1 hx
    obtain ⟨host', -, he⟩ := List.mem_map.1 hy
    exact (Prod.mk.inj he).1.symm

theorem runFault_none_iff {e : Experiment} {i : InstanceRecord} {d : ActionDefinition} {entry : CatalogEntry}
    (hd : e.definition.actions[i.actionIndex]? = some d)
    (hentry : C.catalog.get d.plugin.name d.plugin.version = some entry) :
    runFault C e i = none ↔ C.encodeParams d.params = none := by
  unfold runFault
  simp only [hd, Option.bind_eq_bind, Option.bind_some, hentry]
  cases C.encodeParams d.params <;> simp

theorem Acceptable.complete (h : Acceptable C.catalog r m definition) (id : ExperimentId) (graceSecs : UInt32)
    (nowMs marginMs : Int) : Complete C definition (mintExperiment id definition graceSecs nowMs marginMs) where
  instances := map_mint h id graceSecs nowMs marginMs
  once := by
    have hpairs := congrArg (List.map fun t : Nat × String × InstanceState => (t.1, t.2.1))
      (map_mint h id graceSecs nowMs marginMs)
    rw [List.map_map, List.map_flatMap] at hpairs
    have hnodup := pairs_nodup h
    simp only [List.map_map, Function.comp_def] at hpairs
    rw [hpairs]
    exact hnodup
  parses := by
    intro action d host hd hm
    obtain ⟨hostname, -, hmint⟩ := ((h.each d (List.mem_of_getElem? hd)).targets host hm).mint id nowMs action
    exact ⟨_, hmint⟩
  plugins := by
    intro i hi
    obtain ⟨d, action, host, hd, -, hmint⟩ := mem_mint hi
    obtain ⟨hostname, -, rfl⟩ := mintInstance_some hmint
    obtain ⟨entry, hentry, -⟩ := (h.each d (List.mem_of_getElem? hd)).plugin
    exact ⟨d, entry, hd, hentry, runFault_none_iff hd hentry⟩

end

/-! ## The call -/

section
variable {C : Config} {s : Dispatcher} {tasks : List (List Act)} {p : Nat} {definition : ExperimentDefinition}

/-- The act of a task that has only this one left. -/
theorem step_act {a : Act} {s' : Dispatcher} {acts : List Act} (ht : tasks[p]? = some [a])
    (h : exec C s p a = some ⟨s', acts, []⟩) : step (exec C) ⟨s, tasks⟩ p = some ⟨s', tasks.set p acts⟩ := by
  rw [step_of_exec (m := ⟨s, tasks⟩) ht h, List.append_nil, List.append_nil]

/-- The gathering loop of a call on its own. -/
theorem solo_gather (C : Config) (s : Dispatcher) {registry : Registry} {facts : AList fun _ : String => HostFacts}
    {hosts : List String} (ht : tasks[p]? = some [.gather definition registry facts hosts]) :
    Solo (exec C) p ⟨s, tasks⟩
      ⟨s, tasks.set p [.gather definition registry (hosts.foldl (addFacts registry s.sessions) facts) []]⟩ := by
  have hlt : p < tasks.length := (List.getElem?_eq_some_iff.1 ht).1
  induction hosts generalizing facts tasks with
  | nil =>
    have hsame : tasks.set p [.gather definition registry facts []] = tasks := by
      have hget := (List.getElem?_eq_some_iff.1 ht).2
      rw [← hget]
      exact List.set_getElem_self hlt
    rw [List.foldl_nil, hsame]
    exact .refl _
  | cons host hosts ih =>
    have hstep := step_act (C := C) (s := s) ht rfl
    have hget : (tasks.set p [.gather definition registry (addFacts registry s.sessions facts host) hosts])[p]? =
        some [.gather definition registry (addFacts registry s.sessions facts host) hosts] :=
      List.getElem?_set_self hlt
    have hnext := ih hget (by rwa [List.length_set])
    rw [List.set_set] at hnext
    exact .head hstep hnext

/-- A call that has not been accepted changes nothing but its answer, in any state and whoever else is at work. -/
theorem judges_step {a : Act} {r : Effect Dispatcher Act} (ha : a.judges = true) (h : exec C s p a = some r) :
    r.shared = { s with responses := r.shared.responses } ∧ r.spawned = [] ∧
      ((∀ b ∈ r.acts, b.judges = true) ∨ ∃ d, r.acts = [.mint d]) := by
  cases a with
  | start d =>
    obtain rfl := Option.some.inj h
    exact ⟨rfl, rfl, .inl (by simp [Act.judges])⟩
  | gather d registry facts hosts =>
    cases hosts with
    | cons host hosts =>
      obtain rfl := Option.some.inj h
      exact ⟨rfl, rfl, .inl (by simp [Act.judges])⟩
    | nil =>
      simp only [exec] at h
      split at h
      next =>
        obtain rfl := Option.some.inj h
        exact ⟨rfl, rfl, .inr ⟨d, rfl⟩⟩
      next =>
        obtain rfl := Option.some.inj h
        exact ⟨rfl, rfl, .inl (by simp [Act.judges])⟩
  | respond res =>
    obtain rfl := Option.some.inj h
    exact ⟨rfl, rfl, .inl (by simp)⟩
  | _ => cases ha

/-- The verdict of a call on its own. -/
theorem solo_verdict (ht : tasks[p]? = some [.start definition]) :
    ∃ verdict, Solo (exec C) p ⟨s, tasks⟩ ⟨s, tasks.set p [verdict]⟩ ∧
      (Acceptable C.catalog s.registry s.sessions definition → verdict = .mint definition) ∧
      (¬ Acceptable C.catalog s.registry s.sessions definition →
        ∃ failures, failures ≠ [] ∧ verdict = .respond (.rejected failures)) := by
  have hlt : p < tasks.length := (List.getElem?_eq_some_iff.1 ht).1
  have hstart := step_act (C := C) (s := s) ht rfl
  have hgathering : (tasks.set p
      [.gather definition s.registry ∅ (definition.actions.flatMap ActionDefinition.hosts)])[p]?
      = some [.gather definition s.registry ∅ (definition.actions.flatMap ActionDefinition.hosts)] :=
    List.getElem?_set_self hlt
  have hgather := solo_gather C s hgathering
  rw [List.set_set] at hgather
  have hget : (tasks.set p [.gather definition s.registry (gatherHostFacts s.registry s.sessions definition) []])[p]? =
      some [.gather definition s.registry (gatherHostFacts s.registry s.sessions definition) []] :=
    List.getElem?_set_self hlt
  cases hval : validate definition C.catalog (gatherHostFacts s.registry s.sessions definition) with
  | nil =>
    have hexec : exec C s p (.gather definition s.registry (gatherHostFacts s.registry s.sessions definition) []) =
        some ⟨s, [.mint definition], []⟩ := by simp only [exec, hval, goOn]
    have hverdict := step_act hget hexec
    rw [List.set_set] at hverdict
    refine ⟨_, .head hstart (hgather.trans (.head hverdict (.refl _))), fun _ => rfl, fun hno => ?_⟩
    exact absurd (acceptable_iff.1 hval) hno
  | cons f fs =>
    have hexec : exec C s p (.gather definition s.registry (gatherHostFacts s.registry s.sessions definition) []) =
        some ⟨s, [.respond (.rejected (f :: fs))], []⟩ := by simp only [exec, hval, goOn]
    have hverdict := step_act hget hexec
    rw [List.set_set] at hverdict
    refine ⟨_, .head hstart (hgather.trans (.head hverdict (.refl _))), fun hok => ?_, fun _ => ⟨_, by simp, rfl⟩⟩
    rw [acceptable_iff.2 hok] at hval
    cases hval

end

/-- **Acceptance is exact and dispatch is complete.** A submission handled on its own publishes a complete record when
it is acceptable; when it is not, it is answered with its failures and nothing else changes. Whatever runs in between,
a call that is not accepted touches neither store nor channel. -/
theorem admission_exact (C : Config) (m : MasterState) (p : Nat) (definition : ExperimentDefinition)
    (ht : m.tasks[p]? = some [.start definition]) :
    (Acceptable C.catalog m.shared.registry m.shared.sessions definition →
      ∃ e, e = mintExperiment (.mint m.shared.now m.shared.seq) definition C.defaultGraceSecs m.shared.now
          C.deadlineMarginMs ∧
        Solo (exec C) p m ⟨{ m.shared with seq := m.shared.seq + 1 }, m.tasks.set p [.publish e]⟩ ∧
        Complete C definition e) ∧
    (¬ Acceptable C.catalog m.shared.registry m.shared.sessions definition →
      ∃ failures, failures ≠ [] ∧ Solo (exec C) p m
        ⟨{ m.shared with responses := m.shared.responses ++ [(p, .rejected failures)] }, m.tasks.set p []⟩) ∧
    ∀ (s : Dispatcher) (q : Nat) (a : Act) (r : Effect Dispatcher Act), a.judges = true → exec C s q a = some r →
      r.shared = { s with responses := r.shared.responses } ∧ r.spawned = [] ∧
        ((∀ b ∈ r.acts, b.judges = true) ∨ ∃ d, r.acts = [.mint d]) := by
  have hlt : p < m.tasks.length := (List.getElem?_eq_some_iff.1 ht).1
  obtain ⟨verdict, hsolo, haccept, hreject⟩ := solo_verdict (C := C) (s := m.shared) ht
  have hget : (m.tasks.set p [verdict])[p]? = some [verdict] := List.getElem?_set_self hlt
  refine ⟨fun hok => ?_, fun hno => ?_, fun s q a r ha h => judges_step ha h⟩
  · obtain rfl := haccept hok
    have hmint := step_act (C := C) (s := m.shared) hget rfl
    rw [List.set_set] at hmint
    exact ⟨_, rfl, hsolo.trans (.head hmint (.refl _)), hok.complete _ _ _ _⟩
  · obtain ⟨failures, hne, rfl⟩ := hreject hno
    have hrespond := step_act (C := C) (s := m.shared) hget rfl
    rw [List.set_set] at hrespond
    exact ⟨failures, hne, hsolo.trans (.head hrespond (.refl _))⟩

/-- A submission for two connected hosts. -/
def admissible : MasterState :=
  ⟨{ Dispatcher.new 1000 with registry := sampleRegistry, sessions := sampleSessions }, [[.start sampleDefinition]]⟩

theorem admission_exact_sample :
    ∃ e, e = mintExperiment (.mint 1000 1) sampleDefinition 30 1000 DEADLINE_MARGIN_MS ∧
      Solo (exec sampleConfig) 0 admissible ⟨{ admissible.shared with seq := 2 }, [[.publish e]]⟩ ∧
      Complete sampleConfig sampleDefinition e :=
  (admission_exact sampleConfig admissible 0 sampleDefinition rfl).1 (acceptable_iff.1 (by decide +kernel))

end FaultForge.Master
