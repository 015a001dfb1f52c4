import FaultForge.Master.Blame
import FaultForge.Master.Ledger

/-!
# Taints in records, facts and registry (dispatch.rs:151-174, 282-306; registry.rs:32-56)

What an operation does to the tainted hosts of a record (`Experiment.apply_recorded`), what validation makes of a host
that the registry has as tainted (`FactsOf.bars`), and why `set_taint` always finds its host (`reach_known`).
-/
namespace FaultForge.Master

open Lts Tasks

/-! ## The taints of a record -/

/-- The host is among the tainted ones. -/
def Experiment.recorded (e : Experiment) (host : Hostname) : Bool :=
  e.taintedHosts.any fun t => t.hostname = host.val

/-- The operation puts the host among the tainted ones. -/
def RecordOp.marks (e : Experiment) (host : Hostname) : RecordOp → Bool
  | .taint hostname _ _ => !e.isConcluded && e.targetsHost hostname && hostname == host.val
  | _ => false

section
variable {e : Experiment} {host : Hostname}

theorem fireKillSwitch_tainted (e : Experiment) (cause : Cause) :
    (fireKillSwitch e cause).1.taintedHosts = e.taintedHosts := by
  unfold fireKillSwitch
  split <;> rfl

theorem reactToUpdate_tainted (e : Experiment) : (reactToUpdate e).1.taintedHosts = e.taintedHosts := by
  unfold reactToUpdate
  cases e.killTrigger with
  | some cause => exact (concludeIfDone_tainted _).trans (fireKillSwitch_tainted e cause)
  | none => exact concludeIfDone_tainted e

theorem expireAll_tainted (e : Experiment) (nowMs : Int) (targets : List Target) :
    (e.expireAll nowMs targets).taintedHosts = e.taintedHosts := by
  unfold Experiment.expireAll
  induction targets generalizing e with
  | nil => rfl
  | cons target targets ih =>
    rw [List.foldl_cons, ih]
    cases ha : e.applyStatus target.2 .error UNRESOLVED nowMs with
    | none => rfl
    | some e₁ =>
      obtain ⟨l, -, rfl⟩ := Option.map_eq_some_iff.1 ha
      rfl

theorem recordTaint_recorded (e : Experiment) (hostname reason : String) (ts : Int) (host : Hostname) :
    (e.recordTaint hostname reason ts).recorded host = (e.recorded host || hostname == host.val) := by
  unfold Experiment.recordTaint Experiment.recorded
  split
  next hany =>
    by_cases hh : hostname = host.val
    · subst hh
      simpa using hany
    · simp [hh]
  next => simp [beq_eq_decide]

/-- What an operation does to the mark. -/
theorem Experiment.apply_recorded (e : Experiment) (op : RecordOp) (host : Hostname) :
    (e.apply op).1.recorded host = (e.recorded host || op.marks e host) := by
  have same : ∀ {e' : Experiment}, e'.taintedHosts = e.taintedHosts → e'.recorded host = e.recorded host :=
    fun h => by unfold Experiment.recorded; rw [h]
  cases op with
  | status iid state reason ts =>
    refine (same ?_).trans (Bool.or_false _).symm
    show (e.handleStatus iid state reason ts).1.taintedHosts = e.taintedHosts
    unfold Experiment.handleStatus
    cases ha : e.applyStatus iid state reason ts with
    | none => rfl
    | some e₁ =>
      obtain ⟨l, -, rfl⟩ := Option.map_eq_some_iff.1 ha
      exact reactToUpdate_tainted _
  | taint hostname reason ts =>
    show (e.handleTaint hostname reason ts).1.recorded host = _
    unfold Experiment.handleTaint RecordOp.marks
    by_cases hopen : (e.isConcluded || !e.targetsHost hostname) = true
    · rw [if_pos hopen]
      rcases Bool.or_eq_true_iff.1 hopen with hc | ht
      · simp [hc]
      · simp [Bool.not_eq_true' .. ▸ ht]
    · rw [if_neg hopen]
      obtain ⟨hc, ht⟩ := Bool.or_eq_false_iff.1 (Bool.eq_false_iff.2 hopen)
      have hreact := reactToUpdate_tainted (e.recordTaint hostname reason ts)
      have hmark := recordTaint_recorded e hostname reason ts host
      unfold Experiment.recorded at *
      rw [hreact, hmark]
      simp [hc, Bool.not_eq_false' .. ▸ ht]
  | halt reason now =>
    refine (same ?_).trans (Bool.or_false _).symm
    show (e.halt reason now).1.taintedHosts = e.taintedHosts
    unfold Experiment.halt
    split
    · rfl
    · exact (concludeIfDone_tainted _).trans (fireKillSwitch_tainted e _)
  | deadline now =>
    refine (same ?_).trans (Bool.or_false _).symm
    show (e.resolveDeadline now).1.taintedHosts = e.taintedHosts
    unfold Experiment.resolveDeadline
    split
    · rfl
    · exact (concludeIfDone_tainted _).trans (expireAll_tainted _ _ _)

theorem Experiment.apply_targets (e : Experiment) (op : RecordOp) (hostname : String) :
    (e.apply op).1.targetsHost hostname = e.targetsHost hostname := by
  have hkeys := congrArg (fun l : List (String × Hostname × Nat) => l.any fun k => k.2.1.val = hostname)
    (e.apply_kept op).keys
  rw [List.any_map, List.any_map] at hkeys
  exact hkeys

/-- A record with a tainted host has left `RUNNING`, and has a cause. -/
theorem Experiment.Consistent.fired (h : e.Consistent) (hr : e.recorded host = true) :
    e.phase ≠ .running ∧ e.cause.isSome = true := by
  have hne : e.taintedHosts ≠ [] := fun he => by simp [Experiment.recorded, he] at hr
  unfold Experiment.Consistent at h
  cases hp : e.phase with
  | running =>
    rw [hp] at h
    exact absurd h.untainted hne
  | halting =>
    rw [hp] at h
    exact ⟨by simp, h.cause⟩
  | concluded outcome =>
    rw [hp] at h
    have herr : outcome = .error := h.error.2 (.inr hne)
    exact ⟨by simp, h.cause (by simp [herr])⟩

end

/-! ## The taint of a record in the store -/

section
variable {st : Store} {op : RecordOp} {x : ExperimentId} {e : Experiment}

theorem Store.updateAll_cons (st : Store) (op : RecordOp) (id : ExperimentId) (ids : List ExperimentId) :
    (st.updateAll op (id :: ids)).1 = ((st.update id op).1.updateAll op ids).1 := rfl

/-- A sweep that lists the record reaches it. -/
theorem Store.updateAll_reaches {R : Experiment → Prop} (hR : ∀ e, R e → R (e.apply op).1)
    (h : st.lookup x = some e) (hr : R (e.apply op).1) {ids : List ExperimentId} (hx : x ∈ ids) :
    ∃ e', (st.updateAll op ids).1.lookup x = some e' ∧ R e' := by
  induction ids generalizing st with
  | nil => cases hx
  | cons id ids ih =>
    rw [Store.updateAll_cons]
    by_cases he : x = id
    · subst he
      refine Store.updateAll_keeps hR (e := (e.apply op).1) ?_ hr ids
      rw [Store.update_lookup, if_pos rfl, h, Option.map_some]
    · refine ih ?_ (List.mem_of_ne_of_mem he hx)
      rw [Store.update_lookup, if_neg he, h]

end

/-! ## The taint of a host in the registry, and in the facts read from it -/

def flagged (r : Registry) (host : Hostname) : Bool := (r.lookup host).any AgentInfo.tainted

theorem hostFacts_of_flagged {r : Registry} {host : Hostname} (h : flagged r host = true) (m : SessionMap) :
    (hostFacts r m host).registered = true ∧ (hostFacts r m host).tainted = true := by
  unfold flagged at h
  cases hl : r.lookup host with
  | none => rw [hl] at h; cases h
  | some info =>
    rw [hl] at h
    exact ⟨by simp [hostFacts, hl], by simpa [hostFacts, hl] using h⟩

/-- The definition has an action on that host. -/
def ExperimentDefinition.Targets (d : ExperimentDefinition) (host : Hostname) : Prop :=
  ∃ a ∈ d.actions, ∃ name ∈ a.hosts, Hostname.parse name = .ok host

/-- VALIDATE refuses the host: as tainted, or by a check that it makes before the one for the taint. -/
def ValidationFailure.Bars (host : Hostname) (f : ValidationFailure) : Prop :=
  ∃ action, f = .hostTainted action host.val ∨ f = .hostDisconnected action host.val ∨
    ∃ name, Hostname.parse name = .ok host ∧ f = .hostnameNotIdSafe action name

/-- Facts gathered from `r` while `hosts` are still to do: those about a flagged host say so. -/
structure FactsOf (r : Registry) (host : Hostname) (d : ExperimentDefinition) (hosts : List String)
    (facts : AList fun _ : String => HostFacts) : Prop where
  right : flagged r host = true → ∀ name f, facts.lookup name = some f → Hostname.parse name = .ok host →
    f.registered = true ∧ f.tainted = true
  covers : ∀ name ∈ d.actions.flatMap ActionDefinition.hosts, Hostname.parse name = .ok host →
    name ∈ hosts ∨ name ∈ facts

section
variable {r : Registry} {host : Hostname} {d : ExperimentDefinition} {facts : AList fun _ : String => HostFacts}

theorem factsOf_start (r : Registry) (host : Hostname) (d : ExperimentDefinition) :
    FactsOf r host d (d.actions.flatMap ActionDefinition.hosts) ∅ :=
  ⟨fun _ _ _ hl _ => (by cases hl), fun _ hn _ => .inl hn⟩

theorem FactsOf.add {name : String} {hosts : List String} (h : FactsOf r host d (name :: hosts) facts)
    (m : SessionMap) : FactsOf r host d hosts (addFacts r m facts name) := by
  unfold addFacts
  split
  next hmem =>
    refine ⟨h.right, fun n hn hp => ?_⟩
    rcases h.covers n hn hp with hn | hn
    · rcases List.mem_cons.1 hn with rfl | hn
      · exact .inr hmem
      · exact .inl hn
    · exact .inr hn
  next =>
    split
    next err hperr =>
      refine ⟨h.right, fun n hn hp => ?_⟩
      rcases h.covers n hn hp with hn | hn
      · rcases List.mem_cons.1 hn with rfl | hn
        · rw [hperr] at hp
          cases hp
        · exact .inl hn
      · exact .inr hn
    next hostname hpok =>
      refine ⟨fun hflag n f hl hp => ?_, fun n hn hp => ?_⟩
      · by_cases hne : n = name
        · subst hne
          rw [AList.lookup_insert] at hl
          obtain rfl := Option.some.inj hl
          rw [hpok] at hp
          obtain rfl := Except.ok.inj hp
          exact hostFacts_of_flagged hflag m
        · rw [AList.lookup_insert_ne hne] at hl
          exact h.right hflag n f hl hp
      · rcases h.covers n hn hp with hn | hn
        · rcases List.mem_cons.1 hn with rfl | hn
          · exact .inr (AList.mem_insert _ |>.2 (.inl rfl))
          · exact .inl hn
        · exact .inr (AList.mem_insert _ |>.2 (.inr hn))

theorem mem_validateHosts {action : Nat} {name : String} {f : ValidationFailure}
    (hf : f ∈ validateHost facts action name) {hosts seen : List String} (hn : name ∈ hosts) (hs : name ∉ seen) :
    f ∈ validateHosts facts action seen hosts := by
  induction hosts generalizing seen with
  | nil => cases hn
  | cons a hosts ih =>
    unfold validateHosts
    by_cases ha : a = name
    · subst ha
      rw [if_neg hs]
      exact List.mem_append_left _ hf
    · have hn := List.mem_of_ne_of_mem (Ne.symm ha) hn
      split
      · exact List.mem_cons_of_mem _ (ih hn hs)
      · refine List.mem_append_right _ (ih hn fun hm => ?_)
        exact (List.mem_cons.1 hm).elim (Ne.symm ha) hs

/-- **A host that the snapshot has as tainted is refused.** -/
theorem FactsOf.bars (h : FactsOf r host d [] facts) (ht : d.Targets host) (hflag : flagged r host = true)
    (catalog : Catalog) : ∃ f ∈ validate d catalog facts, f.Bars host := by
  obtain ⟨a, ha, name, hname, hp⟩ := ht
  obtain ⟨action, hact⟩ := List.mem_iff_getElem?.1 ha
  have hmem : name ∈ facts :=
    (h.covers name (List.mem_flatMap.2 ⟨a, ha, hname⟩) hp).resolve_left List.not_mem_nil
  obtain ⟨f, hl⟩ := Option.isSome_iff_exists.1 (AList.lookup_isSome.2 hmem)
  obtain ⟨hreg, htaint⟩ := h.right hflag name f hl hp
  obtain ⟨failure, hfail, hbars⟩ : ∃ failure ∈ validateHost facts action name, failure.Bars host := by
    unfold validateHost
    by_cases hsafe : hostnameIdSafe name = true
    · obtain rfl := parse_val hsafe hp
      cases hc : f.connected with
      | true => exact ⟨_, by simp [hsafe, hl, hreg, hc, htaint], action, .inl rfl⟩
      | false => exact ⟨_, by simp [hsafe, hl, hreg, hc], action, .inr (.inl rfl)⟩
    · exact ⟨_, by simp [hsafe], action, .inr (.inr ⟨name, hp, rfl⟩)⟩
  refine ⟨failure, List.mem_append_right _ (List.mem_flatMap.2 ⟨(a, action), List.mem_zipIdx_iff_getElem?.2 hact, ?_⟩),
    hbars⟩
  exact List.mem_append_right _ (mem_validateHosts hfail hname List.not_mem_nil)

/-- The minted record targets what its definition does. -/
theorem mintExperiment_targets (ht : d.Targets host) (id : ExperimentId) (graceSecs : UInt32) (nowMs marginMs : Int) :
    (mintExperiment id d graceSecs nowMs marginMs).targetsHost host.val = true := by
  obtain ⟨a, ha, name, hname, hp⟩ := ht
  obtain ⟨action, hact⟩ := List.mem_iff_getElem?.1 ha
  refine List.any_eq_true.2 ⟨⟨instanceId id host action, host, action, .pending, "", nowMs, false⟩, ?_, by simp⟩
  refine List.mem_flatMap.2 ⟨(a, action), List.mem_zipIdx_iff_getElem?.2 hact, ?_⟩
  exact List.mem_filterMap.2 ⟨name, hname, by simp [mintInstance, hp]⟩

end

/-! ## Who is in the registry -/

/-- The host that the act counts on to be in the registry. -/
def Act.needs : Act → Option Hostname
  | .fetchEpoch host _ | .insertSession host _ _ | .setTaint host .. => some host
  | _ => none

/-- The host of a stream, or of a frame that is being handled, has registered. -/
structure Known (m : MasterState) : Prop where
  streams : ∀ t stream host, m.shared.streams t = some stream → stream.hostname = some host → host ∈ m.shared.registry
  acts : Each (fun a => ∀ host, a.needs = some host → host ∈ m.shared.registry) m.tasks

section
variable {C : Config} {m m' : MasterState} {l : Label} {p : Nat} {a : Act} {r : Effect Dispatcher Act} {host : Hostname}

theorem ActStep.registry_mono {s : Dispatcher} (h : ActStep C s p a r) (hk : host ∈ s.registry) :
    host ∈ r.shared.registry := by
  cases h with
  | setTaint h tainted reason ts =>
    show host ∈ FaultForge.Master.setTaint s.registry h tainted
    unfold FaultForge.Master.setTaint
    split
    · exact AList.mem_insert _ |>.2 (.inr hk)
    · exact hk
  | registerAgent h now => exact AList.mem_insert _ |>.2 (.inr hk)
  | updateHeartbeat h now =>
    show host ∈ FaultForge.Master.updateHeartbeat s.registry h now
    unfold FaultForge.Master.updateHeartbeat
    split
    · exact AList.mem_insert _ |>.2 (.inr hk)
    · exact hk
  | leave =>
    show host ∈ (endSession s p).registry
    unfold endSession
    split <;> exact hk
  | _ => exact hk

theorem quiet_needs {s : Dispatcher} (h : exec C s p a = some r) (hq : a.quiet = true) {b : Act} (hb : b ∈ r.acts) :
    b.needs = none := by
  have hgo : ∀ {acts : List Act}, goOn s acts = some r → (∀ c ∈ acts, c.needs = none) → b.needs = none := by
    intro acts hg hacts
    obtain rfl := Option.some.inj hg
    exact hacts b hb
  cases a with
  | gather d registry facts hosts =>
    cases hosts with
    | cons name hosts => exact hgo h (by simp [Act.needs])
    | nil =>
      simp only [exec] at h
      split at h <;> exact hgo h (by simp [Act.needs])
  | timer id dl => exact hgo h (by simp [Act.needs])
  | sleep wake =>
    simp only [exec] at h
    split at h
    · exact hgo h (by simp)
    · cases h
  | status iid state reason ts =>
    simp only [exec, handleStatus] at h
    split at h
    · exact hgo h (by simp)
    · obtain rfl := Option.some.inj h
      simp only [List.append_nil] at hb
      obtain ⟨t, -, rfl⟩ := mem_sendAborts hb
      rfl
  | halt id reason =>
    simp only [exec, handleHalt] at h
    split at h
    · exact hgo h (by simp [Act.needs])
    · split at h
      · exact hgo h (by simp [Act.needs])
      · obtain rfl := Option.some.inj h
        rcases List.mem_append.1 hb with hb | hb
        · obtain ⟨t, -, rfl⟩ := mem_sendAborts hb
          rfl
        · obtain rfl := List.mem_singleton.1 hb
          rfl
  | clearTaint h' =>
    simp only [exec] at h
    split at h <;> exact hgo h (by simp [Act.needs])
  | relay h' =>
    simp only [exec] at h
    split at h <;> exact hgo h (by simp [Act.needs])
  | _ => cases hq

/-- What an act leaves to do counts on no host that is not there. -/
theorem exec_needs {s : Dispatcher} (h : exec C s p a = some r) (ha : ∀ host, a.needs = some host → host ∈ s.registry)
    {b : Act} (hb : b ∈ r.acts) (hn : b.needs = some host) : host ∈ r.shared.registry := by
  cases exec_step h with
  | publish e =>
    rcases List.mem_append.1 hb with hb | hb
    · obtain ⟨i, f, -, -, rfl⟩ := mem_sendRunFaults hb
      cases hn
    · simp only [List.mem_cons, List.not_mem_nil, or_false] at hb
      rcases hb with rfl | rfl <;> cases hn
  | touch htouch hacts =>
    rcases List.mem_append.1 hb with hb | hb
    · obtain ⟨t, -, rfl⟩ := mem_sendAborts hb
      cases hn
    · obtain ⟨r, rfl⟩ := hacts b hb
      cases hn
  | registerAgent h' now =>
    obtain rfl := List.mem_singleton.1 hb
    obtain rfl := Option.some.inj hn
    exact AList.mem_insert _ |>.2 (.inl rfl)
  | fetchEpoch h' now =>
    obtain rfl := List.mem_singleton.1 hb
    obtain rfl := Option.some.inj hn
    exact ha h' rfl
  | setTaint h' tainted reason ts =>
    cases tainted with
    | true => obtain rfl := List.mem_singleton.1 hb; cases hn
    | false => cases hb
  | quiet hq _ _ => rw [quiet_needs h hq hb] at hn; cases hn
  | noSession | gone | enqueued | arm | reply | leave | respond => cases hb
  | _ => obtain rfl := List.mem_singleton.1 hb; cases hn

/-- A stream has its host from a `Register` on it. -/
theorem ActStep.stream_host {s : Dispatcher} (h : ActStep C s p a r) {t : StreamId} {stream : Stream}
    (hs : r.shared.streams t = some stream) (hh : stream.hostname = some host) :
    (∃ stream', s.streams t = some stream' ∧ stream'.hostname = some host) ∨ a.needs = some host := by
  cases h with
  | insertSession h epoch now =>
    by_cases ht : t = p
    · subst ht
      refine .inr ?_
      simp only [FaultForge.Master.insertSession, Function.update_self] at hs
      obtain ⟨old, -, rfl⟩ := Option.map_eq_some_iff.1 hs
      exact hh
    · exact .inl ⟨stream, (Function.update_of_ne ht _ _).symm.trans hs, hh⟩
  | leave =>
    refine .inl ?_
    unfold endSession at hs
    split at hs
    next => exact ⟨stream, hs, hh⟩
    next old hold =>
      by_cases ht : t = p
      · subst ht
        simp only [Function.update_self] at hs
        obtain rfl := Option.some.inj hs
        exact ⟨old, hold, hh⟩
      · exact ⟨stream, (Function.update_of_ne ht _ _).symm.trans hs, hh⟩
  | _ => exact .inl ⟨stream, hs, hh⟩

/-- A frame that is handled is about the host of its stream. -/
theorem handleFrame_needs {now : Int} {stream : Stream} {payload : Option AgentMessage}
    (ha : a ∈ handleFrame now stream payload) (hn : a.needs = some host) : stream.hostname = some host := by
  unfold handleFrame at ha
  split at ha
  · split at ha <;> (obtain rfl := List.mem_singleton.1 ha; cases hn)
  · split at ha <;> (obtain rfl := List.mem_singleton.1 ha; cases hn)
  · rw [Option.mem_toList] at ha
    unfold decodeStatus at ha
    split at ha
    · cases ha
    · obtain rfl := Option.some.inj ha
      cases hn
  · obtain ⟨status, -, hd⟩ := List.mem_filterMap.1 ha
    unfold decodeStatus at hd
    split at hd
    · cases hd
    · obtain rfl := Option.some.inj hd
      cases hn
  · split at ha
    next hostname hs =>
      obtain rfl := List.mem_singleton.1 ha
      exact hs.trans hn
    next => cases ha
  · cases ha
  · cases ha

theorem Known.intake (hk : Known m) {acts : Stream → List Act} (h : intake m p acts = some m')
    (hacts : ∀ stream, ∀ a ∈ acts stream, ∀ host, a.needs = some host → stream.hostname = some host) : Known m' := by
  unfold FaultForge.Master.intake at h
  split at h
  next stream hs ht =>
    split at h
    next => cases h
    next =>
      obtain rfl := Option.some.inj h
      exact ⟨hk.streams, hk.acts.set fun a ha host hn => hk.streams p stream host hs (hacts stream a ha host hn)⟩
  next => cases h

theorem Known.setStream (hk : Known m) (t : StreamId) (stream : Stream)
    (hs : ∀ host, stream.hostname = some host → host ∈ m.shared.registry) {tasks : List (List Act)}
    (ht : Each (fun a => ∀ host, a.needs = some host → host ∈ m.shared.registry) tasks) :
    Known ⟨m.shared.setStream t stream, tasks⟩ := by
  refine ⟨fun t' stream' host hs' hh => ?_, ht⟩
  by_cases he : t' = t
  · subst he
    simp only [Dispatcher.setStream, Function.update_self] at hs'
    obtain rfl := Option.some.inj hs'
    exact hs host hh
  · exact hk.streams t' stream' host ((Function.update_of_ne he _ _).symm.trans hs') hh

theorem Known.step (hk : Known m) (h : masterStep C m l = some m') : Known m' := by
  have hnew : ∀ {task : List Act}, (∀ a ∈ task, a.needs = none) → Known ⟨m.shared, m.tasks ++ [task]⟩ := by
    intro task ht
    refine ⟨hk.streams, hk.acts.append fun t hm a ha host hn => ?_⟩
    obtain rfl := List.mem_singleton.1 hm
    rw [ht a ha] at hn
    cases hn
  cases l with
  | run p =>
    obtain ⟨a, rest, r, ht, hr, rfl⟩ := step_some h
    have hstep := exec_step hr
    have ha := hk.acts.get ht a List.mem_cons_self
    refine ⟨fun t stream host hs hh => ?_, hk.acts.step ht (fun b hb host hn => hstep.registry_mono (hb host hn))
      (fun b hb host hn => exec_needs hr ha hb hn) fun task htask b hb host hn => ?_⟩
    · rcases hstep.stream_host hs hh with ⟨old, hold, hho⟩ | hn
      · exact hstep.registry_mono (hk.streams t old host hold hho)
      · exact hstep.registry_mono (ha host hn)
    · cases hstep with
      | arm id dl =>
        obtain rfl := List.mem_singleton.1 htask
        obtain rfl := List.mem_singleton.1 hb
        cases hn
      | _ => cases htask
  | submit d => obtain rfl := Option.some.inj h; exact hnew (by simp [Act.needs])
  | haltRequest id reason => obtain rfl := Option.some.inj h; exact hnew (by simp [Act.needs])
  | clearTaintRequest host => obtain rfl := Option.some.inj h; exact hnew (by simp [Act.needs])
  | connect =>
    obtain rfl := Option.some.inj h
    exact hk.setStream _ _ (fun _ hh => by cases hh) (hk.acts.append (by simp [Each]))
  | recv p payload => exact hk.intake h fun stream a ha host hn => handleFrame_needs ha hn
  | eof p => exact hk.intake h (by simp [Act.needs])
  | streamError p message => exact hk.intake h (by simp [Act.needs])
  | drop p =>
    simp only [masterStep] at h
    split at h
    next =>
      split at h
      next =>
        obtain rfl := Option.some.inj h
        exact ⟨hk.streams, hk.acts.set (by simp)⟩
      next => cases h
    next => cases h
  | close t =>
    simp only [masterStep] at h
    split at h
    next stream hs =>
      obtain rfl := Option.some.inj h
      exact hk.setStream t { stream with closed := true } (fun host hh => hk.streams t stream host hs hh) hk.acts
    next => cases h
  | drain t =>
    simp only [masterStep] at h
    split at h
    next stream hs =>
      split at h
      next =>
        obtain rfl := Option.some.inj h
        exact hk.setStream t { stream with taken := stream.taken + 1 }
          (fun host hh => hk.streams t stream host hs hh) hk.acts
      next => cases h
    next => cases h
  | tick ms => obtain rfl := Option.some.inj h; exact ⟨hk.streams, hk.acts⟩

theorem reach_known (h : Reach (masterLts C) m) : Known m := by
  refine h.inv (P := Known) ?_ fun m l m' hk hs => hk.step hs
  rintro m ⟨now, rfl⟩
  exact ⟨fun t stream host hs => (by cases hs), fun task ht => by cases ht⟩

end

end FaultForge.Master
