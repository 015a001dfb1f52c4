import FaultForge.Master.Heard
import FaultForge.Master.Taints

/-!
# Reports in any order (master/src: dispatch.rs, experiment.rs)

Hosts report independently, so the statuses of different instances reach `handle_instance_status` in any order, and the
kill-switch fires at different moments. What a record makes of them does not depend on it: an instance ends where its
own reports leave it (`reports_standings`), and with no taint, halt or deadline the phase is a function of where the
instances are (`Unforced.phase_eq`).

| here | there |
| --- | --- |
| `Report` | the tuple of `decode_status`, session.rs:66 |
| `Dispatcher.handleInstanceStatus` | `handle_instance_status` dispatch.rs:241, on the store |
| `Standing.absorb` | `apply_status` on the fields of one instance, experiment.rs:473 |
-/
namespace FaultForge.Master

structure Report where
  instanceId : String
  state : InstanceState
  reason : String
  tsUnixMs : Int
deriving DecidableEq, Repr

/-- What a report may change of an instance. -/
abbrev Standing := InstanceState × String × Int

def InstanceRecord.standing (i : InstanceRecord) : Standing := (i.state, i.reason, i.updatedUnixMs)

/-- A terminal instance absorbs every report; any other takes the report over. -/
def Standing.absorb (s : Standing) (r : Report) : Standing :=
  if s.1.isTerminal then s else (r.state, r.reason, r.tsUnixMs)

def InstanceRecord.seat (i : InstanceRecord) : String × Standing := (i.instanceId, i.standing)

/-- One report to one record. -/
def Experiment.reported (e : Experiment) (r : Report) : Experiment :=
  (e.apply (.status r.instanceId r.state r.reason r.tsUnixMs)).1

/-! ## Instances -/

theorem applyTo_seats {r : Report} {l : List InstanceRecord} (hd : (l.map InstanceRecord.instanceId).Nodup) :
    ((applyTo r.instanceId r.state r.reason r.tsUnixMs l).getD l).map InstanceRecord.seat =
      l.map fun i => (i.instanceId, if i.instanceId = r.instanceId then i.standing.absorb r else i.standing) := by
  induction l with
  | nil => rfl
  | cons a l ih =>
    obtain ⟨hfresh, hd⟩ := List.nodup_cons.1 hd
    unfold applyTo
    by_cases ha : a.instanceId = r.instanceId
    · -- no other instance has the id, so the rest stays
      have hrest : l.map InstanceRecord.seat =
          l.map fun i => (i.instanceId, if i.instanceId = r.instanceId then i.standing.absorb r else i.standing) := by
        refine List.map_congr_left fun i hi => ?_
        have hne : i.instanceId ≠ r.instanceId := fun he =>
          hfresh (ha.trans he.symm ▸ List.mem_map_of_mem hi)
        rw [if_neg hne]
        rfl
      rw [if_pos ha]
      cases ht : a.isTerminal with
      | true =>
        have habsorb : a.standing.absorb r = a.standing := if_pos ht
        simp [hrest, ha, InstanceRecord.seat, habsorb]
      | false =>
        have habsorb : a.standing.absorb r = (r.state, r.reason, r.tsUnixMs) := by
          rw [Standing.absorb, if_neg]
          rw [show a.standing.1.isTerminal = a.isTerminal from rfl, ht]
          exact Bool.false_ne_true
        simp only [Bool.false_eq_true, if_false, Option.getD_some, List.map_cons, hrest, if_pos ha, habsorb]
        rfl
    · rw [if_neg ha]
      have htail := ih hd
      cases hl : applyTo r.instanceId r.state r.reason r.tsUnixMs l with
      | none => simpa [hl, ha, InstanceRecord.seat] using htail
      | some l' => simpa [hl, ha, InstanceRecord.seat] using htail

section
variable {e : Experiment}

theorem concludeIfDone_seats (e : Experiment) :
    (concludeIfDone e).instances.map InstanceRecord.seat = e.instances.map InstanceRecord.seat := by
  rw [concludeIfDone_instances]

theorem fireKillSwitch_seats (e : Experiment) (cause : Cause) :
    (fireKillSwitch e cause).1.instances.map InstanceRecord.seat = e.instances.map InstanceRecord.seat := by
  unfold fireKillSwitch
  split
  · rfl
  · rw [List.map_map]
    refine List.map_congr_left fun i _ => ?_
    simp only [Function.comp_apply]
    split <;> rfl

/-- The reaction to a change asks instances to abort and moves the phase; it moves no instance. -/
theorem reactToUpdate_seats (e : Experiment) :
    (reactToUpdate e).1.instances.map InstanceRecord.seat = e.instances.map InstanceRecord.seat := by
  unfold reactToUpdate
  cases e.killTrigger with
  | none => exact concludeIfDone_seats e
  | some cause => exact (concludeIfDone_seats _).trans (fireKillSwitch_seats e cause)

theorem reported_seats (hd : e.IdsDistinct) (r : Report) :
    (e.reported r).instances.map InstanceRecord.seat =
      e.instances.map fun i =>
        (i.instanceId, if i.instanceId = r.instanceId then i.standing.absorb r else i.standing) := by
  have happly := applyTo_seats (r := r) hd
  show (e.handleStatus r.instanceId r.state r.reason r.tsUnixMs).1.instances.map InstanceRecord.seat = _
  unfold Experiment.handleStatus Experiment.applyStatus
  cases ha : applyTo r.instanceId r.state r.reason r.tsUnixMs e.instances with
  | none => simpa [ha] using happly
  | some l =>
    rw [ha] at happly
    exact (reactToUpdate_seats _).trans happly

theorem reported_idsDistinct (hd : e.IdsDistinct) (r : Report) : (e.reported r).IdsDistinct := by
  unfold Experiment.IdsDistinct
  rw [Experiment.reported, (e.apply_kept _).ids]
  exact hd

/-- **Where an instance stands** after any reports: where its own leave it. -/
theorem reports_standings (hd : e.IdsDistinct) (reports : List Report) :
    (reports.foldl Experiment.reported e).instances.map InstanceRecord.seat = e.instances.map fun i =>
      (i.instanceId, (reports.filter fun r => r.instanceId = i.instanceId).foldl Standing.absorb i.standing) := by
  induction reports generalizing e with
  | nil => rfl
  | cons r reports ih =>
    let rest : String × Standing → String × Standing := fun s =>
      (s.1, (reports.filter fun r => r.instanceId = s.1).foldl Standing.absorb s.2)
    have hfirst := congrArg (List.map rest) (reported_seats hd r)
    rw [List.foldl_cons, ih (reported_idsDistinct hd r)]
    rw [List.map_map, List.map_map] at hfirst
    refine hfirst.trans (List.map_congr_left fun i _ => ?_)
    by_cases hi : r.instanceId = i.instanceId
    · simp [rest, hi]
    · simp [rest, hi, Ne.symm hi]

end

/-! ## The phase -/

/-- The phase of a record that was never tainted, halted or expired, from where its instances stand. -/
def phaseOf (standings : List Standing) : ExperimentPhase :=
  if standings.any fun s => !s.1.isTerminal then
    if standings.any fun s => s.1 = .error ∨ s.1 = .aborted then .halting else .running
  else if standings.any fun s => s.1 = .error then .concluded .error
  else if standings.all fun s => s.1 = .done then .concluded .completed
  else .concluded .aborted

def InstanceRecord.Faulty (i : InstanceRecord) : Prop := i.state = .error ∨ i.state = .aborted

/-- A record that only reports have changed. -/
structure Experiment.Unforced (e : Experiment) : Prop where
  consistent : e.Consistent
  distinct : e.IdsDistinct
  untainted : e.taintedHosts = []
  /-- The kill-switch was fired by an instance. -/
  faulty : e.phase = .halting → ∃ i ∈ e.instances, i.Faulty

section
variable {e : Experiment}

theorem Experiment.Unforced.phase_eq (h : e.Unforced) :
    e.phase = phaseOf (e.instances.map InstanceRecord.standing) := by
  have hc := h.consistent
  unfold Experiment.Consistent at hc
  have hany : ∀ f : InstanceState → Bool, (e.instances.map InstanceRecord.standing).any (fun s => f s.1) =
      e.instances.any fun i => f i.state := fun f => by rw [List.any_map]; rfl
  have hall : (e.instances.map InstanceRecord.standing).all (fun s => s.1 = .done) =
      e.instances.all fun i => i.state = .done := by rw [List.all_map]; rfl
  have hlive : e.SomeLive → (e.instances.any fun i => !i.state.isTerminal) = true := by
    rintro ⟨i, hi, ht⟩
    exact List.any_eq_true.2 ⟨i, hi, by simpa [InstanceRecord.isTerminal] using ht⟩
  unfold phaseOf
  rw [hany fun s => !s.isTerminal, hany fun s => s = .error ∨ s = .aborted, hany fun s => s = .error, hall]
  cases hp : e.phase with
  | running =>
    rw [hp] at hc
    have hno : (e.instances.any fun i => i.state = .error ∨ i.state = .aborted) = false := by
      refine List.any_eq_false.2 fun i hi => ?_
      obtain ⟨herr, hab⟩ := hc.healthy i hi
      simp [herr, hab]
    rw [if_pos (hlive hc.live), hno]
    rfl
  | halting =>
    rw [hp] at hc
    obtain ⟨i, hi, hf⟩ := h.faulty hp
    have hyes : (e.instances.any fun i => i.state = .error ∨ i.state = .aborted) = true :=
      List.any_eq_true.2 ⟨i, hi, decide_eq_true hf⟩
    rw [if_pos (hlive hc.live), if_pos hyes]
  | concluded outcome =>
    rw [hp] at hc
    have hdone : (e.instances.any fun i => !i.state.isTerminal) = false := by
      refine List.any_eq_false.2 fun i hi => ?_
      have ht : i.state.isTerminal = true := hc.terminal i hi
      simp [ht]
    have hbroken : e.Broken ↔ (e.instances.any fun i => i.state = .error) = true := by
      simp [Experiment.Broken, h.untainted]
    have hclean : e.Clean ↔ (e.instances.all fun i => i.state = .done) = true := by
      simp [Experiment.Clean, h.untainted]
    rw [hdone, if_neg Bool.false_ne_true]
    by_cases hb : (e.instances.any fun i => i.state = .error) = true
    · rw [if_pos hb, hc.error.2 (hbroken.2 hb)]
    · rw [if_neg hb]
      by_cases hd : (e.instances.all fun i => i.state = .done) = true
      · rw [if_pos hd, hc.completed.2 (hclean.2 hd)]
      · rw [if_neg hd, hc.aborted.2 ⟨fun hx => hb (hbroken.1 hx), fun hx => hd (hclean.1 hx)⟩]

theorem InstanceRecord.faulty_of_trigger {i : InstanceRecord} {cause : Cause} (h : i.trigger = some cause) :
    i.Faulty := by
  unfold InstanceRecord.trigger at h
  split at h
  next hs => exact .inl hs
  next hs => exact .inr hs
  next => cases h

/-- What fires the kill-switch of an untainted record is an instance. -/
theorem Experiment.faulty_of_killTrigger (hu : e.taintedHosts = []) {cause : Cause} (h : e.killTrigger = some cause) :
    ∃ i ∈ e.instances, i.Faulty := by
  unfold Experiment.killTrigger at h
  split at h
  · cases h
  · split at h
    next hf =>
      obtain ⟨i, hi, ht⟩ := List.exists_of_findSome?_eq_some hf
      exact ⟨i, hi, InstanceRecord.faulty_of_trigger ht⟩
    next => simp [taintCause, hu] at h

theorem seats_faulty {l l' : List InstanceRecord} (h : l'.map InstanceRecord.seat = l.map InstanceRecord.seat)
    (hf : ∃ i ∈ l, i.Faulty) : ∃ i ∈ l', i.Faulty := by
  obtain ⟨i, hi, hf⟩ := hf
  have hmem : i.seat ∈ l'.map InstanceRecord.seat := h ▸ List.mem_map_of_mem hi
  obtain ⟨j, hj, hseat⟩ := List.mem_map.1 hmem
  have hstate : j.state = i.state := congrArg (fun s => s.2.1) hseat
  exact ⟨j, hj, by rwa [InstanceRecord.Faulty, hstate]⟩

/-- A report keeps a record unforced. -/
theorem Experiment.Unforced.reported (h : e.Unforced) (r : Report) : (e.reported r).Unforced := by
  have hkeep : (∃ i ∈ e.instances, i.Faulty) → ∃ i ∈ (e.reported r).instances, i.Faulty := by
    rintro ⟨i, hi, hf⟩
    have hterm : i.standing.1.isTerminal = true := by
      rcases hf with hf | hf <;> simp [InstanceRecord.standing, hf, InstanceState.isTerminal]
    have habsorb : i.standing.absorb r = i.standing := if_pos hterm
    have hmem : i.seat ∈ (e.reported r).instances.map InstanceRecord.seat := by
      rw [reported_seats h.distinct r]
      exact List.mem_map.2 ⟨i, hi, by rw [habsorb, ite_self]; rfl⟩
    obtain ⟨j, hj, hseat⟩ := List.mem_map.1 hmem
    have hstate : j.state = i.state := congrArg (fun s => s.2.1) hseat
    exact ⟨j, hj, by rwa [InstanceRecord.Faulty, hstate]⟩
  have hstep : e.reported r = e ∨ ∃ e₁, e₁.phase = e.phase ∧ e₁.taintedHosts = e.taintedHosts ∧
      e.reported r = (reactToUpdate e₁).1 := by
    have hdef : e.reported r = (e.handleStatus r.instanceId r.state r.reason r.tsUnixMs).1 := rfl
    rw [hdef]
    unfold Experiment.handleStatus
    cases ha : e.applyStatus r.instanceId r.state r.reason r.tsUnixMs with
    | none => exact .inl rfl
    | some e₁ =>
      obtain ⟨l, -, rfl⟩ := Option.map_eq_some_iff.1 ha
      exact .inr ⟨{ e with instances := l }, rfl, rfl, rfl⟩
  refine ⟨(h.consistent.handleStatus _ _ _ _).1, reported_idsDistinct h.distinct r, ?_, fun hphase => ?_⟩
  · rcases hstep with hsame | ⟨e₁, -, htaint, hreact⟩
    · rw [hsame, h.untainted]
    · rw [hreact, reactToUpdate_tainted, htaint, h.untainted]
  · rcases hstep with hsame | ⟨e₁, hp, htaint, hreact⟩
    · exact hkeep (h.faulty (by rw [← hsame]; exact hphase))
    · cases hk : e₁.killTrigger with
      | some cause =>
        have hf := Experiment.faulty_of_killTrigger (htaint.trans h.untainted) hk
        rw [hreact]
        exact seats_faulty (reactToUpdate_seats e₁) hf
      | none =>
        -- the kill-switch fired before, and the instance that fired it is still where it was
        refine hkeep (h.faulty ?_)
        have hconcl : (concludeIfDone e₁).phase = .halting := by
          rw [hreact] at hphase
          simpa [reactToUpdate, hk] using hphase
        rw [← hp]
        unfold concludeIfDone at hconcl
        split at hconcl
        · exact hconcl
        · split at hconcl
          · exact hconcl
          · cases hconcl

theorem Experiment.Unforced.reports (h : e.Unforced) (reports : List Report) :
    (reports.foldl Experiment.reported e).Unforced := by
  induction reports generalizing e with
  | nil => exact h
  | cons r reports ih => exact ih (h.reported r)

theorem init_unforced (h : recordLts.init e) : e.Unforced := by
  obtain ⟨hcons, hdist⟩ := reach_consistent (.init h)
  obtain ⟨definition, catalog, facts, nowMs, seq, graceSecs, marginMs, -, -, rfl⟩ := h
  exact ⟨hcons, hdist, rfl, fun hp => by cases hp⟩

end

/-! ## The dispatcher -/

/-- `handle_instance_status`, on the shared state; the sends come after it. -/
def Dispatcher.handleInstanceStatus (s : Dispatcher) (r : Report) : Dispatcher :=
  (handleStatus s r.instanceId r.state r.reason r.tsUnixMs).elim s Tasks.Effect.shared

/-- Every stored record hears every report; one that is not about it is no report for it. -/
theorem handleInstanceStatus_lookup {s : Dispatcher} {e : Experiment} (hn : e.Named)
    (he : s.store.lookup e.id = some e) (r : Report) :
    (s.handleInstanceStatus r).store.lookup e.id = some (e.reported r) := by
  have hforeign : owningExperimentId r.instanceId ≠ some e.id → e.reported r = e := by
    intro ho
    have hnone : e.applyStatus r.instanceId r.state r.reason r.tsUnixMs = none := by
      cases ha : e.applyStatus r.instanceId r.state r.reason r.tsUnixMs with
      | none => rfl
      | some e₁ =>
        obtain ⟨l, hl, -⟩ := Option.map_eq_some_iff.1 ha
        obtain ⟨⟨i, hi, hiid, -⟩, -⟩ := applyTo_mem hl
        exact absurd (hiid ▸ hn.owner hi) ho
    show (e.handleStatus r.instanceId r.state r.reason r.tsUnixMs).1 = e
    unfold Experiment.handleStatus
    rw [hnone]
  unfold Dispatcher.handleInstanceStatus handleStatus
  cases ho : owningExperimentId r.instanceId with
  | none => exact he.trans (by rw [hforeign (by simp [ho])])
  | some id =>
    show (s.store.update id (.status r.instanceId r.state r.reason r.tsUnixMs)).1.lookup e.id = _
    rw [Store.update_lookup]
    by_cases hx : e.id = id
    · subst hx
      rw [if_pos rfl, he]
      rfl
    · rw [if_neg hx, he, hforeign (by simpa [ho] using Ne.symm hx)]

theorem handleInstanceStatuses_lookup {e : Experiment} (hn : e.Named) (reports : List Report) {s : Dispatcher}
    (he : s.store.lookup e.id = some e) :
    (reports.foldl Dispatcher.handleInstanceStatus s).store.lookup e.id =
      some (reports.foldl Experiment.reported e) := by
  induction reports generalizing s e with
  | nil => exact he
  | cons r reports ih =>
    have hkept : e.Kept (e.reported r) := e.apply_kept _
    have hfirst := handleInstanceStatus_lookup hn he r
    rw [← hkept.id] at hfirst
    rw [← hkept.id]
    exact ih (hkept.named hn) hfirst

/-- **Hosts may report in any order.** Two interleavings of the same reports of each instance, fed to
`handle_instance_status` from a freshly minted record, leave every instance in the same state, with the same reason and
timestamp, and the record in the same phase. -/
theorem interleaving_irrelevant {e : Experiment} (h : recordLts.init e) {s₁ s₂ : Dispatcher}
    (h₁ : s₁.store.lookup e.id = some e) (h₂ : s₂.store.lookup e.id = some e) {reports₁ reports₂ : List Report}
    (hsame : ∀ iid ∈ e.ids,
      (reports₁.filter fun r => r.instanceId = iid) = reports₂.filter fun r => r.instanceId = iid) :
    ∃ e₁ e₂, (reports₁.foldl Dispatcher.handleInstanceStatus s₁).store.lookup e.id = some e₁ ∧
      (reports₂.foldl Dispatcher.handleInstanceStatus s₂).store.lookup e.id = some e₂ ∧
      e₁.instances.map InstanceRecord.seat = e₂.instances.map InstanceRecord.seat ∧ e₁.phase = e₂.phase := by
  have hu := init_unforced h
  have hn := reach_named (.init h)
  have hseats : (reports₁.foldl Experiment.reported e).instances.map InstanceRecord.seat =
      (reports₂.foldl Experiment.reported e).instances.map InstanceRecord.seat := by
    rw [reports_standings hu.distinct, reports_standings hu.distinct]
    refine List.map_congr_left fun i hi => ?_
    rw [hsame i.instanceId (List.mem_map_of_mem hi)]
  have hstandings := congrArg (List.map Prod.snd) hseats
  simp only [List.map_map] at hstandings
  refine ⟨_, _, handleInstanceStatuses_lookup hn reports₁ h₁, handleInstanceStatuses_lookup hn reports₂ h₂, hseats, ?_⟩
  rw [(hu.reports reports₁).phase_eq, (hu.reports reports₂).phase_eq]
  exact congrArg phaseOf hstandings

/-- The two hosts of `sampleRecord`: one ends `DONE` and one `ERROR`. -/
def report01 : Report := ⟨"exp-1000-0:web-01:0", .done, "", 2000⟩

def report02 : Report := ⟨"exp-1000-0:web-02:0", .error, "exit 30", 2100⟩

def sampleStored : Dispatcher := { Dispatcher.new 1000 with store := (∅ : Store).insert sampleRecord.id sampleRecord }

/-- Whoever reports first, the record ends in `ERROR`. -/
theorem interleaving_irrelevant_sample : ∃ e₁ e₂,
    ([report01, report02].foldl Dispatcher.handleInstanceStatus sampleStored).store.lookup sampleRecord.id = some e₁ ∧
    ([report02, report01].foldl Dispatcher.handleInstanceStatus sampleStored).store.lookup sampleRecord.id = some e₂ ∧
    e₁.instances.map InstanceRecord.seat = e₂.instances.map InstanceRecord.seat ∧ e₁.phase = e₂.phase := by
  have hstored : sampleStored.store.lookup sampleRecord.id = some sampleRecord := AList.lookup_insert _
  refine interleaving_irrelevant sampleRecord_init hstored hstored fun iid _ => ?_
  by_cases h₁ : report01.instanceId = iid
  · subst h₁
    decide
  · by_cases h₂ : report02.instanceId = iid <;> simp [h₁, h₂]

end FaultForge.Master
