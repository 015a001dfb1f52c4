import FaultForge.Master.Taints

/-!
# A taint between validation and the store (dispatch.rs:123-149, 282-306)

`start_experiment` reads the registry, validates and only then inserts the record; `handle_taint_status` flags the host
in the registry and then sweeps the store. Neither holds a lock over both, so a sweep can run after the registry has
been read and before the record is in the store: then the host has passed VALIDATE, and the record that comes later is
neither marked nor halted (`sweep_slips`). That is the only gap (`caught_iff`).
-/
namespace FaultForge.Master

open Lts Tasks

/-! ## Two handlers -/

inductive Outcome
  | refused (failures : List ValidationFailure)
  | inserted (id : ExperimentId)
deriving DecidableEq

/-- What has been seen of a submission and of a taint report for one of its hosts. -/
structure Race where
  /-- The taint of the host in the registry when the submission read it. -/
  snapshot : Option Bool
  outcome : Option Outcome
  /-- Whether the sweep, which is over, came in time. -/
  sweep : Option Bool

/-- The sweep comes before the registry is read, or meets a record that is not concluded. -/
def Race.inTime (s : Dispatcher) (g : Race) : Bool :=
  match g.snapshot, g.outcome with
  | none, _ | some _, some (.refused _) => true
  | some _, none => false
  | some _, some (.inserted id) => (s.store.lookup id).any fun e => !e.isConcluded

/-- The submission does `a`. -/
def Race.submitter (s : Dispatcher) (host : Hostname) (g : Race) : Act → Race
  | .start _ => { g with snapshot := g.snapshot.or (some (flagged s.registry host)) }
  | .publish e => { g with outcome := g.outcome.or (some (.inserted e.id)) }
  | .respond (.rejected failures) => { g with outcome := g.outcome.or (some (.refused failures)) }
  | _ => g

/-- The handler of the report does `a`. -/
def Race.handler (s : Dispatcher) (host : Hostname) (g : Race) : Act → Race
  | .sweep hostname _ _ => if hostname = host then { g with sweep := some (g.inTime s) } else g
  | _ => g

/-- The task that moves, and its act. -/
def acting (m : MasterState) : Label → Option (Nat × Act)
  | .run r => (m.tasks[r]?.bind List.head?).map (r, ·)
  | _ => none

def Race.follow (p q : Nat) (host : Hostname) (m : MasterState) (g : Race) (l : Label) (_ : MasterState) : Race :=
  match acting m l with
  | some (r, a) =>
    if r = p then g.submitter m.shared host a else if r = q then g.handler m.shared host a else g
  | none => g

/-- Task `p` is about to submit `d`, and task `q` about to handle a report that `host` is tainted. -/
def raceLts (C : Config) (p q : Nat) (d : ExperimentDefinition) (host : Hostname) (reason : String) (ts : Int) :
    System (Watched MasterState Race) Label :=
  watch
    { init m := Reach (masterLts C) m ∧ m.tasks[p]? = some [.start d] ∧
        m.tasks[q]? = some [.setTaint host true reason ts]
      step := masterStep C }
    (fun _ => ⟨none, none, none⟩) (Race.follow p q host)

def Act.taints (host : Hostname) : Act → Bool
  | .setTaint hostname .. | .sweep hostname .. => hostname = host
  | _ => false

/-- Nothing else is reported of the taint of `host`. -/
def alone (q : Nat) (host : Hostname) (w : Watched MasterState Race) (l : Label) : Bool :=
  match acting w.state l with
  | some (r, a) => !a.taints host || (r == q && w.seen.sweep.isNone)
  | none => true

/-- No taint has slipped: a submission that read the host as tainted is refused because of the host, and a record that
is in the store has the host among the tainted ones, with its kill-switch fired. -/
def Caught (host : Hostname) (w : Watched MasterState Race) : Prop :=
  match w.seen.outcome with
  | none => True
  | some (.refused failures) => w.seen.snapshot = some true → ∃ f ∈ failures, f.Bars host
  | some (.inserted id) => ∃ e, w.state.shared.store.lookup id = some e ∧ e.recorded host = true ∧
      e.phase ≠ .running ∧ e.cause.isSome = true

/-! ## One step -/

section
variable {C : Config} {m m' : MasterState} {l : Label} {p : Nat} {a : Act} {rest : List Act} {host : Hostname}

theorem acting_run (h : m.tasks[p]? = some (a :: rest)) : acting m (.run p) = some (p, a) := by
  simp [acting, h]

theorem acting_some {r : Nat} (h : acting m l = some (r, a)) : l = .run r ∧ ∃ rest, m.tasks[r]? = some (a :: rest) := by
  cases l with
  | run r' =>
    obtain ⟨b, hb, he⟩ := Option.map_eq_some_iff.1 h
    obtain ⟨rfl, rfl⟩ := Prod.mk.inj he
    obtain ⟨task, ht, hhead⟩ := Option.bind_eq_some_iff.1 hb
    obtain ⟨rest, rfl⟩ := List.head?_eq_some_iff.1 hhead
    exact ⟨rfl, rest, ht⟩
  | _ => cases h

/-- A task stays as it is while others move, unless its future is dropped. -/
theorem MasterStep.task_kept (h : MasterStep C m l m') (ht : m.tasks[p]? = some (a :: rest))
    (hd : l = .drop p → a.awaits = false) (hl : l ≠ .run p) : m'.tasks[p]? = some (a :: rest) := by
  have hlt : p < m.tasks.length := (List.getElem?_eq_some_iff.1 ht).1
  cases h with
  | @act r b rest' eff htr hs =>
    have hne : r ≠ p := fun he => hl (by rw [he])
    rw [List.getElem?_append_left (by rwa [List.length_set]), List.getElem?_set_ne hne]
    exact ht
  | request _ _ => rwa [List.getElem?_append_left hlt]
  | connect => rwa [List.getElem?_append_left hlt]
  | @intake _ r stream task hs hover htr ho hj =>
    have hne : r ≠ p := fun he => by rw [he, ht] at htr; cases htr
    rwa [List.getElem?_set_ne hne]
  | @drop r task htr hany hawait =>
    have hne : r ≠ p := by
      rintro rfl
      rw [ht] at htr
      obtain rfl := Option.some.inj htr
      rw [List.head?_cons, Option.any_some, hd rfl] at hawait
      cases hawait
    rwa [List.getElem?_set_ne hne]
  | channel _ _ _ _ _ => exact ht
  | tick ms => exact ht

theorem flagged_setTaint {r : Registry} (h : host ∈ r) (tainted : Bool) :
    flagged (setTaint r host tainted) host = tainted := by
  obtain ⟨info, hl⟩ := Option.isSome_iff_exists.1 (AList.lookup_isSome.2 h)
  simp [flagged, setTaint, hl]

theorem MasterStep.flagged_kept (h : MasterStep C m l m')
    (hg : ∀ r a, acting m l = some (r, a) → a.taints host = false) :
    flagged m'.shared.registry host = flagged m.shared.registry host := by
  have hother : ∀ {r r' : Registry}, r'.lookup host = r.lookup host → flagged r' host = flagged r host :=
    fun h => by unfold flagged; rw [h]
  cases h with
  | @act p a rest r ht hs =>
    have hfree := hg p a (acting_run ht)
    cases hs with
    | setTaint h tainted reason ts =>
      have hne : host ≠ h := fun he => by simp [Act.taints, he] at hfree
      refine hother ?_
      show (setTaint m.shared.registry h tainted).lookup host = _
      unfold setTaint
      split
      · exact AList.lookup_insert_ne hne
      · rfl
    | registerAgent h now =>
      show flagged (registerAgent m.shared.registry h now) host = _
      by_cases he : host = h
      · subst he
        unfold flagged registerAgent
        cases m.shared.registry.lookup host <;> simp
      · exact hother (AList.lookup_insert_ne he)
    | updateHeartbeat h now =>
      show flagged (updateHeartbeat m.shared.registry h now) host = _
      unfold updateHeartbeat
      split
      next info hl =>
        by_cases he : host = h
        · subst he
          simp [flagged, hl]
        · exact hother (AList.lookup_insert_ne he)
      next => rfl
    | leave =>
      refine hother ?_
      show (endSession m.shared p).registry.lookup host = _
      unfold endSession
      split <;> rfl
    | _ => rfl
  | _ => rfl

/-! ### The record -/

theorem touches_marks {s : Dispatcher} {op : RecordOp} {ids : List ExperimentId} (ht : a.touches s = some (op, ids))
    (hfree : a.taints host = false) (e : Experiment) : op.marks e host = false := by
  cases a with
  | sweep hostname reason ts =>
    obtain ⟨rfl, rfl⟩ := Prod.mk.inj (Option.some.inj ht)
    have hne : hostname.val ≠ host.val := by
      intro he
      have : hostname = host := by cases hostname; cases host; simpa using he
      simp [Act.taints, this] at hfree
    simp [RecordOp.marks, hne]
  | resolve | halt =>
    obtain ⟨rfl, rfl⟩ := Prod.mk.inj (Option.some.inj ht)
    rfl
  | status iid state reason ts =>
    obtain ⟨id, -, he⟩ := Option.map_eq_some_iff.1 ht
    obtain ⟨rfl, rfl⟩ := Prod.mk.inj he
    rfl
  | _ => cases ht

/-- A published record is only operated on. -/
theorem MasterStep.record (h : MasterStep C m l m') (hm : Sound C m) {x : ExperimentId} {e : Experiment}
    (he : m.shared.store.lookup x = some e) :
    m'.shared.store.lookup x = some e ∨ ∃ r a op ids, acting m l = some (r, a) ∧
      a.touches m.shared = some (op, ids) ∧ m'.shared.store = (m.shared.store.updateAll op ids).1 := by
  cases h with
  | @act p a rest r ht hs =>
    cases hs with
    | publish e₀ =>
      refine .inl ?_
      have hne : x ≠ e₀.id := by
        rintro rfl
        have hpos := weigh_pos (w := pubs e₀.id) ht (load_pos List.mem_cons_self (by simp [pubs]))
        have hone := hm.single e₀.id
        simp only [stored, he, Option.isSome_some, if_true] at hone
        omega
      exact (AList.lookup_insert_ne hne).trans he
    | @touch _ op ids acts htouch hacts => exact .inr ⟨p, a, op, ids, acting_run ht, htouch, rfl⟩
    | leave => exact .inl ((endSession_fields m.shared p).1 ▸ he)
    | _ => exact .inl he
  | _ => exact .inl he

/-- The mark of a record that targets the host, after a step that reports nothing of its taint. -/
theorem MasterStep.unmarked (h : MasterStep C m l m') (hm : Sound C m) {x : ExperimentId} {e : Experiment}
    (he : m.shared.store.lookup x = some e) (ht : e.targetsHost host.val = true)
    (hfree : ∀ r a, acting m l = some (r, a) → a.taints host = false) :
    ∃ e', m'.shared.store.lookup x = some e' ∧ e'.targetsHost host.val = true ∧ e'.recorded host = e.recorded host := by
  rcases h.record hm he with he' | ⟨r, a, op, ids, hact, htouch, hst⟩
  · exact ⟨e, he', ht, rfl⟩
  · rw [hst]
    refine Store.updateAll_keeps (Q := fun e' => e'.targetsHost host.val = true ∧ e'.recorded host = e.recorded host)
      (fun e' ⟨ht', hr'⟩ => ?_) he ⟨ht, rfl⟩ ids
    rw [Experiment.apply_targets, Experiment.apply_recorded, touches_marks htouch (hfree r a hact), hr', Bool.or_false]
    exact ⟨ht', rfl⟩

/-- The sweep marks a record that targets the host, unless it is concluded. -/
theorem sweep_marks {st : Store} {x : ExperimentId} {e : Experiment} (he : st.lookup x = some e)
    (ht : e.targetsHost host.val = true) (reason : String) (ts : Int) :
    ∃ e', (st.updateAll (.taint host.val reason ts) st.keys).1.lookup x = some e' ∧
      e'.targetsHost host.val = true ∧ e'.recorded host = (e.recorded host || !e.isConcluded) := by
  have hx : x ∈ st.keys := AList.mem_keys.1 (AList.lookup_isSome.1 (by rw [he]; rfl))
  have hmark : ∀ {e : Experiment}, e.targetsHost host.val = true →
      (e.apply (.taint host.val reason ts)).1.recorded host = (e.recorded host || !e.isConcluded) := by
    intro e ht
    rw [Experiment.apply_recorded]
    simp [RecordOp.marks, ht]
  have hstay : ∀ {e : Experiment}, e.isConcluded = true → (e.apply (.taint host.val reason ts)).1 = e := by
    intro e hc
    show (e.handleTaint host.val reason ts).1 = e
    simp [Experiment.handleTaint, hc]
  by_cases hc : e.isConcluded = true
  · refine Store.updateAll_keeps (Q := fun e' => e'.targetsHost host.val = true ∧
      e'.recorded host = (e.recorded host || !e.isConcluded) ∧ e'.isConcluded = true) ?_ he
      ⟨ht, by simp [hc], hc⟩ st.keys |>.imp fun e' h => ⟨h.1, h.2.1, h.2.2.1⟩
    rintro e' ⟨ht', hr', hc'⟩
    rw [hstay hc']
    exact ⟨ht', hr', hc'⟩
  · rw [Bool.eq_false_iff.2 hc, Bool.not_false, Bool.or_true]
    refine Store.updateAll_reaches (R := fun e' => e'.targetsHost host.val = true ∧ e'.recorded host = true) ?_ he ?_ hx
    · rintro e' ⟨ht', hr'⟩
      rw [Experiment.apply_targets, hmark ht', hr', Bool.true_or]
      exact ⟨ht', rfl⟩
    · rw [Experiment.apply_targets, hmark ht, Bool.eq_false_iff.2 hc, Bool.not_false, Bool.or_true]
      exact ⟨ht, rfl⟩

end

/-! ## Every state of a race -/

/-- What the submission carries before it has an outcome. -/
def Submitting (d : ExperimentDefinition) (host : Hostname) (snapshot : Option Bool) : Act → Prop
  | .start d' => d' = d ∧ snapshot = none
  | .gather d' registry facts hosts =>
    d' = d ∧ snapshot = some (flagged registry host) ∧ FactsOf registry host d hosts facts
  | .mint d' => d' = d ∧ snapshot = some false
  | .publish e => snapshot = some false ∧ e.targetsHost host.val = true ∧ e.recorded host = false
  | .respond (.rejected failures) => snapshot.isSome = true ∧ (snapshot = some true → ∃ f ∈ failures, f.Bars host)
  | _ => False

/-- Where the submission is. The record in the store is marked when the sweep has come in time. -/
def Submitted (p : Nat) (d : ExperimentDefinition) (host : Hostname) (w : Watched MasterState Race) : Prop :=
  match w.seen.outcome with
  | none => ∃ a, w.state.tasks[p]? = some [a] ∧ Submitting d host w.seen.snapshot a
  | some (.refused failures) => w.seen.snapshot = some true → ∃ f ∈ failures, f.Bars host
  | some (.inserted id) => ∃ e, w.state.shared.store.lookup id = some e ∧ e.targetsHost host.val = true ∧
      (e.recorded host = true ↔ w.seen.sweep = some true)

/-- Where the handler of the report is. -/
def Reported (q : Nat) (host : Hostname) (reason : String) (ts : Int) (w : Watched MasterState Race) : Prop :=
  match w.seen.sweep with
  | none => w.state.tasks[q]? = some [.setTaint host true reason ts] ∨
      (w.state.tasks[q]? = some [.sweep host reason ts] ∧ flagged w.state.shared.registry host = true)
  | some _ => flagged w.state.shared.registry host = true

structure Racing (p q : Nat) (d : ExperimentDefinition) (host : Hostname) (reason : String) (ts : Int)
    (w : Watched MasterState Race) : Prop where
  apart : p ≠ q
  submission : Submitted p d host w
  report : Reported q host reason ts w
  /-- There is no outcome before the registry has been read. -/
  read : w.seen.outcome.isSome = true → w.seen.snapshot.isSome = true
  /-- A submission that read the host as clean is met by no sweep before it has its outcome. -/
  early : w.seen.outcome = none → w.seen.snapshot = some false → w.seen.sweep ≠ some true

section
variable {C : Config} {p q : Nat} {d : ExperimentDefinition} {host : Hostname} {reason : String} {ts : Int}
  {w w' : Watched MasterState Race} {l : Label}

theorem Submitting.free {snapshot : Option Bool} {a : Act} (h : Submitting d host snapshot a) :
    a.taints host = false ∧ a.awaits = false := by
  cases a <;> first | exact ⟨rfl, rfl⟩ | cases h

theorem Race.submitter_done {s : Dispatcher} {g : Race} (hs : g.snapshot.isSome = true) (ho : g.outcome.isSome = true)
    (a : Act) : g.submitter s host a = g := by
  obtain ⟨snapshot, hsnap⟩ := Option.isSome_iff_exists.1 hs
  obtain ⟨outcome, hout⟩ := Option.isSome_iff_exists.1 ho
  obtain ⟨_, _, sweep⟩ := g
  obtain rfl : _ = some snapshot := hsnap
  obtain rfl : _ = some outcome := hout
  unfold Race.submitter
  split <;> rfl

theorem Race.handler_free {s : Dispatcher} (g : Race) {a : Act} (h : a.taints host = false) :
    g.handler s host a = g := by
  unfold Race.handler
  split
  next hostname reason ts =>
    have hne : hostname ≠ host := of_decide_eq_false h
    rw [if_neg hne]
  next => rfl

/-- A step that is none of the two handlers' own, or one of theirs after they are through. -/
theorem Racing.frame (h : Racing p q d host reason ts w) (hm : Sound C w.state) (hs : MasterStep C w.state l w'.state)
    (hseen : w'.seen = w.seen) (hfree : ∀ r a, acting w.state l = some (r, a) → a.taints host = false)
    (hp : w.seen.outcome = none → l ≠ .run p) : Racing p q d host reason ts w' := by
  refine ⟨h.apart, ?_, ?_, by rw [hseen]; exact h.read, by rw [hseen]; exact h.early⟩
  · have hsub := h.submission
    unfold Submitted at *
    rw [hseen]
    cases ho : w.seen.outcome with
    | none =>
      rw [ho] at hsub
      obtain ⟨a, ht, ha⟩ := hsub
      exact ⟨a, hs.task_kept ht (fun _ => ha.free.2) (hp ho), ha⟩
    | some o =>
      cases o with
      | refused failures => rw [ho] at hsub; exact hsub
      | inserted id =>
        rw [ho] at hsub
        obtain ⟨e, he, ht, hr⟩ := hsub
        obtain ⟨e', he', ht', hr'⟩ := hs.unmarked hm he ht hfree
        exact ⟨e', he', ht', by rw [hr']; exact hr⟩
  · have hrep := h.report
    unfold Reported at *
    rw [hseen, hs.flagged_kept hfree]
    have hkept : ∀ {a : Act}, w.state.tasks[q]? = some [a] → a.taints host = true → a.awaits = false →
        w'.state.tasks[q]? = some [a] := by
      intro a ht htaint hawait
      refine hs.task_kept ht (fun _ => hawait) fun hl => ?_
      have hno := hfree q a (by rw [hl]; exact acting_run ht)
      rw [htaint] at hno
      cases hno
    cases hw : w.seen.sweep with
    | none =>
      rw [hw] at hrep
      rcases hrep with ht | ⟨ht, hf⟩
      · exact .inl (hkept ht (by simp [Act.taints]) rfl)
      · exact .inr ⟨hkept ht (by simp [Act.taints]) rfl, hf⟩
    | some t => rw [hw] at hrep; exact hrep

/-- The report stays where it is while the submission moves. -/
theorem Reported.kept (h : Reported q host reason ts w) (hs : MasterStep C w.state l w'.state)
    (hsweep : w'.seen.sweep = w.seen.sweep) (hfree : ∀ r a, acting w.state l = some (r, a) → a.taints host = false)
    (hq : l ≠ .run q) : Reported q host reason ts w' := by
  unfold Reported at *
  rw [hsweep, hs.flagged_kept hfree]
  cases hw : w.seen.sweep with
  | none =>
    rw [hw] at h
    rcases h with ht | ⟨ht, hf⟩
    · exact .inl (hs.task_kept ht (fun _ => rfl) hq)
    · exact .inr ⟨hs.task_kept ht (fun _ => rfl) hq, hf⟩
  | some t => rw [hw] at h; exact h

/-- What an act of a submission makes of the race: it reads the registry, goes on, or comes to its outcome. -/
inductive Advance (d : ExperimentDefinition) (host : Hostname) (s : Dispatcher) (g : Race) (r : Effect Dispatcher Act) :
    Race → Prop
  | read (b : Act) : g.snapshot = none → r.acts = [b] → Submitting d host (some (flagged s.registry host)) b →
      Advance d host s g r { g with snapshot := some (flagged s.registry host) }
  | goOn (b : Act) : r.acts = [b] → Submitting d host g.snapshot b → Advance d host s g r g
  | refuse (failures : List ValidationFailure) : g.snapshot.isSome = true →
      (g.snapshot = some true → ∃ f ∈ failures, f.Bars host) →
      Advance d host s g r { g with outcome := some (.refused failures) }
  | insert (e : Experiment) : g.snapshot = some false → r.shared.store.lookup e.id = some e →
      e.targetsHost host.val = true → e.recorded host = false →
      Advance d host s g r { g with outcome := some (.inserted e.id) }

theorem Submitting.advance {s : Dispatcher} {g : Race} {a : Act} {r : Effect Dispatcher Act}
    (h : Submitting d host g.snapshot a) (hd : d.Targets host) (ho : g.outcome = none) (hr : exec C s p a = some r) :
    Advance d host s g r (g.submitter s host a) := by
  cases a with
  | start d' =>
    obtain ⟨rfl, hsnap⟩ := h
    obtain rfl := Option.some.inj hr
    have hg : g.submitter s host (.start d') = { g with snapshot := some (flagged s.registry host) } := by
      simp [Race.submitter, hsnap]
    rw [hg]
    exact .read _ hsnap rfl ⟨rfl, rfl, factsOf_start _ _ _⟩
  | gather d' registry facts hosts =>
    obtain ⟨rfl, hsnap, hfacts⟩ := h
    cases hosts with
    | cons name hosts =>
      obtain rfl := Option.some.inj hr
      exact .goOn _ rfl ⟨rfl, hsnap, hfacts.add _⟩
    | nil =>
      simp only [exec] at hr
      split at hr
      next hv =>
        obtain rfl := Option.some.inj hr
        refine .goOn _ rfl ⟨rfl, ?_⟩
        have hclean : flagged registry host = false := by
          cases hf : flagged registry host with
          | false => rfl
          | true =>
            obtain ⟨f, hmem, -⟩ := hfacts.bars hd hf C.catalog
            rw [hv] at hmem
            cases hmem
        rw [hsnap, hclean]
      next f fs hv =>
        obtain rfl := Option.some.inj hr
        refine .goOn _ rfl ⟨by rw [hsnap]; rfl, fun hflag => ?_⟩
        rw [← hv]
        exact hfacts.bars hd (Option.some.inj (hsnap.symm.trans hflag)) C.catalog
  | mint d' =>
    obtain ⟨rfl, hsnap⟩ := h
    obtain rfl := Option.some.inj hr
    exact .goOn _ rfl ⟨hsnap, mintExperiment_targets hd _ _ _ _, rfl⟩
  | publish e =>
    obtain ⟨hsnap, htgt, hclean⟩ := h
    obtain rfl := Option.some.inj hr
    have hg : g.submitter s host (.publish e) = { g with outcome := some (.inserted e.id) } := by
      simp [Race.submitter, ho]
    rw [hg]
    exact .insert e hsnap (AList.lookup_insert _) htgt hclean
  | respond resp =>
    cases resp with
    | rejected failures =>
      obtain ⟨hread, hbars⟩ := h
      have hg : g.submitter s host (.respond (.rejected failures)) =
          { g with outcome := some (.refused failures) } := by
        simp [Race.submitter, ho]
      rw [hg]
      exact .refuse failures hread hbars
    | _ => cases h
  | _ => cases h

/-- A sweep that is over before the registry has been read shows there. -/
theorem Racing.swept (h : Racing p q d host reason ts w) (hsweep : w.seen.sweep = some true) :
    flagged w.state.shared.registry host = true := by
  have hrep := h.report
  unfold Reported at hrep
  rwa [hsweep] at hrep

/-- A step of the submission before its outcome: what it carries next, or its outcome. -/
theorem Racing.submit (h : Racing p q d host reason ts w) (hd : d.Targets host)
    (hs : masterStep C w.state (.run p) = some w'.state)
    (hseen : w'.seen = Race.follow p q host w.state w.seen (.run p) w'.state) (ho : w.seen.outcome = none) :
    Racing p q d host reason ts w' := by
  have hsub := h.submission
  unfold Submitted at hsub
  rw [ho] at hsub
  obtain ⟨a, ht, ha⟩ := hsub
  have hact : acting w.state (.run p) = some (p, a) := acting_run ht
  have hfree : ∀ r b, acting w.state (.run p) = some (r, b) → b.taints host = false := by
    intro r b hb
    obtain ⟨rfl, rfl⟩ := Prod.mk.inj (Option.some.inj (hact.symm.trans hb))
    exact ha.free.1
  have hseen' : w'.seen = w.seen.submitter w.state.shared host a := by
    simpa [Race.follow, hact] using hseen
  have hrep : w'.seen.sweep = w.seen.sweep → Reported q host reason ts w' := fun hsw =>
    h.report.kept (masterStep_step hs) hsw hfree fun he => h.apart (Label.run.inj he)
  obtain ⟨b, rest, r, htb, hr, hw'⟩ := step_some hs
  obtain ⟨rfl, rfl⟩ := List.cons.inj (Option.some.inj (ht.symm.trans htb))
  have hlt : p < w.state.tasks.length := (List.getElem?_eq_some_iff.1 ht).1
  have hnext : w'.state.tasks[p]? = some r.acts := by
    rw [hw']
    show (w.state.tasks.set p (r.acts ++ []) ++ r.spawned)[p]? = some r.acts
    rw [List.append_nil, List.getElem?_append_left (by rwa [List.length_set]), List.getElem?_set_self hlt]
  have hadv := ha.advance hd ho hr
  rw [← hseen'] at hadv
  generalize hg : w'.seen = g at hadv
  cases hadv with
  | read b hsnap hb hb' =>
    refine ⟨h.apart, ?_, hrep (by rw [hg]), fun _ => by rw [hg]; rfl, fun _ hclean hsw => ?_⟩
    · unfold Submitted
      simp only [hg, ho]
      exact ⟨b, hb ▸ hnext, hb'⟩
    · rw [hg] at hclean hsw
      rw [h.swept hsw] at hclean
      cases hclean
  | goOn b hb hb' =>
    refine ⟨h.apart, ?_, hrep (by rw [hg]), by rw [hg]; exact h.read, by rw [hg]; exact h.early⟩
    unfold Submitted
    rw [hg, ho]
    exact ⟨b, hb ▸ hnext, hb'⟩
  | refuse failures hread hbars =>
    refine ⟨h.apart, ?_, hrep (by rw [hg]), fun _ => by rw [hg]; exact hread, fun hn => by rw [hg] at hn; cases hn⟩
    unfold Submitted
    rw [hg]
    exact hbars
  | insert e hsnap hstored htgt hclean =>
    refine ⟨h.apart, ?_, hrep (by rw [hg]), fun _ => by rw [hg, hsnap]; rfl, fun hn => by rw [hg] at hn; cases hn⟩
    unfold Submitted
    rw [hg]
    refine ⟨e, by rw [hw']; exact hstored, htgt, ?_⟩
    rw [hclean]
    exact ⟨fun hf => (by cases hf), fun hsw => absurd hsw (h.early ho hsnap)⟩

theorem follow_run (h : p ≠ q) {a : Act} {rest : List Act} (ht : w.state.tasks[q]? = some (a :: rest))
    (m : MasterState) :
    Race.follow p q host w.state w.seen (.run q) m = w.seen.handler w.state.shared host a := by
  rw [Race.follow, acting_run ht]
  simp [Ne.symm h]

/-- `set_taint` flags the host. -/
theorem Racing.flag (h : Racing p q d host reason ts w) (hk : Known w.state)
    (ht : w.state.tasks[q]? = some [.setTaint host true reason ts]) (hsweep : w.seen.sweep = none)
    (hs : masterStep C w.state (.run q) = some w'.state)
    (hseen : w'.seen = Race.follow p q host w.state w.seen (.run q) w'.state) : Racing p q d host reason ts w' := by
  have hsame : w'.seen = w.seen := hseen.trans (follow_run h.apart ht _)
  have hmem : host ∈ w.state.shared.registry := hk.acts.get ht _ List.mem_cons_self host rfl
  have hstep := masterStep_step hs
  obtain ⟨a, rest, r, hta, hr, hw'⟩ := step_some hs
  obtain ⟨rfl, rfl⟩ := List.cons.inj (Option.some.inj (ht.symm.trans hta))
  obtain rfl := Option.some.inj hr
  refine ⟨h.apart, ?_, ?_, by rw [hsame]; exact h.read, by rw [hsame]; exact h.early⟩
  · have hsub := h.submission
    unfold Submitted at *
    rw [hsame]
    cases ho : w.seen.outcome with
    | none =>
      rw [ho] at hsub
      obtain ⟨a, htp, ha⟩ := hsub
      exact ⟨a, hstep.task_kept htp (fun _ => ha.free.2) fun he => h.apart (Label.run.inj he).symm, ha⟩
    | some o =>
      rw [ho] at hsub
      cases o with
      | refused failures => exact hsub
      | inserted id =>
        obtain ⟨e, he, htgt, hr⟩ := hsub
        exact ⟨e, by rw [hw']; exact he, htgt, hr⟩
  · unfold Reported
    rw [hsame, hsweep]
    have hlt : q < w.state.tasks.length := (List.getElem?_eq_some_iff.1 ht).1
    refine .inr ⟨?_, by rw [hw']; exact flagged_setTaint hmem true⟩
    rw [hw']
    show (w.state.tasks.set q [.sweep host reason ts] ++ [])[q]? = _
    rw [List.append_nil, List.getElem?_set_self hlt]

/-- The sweep marks the record that is in the store, or comes before the submission has its outcome. -/
theorem Racing.sweep (h : Racing p q d host reason ts w) (ht : w.state.tasks[q]? = some [.sweep host reason ts])
    (hflag : flagged w.state.shared.registry host = true) (hsweep : w.seen.sweep = none)
    (hs : masterStep C w.state (.run q) = some w'.state)
    (hseen : w'.seen = Race.follow p q host w.state w.seen (.run q) w'.state) : Racing p q d host reason ts w' := by
  have hg : w'.seen = { w.seen with sweep := some (w.seen.inTime w.state.shared) } := by
    refine (hseen.trans (follow_run h.apart ht _)).trans ?_
    simp [Race.handler]
  have hstep := masterStep_step hs
  obtain ⟨a, rest, r, hta, hr, hw'⟩ := step_some hs
  obtain ⟨rfl, rfl⟩ := List.cons.inj (Option.some.inj (ht.symm.trans hta))
  obtain rfl := Option.some.inj hr
  refine ⟨h.apart, ?_, ?_, by rw [hg]; exact h.read, fun hn hclean => ?_⟩
  · have hsub := h.submission
    unfold Submitted at *
    simp only [hg]
    cases ho : w.seen.outcome with
    | none =>
      rw [ho] at hsub
      obtain ⟨a, htp, ha⟩ := hsub
      exact ⟨a, hstep.task_kept htp (fun _ => ha.free.2) fun he => h.apart (Label.run.inj he).symm, ha⟩
    | some o =>
      rw [ho] at hsub
      cases o with
      | refused failures => exact hsub
      | inserted id =>
        obtain ⟨e, he, htgt, hr⟩ := hsub
        obtain ⟨e', he', htgt', hr'⟩ := sweep_marks he htgt reason ts
        refine ⟨e', by rw [hw']; exact he', htgt', ?_⟩
        have hclean : e.recorded host = false := by
          rw [hsweep] at hr
          exact Bool.eq_false_iff.2 fun hrec => by cases hr.1 hrec
        obtain ⟨snapshot, hsnap⟩ := Option.isSome_iff_exists.1 (h.read (by rw [ho]; rfl))
        rw [hr', hclean]
        simp [Race.inTime, hsnap, ho, he]
  · unfold Reported
    rw [hg]
    rw [hw']
    exact hflag
  · rw [hg] at hn hclean ⊢
    intro htime
    have : w.seen.inTime w.state.shared = true := Option.some.inj htime
    simp [Race.inTime, show w.seen.outcome = none from hn, show w.seen.snapshot = some false from hclean] at this

/-- The guard of a step that is not the handler's own before its sweep. -/
theorem free_of_alone (hg : alone q host w l = true) (hq : l = .run q → w.seen.sweep ≠ none) {r : Nat} {a : Act}
    (hact : acting w.state l = some (r, a)) : a.taints host = false := by
  simp only [alone, hact, Bool.or_eq_true, Bool.not_eq_true', Bool.and_eq_true, beq_iff_eq,
    Option.isNone_iff_eq_none] at hg
  rcases hg with hf | ⟨rfl, hn⟩
  · exact hf
  · exact absurd hn (hq (acting_some hact).1)

theorem Racing.step (h : Racing p q d host reason ts w) (hd : d.Targets host) (hm : Sound C w.state)
    (hk : Known w.state) (hg : alone q host w l = true) (hs : masterStep C w.state l = some w'.state)
    (hseen : w'.seen = Race.follow p q host w.state w.seen l w'.state) : Racing p q d host reason ts w' := by
  by_cases hp : l = .run p ∧ w.seen.outcome = none
  · obtain ⟨rfl, ho⟩ := hp
    exact h.submit hd hs hseen ho
  by_cases hq : l = .run q ∧ w.seen.sweep = none
  · obtain ⟨rfl, hsweep⟩ := hq
    have hrep := h.report
    unfold Reported at hrep
    rw [hsweep] at hrep
    rcases hrep with ht | ⟨ht, hflag⟩
    · exact h.flag hk ht hsweep hs hseen
    · exact h.sweep ht hflag hsweep hs hseen
  have hfree : ∀ r a, acting w.state l = some (r, a) → a.taints host = false :=
    fun r a hact => free_of_alone hg (fun hl hn => hq ⟨hl, hn⟩) hact
  refine h.frame hm (masterStep_step hs) (hseen.trans ?_) hfree fun ho hl => hp ⟨hl, ho⟩
  unfold Race.follow
  split
  next r a hact =>
    split
    next hr =>
      have ho : w.seen.outcome.isSome = true := by
        rw [Option.isSome_iff_ne_none]
        exact fun hn => hp ⟨by rw [(acting_some hact).1, hr], hn⟩
      exact Race.submitter_done (h.read ho) ho a
    next =>
      split
      next => exact w.seen.handler_free (hfree r a hact)
      next => rfl
  next => rfl

theorem reach_racing (hd : d.Targets host)
    (h : ReachIf (raceLts C p q d host reason ts) (fun w l => alone q host w l = true) w) :
    Reach (masterLts C) w.state ∧ Racing p q d host reason ts w := by
  refine h.inv (I := fun _ => True) (P := fun w => Reach (masterLts C) w.state ∧ Racing p q d host reason ts w)
    (fun _ _ => trivial) ?_ ?_
  · rintro ⟨m, g⟩ ⟨⟨hm, hp, hq⟩, hg⟩
    obtain rfl : g = ⟨none, none, none⟩ := hg
    refine ⟨hm, ?_, ⟨_, hp, rfl, rfl⟩, .inl hq, fun hn => (by cases hn), fun _ hclean => by cases hclean⟩
    rintro rfl
    rw [hp] at hq
    cases hq
  · rintro w l w' - ⟨hr, hw⟩ hg hs
    obtain ⟨hstep, hseen⟩ := watch_step_some.1 hs
    exact ⟨.step hr hstep, hw.step hd (reach_sound hr) (reach_known hr) hg hstep hseen⟩

end

/-! ## The gap -/

/-- **When a taint slips through.** Once the sweep is over, the submission has been refused because of the host, or its
record is marked and halted, unless it was accepted and the sweep did not come in time: it ran after the registry had
been read and before the record was in the store, or found the record concluded. -/
theorem caught_iff {C : Config} {p q : Nat} {d : ExperimentDefinition} {host : Hostname} {reason : String} {ts : Int}
    {w : Watched MasterState Race} {inTime : Bool} (hd : d.Targets host)
    (h : ReachIf (raceLts C p q d host reason ts) (fun w l => alone q host w l = true) w)
    (hs : w.seen.sweep = some inTime) :
    Caught host w ↔ ∀ id, w.seen.outcome = some (.inserted id) → inTime = true := by
  obtain ⟨hr, hw⟩ := reach_racing hd h
  have hsub := hw.submission
  unfold Submitted at hsub
  unfold Caught
  cases ho : w.seen.outcome with
  | none => simp
  | some o =>
    cases o with
    | refused failures =>
      rw [ho] at hsub
      exact ⟨fun _ id hid => (by cases hid), fun _ => hsub⟩
    | inserted id =>
      rw [ho, hs] at hsub
      obtain ⟨e, he, -, hrec⟩ := hsub
      constructor
      · rintro ⟨e', he', hrec', -⟩ id' hid
        obtain rfl := Option.some.inj (he.symm.trans he')
        exact Option.some.inj (hrec.1 hrec')
      · intro htime
        have hmarked := hrec.2 (by rw [htime id rfl])
        have hreach := ((reach_sound hr).records id e he).2.1
        exact ⟨e, he, hmarked, (reach_consistent hreach).1.fired hmarked⟩

/-- Both hosts join, task 2 is about to submit, and `web-01` reports its taint. -/
def bothBegin : List Label := joins 0 "web-01" ++ joins 1 "web-02" ++
  [.submit sampleDefinition, .recv 0 (some (.taintStatus true "recover failed" 1500))]

def racing : MasterState := (Lts.run (masterLts sampleConfig) sampleMaster bothBegin).getD sampleMaster

abbrev sampleRace : System (Watched MasterState Race) Label :=
  raceLts sampleConfig 2 0 sampleDefinition web01 "recover failed" 1500

theorem racing_init : sampleRace.init ⟨racing, none, none, none⟩ := by
  have hsome : (Lts.run (masterLts sampleConfig) sampleMaster bothBegin).isSome = true := by decide +kernel
  obtain ⟨m, hm⟩ := Option.isSome_iff_exists.1 hsome
  have he : racing = m := by
    unfold racing
    rw [hm, Option.getD_some]
  have hreach : Reach (masterLts sampleConfig) racing := he ▸ Reach.run (.init ⟨1000, rfl⟩) hm
  exact ⟨⟨hreach, rfl, rfl⟩, rfl⟩

theorem sampleDefinition_targets : sampleDefinition.Targets web01 :=
  ⟨_, List.mem_singleton_self _, "web-01", List.mem_cons_self, rfl⟩

/-- The sweep comes after the record is in the store: the record is marked and halted. -/
theorem caught_iff_marked : ∃ w, ReachIf sampleRace (fun w l => alone 0 web01 w l = true) w ∧
    w.seen.outcome = some (.inserted "exp-1000-1") ∧ w.seen.sweep = some true ∧ Caught web01 w := by
  obtain ⟨w, hw, hp⟩ := reachIf_of_run (L := sampleRace) (g := alone 0 web01) (fun _ _ h => h)
    (fun w => w.seen.outcome = some (.inserted "exp-1000-1") ∧ w.seen.sweep = some true) racing_init
    (runs 2 6 ++ runs 0 2) (by decide +kernel)
  obtain ⟨ho, hs⟩ := of_decide_eq_true hp
  exact ⟨w, hw, ho, hs, (caught_iff sampleDefinition_targets hw hs).2 fun _ _ => rfl⟩

/-- Its record is in the store, running and unmarked, and a `RunFault` for it has gone out on stream `t`. -/
def slipped (host : Hostname) (t : StreamId) (w : Watched MasterState Race) : Bool :=
  match w.seen.outcome with
  | some (.inserted id) =>
    (w.state.shared.store.lookup id).any (fun e => !e.recorded host && e.phase == .running) &&
      (w.state.shared.sent t).any fun o => match o with
        | .ok (.runFault _) => true
        | _ => false
  | _ => false

/-- The registry is read, `web-01` is flagged, the store is swept, and then the record comes: it is not marked, its
kill-switch has not fired, and the fault has been sent to the tainted host. -/
theorem sweep_slips : ∃ w, ReachIf sampleRace (fun w l => alone 0 web01 w l = true) w ∧
    w.state.tasks[2]? = some [] ∧ w.state.tasks[0]? = some [] ∧ w.seen.sweep.isSome = true ∧
    slipped web01 0 w = true ∧ ¬ Caught web01 w := by
  obtain ⟨w, hw, hp⟩ := reachIf_of_run (L := sampleRace) (g := alone 0 web01) (fun _ _ h => h)
    (fun w => (w.state.tasks[2]?.any List.isEmpty && w.state.tasks[0]?.any List.isEmpty && w.seen.sweep.isSome) &&
      slipped web01 0 w) racing_init (runs 2 1 ++ runs 0 2 ++ runs 2 11) (by decide +kernel)
  simp only [Bool.and_eq_true] at hp
  obtain ⟨⟨⟨h2, h0⟩, hs⟩, hslip⟩ := hp
  have hempty : ∀ {o : Option (List Act)}, o.any List.isEmpty = true → o = some [] := by
    intro o ho
    cases o with
    | none => cases ho
    | some task => rw [List.isEmpty_iff.1 ho]
  refine ⟨w, hw, hempty h2, hempty h0, hs, hslip, ?_⟩
  unfold slipped at hslip
  unfold Caught
  split at hslip
  next id ho =>
    rw [ho]
    rintro ⟨e, he, hr, -⟩
    simp [he, hr] at hslip
  next => cases hslip

end FaultForge.Master
