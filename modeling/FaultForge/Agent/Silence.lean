import FaultForge.Agent.Session

/-!
# When the master's silence stops a fault

An instance task in `ACTIVE` asks `wait_for_stop` (supervisor.rs:543), which sees the master through the connectivity
signal only. That signal tells since when no session is registered (`reach_connExact`), not when the last frame came:
a registered stream that delivers nothing keeps it `Connected`. `silence_stops` says exactly when the evaluation stops
an instance although the last frame is older than the threshold, and `silent_stream` is a run where it does not.
-/
namespace FaultForge.Agent

open Lts

/-- `master_loss_threshold_secs`, as configured. -/
def Ctx.lossWindowMs (ctx : Ctx) : Int := 1000 * ctx.lossThresholdSecs.toNat

/-- The last frame was read at `f`, longer ago than the threshold. -/
def Node.SilentSince (n : Node) (f : Int) : Prop :=
  n.lastFrame = some f ∧ f + n.agent.ctx.lossWindowMs < n.agent.ctx.now

/-- The evaluation of `wait_for_stop` stops the instance: for the loss of the master, or for a deadline that was due
before the master counted as lost. -/
def Node.SelfAborts (n : Node) (t : Task) (f : Int) : Prop :=
  ∃ cause, waitForStop n.agent.ctx t = .inl cause ∧
    (cause = .masterLost ∨
      cause = .durationElapsed ∧ (clock n.agent.ctx t).durationEndMs ≤ f + n.agent.ctx.lossWindowMs ∨
      cause = .deadman ∧ (clock n.agent.ctx t).deadmanMs ≤ f + n.agent.ctx.lossWindowMs)

/-- The instance has run out of time by itself, or the last registered session ended a threshold ago, no session has
been registered since, and neither deadline of the instance comes first. -/
def Node.StopDue (n : Node) (t : Task) (f : Int) : Prop :=
  (clock n.agent.ctx t).durationEndMs ≤ f + n.agent.ctx.lossWindowMs ∨
  (clock n.agent.ctx t).deadmanMs ≤ f + n.agent.ctx.lossWindowMs ∨
  ∃ lostAt, n.lostAt = some lostAt ∧
    saturatingAdd lostAt (lossThresholdMs n.agent.ctx.lossThresholdSecs) ≤ n.agent.ctx.now ∧
    saturatingAdd lostAt (lossThresholdMs n.agent.ctx.lossThresholdSecs) < (clock n.agent.ctx t).durationEndMs ∧
    saturatingAdd lostAt (lossThresholdMs n.agent.ctx.lossThresholdSecs) ≤ (clock n.agent.ctx t).deadmanMs

/-! ## What `next_stop` picks -/

/-- When the master counts as lost. -/
def StopClock.lossMs (c : StopClock) : Option Int :=
  c.masterLostSinceMs.map fun since => saturatingAdd since c.lossThresholdMs

/-- The pick is the earliest candidate; a tie goes to the duration, then to the loss. -/
theorem nextStop_cases (c : StopClock) :
    (nextStop c = (c.durationEndMs, .durationElapsed) ∧ c.durationEndMs ≤ c.deadmanMs ∧
      ∀ l ∈ c.lossMs, c.durationEndMs ≤ l) ∨
    (∃ l, c.lossMs = some l ∧ nextStop c = (l, .masterLost) ∧ l < c.durationEndMs ∧ l ≤ c.deadmanMs) ∨
    (nextStop c = (c.deadmanMs, .deadman) ∧ c.deadmanMs < c.durationEndMs ∧ ∀ l ∈ c.lossMs, c.deadmanMs < l) := by
  obtain ⟨d, m, lost, thr⟩ := c
  cases lost with
  | none =>
    simp only [nextStop, StopClock.lossMs, Option.map_none]
    by_cases hm : m < d
    · rw [if_pos hm]
      exact .inr (.inr ⟨rfl, hm, by simp⟩)
    · rw [if_neg hm]
      exact .inl ⟨rfl, by omega, by simp⟩
  | some since =>
    simp only [nextStop, StopClock.lossMs, Option.map_some, Option.mem_def, Option.some.injEq]
    by_cases hl : saturatingAdd since thr < d
    · simp only [if_pos hl]
      by_cases hm : m < saturatingAdd since thr
      · rw [if_pos hm]
        exact .inr (.inr ⟨rfl, by omega, fun l hl' => hl' ▸ hm⟩)
      · rw [if_neg hm]
        exact .inr (.inl ⟨_, rfl, rfl, hl, by omega⟩)
    · simp only [if_neg hl]
      by_cases hm : m < d
      · rw [if_pos hm]
        exact .inr (.inr ⟨rfl, hm, fun l hl' => by omega⟩)
      · rw [if_neg hm]
        exact .inl ⟨rfl, by omega, fun l hl' => by omega⟩

theorem waitForStop_inl {ctx : Ctx} {t : Task} {cause : StopCause} :
    waitForStop ctx t = .inl cause ↔ (nextStop (clock ctx t)).2 = cause ∧ (nextStop (clock ctx t)).1 ≤ ctx.now := by
  unfold waitForStop
  generalize nextStop (clock ctx t) = pick
  obtain ⟨deadline, c⟩ := pick
  by_cases h : deadline ≤ ctx.now
  · simp [h]
  · simp [h]

/-! ## The law -/

/-- The loss instant of the clock is the end of the last registered session. -/
theorem Node.ConnExact.lossMs {n : Node} (h : n.ConnExact) (t : Task) :
    (clock n.agent.ctx t).lossMs =
      n.lostAt.map fun since => saturatingAdd since (lossThresholdMs n.agent.ctx.lossThresholdSecs) := by
  unfold StopClock.lossMs clock
  rw [h.2]
  cases n.lostAt <;> simp

theorem selfAborts_iff {n : Node} (hn : n.ConnExact) {f : Int} (hs : n.SilentSince f) (t : Task) :
    n.SelfAborts t f ↔ n.StopDue t f := by
  obtain ⟨-, hold⟩ := hs
  have hloss := hn.lossMs t
  unfold Node.SelfAborts Node.StopDue
  simp only [waitForStop_inl]
  constructor
  · rintro ⟨cause, ⟨hc, hat⟩, hcase⟩
    rcases nextStop_cases (clock n.agent.ctx t) with ⟨hp, hle, -⟩ | ⟨l, hl, hp, hld, hlm⟩ | ⟨hp, hlt, -⟩
    · rw [hp] at hc
      subst hc
      rcases hcase with h | ⟨-, h⟩ | ⟨h, -⟩
      · cases h
      · exact .inl h
      · cases h
    · rw [hp] at hat
      rw [hl] at hloss
      obtain ⟨lostAt, hlost, rfl⟩ := Option.map_eq_some_iff.1 hloss.symm
      exact .inr (.inr ⟨lostAt, hlost, hat, hld, hlm⟩)
    · rw [hp] at hc
      subst hc
      rcases hcase with h | ⟨h, -⟩ | ⟨-, h⟩
      · cases h
      · cases h
      · exact .inr (.inl h)
  · intro h
    rcases nextStop_cases (clock n.agent.ctx t) with ⟨hp, hle, hl⟩ | ⟨l, hl, hp, hld, hlm⟩ | ⟨hp, hlt, hl⟩
    · have hd : (clock n.agent.ctx t).durationEndMs ≤ f + n.agent.ctx.lossWindowMs := by
        rcases h with h | h | ⟨lostAt, hlost, -, hld, -⟩
        · exact h
        · omega
        · have hle : (clock n.agent.ctx t).durationEndMs ≤ saturatingAdd lostAt _ := hl _ (by rw [hloss, hlost]; rfl)
          omega
      exact ⟨_, ⟨by rw [hp], by rw [hp]; show (clock n.agent.ctx t).durationEndMs ≤ _; omega⟩, .inr (.inl ⟨rfl, hd⟩)⟩
    · refine ⟨_, ⟨by rw [hp], ?_⟩, .inl rfl⟩
      rw [hp]
      show l ≤ n.agent.ctx.now
      rcases h with h | h | ⟨lostAt, hlost, hnow, -⟩
      · omega
      · omega
      · rw [hl, hlost] at hloss
        obtain rfl := Option.some.inj hloss
        exact hnow
    · have hd : (clock n.agent.ctx t).deadmanMs ≤ f + n.agent.ctx.lossWindowMs := by
        rcases h with h | h | ⟨lostAt, hlost, -, -, hlm⟩
        · omega
        · exact h
        · have hlt' : (clock n.agent.ctx t).deadmanMs < saturatingAdd lostAt _ := hl _ (by rw [hloss, hlost]; rfl)
          omega
      exact ⟨_, ⟨by rw [hp], by rw [hp]; show (clock n.agent.ctx t).deadmanMs ≤ _; omega⟩, .inr (.inr ⟨rfl, hd⟩)⟩

/-- A step that does not register a session never moves the loss instant. -/
theorem nodeStep_keeps_loss {X : Ext} {n n' : Node} {label : NodeLabel} {since : Int}
    (hs : nodeStep X n label = some n') (hlost : n.agent.ctx.conn = .lost since) :
    n'.agent.ctx.conn = .lost since ∨ n'.pc.registered = true := by
  cases label with
  | session label =>
    rcases sessionStep_conn hs with hq | ⟨m, hq, rfl⟩ | ⟨hreg, -⟩
    · exact .inl (hq.conn.trans hlost)
    · refine .inl ?_
      rw [Node.endSession_conn, hq.conn, hlost]
      rfl
    · exact .inr hreg
  | task id choice =>
    obtain ⟨a, ha, rfl⟩ := Option.map_eq_some_iff.1 hs
    obtain ⟨t, ctx, t', obs, -, hstep, rfl⟩ := stepInstance_some ha
    exact .inl ((taskStep_cases hstep).conn_eq.trans hlost)
  | clear i choice =>
    obtain ⟨a, ha, rfl⟩ := Option.map_eq_some_iff.1 hs
    obtain ⟨c, ctx, c', -, hstep, rfl⟩ := stepClear_some ha
    exact .inl ((clearStep_conn hstep).trans hlost)
  | tick => obtain rfl := Option.some.inj hs; exact .inl hlost

/-- **When silence stops a fault.** In every reachable state in which the last frame is older than the threshold, an
evaluation of `wait_for_stop` stops the instance as it should exactly when `StopDue` holds; and only a registration
moves the loss instant, so failed attempts never do. -/
theorem silence_stops {X : Ext} {n : Node} (h : Reach (nodeLts X) n) :
    (∀ f, n.SilentSince f → ∀ t, n.SelfAborts t f ↔ n.StopDue t f) ∧
    (∀ label n' since, nodeStep X n label = some n' → n.agent.ctx.conn = .lost since →
      n'.agent.ctx.conn = .lost since ∨ n'.pc.registered = true) :=
  ⟨fun _ hs t => selfAborts_iff (reach_connExact h) hs t, fun _ _ _ hs hlost => nodeStep_keeps_loss hs hlost⟩

/-! ## Two runs -/

/-- The stream breaks at 2000 and cannot be opened again: at 40000 the instance is stopped. -/
theorem silence_stops_broken :
    ∃ (n : Node) (t : Task), n.agent.instances.lookup sampleRun.instanceId = some t ∧ t.state = .active ∧
      n.SilentSince 1000 ∧ n.SelfAborts t 1000 := by
  let p : Node → Bool := fun n => (n.agent.instances.lookup sampleRun.instanceId).any fun t =>
    decide (t.state = .active) && decide (n.lastFrame = some 1000) &&
      decide (1000 + n.agent.ctx.lossWindowMs < n.agent.ctx.now) && decide (n.lostAt = some 2000) &&
      decide (saturatingAdd 2000 (lossThresholdMs n.agent.ctx.lossThresholdSecs) ≤ n.agent.ctx.now ∧
        saturatingAdd 2000 (lossThresholdMs n.agent.ctx.lossThresholdSecs) < (clock n.agent.ctx t).durationEndMs ∧
        saturatingAdd 2000 (lossThresholdMs n.agent.ctx.lossThresholdSecs) ≤ (clock n.agent.ctx t).deadmanMs)
  obtain ⟨n, hn, hp⟩ := reach_of_run p (L := nodeLts plainExt) (s := sampleNode) ⟨sampleBoot, _, rfl⟩
    (activeRun ++ [.tick 2000] ++ failedAttempt.map .session ++ [.tick 40000]) (by decide +kernel)
  obtain ⟨t, ht, hp⟩ := (Option.any_eq_true _ _).1 hp
  simp only [Bool.and_eq_true, decide_eq_true_eq] at hp
  obtain ⟨⟨⟨⟨hact, hf⟩, hold⟩, hlost⟩, hdue⟩ := hp
  exact ⟨n, t, ht, hact, ⟨hf, hold⟩, ((silence_stops hn).1 1000 ⟨hf, hold⟩ t).2 (.inr (.inr ⟨2000, hlost, hdue⟩))⟩

/-- The stream stays open and delivers nothing: at 40000 the instance sleeps on until its duration ends. -/
theorem silent_stream :
    ∃ (n : Node) (t : Task), Reach (nodeLts plainExt) n ∧ n.agent.instances.lookup sampleRun.instanceId = some t ∧
      t.state = .active ∧ t.pc = .waiting ∧ n.SilentSince 1000 ∧ ¬ n.SelfAborts t 1000 := by
  let p : Node → Bool := fun n => (n.agent.instances.lookup sampleRun.instanceId).any fun t =>
    decide (t.state = .active) && decide (t.pc = .waiting) && decide (n.lastFrame = some 1000) &&
      decide (1000 + n.agent.ctx.lossWindowMs < n.agent.ctx.now) &&
      decide (waitForStop n.agent.ctx t = .inr (61000, .durationElapsed))
  obtain ⟨n, hn, hp⟩ := reach_of_run p (L := nodeLts plainExt) (s := sampleNode) ⟨sampleBoot, _, rfl⟩
    (activeRun ++ [.tick 40000]) (by decide +kernel)
  obtain ⟨t, ht, hp⟩ := (Option.any_eq_true _ _).1 hp
  simp only [Bool.and_eq_true, decide_eq_true_eq] at hp
  obtain ⟨⟨⟨⟨hact, hpc⟩, hf⟩, hold⟩, hwait⟩ := hp
  refine ⟨n, t, hn, ht, hact, hpc, ⟨hf, hold⟩, ?_⟩
  rintro ⟨cause, hstop, -⟩
  rw [hwait] at hstop
  cases hstop

end FaultForge.Agent
