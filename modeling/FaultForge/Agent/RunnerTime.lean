import FaultForge.Agent.Runner

/-!
# When an invocation returns (runner.rs)

The clock of a `prompt` run ticks only while the runner's thread waits: its own code takes no time, a spawn is answered
at once, and no time passes in the `wait` after a kill: the killed child dies at once. The timeout of
`wait_with_timeout` starts when stdin has been written and closed, and the write has no limit of its own:

* `invoke_in_time` — an invocation returns within its window in every prompt run, whatever the plugin does, exactly when
  its input fits in a pipe; where it does not fit there is a prompt run that never returns.
* `invoke_returns` — where it fits, no run makes more than `Job.steps` steps of the runner and ticks of the clock, the
  death of a killed child included, and none is stuck before it returns.
-/
namespace FaultForge.Agent

open Lts Pipes

variable {J : Job} {w w' : Invoking} {a : RunnerLabel}

/-- The runner's thread is waiting. -/
def Invoking.waits (J : Job) (w : Invoking) : Bool :=
  match w.pc with
  | .backoff _ wake | .sleep wake => w.now < wake
  | .feed rest => rest ≠ [] ∧ w.stdin.readers.any ∧ J.capacity ≤ w.stdin.pipe.content.length
  | .finishOut _ limit => w.stdout.done = false ∧ w.now < limit
  | .finishErr _ _ limit => w.stderr.done = false ∧ w.now < limit
  | .spawn _ | .poll | .reap _ | .returned _ => false

def prompt (J : Job) (w : Invoking) : RunnerLabel → Bool
  | .tick => w.waits J
  | _ => true

/-- The retries of the spawn, the timeout, the last sleep before it is seen to be over, and the grace of two pipes. -/
def Job.window (J : Job) : Nat :=
  SPAWN_RETRIES * SPAWN_RETRY_BACKOFF + J.timeout + WAIT_POLL + 2 * PIPE_EOF_GRACE

/-! ## In time -/

/-- How late it can be, by the runner's place. -/
def OnTime (J : Job) (w : Invoking) : RunnerPc → Prop
  | .spawn attempt => attempt ≤ SPAWN_RETRIES ∧ w.now ≤ attempt * SPAWN_RETRY_BACKOFF
  | .backoff attempt wake => attempt ≤ SPAWN_RETRIES ∧ w.now ≤ wake ∧ wake ≤ attempt * SPAWN_RETRY_BACKOFF
  | .feed _ => w.now ≤ SPAWN_RETRIES * SPAWN_RETRY_BACKOFF
  | .poll => w.started ≤ SPAWN_RETRIES * SPAWN_RETRY_BACKOFF ∧ w.now < w.started + J.timeout + WAIT_POLL
  | .sleep wake => w.started ≤ SPAWN_RETRIES * SPAWN_RETRY_BACKOFF ∧ w.now ≤ wake ∧
      wake < w.started + J.timeout + WAIT_POLL
  | .reap _ => w.now < SPAWN_RETRIES * SPAWN_RETRY_BACKOFF + J.timeout + WAIT_POLL
  | .finishOut _ limit => w.now ≤ limit ∧
      limit < SPAWN_RETRIES * SPAWN_RETRY_BACKOFF + J.timeout + WAIT_POLL + PIPE_EOF_GRACE
  | .finishErr _ _ limit => w.now ≤ limit ∧ limit < J.window
  | .returned _ => True

/-- A plugin's input that fits never keeps the runner waiting. -/
theorem Supplied.not_waits (h : Supplied J w) (hfits : J.bytes.length ≤ J.capacity) {rest : List UInt8}
    (hpc : w.pc = .feed rest) : w.waits J = false := by
  simp only [Invoking.waits, hpc, decide_eq_false_iff_not]
  rintro ⟨hrest, -, hfull⟩
  have hlen := congrArg List.length (h.feeding rest hpc).2
  have hpos := List.length_pos_iff.2 hrest
  simp only [Pipe.wrote, List.length_append] at hlen
  omega

theorem OnTime.step (h : OnTime J w w.pc) (hw : w.Sound J) (hi : Supplied J w) (hfits : J.bytes.length ≤ J.capacity)
    (hp : prompt J w a = true) (hs : (runnerLts J).step w a = some w') : OnTime J w' w'.pc := by
  have hphase := hw.phase
  cases runnerStep_cases hs with
  | tick =>
    replace hp : w.waits J = true := hp
    cases hpc : w.pc with
    | feed rest => exact absurd ((hi.not_waits hfits hpc).symm.trans hp) Bool.false_ne_true
    | spawn | poll | reap | returned => simp [Invoking.waits, hpc] at hp
    | backoff | sleep | finishOut | finishErr =>
      simp only [Invoking.waits, hpc, decide_eq_true_eq] at hp
      simp only [OnTime, hpc] at h ⊢
      omega
  | spawned hpc =>
    simp only [OnTime, hpc] at h ⊢
    exact h.2.trans (Nat.mul_le_mul_right _ h.1)
  | busy hpc hlt =>
    simp only [OnTime, hpc] at h ⊢
    refine ⟨hlt, Nat.le_add_right _ _, ?_⟩
    rw [Nat.succ_mul]
    omega
  | unspawned hpc => trivial
  | feed hpc =>
    simp only [OnTime, hpc] at h ⊢
    exact h
  | fed hpc =>
    simp only [OnTime, hpc, WAIT_POLL] at h ⊢
    omega
  | retry hpc | woken hpc | lookFailed hpc | found hpc | expired hpc | reaped hpc | unreaped hpc =>
    simp only [OnTime, hpc] at h ⊢
    omega
  | nap hpc hrun hlt =>
    rw [hpc] at hphase
    have := hphase.2.2
    simp only [OnTime, hpc] at h ⊢
    omega
  | finishOut hpc =>
    simp only [OnTime, Job.window, hpc] at h ⊢
    omega
  | finishErr hpc => trivial
  | die | exit | stdin | stdout | stderr => exact h

theorem reach_supplied (h : Reach (runnerLts J) w) : Supplied J w :=
  h.inv (fun _ hw => hw ▸ .start J) fun _ _ _ hi hstep => hi.step hstep

theorem OnTime.start (J : Job) : OnTime J (.start J) (Invoking.start J).pc := by
  unfold Invoking.start
  cases J.payload with
  | error e => trivial
  | ok bytes => exact ⟨Nat.zero_le _, Nat.zero_le _⟩

theorem reach_onTime (hfits : J.bytes.length ≤ J.capacity)
    (h : ReachIf (runnerLts J) (fun w a => prompt J w a = true) w) : OnTime J w w.pc :=
  h.inv (I := fun w => w.Sound J ∧ Supplied J w) (fun _ hr => ⟨reach_invoking hr, reach_supplied hr⟩)
    (fun _ hw => hw ▸ .start J) fun _ _ _ hi hp hg hs => OnTime.step hp hi.1 hi.2 hfits hg hs

theorem OnTime.window (h : OnTime J w w.pc) : (∃ i, w.pc = .returned i) ∨ w.now < J.window := by
  cases hpc : w.pc with
  | returned i => exact .inl ⟨i, rfl⟩
  | spawn attempt | backoff attempt =>
    have := Nat.mul_le_mul_right SPAWN_RETRY_BACKOFF (show attempt ≤ SPAWN_RETRIES by rw [hpc] at h; exact h.1)
    simp only [OnTime, hpc] at h
    simp only [Job.window, WAIT_POLL] at *
    omega
  | feed | poll | sleep | reap | finishOut | finishErr =>
    simp only [OnTime, Job.window, WAIT_POLL, PIPE_EOF_GRACE, hpc] at h ⊢
    omega

/-- `n` milliseconds after the spawn, with a pipe full of an input that does not fit, and a plugin that does nothing. -/
def Invoking.stuck (J : Job) (n : Nat) : Invoking where
  now := n
  pc := .feed (J.bytes.drop J.capacity)
  started := 0
  child := .running
  killed := none
  lost := false
  stdin := { Input.fresh .sole with pipe := ⟨[], J.bytes.take J.capacity⟩ }
  stdout := .fresh .sole
  stderr := .fresh .sole

theorem stuck_waits (hbig : J.capacity < J.bytes.length) (n : Nat) : (Invoking.stuck J n).waits J = true := by
  simp [Invoking.waits, Invoking.stuck, Input.fresh, Holders.sole, Holders.any, hbig, hbig.le]

theorem reach_stuck (hbig : J.capacity < J.bytes.length) (n : Nat) :
    ReachIf (runnerLts J) (fun w a => prompt J w a = true) (.stuck J n) := by
  induction n with
  | succ n ih => exact .step (a := .tick) ih (stuck_waits hbig n) rfl
  | zero =>
    obtain ⟨bytes, hok⟩ : ∃ bytes, J.payload = .ok bytes := by
      cases hp : J.payload with
      | ok bytes => exact ⟨bytes, rfl⟩
      | error e => simp [Job.bytes, hp] at hbig
    have hstart : ReachIf (runnerLts J) (fun w a => prompt J w a = true) (.start J) := .init rfl
    have hspawned := hstart.step (a := .spawn none) rfl (by
      show runnerStep J (.start J) (.spawn none) = _
      simp only [runnerStep, Invoking.start, hok]
      rfl)
    rcases Nat.eq_zero_or_pos J.capacity with hzero | hpos
    · simpa [Invoking.stuck, Invoking.start, Input.fresh, Pipe.empty, hzero] using hspawned
    · refine hspawned.step (a := .feed J.capacity) rfl ?_
      simp [runnerLts, runnerStep, Invoking.stuck, Invoking.start, Input.fresh, Pipe.empty, Pipe.put, Holders.sole,
        Holders.any, hpos, hbig.le]

/-- A prompt run in which the clock goes on ticking and the invocation never returns; `w n` is its state at time `n`. -/
structure Unending (J : Job) (w : Nat → Invoking) : Prop where
  reached : ReachIf (runnerLts J) (fun w a => prompt J w a = true) (w 0)
  waits (n : Nat) : (w n).waits J = true
  tick (n : Nat) : (runnerLts J).step (w n) .tick = some (w (n + 1))
  now (n : Nat) : (w n).now = n
  running (n : Nat) (i : Invocation) : (w n).pc ≠ .returned i

theorem unending_stuck (hbig : J.capacity < J.bytes.length) : Unending J (.stuck J) where
  reached := reach_stuck hbig 0
  waits := stuck_waits hbig
  tick _ := rfl
  now _ := rfl
  running _ i h := by cases h

theorem Unending.reach {w : Nat → Invoking} (h : Unending J w) (n : Nat) :
    ReachIf (runnerLts J) (fun w a => prompt J w a = true) (w n) := by
  induction n with
  | zero => exact h.reached
  | succ n ih => exact ih.step (a := .tick) (h.waits n) (h.tick n)

/-- **The timeout bounds an invocation exactly when its input fits in a pipe.** Then every prompt run has returned when
the window is over, whatever the plugin and its heirs do; and exactly for an input that does not fit there is a run that
never returns: the input is written to a plugin that does not read it, and no limit applies to the write. -/
theorem invoke_in_time (J : Job) :
    (J.bytes.length ≤ J.capacity ↔ ∀ w, ReachIf (runnerLts J) (fun w a => prompt J w a = true) w →
      (∃ i, w.pc = .returned i) ∨ w.now < J.window) ∧
    (J.capacity < J.bytes.length ↔ ∃ w, Unending J w) := by
  have hbounds (hfits : J.bytes.length ≤ J.capacity) (w : Invoking)
      (hw : ReachIf (runnerLts J) (fun w a => prompt J w a = true) w) : (∃ i, w.pc = .returned i) ∨ w.now < J.window :=
    (reach_onTime hfits hw).window
  have hpast {w : Nat → Invoking} (hw : Unending J w) : ¬ ((∃ i, (w J.window).pc = .returned i) ∨
      (w J.window).now < J.window) := by
    rintro (⟨i, hi⟩ | hlt)
    · exact hw.running _ i hi
    · rw [hw.now] at hlt
      exact Nat.lt_irrefl _ hlt
  refine ⟨⟨hbounds, fun h => ?_⟩, fun hbig => ⟨_, unending_stuck hbig⟩, fun ⟨w, hw⟩ => ?_⟩
  · by_contra hbig
    have hstuck := unending_stuck (Nat.lt_of_not_le hbig)
    exact hpast hstuck (h _ (hstuck.reach _))
  · by_contra hfits
    exact hpast hw (hbounds (Nat.le_of_not_lt hfits) _ (hw.reach _))

/-! ## Never stuck, and not for ever -/

/-- A step of the runner's thread, a tick of the clock, or the death of the child it killed. -/
def RunnerLabel.own : RunnerLabel → Bool
  | .tick | .spawn _ | .wake | .feed _ | .fed | .look _ | .waited _ | .finish | .die => true
  | .exit _ | .stdin _ | .stdout _ | .stderr _ => false

/-- Such steps still to come once the child has been killed: the wait, the two pipes. -/
def CLOSING : Nat := 1 + (PIPE_EOF_GRACE + 1) + (PIPE_EOF_GRACE + 1)

/-- Such steps still to come at a poll, with `rest` milliseconds to the timeout. -/
def polling (rest : Nat) : Nat := (WAIT_POLL + 2) * rest + 1 + CLOSING

/-- Such steps still to come at a spawn, but for those of its retries. -/
def Job.spawning (J : Job) : Nat := 2 + J.bytes.length + 1 + polling J.timeout

/-- An upper bound on such steps still to come, the death of the child left out. -/
def Job.left (J : Job) (w : Invoking) : RunnerPc → Nat
  | .spawn attempt => J.spawning + (SPAWN_RETRIES - attempt) * (SPAWN_RETRY_BACKOFF + 2)
  | .backoff attempt wake =>
    (wake - w.now) + 1 + (J.spawning + (SPAWN_RETRIES - attempt) * (SPAWN_RETRY_BACKOFF + 2))
  | .feed rest => rest.length + 1 + polling J.timeout
  | .poll => polling (J.timeout - (w.now - w.started))
  | .sleep wake => (wake - w.now) + 1 + polling (J.timeout - (wake - w.started))
  | .reap _ => CLOSING
  | .finishOut _ limit => (limit - w.now) + 1 + (PIPE_EOF_GRACE + 1)
  | .finishErr _ _ limit => (limit - w.now) + 1
  | .returned _ => 0

/-- One more while the child runs: it may have to die. -/
def Job.measure (J : Job) (w : Invoking) : Nat := J.left w w.pc + if w.child = .running then 1 else 0

def Job.steps (J : Job) : Nat := J.spawning + SPAWN_RETRIES * (SPAWN_RETRY_BACKOFF + 2)

theorem left_congr (hnow : w'.now = w.now) (hstarted : w'.started = w.started) (pc : RunnerPc) :
    J.left w' pc = J.left w pc := by
  cases pc <;> simp only [Job.left, hnow, hstarted]

theorem measure_step (hw : w.Sound J) (hi : Supplied J w) (hfits : J.bytes.length ≤ J.capacity)
    (hp : prompt J w a = true) (hs : (runnerLts J).step w a = some w') :
    J.measure w' + (if a.own then 1 else 0) ≤ J.measure w := by
  have hphase := hw.phase
  cases runnerStep_cases hs with
  | tick =>
    replace hp : w.waits J = true := hp
    cases hpc : w.pc with
    | feed rest => exact absurd ((hi.not_waits hfits hpc).symm.trans hp) Bool.false_ne_true
    | spawn | poll | reap | returned => simp [Invoking.waits, hpc] at hp
    | backoff | sleep | finishOut | finishErr =>
      simp only [Invoking.waits, hpc, decide_eq_true_eq] at hp
      simp only [Job.measure, Job.left, RunnerLabel.own, hpc, if_true]
      omega
  | spawned hpc | unspawned hpc =>
    simp only [Job.measure, Job.left, Job.spawning, RunnerLabel.own, hpc, if_true]
    omega
  | @busy attempt e hpc hlt =>
    have hretry : (SPAWN_RETRIES - attempt) * (SPAWN_RETRY_BACKOFF + 2) =
        (SPAWN_RETRIES - (attempt + 1)) * (SPAWN_RETRY_BACKOFF + 2) + (SPAWN_RETRY_BACKOFF + 2) := by
      rw [← Nat.succ_mul]
      congr 1
      omega
    simp only [Job.measure, Job.left, RunnerLabel.own, hpc, if_true]
    omega
  | retry hpc | finishOut hpc | finishErr hpc =>
    simp only [Job.measure, Job.left, RunnerLabel.own, hpc, if_true]
    omega
  | woken hpc =>
    simp only [Job.measure, Job.left, polling, WAIT_POLL, RunnerLabel.own, hpc, if_true]
    omega
  | feed hpc =>
    simp only [Job.measure, Job.left, RunnerLabel.own, hpc, if_true, List.length_drop]
    omega
  | fed hpc =>
    simp only [Job.measure, Job.left, RunnerLabel.own, hpc, if_true, Nat.sub_self, Nat.sub_zero]
    omega
  | lookFailed hpc | expired hpc =>
    simp only [Job.measure, Job.left, polling, RunnerLabel.own, hpc, if_true]
    omega
  | nap hpc hrun hlt =>
    rw [hpc] at hphase
    have := hphase.2.2
    simp only [Job.measure, Job.left, polling, WAIT_POLL, RunnerLabel.own, hpc, if_true]
    omega
  | found hpc hchild =>
    simp only [Job.measure, Job.left, polling, CLOSING, RunnerLabel.own, hpc, hchild, if_true, reduceCtorEq, if_false]
    omega
  | reaped hpc hchild =>
    simp only [Job.measure, Job.left, CLOSING, RunnerLabel.own, hpc, hchild, if_true, reduceCtorEq, if_false]
    omega
  | unreaped hpc =>
    simp only [Job.measure, Job.left, CLOSING, RunnerLabel.own, hpc, if_true]
    omega
  | die hrun | exit hrun =>
    have hleft (status : ExitStatus) : J.left (w.exit status) w.pc = J.left w w.pc := left_congr rfl rfl _
    simp only [Job.measure, hrun, if_true]
    exact Nat.add_le_add (le_of_eq (hleft _)) (by simp [RunnerLabel.own])
  | stdin | stdout | stderr => exact Nat.add_le_add_right (le_of_eq (left_congr (w := w) rfl rfl w.pc)) _

/-- Before it returns, the runner or the clock can take a step, or the child it killed dies. -/
theorem Invoking.Sound.moves (h : w.Sound J) (hret : ∀ i, w.pc ≠ .returned i) :
    ∃ a, a.own = true ∧ prompt J w a = true ∧ ((runnerLts J).step w a).isSome = true := by
  have hphase := h.phase
  have look : ∀ {a : RunnerLabel}, a.own = true → prompt J w a = true → (runnerStep J w a).isSome = true →
      ∃ a, a.own = true ∧ prompt J w a = true ∧ ((runnerLts J).step w a).isSome = true :=
    fun ho hp hs => ⟨_, ho, hp, hs⟩
  cases hpc : w.pc with
  | spawn attempt => exact look (a := .spawn none) rfl rfl (by simp [runnerStep, hpc])
  | backoff attempt wake =>
    by_cases hwake : wake ≤ w.now
    · exact look (a := .wake) rfl rfl (by simp [runnerStep, hpc, hwake])
    · exact look (a := .tick) rfl (by simpa [prompt, Invoking.waits, hpc] using hwake) rfl
  | sleep wake =>
    by_cases hwake : wake ≤ w.now
    · exact look (a := .wake) rfl rfl (by simp [runnerStep, hpc, hwake])
    · exact look (a := .tick) rfl (by simpa [prompt, Invoking.waits, hpc] using hwake) rfl
  | feed rest =>
    by_cases hfed : rest = [] ∨ w.stdin.readers.any = false
    · exact look (a := .fed) rfl rfl (by simp [runnerStep, hpc, hfed])
    · obtain ⟨hrest, hany⟩ := not_or.1 hfed
      rw [Bool.not_eq_false] at hany
      by_cases hroom : J.capacity ≤ w.stdin.pipe.content.length
      · exact look (a := .tick) rfl (by simp [prompt, Invoking.waits, hpc, hrest, hany, hroom]) rfl
      · have hpos := List.length_pos_iff.2 hrest
        refine look (a := .feed 1) rfl rfl ?_
        have hone : w.stdin.pipe.content.length + 1 ≤ J.capacity := by omega
        have hle : 1 ≤ rest.length := hpos
        simp [runnerStep, hpc, hany, hle, hone]
  | poll =>
    rw [hpc] at hphase
    cases hchild : w.child with
    | running =>
      refine look (a := .look none) rfl rfl ?_
      simp only [runnerStep, hpc, hchild]
      split <;> rfl
    | zombie status => exact look (a := .look none) rfl rfl (by simp [runnerStep, hpc, hchild])
    | absent | reaped =>
      have hlive := hphase.1
      rw [hchild] at hlive
      exact hlive.elim
  | reap status =>
    rw [hpc] at hphase
    cases hchild : w.child with
    | running => exact look (a := .die) rfl rfl (by simp [runnerStep, hchild, hphase.2.1])
    | zombie s => exact look (a := .waited true) rfl rfl (by simp [runnerStep, hpc, hchild])
    | absent | reaped =>
      have hlive := hphase.1
      rw [hchild] at hlive
      exact hlive.elim
  | finishOut status limit =>
    by_cases hdone : w.stdout.done = true ∨ limit ≤ w.now
    · exact look (a := .finish) rfl rfl (by simp [runnerStep, hpc, hdone])
    · obtain ⟨hd, hl⟩ := not_or.1 hdone
      have hlt := Nat.lt_of_not_le hl
      exact look (a := .tick) rfl (by simp [prompt, Invoking.waits, hpc, hd, hlt]) rfl
  | finishErr status text limit =>
    by_cases hdone : w.stderr.done = true ∨ limit ≤ w.now
    · exact look (a := .finish) rfl rfl (by simp [runnerStep, hpc, hdone])
    · obtain ⟨hd, hl⟩ := not_or.1 hdone
      have hlt := Nat.lt_of_not_le hl
      exact look (a := .tick) rfl (by simp [prompt, Invoking.waits, hpc, hd, hlt]) rfl
  | returned i => exact absurd hpc (hret i)

theorem run_measure (hfits : J.bytes.length ≤ J.capacity) {as : List RunnerLabel} (hreach : Reach (runnerLts J) w)
    (h : runIf (runnerLts J) (prompt J) w as = some w') : J.measure w' + as.countP RunnerLabel.own ≤ J.measure w := by
  induction as generalizing w with
  | nil =>
    obtain rfl := Option.some.inj h
    exact le_refl _
  | cons a as ih =>
    simp only [runIf] at h
    split at h
    case isFalse => cases h
    case isTrue hp =>
      obtain ⟨w₁, hs, h⟩ := Option.bind_eq_some_iff.1 h
      have hone := measure_step (reach_invoking hreach) (reach_supplied hreach) hfits hp hs
      have hrest := ih (hreach.step hs) h
      rw [List.countP_cons]
      omega

theorem measure_start (J : Job) : J.measure (.start J) ≤ J.steps := by
  unfold Job.measure Job.steps Invoking.start
  cases J.payload with
  | error e => exact Nat.zero_le _
  | ok bytes =>
    simp only [Job.left, reduceCtorEq, if_false, Nat.sub_zero, Nat.add_zero]
    exact le_refl _

/-- **An invocation returns.** Where its input fits in a pipe, no prompt run makes more than `Job.steps` steps of the
runner and ticks of the clock, the death of a killed child included, whatever the plugin, its heirs and the readers do
in between; and as long as it has not returned, such a step is there to be made. -/
theorem invoke_returns (hfits : J.bytes.length ≤ J.capacity) {as : List RunnerLabel}
    (h : runIf (runnerLts J) (prompt J) (.start J) as = some w) :
    as.countP RunnerLabel.own ≤ J.steps ∧
      ((∃ i, w.pc = .returned i) ∨
        ∃ a, a.own = true ∧ prompt J w a = true ∧ ((runnerLts J).step w a).isSome = true) := by
  have hreach : ReachIf (runnerLts J) (fun w a => prompt J w a = true) w := .run (fun _ _ hp => hp) (.init rfl) h
  refine ⟨?_, ?_⟩
  · have hrun := run_measure hfits (.init rfl) h
    have hstart := measure_start J
    omega
  · by_cases hret : ∃ i, w.pc = .returned i
    · exact .inl hret
    · exact .inr ((reach_invoking hreach.reach).moves fun i hi => hret ⟨i, hi⟩)

theorem invoke_returns_sample :
    ∃ w, runIf (runnerLts plainJob) (prompt plainJob) (.start plainJob) plainInvoke = some w ∧
      plainInvoke.countP RunnerLabel.own ≤ plainJob.steps := by
  have hrun : (runIf (runnerLts plainJob) (prompt plainJob) (.start plainJob) plainInvoke).isSome = true := by
    decide
  obtain ⟨w, hw⟩ := Option.isSome_iff_exists.1 hrun
  exact ⟨w, hw, (invoke_returns (by decide) hw).1⟩

end FaultForge.Agent
