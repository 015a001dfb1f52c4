import FaultForge.Agent.Deadman
import FaultForge.Lib.I64

/-!
# The re-arming wait (supervisor.rs:543-581, machine.rs:633-645)

`wait_for_stop` on its own, over any sequence of readings of the clock, of observed connectivity and of what ends a
`select!`, with the branch for a session layer that is gone. It never stops before a deadline of `next_stop`
(`turn_stop`); but the threshold reaches `next_stop` through a cast to `i64`, and from 2^63 ms on the cast gives another
number. **`self_abort_timely`**: no self-abort comes early exactly when the threshold is below that; with the largest
one the loss of the master stops the instance at once (`self_abort_early`).

| here | there |
| --- | --- |
| `Wait` | the arguments of `wait_for_stop` and the configured threshold |
| `Round`, `Wake` | what one turn of the loop reads, and the branch of the `select!` that is ready |
| `turn`, `waitLoop` | the body of the loop, the loop |
-/
namespace FaultForge.Agent

/-! ## The loop -/

structure Wait where
  /-- `master_loss_threshold_secs`. -/
  lossThresholdSecs : UInt64
  durationEndMs : Int
  deadmanMs : Int

/-- The branch of the `select!` that is taken, and how many milliseconds after the reading of the clock. -/
inductive Wake
  | timer (after : Nat)
  | changed
  /-- `changed()` failed, and the loop has slept once more, for `slept`. -/
  | gone (after slept : Nat)
  /-- `stop_rx.recv()`; the one sender of the channel is `handle_abort_fault` (supervisor.rs:209). -/
  | abort (after : Nat)

structure Round where
  nowMs : Int
  conn : ConnState
  wake : Wake

/-- A return of `wait_for_stop`: the cause, the time, and the connectivity observed last. -/
structure Stopped where
  cause : StopCause
  atMs : Int
  conn : ConnState
deriving DecidableEq

inductive Turn
  | stop (s : Stopped)
  | again
  /-- The branch is not ready. -/
  | blocked
deriving DecidableEq

def Wait.clock (w : Wait) (conn : ConnState) : StopClock where
  durationEndMs := w.durationEndMs
  deadmanMs := w.deadmanMs
  masterLostSinceMs := match conn with
    | .connected => none
    | .lost since => some since
  lossThresholdMs := lossThresholdMs w.lossThresholdSecs

/-- `u64::try_from(at_ms - now_ms).unwrap_or(0)`. -/
def sleepForMs (atMs nowMs : Int) : Nat := (atMs - nowMs).toNat

def turn (w : Wait) (r : Round) : Turn :=
  let (at_, cause) := nextStop (w.clock r.conn)
  if at_ ≤ r.nowMs then .stop ⟨cause, r.nowMs, r.conn⟩
  else
    match r.wake with
    | .timer after => if sleepForMs at_ r.nowMs ≤ after then .stop ⟨cause, r.nowMs + after, r.conn⟩ else .blocked
    | .changed => .again
    | .gone after slept =>
      if sleepForMs at_ r.nowMs ≤ slept then .stop ⟨cause, r.nowMs + after + slept, r.conn⟩ else .blocked
    | .abort after => .stop ⟨.operatorAbort, r.nowMs + after, r.conn⟩

/-- `wait_for_stop` (supervisor.rs:543); `none` while it still waits. -/
def waitLoop (w : Wait) : List Round → Option Stopped
  | [] => none
  | r :: rest =>
    match turn w r with
    | .stop s => some s
    | .again => waitLoop w rest
    | .blocked => none

/-- An `i64` of milliseconds at or after the epoch. -/
def AfterEpoch (ms : Int) : Prop := 0 ≤ ms ∧ ms < 2 ^ 63

structure Round.AfterEpoch (r : Round) : Prop where
  now : Agent.AfterEpoch r.nowMs
  lost : ∀ since, r.conn = .lost since → Agent.AfterEpoch since

/-- No deadline is anticipated; the threshold counts as the integer it is. -/
structure Stopped.Timely (w : Wait) (s : Stopped) : Prop where
  lost : s.cause = .masterLost → ∃ since, s.conn = .lost since ∧ since + 1000 * w.lossThresholdSecs.toNat ≤ s.atMs
  duration : s.cause = .durationElapsed → w.durationEndMs ≤ s.atMs
  deadman : s.cause = .deadman → w.deadmanMs ≤ s.atMs

section
variable {w : Wait} {r : Round} {rounds : List Round} {s : Stopped}

/-- A deadline that is due ends the wait in the turn that sees it. -/
theorem turn_due {at_ : Int} {cause : StopCause} (h : nextStop (w.clock r.conn) = (at_, cause)) (hle : at_ ≤ r.nowMs) :
    turn w r = .stop ⟨cause, r.nowMs, r.conn⟩ := by
  unfold turn
  rw [h]
  exact if_pos hle

theorem waitLoop_stop (h : turn w r = .stop s) : waitLoop w (r :: rounds) = some s := by
  unfold waitLoop
  rw [h]

/-! ## The task of an instance waits so -/

/-- The wait that a task enters in `ACTIVE`. -/
def Task.wait (ctx : Ctx) (t : Task) : Wait := ⟨ctx.lossThresholdSecs, t.durationEndMs, t.deadmanMs⟩

theorem wait_clock (ctx : Ctx) (t : Task) : (t.wait ctx).clock ctx.conn = clock ctx t := rfl

/-- A deadline that is due stops the task in the evaluation that sees it. -/
theorem waitForStop_turn {ctx : Ctx} {t : Task} {cause : StopCause} (wake : Wake)
    (h : waitForStop ctx t = .inl cause) :
    turn (t.wait ctx) ⟨ctx.now, ctx.conn, wake⟩ = .stop ⟨cause, ctx.now, ctx.conn⟩ := by
  obtain ⟨rfl, hle⟩ := waitForStop_inl.1 h
  exact turn_due (r := ⟨ctx.now, ctx.conn, wake⟩) (wait_clock ctx t ▸ rfl) hle

/-- A timer that is armed waits for the deadline that the loop sleeps for. -/
theorem waitForStop_arms {ctx : Ctx} {t : Task} {at_ : Int} {cause : StopCause} (after : Nat)
    (h : waitForStop ctx t = .inr (at_, cause)) (hafter : at_ ≤ ctx.now + after) :
    turn (t.wait ctx) ⟨ctx.now, ctx.conn, .timer after⟩ = .stop ⟨cause, ctx.now + after, ctx.conn⟩ := by
  have hpick : nextStop (clock ctx t) = (at_, cause) ∧ ¬ at_ ≤ ctx.now := by
    unfold waitForStop at h
    generalize nextStop (clock ctx t) = pick at h
    obtain ⟨d, c⟩ := pick
    by_cases hle : d ≤ ctx.now
    · simp [hle] at h
    · simp only [hle, if_false, Sum.inr.injEq] at h
      exact ⟨h, by rw [← (Prod.mk.inj h).1]; exact hle⟩
  have hslept : sleepForMs at_ ctx.now ≤ after := by
    unfold sleepForMs
    omega
  unfold turn
  rw [wait_clock, hpick.1]
  show (if at_ ≤ ctx.now then _ else _ : Turn) = _
  rw [if_neg hpick.2]
  exact if_pos hslept

/-- What the loop sleeps for is the exact difference: where it sleeps, the subtraction does not overflow. -/
theorem sleepForMs_exact (hduration : I64.Fits w.durationEndMs) (hr : r.AfterEpoch)
    (hlt : r.nowMs < (nextStop (w.clock r.conn)).1) :
    I64.sub (nextStop (w.clock r.conn)).1 r.nowMs = some (sleepForMs (nextStop (w.clock r.conn)).1 r.nowMs : Int) := by
  have hle : (nextStop (w.clock r.conn)).1 ≤ w.durationEndMs := by
    rcases nextStop_cases (w.clock r.conn) with ⟨hp, -, -⟩ | ⟨l, -, hp, hl, -⟩ | ⟨hp, hl, -⟩ <;> rw [hp]
    · exact Int.le_refl _
    · exact Int.le_of_lt hl
    · exact Int.le_of_lt hl
  obtain ⟨h0, -⟩ := hr.now
  obtain ⟨-, hmax⟩ := hduration
  have hsub := I64.sub_of_fits (x := (nextStop (w.clock r.conn)).1) (y := r.nowMs) ⟨by omega, by omega⟩
  rw [hsub]
  unfold sleepForMs
  congr 1
  omega

/-! ## No deadline is anticipated -/

/-- What ends a turn with a stop: the abort of an operator, or the deadline that `next_stop` picked, when it is due. -/
theorem turn_stop (h : turn w r = .stop s) : s.conn = r.conn ∧
    (s.cause = .operatorAbort ∨
      s.cause = (nextStop (w.clock r.conn)).2 ∧ (nextStop (w.clock r.conn)).1 ≤ s.atMs) := by
  unfold turn at h
  generalize nextStop (w.clock r.conn) = pick at h
  obtain ⟨at_, cause⟩ := pick
  simp only at h
  split at h
  next hle =>
    obtain rfl := Turn.stop.inj h
    exact ⟨rfl, .inr ⟨rfl, hle⟩⟩
  next hlt =>
    split at h
    next after _ =>
      split at h
      next hslept =>
        obtain rfl := Turn.stop.inj h
        unfold sleepForMs at hslept
        exact ⟨rfl, .inr ⟨rfl, by simp only; omega⟩⟩
      next => cases h
    next => cases h
    next after slept _ =>
      split at h
      next hslept =>
        obtain rfl := Turn.stop.inj h
        unfold sleepForMs at hslept
        exact ⟨rfl, .inr ⟨rfl, by simp only; omega⟩⟩
      next => cases h
    next =>
      obtain rfl := Turn.stop.inj h
      exact ⟨rfl, .inl rfl⟩

theorem waitLoop_some (h : waitLoop w rounds = some s) : ∃ r ∈ rounds, turn w r = .stop s := by
  induction rounds with
  | nil => cases h
  | cons r rest ih =>
    unfold waitLoop at h
    split at h
    next s' hs =>
      obtain rfl := Option.some.inj h
      exact ⟨r, List.mem_cons_self, hs⟩
    next =>
      obtain ⟨r', hr', hs⟩ := ih h
      exact ⟨r', List.mem_cons_of_mem _ hr', hs⟩
    next => cases h

/-- A threshold that fits is counted in full: where the sum saturates, no duration ends later. -/
theorem loss_exact (hsecs : 1000 * w.lossThresholdSecs.toNat < 2 ^ 63) {since : Int} (hsince : AfterEpoch since)
    (hlt : saturatingAdd since (lossThresholdMs w.lossThresholdSecs) < w.durationEndMs)
    (hduration : I64.Fits w.durationEndMs) :
    saturatingAdd since (lossThresholdMs w.lossThresholdSecs) = since + 1000 * w.lossThresholdSecs.toNat := by
  have hcast : lossThresholdMs w.lossThresholdSecs = 1000 * w.lossThresholdSecs.toNat :=
    I64.bmod_eq_iff.2 (I64.fits_of_le (by omega) (by exact_mod_cast hsecs))
  obtain ⟨h0, -⟩ := hsince
  obtain ⟨-, hmax⟩ := hduration
  rw [hcast] at hlt ⊢
  unfold saturatingAdd at hlt ⊢
  omega

theorem turn_timely (hsecs : 1000 * w.lossThresholdSecs.toNat < 2 ^ 63) (hduration : I64.Fits w.durationEndMs)
    (hr : r.AfterEpoch) (h : turn w r = .stop s) : s.Timely w := by
  obtain ⟨hconn, habort | ⟨hcause, hat⟩⟩ := turn_stop h
  · exact ⟨fun hc => by simp [habort] at hc, fun hc => by simp [habort] at hc, fun hc => by simp [habort] at hc⟩
  · rcases nextStop_cases (w.clock r.conn) with ⟨hp, -, -⟩ | ⟨l, hl, hp, hlt, -⟩ | ⟨hp, -, -⟩
    · rw [hp] at hcause hat
      exact ⟨fun hc => by simp [hcause] at hc, fun _ => hat, fun hc => by simp [hcause] at hc⟩
    · rw [hp] at hcause hat
      refine ⟨fun _ => ?_, fun hc => by simp [hcause] at hc, fun hc => by simp [hcause] at hc⟩
      cases hlost : r.conn with
      | connected => simp [StopClock.lossMs, Wait.clock, hlost] at hl
      | lost since =>
        have hsum : saturatingAdd since (lossThresholdMs w.lossThresholdSecs) = l := by
          simpa [StopClock.lossMs, Wait.clock, hlost] using hl
        rw [← hsum] at hlt hat
        rw [loss_exact hsecs (hr.lost since hlost) hlt hduration] at hat
        exact ⟨since, hconn.trans hlost, hat⟩
    · rw [hp] at hcause hat
      exact ⟨fun hc => by simp [hcause] at hc, fun hc => by simp [hcause] at hc, fun _ => hat⟩

end

/-! ## Thresholds that the cast changes -/

/-- The cast of a threshold is even, so it is never the last `i64`. -/
theorem lossThresholdMs_lt (secs : UInt64) : lossThresholdMs secs < 2 ^ 63 - 1 := by
  have hlt : lossThresholdMs secs < 2 ^ 63 := Int.bmod_lt (by decide)
  have hmod : lossThresholdMs secs % 2 ^ 64 = (1000 * secs.toNat : Int) % 2 ^ 64 := Int.bmod_emod
  omega

/-- The connection is lost at the epoch, and no deadline is before the cast of the threshold: the loop stops for the
loss as soon as that is past. -/
theorem waitLoop_cast {secs : UInt64} {durationEndMs deadmanMs : Int} (hduration : lossThresholdMs secs < durationEndMs)
    (hdeadman : lossThresholdMs secs ≤ deadmanMs) :
    waitLoop ⟨secs, durationEndMs, deadmanMs⟩ [⟨max (lossThresholdMs secs) 0, .lost 0, .changed⟩] =
      some ⟨.masterLost, max (lossThresholdMs secs) 0, .lost 0⟩ := by
  have hlow : -2 ^ 63 ≤ lossThresholdMs secs := Int.le_bmod (by decide)
  have hhigh := lossThresholdMs_lt secs
  have hsum : saturatingAdd 0 (lossThresholdMs secs) = lossThresholdMs secs := by
    unfold saturatingAdd
    omega
  have hpick : nextStop ((⟨secs, durationEndMs, deadmanMs⟩ : Wait).clock (.lost 0)) =
      (lossThresholdMs secs, .masterLost) := by
    simp only [nextStop, Wait.clock, hsum, if_pos hduration]
    exact if_neg (by omega)
  exact waitLoop_stop (turn_due hpick (Int.le_max_left _ _))

/-- **A self-abort comes early only where the cast changes the threshold.** Every stop of every run is timely, whatever
the clock reads and however the connection changes, exactly when the threshold in milliseconds is an `i64`. -/
theorem self_abort_timely (secs : UInt64) :
    (∀ (durationEndMs deadmanMs : Int) (rounds : List Round) (s : Stopped), I64.Fits durationEndMs →
        I64.Fits deadmanMs → (∀ r ∈ rounds, r.AfterEpoch) →
        waitLoop ⟨secs, durationEndMs, deadmanMs⟩ rounds = some s →
        s.Timely ⟨secs, durationEndMs, deadmanMs⟩) ↔ 1000 * secs.toNat < 2 ^ 63 := by
  constructor
  · intro h
    by_contra hlarge
    have hlast : I64.Fits (2 ^ 63 - 1) := by decide
    have hbound := lossThresholdMs_lt secs
    have hnow : AfterEpoch (max (lossThresholdMs secs) 0) := ⟨by omega, by omega⟩
    have hepoch : ∀ r ∈ [(⟨max (lossThresholdMs secs) 0, .lost 0, .changed⟩ : Round)], r.AfterEpoch := by
      intro r hr
      obtain rfl := List.mem_singleton.1 hr
      refine ⟨hnow, fun since hs => ?_⟩
      obtain rfl := ConnState.lost.inj hs
      exact ⟨by decide, by decide⟩
    have hstop := waitLoop_cast hbound (Int.le_of_lt hbound)
    obtain ⟨since, hs, hle⟩ := (h _ _ _ _ hlast hlast hepoch hstop).lost rfl
    obtain rfl := ConnState.lost.inj hs
    simp only at hle
    omega
  · intro hsecs durationEndMs deadmanMs rounds s hduration _ hepoch hstop
    obtain ⟨r, hr, hturn⟩ := waitLoop_some hstop
    exact turn_timely hsecs hduration (hepoch r hr) hturn

/-- With the largest threshold, for an operator who wants no self-abort, the loss of the master stops the instance in
the turn that sees it: the cast gives -1000 ms. -/
theorem self_abort_early :
    waitLoop ⟨18446744073709551615, 60000, 90000⟩ [⟨5000, .lost 5000, .changed⟩] =
      some ⟨.masterLost, 5000, .lost 5000⟩ ∧
    ¬ (⟨.masterLost, 5000, .lost 5000⟩ : Stopped).Timely ⟨18446744073709551615, 60000, 90000⟩ := by
  refine ⟨by decide, fun h => ?_⟩
  obtain ⟨since, hs, hle⟩ := h.lost rfl
  obtain rfl := ConnState.lost.inj hs
  exact absurd hle (by decide)

end FaultForge.Agent
