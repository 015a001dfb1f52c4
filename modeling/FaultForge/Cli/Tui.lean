import FaultForge.Cli.Script
import FaultForge.Cli.Wire
import FaultForge.Lib.Lts

/-!
# The interactive shell (cli/src/tui)

`update` is the pure state machine; the event loop around it takes one message at a time, a key or an answer from the
channel or a tick of the poll timer, and starts a request for every `FetchAgents`. Requests are answered in any order.

| here | there |
| --- | --- |
| `Model`, `Msg`, `Effect` | tui/model.rs |
| `handleKey`, `update` | tui/update.rs:50, 16 |
| `loopStep` | `event_loop` tui/mod.rs:95, with `spawn_key_reader` :35 and `spawn_fetch` :140 |

A tick fetches nothing while `loading` is set, but an answer to any request clears it: `requests_bounded` says how many
requests there can be, and that the poll never stalls.
-/
namespace FaultForge.Cli.Tui

open Lts

/-! ## The state machine -/

structure Model where
  agents : List Agent
  selected : Nat
  loading : Bool
  lastError : Option String
  lastFetch : Option Int
deriving DecidableEq, Repr

def Model.new : Model := ⟨[], 0, false, none, none⟩

inductive Key
  | char (c : Char) (control : Bool)
  | down
  | up
  | other
deriving DecidableEq, Repr

inductive Msg
  | key (k : Key)
  | tick
  | agentsLoaded (result : Except ApiError (List Agent))

inductive Effect
  | fetchAgents
  | quit
deriving DecidableEq, Repr

def handleKey (model : Model) : Key → Model × Option Effect
  | .char 'q' _ | .char 'c' true => (model, some .quit)
  | .char 'r' _ => ({ model with loading := true }, some .fetchAgents)
  | .down =>
    if 0 < model.agents.length then
      ({ model with selected := min (model.selected + 1) (model.agents.length - 1) }, none)
    else (model, none)
  | .up => if 0 < model.selected then ({ model with selected := model.selected - 1 }, none) else (model, none)
  | .char _ _ | .other => (model, none)

def update (model : Model) (msg : Msg) (now : Int) : Model × Option Effect :=
  match msg with
  | .key k => handleKey model k
  | .tick => if model.loading then (model, none) else ({ model with loading := true }, some .fetchAgents)
  | .agentsLoaded (.ok agents) =>
    ({ model with
        agents, loading := false, lastError := none, lastFetch := some now
        selected := if agents.isEmpty then 0 else min model.selected (agents.length - 1) }, none)
  | .agentsLoaded (.error e) => ({ model with loading := false, lastError := some e.toString }, none)

/-! ## The event loop -/

structure Loop where
  model : Model
  /-- The channel, oldest message first. -/
  rx : List Msg
  /-- The requests that the master has not answered yet. -/
  asked : Nat
  quit : Bool
  /-- How often `r` was taken while a request was thought to be under way, for the statements only. -/
  pressed : Nat

inductive LoopLabel
  /-- The key reader sends a key press. -/
  | press (k : Key)
  /-- A request ends. -/
  | answer (result : Except ApiError (List Agent))
  | recv (now : Int)
  | tick (now : Int)

/-- Whether a fetch for this message is one that a tick would not have made. -/
def Loop.forced (s : Loop) : Msg → Nat
  | .key _ => s.model.loading.toNat
  | _ => 0

/-- One turn of the loop. -/
def Loop.turn (s : Loop) (msg : Msg) (now : Int) : Loop :=
  let (model, effect) := update s.model msg now
  match effect with
  | some .quit => { s with model, quit := true }
  | some .fetchAgents => { s with model, asked := s.asked + 1, pressed := s.pressed + s.forced msg }
  | none => { s with model }

def loopStep (s : Loop) : LoopLabel → Option Loop
  | .press k => some { s with rx := s.rx ++ [.key k] }
  | .answer result =>
    if 0 < s.asked then some { s with asked := s.asked - 1, rx := s.rx ++ [.agentsLoaded result] } else none
  | .recv now =>
    match s.quit, s.rx with
    | false, msg :: rx => some (Loop.turn { s with rx } msg now)
    | _, _ => none
  | .tick now => if s.quit then none else some (s.turn .tick now)

/-- With the first request under way. -/
def loopLts : Lts.System Loop LoopLabel where
  init s := s = ⟨{ Model.new with loading := true }, [], 1, false, 0⟩
  step := loopStep

/-! ## Requests under way -/

def Msg.isAnswer : Msg → Bool
  | .agentsLoaded _ => true
  | _ => false

/-- The requests whose answer the loop has not taken yet. -/
def Loop.underWay (s : Loop) : Nat := s.asked + s.rx.countP Msg.isAnswer

structure Loop.Sound (s : Loop) : Prop where
  inRange : s.model.selected = 0 ∨ s.model.selected < s.model.agents.length
  awaited : s.model.loading = true → 0 < s.underWay
  bounded : s.underWay ≤ s.model.loading.toNat + s.pressed

theorem handleKey_selected (model : Model) (k : Key)
    (h : model.selected = 0 ∨ model.selected < model.agents.length) :
    (handleKey model k).1.selected = 0 ∨ (handleKey model k).1.selected < (handleKey model k).1.agents.length := by
  unfold handleKey
  split
  · exact h
  · exact h
  · exact h
  · split
    · dsimp only
      omega
    · exact h
  · split
    · dsimp only
      omega
    · exact h
  · exact h
  · exact h

theorem update_selected (model : Model) (msg : Msg) (now : Int)
    (h : model.selected = 0 ∨ model.selected < model.agents.length) :
    (update model msg now).1.selected = 0 ∨
      (update model msg now).1.selected < (update model msg now).1.agents.length := by
  unfold update
  split
  · exact handleKey_selected model _ h
  · split <;> exact h
  · rename_i agents
    dsimp only
    cases agents with
    | nil => exact .inl rfl
    | cons a rest =>
      simp only [List.isEmpty_cons, Bool.false_eq_true, if_false, List.length_cons]
      omega
  · exact h

/-- What a message does to `loading`, and the request it makes. -/
theorem update_loading (model : Model) (msg : Msg) (now : Int) :
    (msg.isAnswer = true ∧ (update model msg now).1.loading = false ∧ (update model msg now).2 ≠ some .fetchAgents) ∨
    (msg.isAnswer = false ∧ (update model msg now).1.loading = true ∧ (update model msg now).2 = some .fetchAgents ∧
      ((∃ k, msg = .key k) ∨ model.loading = false)) ∨
    (msg.isAnswer = false ∧ (update model msg now).1.loading = model.loading ∧
      (update model msg now).2 ≠ some .fetchAgents) := by
  cases msg with
  | key k =>
    refine .inr ?_
    simp only [update, Msg.isAnswer, true_and]
    unfold handleKey
    split
    · exact .inr ⟨rfl, by simp⟩
    · exact .inr ⟨rfl, by simp⟩
    · exact .inl ⟨rfl, rfl, .inl ⟨_, rfl⟩⟩
    · split <;> exact .inr ⟨rfl, by simp⟩
    · split <;> exact .inr ⟨rfl, by simp⟩
    · exact .inr ⟨rfl, by simp⟩
    · exact .inr ⟨rfl, by simp⟩
  | tick =>
    refine .inr ?_
    simp only [update, Msg.isAnswer, true_and]
    cases hl : model.loading with
    | true => exact .inr ⟨by simp [hl], by simp⟩
    | false => exact .inl ⟨by simp, by simp, .inr rfl⟩
  | agentsLoaded result => cases result <;> exact .inl ⟨rfl, rfl, by simp [update]⟩

variable {s s' : Loop} {a : LoopLabel}

theorem turn_without_fetch {msg : Msg} {now : Int} (h : (update s.model msg now).2 ≠ some .fetchAgents) :
    ∃ quit, s.turn msg now = { s with model := (update s.model msg now).1, quit } := by
  unfold Loop.turn
  split
  next model effect heq =>
    rw [heq] at h ⊢
    cases effect with
    | none => exact ⟨s.quit, rfl⟩
    | some effect =>
      cases effect with
      | quit => exact ⟨true, rfl⟩
      | fetchAgents => exact absurd rfl h

theorem turn_fetches {msg : Msg} {now : Int} (h : (update s.model msg now).2 = some .fetchAgents) :
    s.turn msg now = { s with
      model := (update s.model msg now).1, asked := s.asked + 1, pressed := s.pressed + s.forced msg } := by
  simp only [Loop.turn, h]

/-- A turn of the loop, whose message is no longer in the channel. -/
theorem turn_sound (msg : Msg) (now : Int) (hrange : s.model.selected = 0 ∨ s.model.selected < s.model.agents.length)
    (hawaited : s.model.loading = true → 0 < s.underWay + msg.isAnswer.toNat)
    (hbounded : s.underWay + msg.isAnswer.toNat ≤ s.model.loading.toNat + s.pressed) : (s.turn msg now).Sound := by
  have hselected := update_selected s.model msg now hrange
  rcases update_loading s.model msg now with ⟨ha, hl, he⟩ | ⟨ha, hl, he, hmanual⟩ | ⟨ha, hl, he⟩
  · rw [ha] at hbounded
    obtain ⟨quit, hturn⟩ := turn_without_fetch he
    rw [hturn]
    refine ⟨hselected, fun h => absurd (hl.symm.trans h) Bool.false_ne_true, ?_⟩
    have := Bool.toNat_le s.model.loading
    simp only [Loop.underWay, hl, Bool.toNat_true, Bool.toNat_false] at hbounded ⊢
    omega
  · rw [ha] at hbounded
    rw [turn_fetches he]
    refine ⟨hselected, fun _ => ?_, ?_⟩
    · simp only [Loop.underWay]
      omega
    · simp only [Loop.underWay, hl, Bool.toNat_true, Bool.toNat_false] at hbounded ⊢
      -- a tick fetches only when no request is thought to be under way; `r` pays for its own
      rcases hmanual with ⟨k, rfl⟩ | hidle
      · simp only [Loop.forced]
        omega
      · simp only [hidle, Bool.toNat_false] at hbounded
        omega
  · rw [ha] at hbounded hawaited
    obtain ⟨quit, hturn⟩ := turn_without_fetch he
    rw [hturn]
    refine ⟨hselected, fun h => ?_, ?_⟩
    · exact hawaited (hl ▸ h)
    · simp only [hl]
      exact hbounded

theorem Loop.Sound.step (h : s.Sound) (hs : loopLts.step s a = some s') : s'.Sound := by
  obtain ⟨hrange, hawaited, hbounded⟩ := h
  replace hs : loopStep s a = some s' := hs
  cases a with
  | press k =>
    obtain rfl := Option.some.inj hs
    have hsame : ({ s with rx := s.rx ++ [.key k] } : Loop).underWay = s.underWay := by
      simp [Loop.underWay, Msg.isAnswer]
    exact ⟨hrange, fun hl => hsame ▸ hawaited hl, hsame ▸ hbounded⟩
  | answer result =>
    simp only [loopStep] at hs
    split at hs
    case isFalse => cases hs
    case isTrue hasked =>
      obtain rfl := Option.some.inj hs
      have hsame : ({ s with asked := s.asked - 1, rx := s.rx ++ [.agentsLoaded result] } : Loop).underWay =
          s.underWay := by
        simp only [Loop.underWay, List.countP_append, List.countP_singleton, Msg.isAnswer, if_true]
        omega
      exact ⟨hrange, fun hl => hsame ▸ hawaited hl, hsame ▸ hbounded⟩
  | recv now =>
    simp only [loopStep] at hs
    split at hs
    next msg rx hquit hrx =>
      obtain rfl := Option.some.inj hs
      have hsame : s.underWay = ({ s with rx } : Loop).underWay + msg.isAnswer.toNat := by
        simp only [Loop.underWay, hrx, List.countP_cons]
        cases msg.isAnswer <;> simp [Nat.add_assoc]
      exact turn_sound msg now hrange (fun hl => hsame ▸ hawaited hl) (hsame ▸ hbounded)
    next => cases hs
  | tick now =>
    simp only [loopStep] at hs
    split at hs
    next => cases hs
    next =>
      obtain rfl := Option.some.inj hs
      exact turn_sound .tick now hrange hawaited hbounded

/-- **The poll neither piles up nor stalls.** In every run the requests under way are at most one and one more for each
`r` that was taken while one was thought to be under way; when none is, the next tick makes one; and the selected row is
one of the list, or the first. -/
theorem requests_bounded (h : Reach loopLts s) :
    s.underWay ≤ 1 + s.pressed ∧
      (∀ now s', s.underWay = 0 → loopLts.step s (.tick now) = some s' → s'.underWay = 1) ∧
      (s.model.selected = 0 ∨ s.model.selected < s.model.agents.length) := by
  have hs : s.Sound := by
    refine h.inv (fun s hinit => ?_) fun _ _ _ hi hstep => hi.step hstep
    obtain rfl : s = _ := hinit
    exact ⟨.inl rfl, fun _ => Nat.one_pos, le_refl _⟩
  refine ⟨?_, fun now s' hnone hstep => ?_, hs.inRange⟩
  · have := hs.bounded
    have := Bool.toNat_le s.model.loading
    omega
  · have hidle : s.model.loading = false := by
      cases hl : s.model.loading with
      | false => rfl
      | true => exact absurd hnone (Nat.pos_iff_ne_zero.1 (hs.awaited hl))
    replace hstep : loopStep s (.tick now) = some s' := hstep
    simp only [loopStep] at hstep
    split at hstep
    next => cases hstep
    next =>
      obtain rfl := Option.some.inj hstep
      simp only [Loop.underWay] at hnone
      simp only [Loop.turn, update, hidle, Loop.underWay, Bool.false_eq_true, if_false]
      omega

/-- `r` at once, the first answer, and a tick that fetches although the other request is still under way. -/
def impatient : List LoopLabel :=
  [.press (.char 'r' false), .recv 0, .answer (.ok []), .recv 1, .tick 3]

theorem requests_bounded_sample : ∃ s : Loop, s.underWay = 2 ∧ s.pressed = 1 ∧ s.underWay ≤ 1 + s.pressed := by
  obtain ⟨s, hreach, hs⟩ := reach_of_run (L := loopLts) (fun s => decide (s.underWay = 2 ∧ s.pressed = 1)) rfl
    impatient (by decide)
  obtain ⟨hasked, hpressed⟩ := of_decide_eq_true hs
  exact ⟨s, hasked, hpressed, (requests_bounded hreach).1⟩

end FaultForge.Cli.Tui
