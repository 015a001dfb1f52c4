import FaultForge.Agent.Supervisor
import FaultForge.Agent.MachineRun

/-!
# The agent injects an instance at most once

One transition of the machine invokes `inject`, out of a state that no transition comes back to (`Trans.invoke_inject`,
`Trans.afterInject`), so a task performs the effect at most once (`Task.Once`). The supervisor keeps one task for each
id, for good, and replay never injects; `Supervisor.injections_le_one` puts the three together.
-/
namespace FaultForge.Agent

open Lts

/-- `Invoke(Inject)`, of either phase. -/
def Effect.isInject : Effect → Bool
  | .invoke .inject _ => true
  | _ => false

/-- `n` injections are performed, at most one more is pending, and none at all before the machine has moved past the
journal write. -/
def Task.Once (n : Nat) (t : Task) : Prop :=
  n + t.effects.countP Effect.isInject ≤ 1 ∧
    (t.state.afterInject = false → n + t.effects.countP Effect.isInject = 0)

theorem Trans.countP_inject {s s' : State} {e : Event} {effects : List Effect} (h : Trans s e s' effects)
    (hs : s.Shape) (heff : (step s e).2 = effects) :
    effects.countP Effect.isInject = 0 ∨
      effects.countP Effect.isInject = 1 ∧ s.afterInject = false ∧ s'.afterInject = true := by
  by_cases hc : effects.countP Effect.isInject = 0
  · exact .inl hc
  · obtain ⟨effect, hm, hi⟩ := List.countP_pos_iff.1 (Nat.pos_of_ne_zero hc)
    obtain ⟨phase, rfl⟩ : ∃ phase, effect = .invoke .inject phase := by
      unfold Effect.isInject at hi
      split at hi
      · exact ⟨_, rfl⟩
      · cases hi
    obtain ⟨rfl, rfl, rfl⟩ := h.invoke_inject hs hm
    subst heff
    exact .inr ⟨rfl, rfl, rfl⟩

section
variable {X : Ext} {ctx ctx' : Ctx} {t t' : Task} {obs : List Obs} {n : Nat}

/-- The effects a task has left, when one is performed. -/
theorem Task.Once.pop (h : t.Once n) {effect : Effect} {rest : List Effect} (heff : t.effects = effect :: rest) :
    (n + if effect.isInject then 1 else 0) + rest.countP Effect.isInject ≤ 1 ∧
      (t.state.afterInject = false →
        (n + if effect.isInject then 1 else 0) + rest.countP Effect.isInject = 0) := by
  obtain ⟨h1, h0⟩ := h
  rw [heff, List.countP_cons] at h1 h0
  refine ⟨by omega, fun hs => ?_⟩
  have := h0 hs
  omega

theorem Task.Once.consume (h : t.Once n) (heff : t.effects = []) (hshape : t.state.Shape) {now : Int} {event : Event}
    {queue : List Event} {stopRx : List StopCause}
    (ht : Trans t.state event (step t.state event).1 (step t.state event).2) :
    (consume now { t with stopRx } event queue).Once n := by
  obtain ⟨h1, h0⟩ := h
  rw [heff, List.countP_nil, Nat.add_zero] at h1 h0
  have hback : (step t.state event).1.afterInject = false → t.state.afterInject = false := fun hn => by
    cases hs : t.state.afterInject with
    | false => rfl
    | true => rw [ht.afterInject hs] at hn; cases hn
  show n + (step t.state event).2.countP Effect.isInject ≤ 1 ∧
    ((step t.state event).1.afterInject = false → n + (step t.state event).2.countP Effect.isInject = 0)
  rcases ht.countP_inject hshape rfl with hc | ⟨hc, hbefore, hafter⟩
  · rw [hc]
    exact ⟨h1, fun hn => h0 (hback hn)⟩
  · rw [hc, h0 hbefore]
    exact ⟨Nat.le_refl 1, fun hn => by rw [hafter] at hn; cases hn⟩

theorem TaskStep.stateShape (h : TaskStep X ctx t ctx' t' obs) (hshape : t.Shape) (hs : t.state.Shape) :
    t'.state.Shape := by
  cases h with
  | next hpc heff hq => exact ((hshape.inLoop hpc).fits hq).shape hs
  | stop cause => exact (stop_fits t.state cause).shape hs
  | wedged hpc heff hq hterm hact => exact absurd (hshape.unwedged hpc heff hq hterm) hact
  | _ => exact hs

/-- **The step lemma**: the observations of a step count. -/
theorem TaskStep.once (h : TaskStep X ctx t ctx' t' obs) (hshape : t.Shape) (hs : t.state.Shape) (ho : t.Once n) :
    t'.Once (obs.count (.invoked .inject) + n) := by
  cases h with
  | emit hpc heff | write hpc heff | writeFailed _ hpc heff | remove hpc heff | removeFailed hpc heff
  | mark _ hpc heff =>
    have hpop := ho.pop heff
    simpa [Effect.isInject, Task.Once, Task.push] using hpop
  | @invoke command phase rest hpc heff =>
    have hpop := ho.pop heff
    cases command
    case inject => simpa [Effect.isInject, Task.Once, Nat.add_comm] using hpop
    all_goals simpa [Effect.isInject, Task.Once] using hpop
  | next hpc heff hq => simpa using ho.consume heff hs ((hshape.inLoop hpc).fits hq)
  | stop cause stopRx hpc =>
    obtain ⟨-, -, heff⟩ := hshape.active hpc
    simpa using ho.consume heff hs (stop_fits t.state cause)
  | wedged hpc heff hq hterm hact => exact absurd (hshape.unwedged hpc heff hq hterm) hact
  | spawn | exit => simpa [Task.Once] using ho
  | _ => simpa [Task.Once, Task.push] using ho

end

/-- An instance of the supervisor, with what it has shown. -/
structure Single (seen : List Obs) (t : Task) : Prop where
  shape : t.Shape
  stateShape : t.state.Shape
  once : t.Once (seen.count (.invoked .inject))

theorem reach_single {X : Ext} {a : Supervisor} (h : Reach (agentLts X) a) : a.Each Single := by
  refine reach_each (fun run => ⟨Task.spawn_shape run, trivial, Nat.zero_le 1, fun _ => rfl⟩)
    (fun seen t stopRx ht => ⟨ht.shape, ht.stateShape, ht.once⟩)
    (fun seen ctx ctx' t t' obs ht hstep => ?_) h
  refine ⟨hstep.shape ht.shape, hstep.stateShape ht.shape ht.stateShape, ?_⟩
  rw [List.count_append]
  exact hstep.once ht.shape ht.stateShape ht.once

/-- How often `Invoke(Inject)` has been performed for an id, by the replay and by the instance task. -/
def Supervisor.injections (a : Supervisor) (id : String) : Nat :=
  a.replayed.count (id, .inject) + (a.seen id).count (.invoked .inject)

theorem AgentStep.replayed_eq {X : Ext} {a a' : Supervisor} (h : AgentStep X a a') : a'.replayed = a.replayed := by
  cases h <;> rfl

theorem reach_replayed {X : Ext} {a : Supervisor} (h : Reach (agentLts X) a) :
    ∀ id command, (id, command) ∈ a.replayed → Recovers command := by
  refine h.inv (P := fun a => ∀ id command, (id, command) ∈ a.replayed → Recovers command) ?_ ?_
  · rintro a ⟨b, rfl⟩
    exact replayJournal_recovers X b.invocationTimeoutSecs b.replayNow b.entries b.env b.journal b.taint
  · intro a label a' hr hs
    rw [(agentStep_cases hs).replayed_eq]
    exact hr

theorem Supervisor.injections_le_one {X : Ext} {a : Supervisor} (h : Reach (agentLts X) a) (id : String) :
    a.injections id ≤ 1 := by
  have hreplay : a.replayed.count (id, .inject) = 0 := by
    refine List.count_eq_zero.2 fun hm => ?_
    rcases reach_replayed h id _ hm with h' | h' <;> cases h'
  unfold Supervisor.injections
  rw [hreplay, Nat.zero_add]
  cases ht : a.instances.lookup id with
  | none => rw [(reach_single h).2 id ht]; decide
  | some t =>
    obtain ⟨-, hs⟩ := (reach_single h).1 id t ht
    exact Nat.le_trans (Nat.le_add_right _ _) hs.once.1

/-- A `RunFault` for a known id changes nothing, whatever state its instance is in. -/
theorem handleRunFault_known (a : Supervisor) (run : RunFault) (hk : a.Knows run.instanceId) :
    handleRunFault a run = a := by
  unfold handleRunFault
  by_cases hv : validInstanceId run.instanceId = false
  · rw [if_pos hv]
  · rw [if_neg hv]
    exact if_pos hk

/-- Whoever has shown anything is known. -/
theorem Supervisor.knows_of_seen {X : Ext} {a : Supervisor} (h : Reach (agentLts X) a) {id : String}
    (hs : a.seen id ≠ []) : a.Knows id := by
  unfold Supervisor.Knows
  cases ht : a.instances.lookup id with
  | none => exact absurd ((reach_single h).2 id ht) hs
  | some t => rfl

end FaultForge.Agent
