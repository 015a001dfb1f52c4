import FaultForge.Master.Deadline

/-!
# The fan-out of the kill-switch (dispatch.rs:215-225, 308-318)

`send_aborts` awaits one send after the other on channels of 32 frames (server.rs:57). A host that does not drain its
session makes the send to it wait, and every target after it in the list waits with it: `aborts_shielded`, although
"unreachable agents are skipped" (dispatch.rs:322) and the kill-switch is to reach every instance whose host has a live
session. `aborts_unshielded_iff` says exactly when every target with a free place in its channel is reached.
-/
namespace FaultForge.Master

open Lts Tasks

/-- The host of the target has a live session with free capacity. -/
structure Ready (s : Dispatcher) (x : Target) (t : StreamId) : Prop where
  sender : s.sessions.sender x.1 = some t
  opened : s.closed t = false
  room : s.room t ≠ 0

theorem ready_iff {s : Dispatcher} {x : Target} {t : StreamId} :
    Ready s x t ↔ s.sessions.sender x.1 = some t ∧ s.closed t = false ∧ s.room t ≠ 0 :=
  ⟨fun h => ⟨h.sender, h.opened, h.room⟩, fun h => ⟨h.1, h.2.1, h.2.2⟩⟩

instance (s : Dispatcher) (x : Target) (t : StreamId) : Decidable (Ready s x t) := decidable_of_iff _ ready_iff.symm

/-- Task `p` on its own, while nobody drains a channel, enqueues the `AbortFault` of `x` on `t`, with `rest` to do. -/
def Enqueues (C : Config) (p : Nat) (m : MasterState) (x : Target) (t : StreamId) (rest : List Act) : Prop :=
  ∃ s' : Dispatcher,
    Solo (exec C) p m ⟨{ s' with log := s'.log ++ [.enqueued t (.ok (.abortFault x.2))] }, m.tasks.set p rest⟩

section
variable {C : Config} {p : Nat} {m : MasterState} {x : Target} {t : StreamId} {aborts pre post : List Target}
  {tl : List Act}

theorem sendAborts_append (pre post : List Target) : sendAborts (pre ++ post) = sendAborts pre ++ sendAborts post :=
  List.map_append

theorem sendAborts_sends : ∀ a ∈ sendAborts aborts, a.sends = true := by
  intro a ha
  obtain ⟨t, -, rfl⟩ := mem_sendAborts ha
  rfl

/-- What fits as a whole fits as far as it goes. -/
theorem Fits.left {s : Dispatcher} {acts more : List Act} (h : Fits s (acts ++ more)) : Fits s acts := by
  intro t hopen
  have happend : demand s t (acts ++ more) = demand s t acts + demand s t more := List.countP_append
  have hle := h t hopen
  omega

/-- The frames up to `x` fit, so `x` is reached. -/
theorem enqueues_of_fits (ht : m.tasks[p]? = some (sendAborts (pre ++ x :: post) ++ tl)) (hready : Ready m.shared x t)
    (hf : Fits m.shared (sendAborts (pre ++ [x]))) : Enqueues C p m x t (sendAborts post ++ tl) := by
  obtain ⟨s, tasks⟩ := m
  have hlt : p < tasks.length := (List.getElem?_eq_some_iff.1 ht).1
  have htask : tasks[p]? = some (sendAborts pre ++ (.toHost x.1 (.abortFault x.2) :: (sendAborts post ++ tl))) := by
    rw [ht, sendAborts_append]
    simp [sendAborts]
  rw [sendAborts_append] at hf
  obtain ⟨s₁, hsolo, hfit, honly⟩ := solo_sends (C := C) sendAborts_sends htask hf
  have hsender : s₁.sessions.sender x.1 = some t := by rw [honly.sessions]; exact hready.sender
  have hopen : s₁.closed t = false := by
    have := hready.opened
    unfold Dispatcher.closed at *
    rwa [honly.streams]
  have hlook : exec C s₁ p (.toHost x.1 (.abortFault x.2)) = some ⟨s₁, [.enqueue t (.abortFault x.2)], []⟩ := by
    simp only [exec, hsender, goOn]
  have hroom : s₁.room t ≠ 0 := by
    have hle := hfit t hopen
    simp only [sendAborts, List.map_cons, List.map_nil, demand_cons, Act.channel, hsender, if_true] at hle
    omega
  have hsend : exec C s₁ p (.enqueue t (.abortFault x.2)) =
      some ⟨{ s₁ with log := s₁.log ++ [.enqueued t (.ok (.abortFault x.2))] }, [], []⟩ := by
    simp only [exec, Dispatcher.send, hopen, Bool.false_eq_true, if_false, if_neg hroom, goOn]
  have hget : ∀ a, (tasks.set p (a :: (sendAborts post ++ tl)))[p]? = some (a :: (sendAborts post ++ tl)) :=
    fun _ => List.getElem?_set_self hlt
  have hstep₁ : step (exec C) ⟨s₁, tasks.set p (.toHost x.1 (.abortFault x.2) :: (sendAborts post ++ tl))⟩ p =
      some ⟨s₁, tasks.set p (.enqueue t (.abortFault x.2) :: (sendAborts post ++ tl))⟩ := by
    rw [step_of_exec (hget _) hlook, List.append_nil, List.set_set]
    rfl
  have hstep₂ : step (exec C) ⟨s₁, tasks.set p (.enqueue t (.abortFault x.2) :: (sendAborts post ++ tl))⟩ p =
      some ⟨{ s₁ with log := s₁.log ++ [.enqueued t (.ok (.abortFault x.2))] },
        tasks.set p (sendAborts post ++ tl)⟩ := by
    rw [step_of_exec (hget _) hsend, List.append_nil, List.set_set]
    rfl
  exact ⟨s₁, hsolo.trans (.head hstep₁ (.head hstep₂ (.refl _)))⟩

/-- What is reached has been preceded by frames that fit. -/
theorem fits_of_enqueues (ht : m.tasks[p]? = some (sendAborts (pre ++ x :: post) ++ tl))
    (h : Enqueues C p m x t (sendAborts post ++ tl)) : Fits m.shared (sendAborts (pre ++ [x])) := by
  obtain ⟨s', n, hn⟩ := h
  have hlt : p < m.tasks.length := (List.getElem?_eq_some_iff.1 ht).1
  have htask : m.tasks[p]? = some (sendAborts (pre ++ [x]) ++ (sendAborts post ++ tl)) := by
    rw [ht, ← List.append_assoc, ← sendAborts_append, List.append_assoc, List.singleton_append]
  exact fits_of_solo hn (List.getElem?_set_self hlt) (Nat.le_refl _) sendAborts_sends htask

/-- **When one host cannot shield another.** A task that is about to send the aborts enqueues the `AbortFault` of every
target whose host has a live session with free capacity, if and only if for each of these the frames up to its own
fit: no open channel on the way has fewer free places than the list has frames for it. -/
theorem aborts_unshielded_iff (ht : m.tasks[p]? = some (sendAborts aborts ++ tl)) :
    (∀ pre x post t, aborts = pre ++ x :: post → Ready m.shared x t → Enqueues C p m x t (sendAborts post ++ tl)) ↔
      ∀ pre x post t, aborts = pre ++ x :: post → Ready m.shared x t → Fits m.shared (sendAborts (pre ++ [x])) := by
  constructor
  · rintro h pre x post t rfl hready
    exact fits_of_enqueues ht (h pre x post t rfl hready)
  · rintro h pre x post t rfl hready
    exact enqueues_of_fits ht hready (h pre x post t rfl hready)

end

/-! ## Two halts -/

def target01 : Target := (web01, "exp-1000-1:web-01:0")

def target02 : Target := (web02, "exp-1000-1:web-02:0")

/-- The operator halts the record of the sample run: task 3 is about to send two aborts, the first one to web-01. -/
def haltsBoth (m : MasterState) : Bool :=
  match (m.tasks[3]? : Option (List Act)) with
  | some [.toHost h₁ (.abortFault i₁), .toHost h₂ (.abortFault i₂), .respond (.halted .accepted)] =>
    (h₁, i₁) = target01 && (h₂, i₂) = target02
  | _ => false

theorem haltsBoth_task {m : MasterState} (h : haltsBoth m = true) :
    m.tasks[3]? = some (sendAborts [target01, target02] ++ [.respond (.halted .accepted)]) := by
  unfold haltsBoth at h
  split at h
  next h₁ i₁ h₂ i₂ ht =>
    obtain ⟨h₁, h₂⟩ := Bool.and_eq_true_iff.1 h
    rw [ht, ← of_decide_eq_true h₁, ← of_decide_eq_true h₂]
    rfl
  next => cases h

/-- Both channels have room: both aborts are sent. -/
theorem aborts_unshielded_iff_open : ∃ m, m.tasks[3]? =
      some (sendAborts [target01, target02] ++ [.respond (.halted .accepted)]) ∧
    Enqueues sampleConfig 3 m target02 1 [.respond (.halted .accepted)] := by
  obtain ⟨m, -, hp⟩ := reach_of_run
    (fun m => haltsBoth m && decide (Ready m.shared target02 1) &&
      decide (Fits m.shared (sendAborts [target01, target02])))
    (L := masterLts sampleConfig) (s := sampleMaster) ⟨1000, rfl⟩
    (published ++ [.haltRequest "exp-1000-1" "stop"] ++ runs 3 1) (by decide +kernel)
  simp only [Bool.and_eq_true, decide_eq_true_eq] at hp
  obtain ⟨⟨hhalt, hready⟩, hfits⟩ := hp
  have ht := haltsBoth_task hhalt
  refine ⟨m, ht, (aborts_unshielded_iff ht).2 ?_ [target01] target02 [] 1 rfl hready⟩
  intro pre x post t hsplit _
  rw [hsplit, ← List.singleton_append, ← List.append_assoc, sendAborts_append (pre ++ [x])] at hfits
  exact hfits.left

/-- web-01 drains nothing, and its channel is full; web-02 has a live session with free capacity, but comes second. -/
theorem aborts_shielded : ∃ m, Reach (masterLts sampleConfig) m ∧
    m.tasks[3]? = some (sendAborts [target01, target02] ++ [.respond (.halted .accepted)]) ∧
    Ready m.shared target02 1 ∧ ¬ Enqueues sampleConfig 3 m target02 1 [.respond (.halted .accepted)] := by
  obtain ⟨m, hm, hp⟩ := reach_of_run
    (fun m => haltsBoth m && decide (Ready m.shared target02 1) &&
      !decide (Fits m.shared (sendAborts [target01, target02])))
    (L := masterLts sampleConfig) (s := sampleMaster) ⟨1000, rfl⟩
    (published ++ fillsChannel ++ [.haltRequest "exp-1000-1" "stop"] ++ runs 3 1) (by decide +kernel)
  simp only [Bool.and_eq_true, decide_eq_true_eq, Bool.not_eq_true', decide_eq_false_iff_not] at hp
  obtain ⟨⟨hhalt, hready⟩, hfull⟩ := hp
  have ht := haltsBoth_task hhalt
  have hsplit : m.tasks[3]? = some (sendAborts ([target01] ++ target02 :: []) ++ [.respond (.halted .accepted)]) := ht
  exact ⟨m, hm, ht, hready, fun hsent => hfull (fits_of_enqueues hsplit hsent)⟩

end FaultForge.Master
