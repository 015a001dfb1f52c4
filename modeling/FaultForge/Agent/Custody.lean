import FaultForge.Agent.Frames
import FaultForge.Agent.Session

/-!
# Lifecycle frames across reconnects (session.rs:151-342)

A frame that the stream has not accepted is in the startup queue, in the one `carry` slot, on the outbound channel, or
in the send that is running. `Custody` follows each frame to the place it is in. A rejected send puts its frame back at
the head of the startup queue or into `carry`, and every non-cheap frame of a session goes to that one slot: a report
or taint frame that is rejected while the slot still holds a frame of the channel takes its place (`Overwrites`).
Nothing else loses or reorders a frame (`kept_until_overwritten`).
-/
namespace FaultForge.Agent

open Lts

/-! ## Where frames are -/

/-- Where a session gets a frame from. -/
inductive Source
  /-- Made by the session itself: `Register`, the report, the taint status, heartbeats. -/
  | session
  | startup
  | out
deriving DecidableEq, Repr

structure Custody where
  /-- Every frame put in the startup queue. -/
  placed : List AgentMessage
  /-- Every frame put on the outbound channel, oldest first. -/
  enqueued : List AgentMessage
  /-- The source of the frame that is being sent. -/
  sending : Source
  /-- The source of the frame in `carry`. -/
  carried : Source
  /-- The frames that a stream has accepted, oldest first. -/
  accepted : List (Source × AgentMessage)

def Custody.start (n : Node) : Custody where
  placed := n.startup
  enqueued := n.agent.ctx.out
  sending := .session
  carried := .session
  accepted := []

def Custody.session (n : Node) (c : Custody) (label : SessionLabel) : Custody :=
  match n.pc, label with
  | .sending frame _ _, .accept => { c with accepted := c.accepted ++ [(c.sending, frame)] }
  | .sending frame keep _, .reject => if keep || AgentMessage.cheap frame then c else { c with carried := c.sending }
  | .dialing, .opened => { c with sending := .session }
  | .at .report, .go => { c with sending := .session }
  | .at .taint, .go => { c with sending := .session }
  | .at .startup, .go => { c with sending := .startup }
  | .at .carry, .go => { c with sending := c.carried }
  | .at .pump, .beat => { c with sending := .session }
  | .at .pump, .take => { c with sending := .out }
  | _, _ => c

/-- A task or a `ClearTaint` task enqueues at the end of the channel. -/
def Custody.follow (n : Node) (c : Custody) : NodeLabel → Node → Custody
  | .task .., n' | .clear .., n' =>
    { c with enqueued := c.enqueued ++ n'.agent.ctx.out.drop n.agent.ctx.out.length }
  | .tick _, _ => c
  | .session label, _ => c.session n label

def custodyLts (X : Ext) : System (Watched Node Custody) NodeLabel := watch (nodeLts X) Custody.start Custody.follow

def Custody.acceptedFrom (c : Custody) (source : Source) : List AgentMessage :=
  (c.accepted.filter (·.1 = source)).map (·.2)

/-- The frame that is being sent, if it came from `source`. -/
def Custody.inSend (c : Custody) (n : Node) (source : Source) : List AgentMessage :=
  match n.pc with
  | .sending frame _ _ => if c.sending = source then [frame] else []
  | _ => []

/-- The frame in `carry`, if it came from `source`. -/
def Custody.inCarry (c : Custody) (n : Node) (source : Source) : List AgentMessage :=
  match n.carry with
  | some frame => if c.carried = source then [frame] else []
  | none => []

/-- No frame of the startup queue or of the channel is lost, sent twice or overtaken: each list is what was accepted of
it, in order, and then what is still held. -/
structure Lossless (n : Node) (c : Custody) : Prop where
  sent : c.accepted.map (·.2) = n.sent
  startup : c.placed = c.acceptedFrom .startup ++ c.inSend n .startup ++ n.startup
  out : c.enqueued = c.acceptedFrom .out ++ c.inSend n .out ++ c.inCarry n .out ++ n.agent.ctx.out

/-- The report or the taint status of a registration is rejected while `carry` holds a frame of the channel. -/
def Overwrites (w : Watched Node Custody) (label : NodeLabel) : Prop :=
  match w.state.pc, label with
  | .sending _ false .taint, .session .reject | .sending _ false .startup, .session .reject =>
    w.state.carry.isSome ∧ w.seen.carried = .out
  | _, _ => False

/-! ## What a send can be -/

/-- Every send is one of these, and only a send of the startup queue is a keeping one. -/
inductive Sends (carry : Option AgentMessage) (source : Source) : AgentMessage → Bool → Stage → Prop
  | register (hostname : String) : source = .session → Sends carry source (.register hostname) false .awaitAck
  | report (statuses : List InstanceStatus) : source = .session →
      Sends carry source (.instanceReport statuses) false .taint
  | taint (current : Option TaintRecord) (now : Int) : source = .session →
      Sends carry source (taintStatusFrame current now) false .startup
  | startup (frame : AgentMessage) : source = .startup → Sends carry source frame true .startup
  | pump (frame : AgentMessage) : source ≠ .startup → carry = none →
      (source = .out → AgentMessage.cheap frame = false) → Sends carry source frame false .pump

/-- What a frame of the channel is worth: it goes to `carry` when its send is rejected. -/
def Worth (frame : AgentMessage) : Prop := AgentMessage.cheap frame = false

structure Custody.Shape (n : Node) (c : Custody) : Prop where
  sends : ∀ frame keep next, n.pc = .sending frame keep next → Sends n.carry c.sending frame keep next
  pump : n.pc = .at .pump → n.carry = none
  carried : ∀ frame, n.carry = some frame → c.carried ≠ .startup ∧ (c.carried = .out → Worth frame)
  frames : n.agent.Frames Worth

/-! ## What a step does to the frames -/

/-- The frames a process holds, and those it has sent. -/
structure Held where
  startup : List AgentMessage
  carry : Option AgentMessage
  sent : List AgentMessage
  out : List AgentMessage

def Node.held (n : Node) : Held := ⟨n.startup, n.carry, n.sent, n.agent.ctx.out⟩

def SessionPc.Sending (pc : SessionPc) : Prop := ∃ frame keep next, pc = .sending frame keep next

/-- The frames a session makes itself, with the stage after their send. -/
inductive Makes (n : Node) : AgentMessage → Stage → Prop
  | register : Makes n (.register n.hostname) .awaitAck
  | report : Makes n (reportFrame n.agent n.registeredMs) .taint
  | taint : Makes n (taintStatusFrame n.agent.ctx.taint n.registeredMs) .startup
  | heartbeat : n.pc = .at .pump → Makes n .heartbeat .pump

inductive Moved (n : Node) (c : Custody) : SessionLabel → Node → Custody → Prop
  /-- No send is running before or after the step. -/
  | quiet {label : SessionLabel} {n' : Node} (sending : Source) : n'.held = n.held → ¬ n.pc.Sending →
      ¬ n'.pc.Sending → (n'.pc = .at .pump → n.pc = .at .pump ∨ n.carry = none) →
      Moved n c label n' { c with sending }
  | made {label : SessionLabel} {n' : Node} (frame : AgentMessage) (next : Stage) : n'.held = n.held →
      ¬ n.pc.Sending → n'.pc = .sending frame false next → Makes n frame next →
      Moved n c label n' { c with sending := .session }
  | fromStartup {label : SessionLabel} {n' : Node} (frame : AgentMessage) (startup : List AgentMessage) :
      n.startup = frame :: startup → n'.held = { n.held with startup } → ¬ n.pc.Sending →
      n'.pc = .sending frame true .startup → Moved n c label n' { c with sending := .startup }
  | fromCarry {label : SessionLabel} {n' : Node} (frame : AgentMessage) :
      n.carry = some frame → n'.held = { n.held with carry := none } → ¬ n.pc.Sending →
      n'.pc = .sending frame false .pump → Moved n c label n' { c with sending := c.carried }
  | fromOut {label : SessionLabel} {n' : Node} (frame : AgentMessage) (out : List AgentMessage) :
      n.agent.ctx.out = frame :: out → n'.held = { n.held with out } → n.pc = .at .pump →
      n'.pc = .sending frame false .pump → Moved n c label n' { c with sending := .out }
  | accepted {n' : Node} (frame : AgentMessage) (keep : Bool) (next : Stage) : n.pc = .sending frame keep next →
      n'.held = { n.held with sent := n.sent ++ [frame] } → n'.pc = .at next →
      Moved n c .accept n' { c with accepted := c.accepted ++ [(c.sending, frame)] }
  | returned {n' : Node} (frame : AgentMessage) (next : Stage) : n.pc = .sending frame true next →
      n'.held = { n.held with startup := frame :: n.startup } → n'.pc = .idle → Moved n c .reject n' c
  | dropped {n' : Node} (frame : AgentMessage) (next : Stage) : n.pc = .sending frame false next →
      AgentMessage.cheap frame = true → n'.held = n.held → n'.pc = .idle → Moved n c .reject n' c
  | carried {n' : Node} (frame : AgentMessage) (next : Stage) : n.pc = .sending frame false next →
      Worth frame → n'.held = { n.held with carry := some frame } → n'.pc = .idle →
      Moved n c .reject n' { c with carried := c.sending }

@[simp] theorem Node.endSession_held (n : Node) : n.endSession.held = n.held := by
  unfold Node.endSession
  by_cases hc : n.agent.ctx.conn = .connected
  · simp only [hc, if_true]
    rfl
  · simp only [hc, if_false]
    rfl

theorem SessionPc.not_sending_at (stage : Stage) : ¬ (SessionPc.at stage).Sending := by
  rintro ⟨frame, keep, next, h⟩
  cases h

theorem SessionPc.not_sending_idle : ¬ SessionPc.idle.Sending := by
  rintro ⟨frame, keep, next, h⟩
  cases h

theorem SessionPc.not_sending_stopped : ¬ SessionPc.stopped.Sending := by
  rintro ⟨frame, keep, next, h⟩
  cases h

theorem SessionPc.not_sending_dialing : ¬ SessionPc.dialing.Sending := by
  rintro ⟨frame, keep, next, h⟩
  cases h

/-- A rejected send, by what becomes of its frame. -/
theorem keepFrame_moved {n : Node} (c : Custody) {frame : AgentMessage} {keep : Bool} {next : Stage}
    (hpc : n.pc = .sending frame keep next) :
    Moved n c .reject (n.keepFrame frame keep).endSession (c.session n .reject) := by
  have hseen : c.session n .reject =
      if keep || AgentMessage.cheap frame then c else { c with carried := c.sending } := by
    simp only [Custody.session, hpc]
  rw [hseen]
  cases keep with
  | true => exact .returned frame next hpc (Node.endSession_held _) rfl
  | false =>
    cases hcheap : AgentMessage.cheap frame with
    | true =>
      refine .dropped frame next hpc hcheap ?_ rfl
      rw [Node.endSession_held]
      simp [Node.keepFrame, hcheap]
    | false =>
      refine .carried frame next hpc hcheap ?_ rfl
      rw [Node.endSession_held]
      simp [Node.keepFrame, hcheap, Node.held]

/-- **The inversion lemma of the session loop**, as far as the frames go. -/
theorem sessionStep_moved {n n' : Node} (c : Custody) {label : SessionLabel} (h : sessionStep n label = some n') :
    Moved n c label n' (c.session n label) := by
  have seen : ∀ {pc : SessionPc}, n.pc = pc →
      c.session n label = Custody.session { n with pc } c label := fun hpc => by rw [← hpc]
  have quiet : ∀ {pc : SessionPc} {m : Node}, some m = some n' → n.pc = pc → m.held = n.held →
      ¬ pc.Sending → ¬ m.pc.Sending → (m.pc = .at .pump → n.pc = .at .pump ∨ n.carry = none) → ∀ sending,
      Custody.session { n with pc } c label = { c with sending } → Moved n c label n' (c.session n label) := by
    intro pc m he hpc hm hs hs' hpump sending hc
    obtain rfl := Option.some.inj he
    rw [seen hpc, hc]
    exact .quiet sending hm (hpc ▸ hs) hs' hpump
  have ended : ∀ {pc : SessionPc} {m : Node}, some m.endSession = some n' → n.pc = pc → m.held = n.held →
      ¬ pc.Sending → Custody.session { n with pc } c label = c → Moved n c label n' (c.session n label) :=
    fun he hpc hm hs hc =>
      quiet he hpc ((Node.endSession_held _).trans hm) hs SessionPc.not_sending_idle (by simp) c.sending hc
  unfold sessionStep at h
  split at h
  next hpc => exact quiet h hpc rfl SessionPc.not_sending_idle SessionPc.not_sending_dialing (by simp) c.sending rfl
  next hpc => exact quiet h hpc rfl SessionPc.not_sending_dialing SessionPc.not_sending_stopped (by simp) c.sending rfl
  next hpc => exact ended h hpc rfl SessionPc.not_sending_dialing rfl
  next hpc =>
    obtain rfl := Option.some.inj h
    rw [seen hpc]
    exact .made _ .awaitAck rfl (hpc ▸ SessionPc.not_sending_dialing) rfl .register
  next frame keep next hpc =>
    obtain rfl := Option.some.inj h
    rw [seen hpc]
    exact .accepted frame keep next hpc rfl rfl
  next frame keep next hpc =>
    obtain rfl := Option.some.inj h
    exact keepFrame_moved c hpc
  next interval hpc =>
    cases hi : interpretRegisterAck interval with
    | none => rw [hi] at h; exact ended h hpc rfl (SessionPc.not_sending_at _) rfl
    | some secs =>
      rw [hi] at h
      exact quiet h hpc rfl (SessionPc.not_sending_at _) (SessionPc.not_sending_at .report) (by simp [Node.register])
        c.sending rfl
  next hpc =>
    have hstays : n.received.pc = .at .awaitAck := hpc
    exact quiet h hpc rfl (SessionPc.not_sending_at _) (hstays ▸ SessionPc.not_sending_at _) (by simp [hstays])
      c.sending rfl
  next hpc => exact ended h hpc rfl (SessionPc.not_sending_at _) rfl
  next hpc =>
    obtain rfl := Option.some.inj h
    rw [seen hpc]
    exact .made _ .taint rfl (hpc ▸ SessionPc.not_sending_at _) rfl .report
  next hpc =>
    obtain rfl := Option.some.inj h
    rw [seen hpc]
    exact .made _ .startup rfl (hpc ▸ SessionPc.not_sending_at _) rfl .taint
  next hpc =>
    split at h
    next hq => exact quiet h hpc rfl (SessionPc.not_sending_at _) (SessionPc.not_sending_at _) (by simp) .startup rfl
    next frame startup hq =>
      obtain rfl := Option.some.inj h
      rw [seen hpc]
      exact .fromStartup frame startup hq rfl (hpc ▸ SessionPc.not_sending_at _) rfl
  next hpc =>
    split at h
    next hc =>
      exact quiet h hpc rfl (SessionPc.not_sending_at _) (SessionPc.not_sending_at _) (by simp [hc]) c.carried rfl
    next frame hc =>
      obtain rfl := Option.some.inj h
      rw [seen hpc]
      exact .fromCarry frame hc rfl (hpc ▸ SessionPc.not_sending_at _) rfl
  next f hpc =>
    have hstays : n.received.pc = .at .pump := hpc
    refine quiet h hpc ?_ (SessionPc.not_sending_at _) (hstays ▸ SessionPc.not_sending_at _) (fun _ => .inl hpc)
      c.sending rfl
    simp [Node.held, Node.received, dispatch_ctx]
  next hpc => exact ended h hpc rfl (SessionPc.not_sending_at _) rfl
  next hpc =>
    obtain rfl := Option.some.inj h
    rw [seen hpc]
    exact .made .heartbeat .pump rfl (hpc ▸ SessionPc.not_sending_at _) rfl (.heartbeat hpc)
  next hpc =>
    split at h
    next => cases h
    next frame out hout =>
      obtain rfl := Option.some.inj h
      rw [seen hpc]
      exact .fromOut frame out hout rfl hpc rfl
  next => cases h

section
variable {n n' : Node} {c c' : Custody} {label : SessionLabel}

theorem Custody.inSend_none (h : ¬ n.pc.Sending) (source : Source) : c.inSend n source = [] := by
  unfold Custody.inSend
  split
  next frame keep next hpc => exact absurd ⟨frame, keep, next, hpc⟩ h
  next => rfl

theorem Custody.inSend_some {frame : AgentMessage} {keep : Bool} {next : Stage} (h : n.pc = .sending frame keep next)
    (source : Source) : c.inSend n source = if c.sending = source then [frame] else [] := by
  unfold Custody.inSend
  rw [h]

theorem Custody.acceptedFrom_accept (c : Custody) (frame : AgentMessage) (source : Source) :
    Custody.acceptedFrom { c with accepted := c.accepted ++ [(c.sending, frame)] } source =
      c.acceptedFrom source ++ if c.sending = source then [frame] else [] := by
  unfold Custody.acceptedFrom
  by_cases h : c.sending = source <;> simp [h, List.filter_append]

/-- A send that is not running is no frame of the channel rejected. -/
theorem not_overwrites (h : ¬ n.pc.Sending) : ¬ Overwrites ⟨n, c⟩ (.session label) := by
  unfold Overwrites
  split
  next frame hpc hl => exact absurd ⟨frame, _, _, hpc⟩ h
  next frame hpc hl => exact absurd ⟨frame, _, _, hpc⟩ h
  next => exact id

/-- Which rejections overwrite: those of a report or of a taint status. -/
theorem overwrites_reject {frame : AgentMessage} {next : Stage} (hs : c.Shape n)
    (hpc : n.pc = .sending frame false next) (hw : Worth frame) :
    Overwrites ⟨n, c⟩ (.session .reject) ↔ n.carry.isSome ∧ c.carried = .out := by
  have hsend := hs.sends _ _ _ hpc
  unfold Overwrites
  cases hsend with
  | register hostname => simp [Worth, AgentMessage.cheap] at hw
  | report | taint => simp only [hpc]
  | pump _ _ hcarry => simp [hpc, hcarry]

theorem Custody.inCarry_none (h : n.carry = none) (source : Source) : c.inCarry n source = [] := by
  unfold Custody.inCarry
  rw [h]

theorem Custody.inCarry_some {frame : AgentMessage} (h : n.carry = some frame) (source : Source) :
    c.inCarry n source = if c.carried = source then [frame] else [] := by
  unfold Custody.inCarry
  rw [h]

theorem Custody.inCarry_eq (h : n'.carry = n.carry) (hc : c'.carried = c.carried) (source : Source) :
    c'.inCarry n' source = c.inCarry n source := by
  unfold Custody.inCarry
  rw [h, hc]

theorem Custody.inCarry_out : c.inCarry n .out = [] ↔ ¬ (n.carry.isSome ∧ c.carried = .out) := by
  unfold Custody.inCarry
  cases n.carry with
  | none => simp
  | some frame => simp

/-! ## Every step keeps the frames -/

theorem Moved.shape (h : Moved n c label n' c') (hs : c.Shape n) (hframes : n'.agent.Frames Worth) : c'.Shape n' := by
  have idle : n'.pc = .idle ∨ ¬ n'.pc.Sending → ∀ frame keep next, n'.pc = .sending frame keep next →
      Sends n'.carry c'.sending frame keep next := by
    rintro (hidle | hpc) frame keep next he
    · rw [hidle] at he
      cases he
    · exact absurd ⟨frame, keep, next, he⟩ hpc
  have carries : ∀ {carry : Option AgentMessage}, n'.held.carry = carry → (∀ frame, carry = some frame →
      c'.carried ≠ .startup ∧ (c'.carried = .out → Worth frame)) →
      ∀ frame, n'.carry = some frame → c'.carried ≠ .startup ∧ (c'.carried = .out → Worth frame) :=
    fun he hall frame hf => hall frame (he ▸ hf)
  cases h with
  | quiet sending hheld hpc hpc' hpump =>
    have hcarry : n'.carry = n.carry := congrArg Held.carry hheld
    refine ⟨idle (.inr hpc'), fun hp => ?_, carries hcarry hs.carried, hframes⟩
    rw [hcarry]
    exact (hpump hp).elim hs.pump id
  | made frame next hheld hpc hpc' hmakes =>
    have hcarry : n'.carry = n.carry := congrArg Held.carry hheld
    refine ⟨fun frame' keep next' he => ?_, fun hp => ?_, carries hcarry hs.carried, hframes⟩
    · rw [hpc'] at he
      cases he
      rw [hcarry]
      cases hmakes with
      | register => exact .register _ rfl
      | report => exact .report _ rfl
      | taint => exact .taint _ _ rfl
      | heartbeat hpump => exact .pump _ (by simp) (hs.pump hpump) (by simp)
    · rw [hpc'] at hp
      cases hp
  | fromStartup frame startup hq hheld hpc hpc' =>
    have hcarry : n'.carry = n.carry := congrArg Held.carry hheld
    refine ⟨fun frame' keep next' he => ?_, fun hp => ?_, carries hcarry hs.carried, hframes⟩
    · rw [hpc'] at he
      cases he
      exact .startup frame rfl
    · rw [hpc'] at hp
      cases hp
  | fromCarry frame hc hheld hpc hpc' =>
    have hcarry : n'.carry = none := congrArg Held.carry hheld
    obtain ⟨hne, hworth⟩ := hs.carried frame hc
    refine ⟨fun frame' keep next' he => ?_, fun hp => ?_, carries hcarry (by simp), hframes⟩
    · rw [hpc'] at he
      cases he
      exact .pump frame hne hcarry hworth
    · rw [hpc'] at hp
      cases hp
  | fromOut frame out hout hheld hpc hpc' =>
    have hcarry : n'.carry = none := (congrArg Held.carry hheld).trans (hs.pump hpc)
    refine ⟨fun frame' keep next' he => ?_, fun hp => ?_, carries hcarry (by simp), hframes⟩
    · rw [hpc'] at he
      cases he
      exact .pump frame (by simp) hcarry fun _ => hs.frames.out frame (by simp [hout])
    · rw [hpc'] at hp
      cases hp
  | accepted frame keep next hpc hheld hpc' =>
    have hcarry : n'.carry = n.carry := congrArg Held.carry hheld
    refine ⟨idle (.inr (hpc' ▸ SessionPc.not_sending_at next)), fun hp => ?_, carries hcarry hs.carried, hframes⟩
    rw [hpc'] at hp
    obtain rfl : next = .pump := by simpa using hp
    rw [hcarry]
    cases hs.sends _ _ _ hpc with
    | pump _ _ hnone => exact hnone
  | returned frame next hpc hheld hpc' =>
    have hcarry : n'.carry = n.carry := congrArg Held.carry hheld
    exact ⟨idle (.inl hpc'), by simp [hpc'], carries hcarry hs.carried, hframes⟩
  | dropped frame next hpc hcheap hheld hpc' =>
    have hcarry : n'.carry = n.carry := congrArg Held.carry hheld
    exact ⟨idle (.inl hpc'), by simp [hpc'], carries hcarry hs.carried, hframes⟩
  | carried frame next hpc hworth hheld hpc' =>
    have hcarry : n'.carry = some frame := congrArg Held.carry hheld
    refine ⟨idle (.inl hpc'), by simp [hpc'], carries hcarry fun f hf => ?_, hframes⟩
    obtain rfl := Option.some.inj hf
    refine ⟨?_, fun _ => hworth⟩
    cases hs.sends _ _ _ hpc with
    | register _ hsrc | report _ hsrc | taint _ _ hsrc => simp [hsrc]
    | pump _ hne => exact hne

/-- **A step of the session loses a frame exactly when it overwrites one.** -/
theorem Moved.lossless (h : Moved n c label n' c') (hs : c.Shape n) (hl : Lossless n c) :
    Lossless n' c' ↔ ¬ Overwrites ⟨n, c⟩ (.session label) := by
  obtain ⟨hsent, hstartup, hout⟩ := hl
  have safe : ¬ Overwrites ⟨n, c⟩ (.session label) → Lossless n' c' →
      (Lossless n' c' ↔ ¬ Overwrites ⟨n, c⟩ (.session label)) := fun ho hl => ⟨fun _ => ho, fun _ => hl⟩
  cases h with
  | quiet sending hheld hpc hpc' hpump =>
    obtain ⟨h₁, h₂, h₃, h₄⟩ := Held.mk.inj hheld
    refine safe (not_overwrites hpc) ⟨hsent.trans h₃.symm, ?_, ?_⟩
    · rw [Custody.inSend_none hpc', h₁, hstartup, Custody.inSend_none hpc]
      rfl
    · rw [Custody.inSend_none hpc', Custody.inCarry_eq h₂ rfl, h₄, hout, Custody.inSend_none hpc]
      rfl
  | made frame next hheld hpc hpc' =>
    obtain ⟨h₁, h₂, h₃, h₄⟩ := Held.mk.inj hheld
    refine safe (not_overwrites hpc) ⟨hsent.trans h₃.symm, ?_, ?_⟩
    · rw [Custody.inSend_some hpc', if_neg (by simp), h₁, hstartup, Custody.inSend_none hpc]
      rfl
    · rw [Custody.inSend_some hpc', if_neg (by simp), Custody.inCarry_eq h₂ rfl, h₄, hout, Custody.inSend_none hpc]
      rfl
  | fromStartup frame startup hq hheld hpc hpc' =>
    obtain ⟨h₁, h₂, h₃, h₄⟩ := Held.mk.inj hheld
    refine safe (not_overwrites hpc) ⟨hsent.trans h₃.symm, ?_, ?_⟩
    · rw [Custody.inSend_some hpc', if_pos rfl, h₁, hstartup, Custody.inSend_none hpc, hq]
      simp [Custody.acceptedFrom]
    · rw [Custody.inSend_some hpc', if_neg (by simp), Custody.inCarry_eq h₂ rfl, h₄, hout, Custody.inSend_none hpc]
      rfl
  | fromCarry frame hc hheld hpc hpc' =>
    obtain ⟨h₁, h₂, h₃, h₄⟩ := Held.mk.inj hheld
    refine safe (not_overwrites hpc) ⟨hsent.trans h₃.symm, ?_, ?_⟩
    · rw [Custody.inSend_some hpc', if_neg (hs.carried frame hc).1, h₁, hstartup, Custody.inSend_none hpc]
      rfl
    · rw [Custody.inSend_some hpc', Custody.inCarry_none h₂, h₄, hout, Custody.inSend_none hpc,
        Custody.inCarry_some hc]
      simp [Custody.acceptedFrom, Node.held]
  | fromOut frame out hq hheld hpc hpc' =>
    have hnot : ¬ n.pc.Sending := hpc ▸ SessionPc.not_sending_at _
    obtain ⟨h₁, h₂, h₃, h₄⟩ := Held.mk.inj hheld
    refine safe (not_overwrites hnot) ⟨hsent.trans h₃.symm, ?_, ?_⟩
    · rw [Custody.inSend_some hpc', if_neg (by simp), h₁, hstartup, Custody.inSend_none hnot]
      rfl
    · rw [Custody.inSend_some hpc', if_pos rfl, Custody.inCarry_none (h₂.trans (hs.pump hpc)), h₄, hout,
        Custody.inSend_none hnot, Custody.inCarry_none (hs.pump hpc), hq]
      simp [Custody.acceptedFrom]
  | accepted frame keep next hpc hheld hpc' =>
    have hnot : ¬ n'.pc.Sending := hpc' ▸ SessionPc.not_sending_at _
    obtain ⟨h₁, h₂, h₃, h₄⟩ := Held.mk.inj hheld
    refine safe (by simp [Overwrites, hpc]) ⟨?_, ?_, ?_⟩
    · rw [h₃, ← hsent]
      simp
    · rw [Custody.acceptedFrom_accept, Custody.inSend_none hnot, h₁, hstartup, Custody.inSend_some hpc]
      simp [Node.held]
    · rw [Custody.acceptedFrom_accept, Custody.inSend_none hnot, Custody.inCarry_eq h₂ rfl, h₄, hout,
        Custody.inSend_some hpc]
      simp [Node.held, Custody.inCarry]
  | returned frame next hpc hheld hpc' =>
    obtain ⟨h₁, h₂, h₃, h₄⟩ := Held.mk.inj hheld
    have hsrc : c.sending = .startup := by
      cases hs.sends _ _ _ hpc with
      | startup _ hsrc => exact hsrc
    have hnot : ¬ n'.pc.Sending := hpc' ▸ SessionPc.not_sending_idle
    refine safe (by simp [Overwrites, hpc]) ⟨hsent.trans h₃.symm, ?_, ?_⟩
    · rw [Custody.inSend_none hnot, h₁, hstartup, Custody.inSend_some hpc, if_pos hsrc]
      simp
    · rw [Custody.inSend_none hnot, Custody.inCarry_eq h₂ rfl, h₄, hout, Custody.inSend_some hpc,
        if_neg (by simp [hsrc])]
      rfl
  | dropped frame next hpc hcheap hheld hpc' =>
    obtain ⟨h₁, h₂, h₃, h₄⟩ := Held.mk.inj hheld
    have hnot : ¬ n'.pc.Sending := hpc' ▸ SessionPc.not_sending_idle
    obtain ⟨hne, hsrc⟩ : ¬ Overwrites ⟨n, c⟩ (.session .reject) ∧ c.sending ≠ .startup ∧ c.sending ≠ .out := by
      cases hs.sends _ _ _ hpc with
      | register _ hsrc => simp [Overwrites, hpc, hsrc]
      | report => simp [AgentMessage.cheap] at hcheap
      | taint current => cases current <;> simp [taintStatusFrame, AgentMessage.cheap] at hcheap
      | pump _ hsrc _ hworth =>
        refine ⟨by simp [Overwrites, hpc], hsrc, fun ho => ?_⟩
        rw [hworth ho] at hcheap
        cases hcheap
    refine safe hne ⟨hsent.trans h₃.symm, ?_, ?_⟩
    · rw [Custody.inSend_none hnot, h₁, hstartup, Custody.inSend_some hpc, if_neg hsrc.1]
    · rw [Custody.inSend_none hnot, Custody.inCarry_eq h₂ rfl, h₄, hout, Custody.inSend_some hpc, if_neg hsrc.2]
  | carried frame next hpc hworth hheld hpc' =>
    obtain ⟨h₁, h₂, h₃, h₄⟩ := Held.mk.inj hheld
    have hnot : ¬ n'.pc.Sending := hpc' ▸ SessionPc.not_sending_idle
    have hsrc : c.sending ≠ .startup := by
      cases hs.sends _ _ _ hpc with
      | register _ hsrc | report _ hsrc | taint _ _ hsrc => simp [hsrc]
      | pump _ hne => exact hne
    rw [overwrites_reject hs hpc hworth, ← Custody.inCarry_out]
    rw [Custody.inSend_some hpc] at hout hstartup
    constructor
    · rintro ⟨-, -, hout'⟩
      rw [Custody.inSend_none hnot, Custody.inCarry_some h₂, h₄] at hout'
      have hlen := congrArg List.length (hout.symm.trans hout')
      simp only [Custody.acceptedFrom, Node.held, List.length_append, List.length_nil] at hlen
      exact List.eq_nil_of_length_eq_zero (by omega)
    · intro hempty
      refine ⟨hsent.trans h₃.symm, ?_, ?_⟩
      · rw [Custody.inSend_none hnot, h₁, hstartup, if_neg hsrc]
        rfl
      · rw [Custody.inSend_none hnot, Custody.inCarry_some h₂, h₄, hout, hempty]
        simp [Custody.acceptedFrom, Node.held]

end

/-! ## Every run -/

theorem worth_emits : Emits Worth := ⟨fun _ => rfl, fun _ _ => rfl, fun _ _ => rfl⟩

theorem worth_taint (current : Option TaintRecord) (now : Int) : Worth (taintStatusFrame current now) := by
  cases current <;> rfl

theorem Supervisor.Frames.process {X : Ext} {n n' : Node} {label : NodeLabel} (hf : n.agent.Frames Worth)
    (h : nodeStep X n label = some n') : n'.agent.Frames Worth := by
  have step : ∀ {l : AgentLabel}, agentStep X n.agent l = some n'.agent → n'.agent.Frames Worth :=
    fun hs => hf.step worth_emits (fun _ => worth_taint _) hs
  cases label with
  | session label =>
    rcases sessionStep_moves X h with he | ⟨l, hs⟩
    · rw [he]
      exact hf
    · exact step hs
  | task id choice =>
    obtain ⟨a, ha, rfl⟩ := Option.map_eq_some_iff.1 h
    exact step (l := .task id choice) ha
  | clear i choice =>
    obtain ⟨a, ha, rfl⟩ := Option.map_eq_some_iff.1 h
    exact step (l := .clear i choice) ha
  | tick now => obtain rfl := Option.some.inj h; exact ⟨hf.out, hf.tasks, hf.clears⟩

/-- A step of a task or of a `ClearTaint` task only adds to the channel. -/
theorem lossless_enqueue {n : Node} {c : Custody} {agent : Supervisor} {more : List AgentMessage} (hl : Lossless n c)
    (hout : agent.ctx.out = n.agent.ctx.out ++ more) :
    Lossless { n with agent } { c with enqueued := c.enqueued ++ agent.ctx.out.drop n.agent.ctx.out.length } := by
  refine ⟨hl.sent, hl.startup, ?_⟩
  simp only [hout, List.drop_left, hl.out]
  simp [Custody.acceptedFrom, Custody.inSend, Custody.inCarry]

theorem not_overwrites_other {w : Watched Node Custody} {label : NodeLabel} (h : ∀ l, label ≠ .session l) :
    ¬ Overwrites w label := by
  unfold Overwrites
  split
  · exact absurd rfl (h _)
  · exact absurd rfl (h _)
  · exact id

theorem custody_step {X : Ext} {w w' : Watched Node Custody} {label : NodeLabel} (hs : w.seen.Shape w.state)
    (h : (custodyLts X).step w label = some w') :
    w'.seen.Shape w'.state ∧
      (Lossless w.state w.seen → (Lossless w'.state w'.seen ↔ ¬ Overwrites w label)) := by
  obtain ⟨n, c⟩ := w
  obtain ⟨hstep, hseen⟩ := watch_step_some.1 h
  have hframes := hs.frames.process hstep
  obtain ⟨n', c'⟩ := w'
  simp only at hstep hseen hframes
  subst hseen
  cases label with
  | session label =>
    have hmoved := sessionStep_moved c hstep
    exact ⟨hmoved.shape hs hframes, hmoved.lossless hs⟩
  | task id choice =>
    obtain ⟨a, ha, rfl⟩ := Option.map_eq_some_iff.1 hstep
    obtain ⟨-, more, hout, -⟩ := stepInstance_frames worth_emits ha hs.frames
    exact ⟨⟨hs.sends, hs.pump, hs.carried, hframes⟩, fun hl =>
      ⟨fun _ => not_overwrites_other (by simp), fun _ => lossless_enqueue hl hout⟩⟩
  | clear i choice =>
    obtain ⟨a, ha, rfl⟩ := Option.map_eq_some_iff.1 hstep
    obtain ⟨-, more, hout, -⟩ := stepClear_frames worth_emits (worth_taint _) ha hs.frames
    exact ⟨⟨hs.sends, hs.pump, hs.carried, hframes⟩, fun hl =>
      ⟨fun _ => not_overwrites_other (by simp), fun _ => lossless_enqueue hl hout⟩⟩
  | tick now =>
    obtain rfl := Option.some.inj hstep
    exact ⟨⟨hs.sends, hs.pump, hs.carried, hframes⟩,
      fun hl => ⟨fun _ => not_overwrites_other (by simp), fun _ => ⟨hl.sent, hl.startup, hl.out⟩⟩⟩

theorem custody_init {X : Ext} {w : Watched Node Custody} (h : (custodyLts X).init w) :
    w.seen.Shape w.state ∧ Lossless w.state w.seen := by
  obtain ⟨n, c⟩ := w
  obtain ⟨⟨b, hostname, hn⟩, hc⟩ := h
  simp only at hn hc
  subst hn hc
  refine ⟨⟨fun frame keep next he => (by cases he), fun hp => (by cases hp), fun frame hf => (by cases hf),
    Supervisor.boot_frames b⟩, rfl, rfl, rfl⟩

theorem reach_shape {X : Ext} {w : Watched Node Custody} (h : Reach (custodyLts X) w) : w.seen.Shape w.state :=
  h.inv (P := fun w => w.seen.Shape w.state) (fun _ hi => (custody_init hi).1) fun _ _ _ hs h => (custody_step hs h).1

/-- **No frame is lost or reordered** in a run without overwrites, and the first overwrite loses one. -/
theorem kept_until_overwritten {X : Ext} {w : Watched Node Custody}
    (h : ReachIf (custodyLts X) (fun w label => ¬ Overwrites w label) w) :
    Lossless w.state w.seen ∧
      ∀ label w', (custodyLts X).step w label = some w' → (Lossless w'.state w'.seen ↔ ¬ Overwrites w label) := by
  have hl : Lossless w.state w.seen :=
    h.inv (I := fun w => w.seen.Shape w.state) (P := fun w => Lossless w.state w.seen) (fun _ => reach_shape)
      (fun _ hi => (custody_init hi).2) fun w label w' hs hl hg h => ((custody_step hs h).2 hl).2 hg
  exact ⟨hl, fun label w' hs => (custody_step (reach_shape h.reach) hs).2 hl⟩

/-! ## Two runs -/

instance (w : Watched Node Custody) (label : NodeLabel) : Decidable (Overwrites w label) := by
  unfold Overwrites
  split <;> infer_instance

/-- Up to `handle_run_fault`, whose setup fails: `PENDING` is sent, the send of `ABORTED` is rejected. -/
def rejectedRun : List NodeLabel :=
  sessionLabels.map .session ++
    ([.go, .go, .joinError "", .go, .go, .go] : List Choice).map (.task sampleRun.instanceId) ++
    ([.take, .accept, .take, .reject] : List SessionLabel).map .session

/-- The next session, up to the send of its report. -/
def reconnects : List SessionLabel := [.wake, .opened, .accept, .recv (.registerAck 1000 10), .go]

/-- The report, the taint status and the carried frame are accepted. -/
def carries : List SessionLabel := [.accept, .go, .accept, .go, .go, .accept]

def abortedFrame : AgentMessage :=
  statusFrame sampleRun.instanceId .aborted (some "setup task failed: ") sampleRun.pluginDigest 1000

def sampleCustody : Watched Node Custody := ⟨sampleNode, .start sampleNode⟩

/-- The terminal status stays in `carry` and is accepted by the next session. -/
theorem kept_until_overwritten_carried :
    ∃ w : Watched Node Custody, Lossless w.state w.seen ∧ w.state.carry = none ∧
      abortedFrame ∈ w.seen.acceptedFrom .out := by
  obtain ⟨w, hw, hp⟩ := reachIf_of_run (L := custodyLts plainExt) (G := fun w label => ¬ Overwrites w label)
    (g := fun w label => decide (¬ Overwrites w label)) (fun _ _ hg => of_decide_eq_true hg)
    (fun w => decide (w.state.carry = none ∧ abortedFrame ∈ w.seen.acceptedFrom .out))
    (s := sampleCustody) ⟨⟨sampleBoot, _, rfl⟩, rfl⟩
    (rejectedRun ++ reconnects.map .session ++ carries.map .session) (by decide +kernel)
  obtain ⟨hcarry, hacc⟩ := of_decide_eq_true hp
  exact ⟨w, (kept_until_overwritten hw).1, hcarry, hacc⟩

/-- The report of the next session is rejected too: it takes the place of the terminal status. -/
theorem terminal_overwritten :
    ∃ w : Watched Node Custody, Reach (custodyLts plainExt) w ∧ ¬ Lossless w.state w.seen ∧
      abortedFrame ∈ w.seen.enqueued ∧
      w.seen.inSend w.state .out = [] ∧ w.seen.inCarry w.state .out = [] ∧ w.state.agent.ctx.out = [] ∧
      abortedFrame ∉ w.seen.acceptedFrom .out := by
  obtain ⟨w, hw, hp⟩ := reach_of_run (L := custodyLts plainExt)
    (fun w => decide (abortedFrame ∈ w.seen.enqueued ∧
      w.seen.inSend w.state .out = [] ∧ w.seen.inCarry w.state .out = [] ∧ w.state.agent.ctx.out = [] ∧
      abortedFrame ∉ w.seen.acceptedFrom .out))
    (s := sampleCustody) ⟨⟨sampleBoot, _, rfl⟩, rfl⟩
    (rejectedRun ++ reconnects.map .session ++ [.session .reject]) (by decide +kernel)
  obtain ⟨henq, hsend, hcarry, hout, hacc⟩ := of_decide_eq_true hp
  refine ⟨w, hw, fun hl => hacc ?_, henq, hsend, hcarry, hout, hacc⟩
  rw [hl.out, hsend, hcarry, hout] at henq
  simpa using henq

end FaultForge.Agent
