import FaultForge.Master.Halt
import FaultForge.System.Desk

/-!
# `experiment halt` against the whole system (cli/src: script.rs:109, api/mod.rs:216)

An operator who halts an experiment acts on the code of the command. `halt_holds`: with 0, the experiment has left
`RUNNING` for good, and for every instance of it that is not over one `AbortFault` was issued, for its own host. Where
an earlier halt was dropped before it sent that frame, nothing asks for the instance again.

| here | there |
| --- | --- |
| `haltExperiment` | `Client::halt_experiment` api/mod.rs:216 |
| `runHalt`, `printAction` | script.rs:109, 192 |
-/
namespace FaultForge.Cli

def haltExperiment : Sent → Except ApiError Unit
  | .error e => .error e
  | .ok r =>
    if r.status = 404 then .error .notFound
    else if r.status = 409 then .error (.conflict "experiment is already terminal")
    else if r.isSuccess then .ok ()
    else .error (statusError r)

/-- A small JSON object, or a sentence. -/
def printAction (w : Host) (print : Value → String) (format : OutputFormat) (action subject note : String) : Exit :=
  emit w (match format with
    | .json => print (.object [("note", .string note), ("status", .string action), ("subject", .string subject)])
    | .table => s!"{action}: {subject} ({note})")

def runHalt (w : Host) (print : Value → String) (id : String) (output : OutputFormat) (sent : Sent) : Exit :=
  match haltExperiment sent with
  | .ok () => printAction w print output "halt requested" id "kill-switch fired"
  | .error .notFound => if w.stderr then ⟨EXIT_NOT_FOUND, [s!"error: experiment not found: {id}"]⟩ else ⟨EXIT_PANIC, []⟩
  | .error (.conflict reason) => writeError w reason
  | .error e => writeTransportError w e

/-- Only an accepted halt ends with 0. -/
theorem runHalt_ok {w : Host} {print : Value → String} {id : String} {output : OutputFormat} {sent : Sent}
    (h : (runHalt w print id output sent).code = EXIT_OK) : haltExperiment sent = .ok () := by
  unfold runHalt at h
  split at h
  next hok => exact hok
  next => split at h <;> cases h
  next => cases h
  next => cases h

end FaultForge.Cli

namespace FaultForge.System

open Lts Master

/-- `experiment halt <id>`. -/
def haltCall (id : ExperimentId) : Call where
  request := some (.halt id "management API")
  follows _ := none

/-- Halted for good. The frame of an instance may be gone with the handler that was to send it. -/
structure Stopping (m : MasterState) (e : Experiment) : Prop where
  left : e.phase ≠ .running
  asked : ∀ i ∈ e.instances, i.isTerminal = true ∨ account (isAbort i.instanceId) m = 1 ∧
    (Placed m i.hostname (.abortFault i.instanceId) ∨ .abandoned (.abortFault i.instanceId) ∈ m.shared.log)

section
variable {C : Master.Config} {m : MasterState} {x : ExperimentId} {e : Experiment}

/-- A record that has left `RUNNING` is stopping. -/
theorem stopping_of_left (h : Reach (masterLts C) m) (he : m.shared.store.lookup x = some e)
    (hleft : e.phase ≠ .running) : Stopping m e := by
  obtain ⟨hcons, -⟩ := (reach_sound h).settled x e he
  refine ⟨hleft, fun i hi => ?_⟩
  cases hp : e.phase with
  | running => exact absurd hp hleft
  | concluded outcome =>
    unfold Experiment.Consistent at hcons
    rw [hp] at hcons
    exact .inl (hcons.terminal i hi)
  | halting =>
    cases hlive : i.isTerminal with
    | true => exact .inl rfl
    | false =>
      have hone : account (isAbort i.instanceId) m = 1 := halting_asked h he hp hi hlive
      exact .inr ⟨hone, abort_placed h he hi hone⟩

end

section
variable {X : Agent.Ext} {C : Master.Config} {print : Value → String} {w : Cli.Host} {s : Desk} {id : ExperimentId}

/-- The handler has accepted the halt. -/
theorem halted_record {m : MasterState} {sent : Cli.Sent} (ha : Answered print (haltCall id) m sent)
    (h : Cli.haltExperiment sent = .ok ()) : ∃ e, m.shared.store.lookup id = some e ∧ e.phase ≠ .running := by
  cases ha with
  | @handler q r cut hq ha =>
    obtain rfl := Option.some.inj hq
    cases r with
    | halted outcome =>
      cases outcome with
      | notFound => cases h
      | alreadyConcluded => cases h
      | accepted => exact ha
    | _ => exact ha.elim
  | undecodable body hq => cases hq
  | @refused r hs h422 =>
    simp only [Cli.haltExperiment, hs] at h
    split at h
    · cases h
    · split at h <;> cases h
  | failed => cases h

/-- **What `experiment halt` has achieved when it exits 0**, then and at any time later. -/
theorem halt_holds (h : Reach (deskLts X C print (haltCall id)) s) {sent : Cli.Sent} (hanswer : s.answer = some sent)
    {output : Cli.OutputFormat} (hcode : (Cli.runHalt w print id output sent).code = Cli.EXIT_OK) :
    ∃ e, s.system.master.shared.store.lookup id = some e ∧ Stopping s.system.master e := by
  have hs := reach_desk h
  obtain ⟨e, he, hleft⟩ := halted_record (hs.answer sent hanswer) (Cli.runHalt_ok hcode)
  exact ⟨e, he, stopping_of_left (reach_master hs.system) he hleft⟩

end

/-! ## One halt -/

/-- The experiment runs, and the operator halts it. -/
def haltLabels : List DeskLabel :=
  orderedLabels.map .system ++ [.deliver] ++ (acts 2 4).map .system ++ [.answer none]

def quietTerminal : Cli.Host where
  client := .ok ()
  readToString := .error "no such file"
  fromYaml _ := .error "no such file"
  post _ := .error .timeout
  get _ := []
  stdout _ := .ok ()
  stderr := true
  now := 0

theorem halt_holds_sample : ∃ (s : Desk) (sent : Cli.Sent), s.answer = some sent ∧
    (Cli.runHalt quietTerminal (fun _ => "null") "exp-1000-1" .table sent).code = Cli.EXIT_OK ∧
    ∃ e, s.system.master.shared.store.lookup "exp-1000-1" = some e ∧ Stopping s.system.master e := by
  obtain ⟨s, hs, hp⟩ := reach_of_run
    (L := deskLts Agent.plainExt sampleConfig (fun _ => "null") (haltCall "exp-1000-1"))
    (fun s : Desk => s.answer.any fun sent =>
      (Cli.runHalt quietTerminal (fun _ => "null") "exp-1000-1" .table sent).code == Cli.EXIT_OK)
    (s := ⟨sampleDeployment, none, none, []⟩) ⟨sampleDeployment_init, rfl, rfl, rfl⟩ haltLabels (by decide +kernel)
  obtain ⟨sent, hanswer, hcode⟩ := (Option.any_eq_true _ _).1 hp
  have hok : (Cli.runHalt quietTerminal (fun _ => "null") "exp-1000-1" .table sent).code = Cli.EXIT_OK := by
    simpa using hcode
  exact ⟨s, sent, hanswer, hok, halt_holds hs hanswer hok⟩

end FaultForge.System
