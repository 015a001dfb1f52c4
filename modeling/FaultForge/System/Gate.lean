import FaultForge.System.Desk

/-!
# `experiment run --wait` against the whole system (cli/src/script.rs)

Scripts take the code of a waited run for the truth about the hosts. `gate_holds` says what the code is worth when the
CLI, the master and the agents are taken together, whatever is lost, restarted or interleaved on the way: 0 means that
every fault of the file has run from preflight to cleanup on every host that the file names, each step exiting 0 (or
that nobody was left to read the line with the record), 4 and 5 that the record of the file is concluded `ABORTED` and
`ERROR`, 3 that the file was turned away. `wait_ends` says that the wait is over with the first answer after the
conclusion.

`serde_json` is a parameter of both ends (`Serde`).
-/
namespace FaultForge.System

open Lts Master
open Agent (succeeded)

/-! ## The call -/

/-- What the CLI parses of a printed value is what the value says. -/
def Serde (J : Cli.Json) (print : Value → String) : Prop :=
  ∀ v r, J.experiment (print v) = .ok r → Cli.Experiment.ofJson v = some r

/-- `experiment run -f <file>`. -/
def runCall (J : Cli.Json) (w : Cli.Host) (file : String) : Call where
  request := match w.client, Cli.readDefinition w file with
    | .ok (), .ok definition => (ExperimentDefinition.ofJson definition).map .submit
    | _, _ => none
  follows sent := match Cli.runExperiment J sent with
    | .ok created => some created.id
    | .error _ => none

/-- What surrounds the call, the answers of the system in it. -/
def Desk.host (s : Desk) (w : Cli.Host) (sent : Cli.Sent) : Cli.Host :=
  { w with post := fun _ => sent, get := fun _ => s.polls }

/-- How the call has ended; `none` while it waits. -/
def Desk.exit (s : Desk) (J : Cli.Json) (w : Cli.Host) (file : String) (output : Cli.OutputFormat) : Option Cli.Exit :=
  s.answer.bind fun sent => Cli.run J (s.host w sent) file output true

/-! ## The ends of a run -/

/-- A waited run ends with a record, an error or a rejection. -/
theorem run_cases {J : Cli.Json} {w : Cli.Host} {file : String} {output : Cli.OutputFormat} {exit : Cli.Exit}
    (hrun : Cli.run J w file output true = some exit) :
    (∃ record, Cli.Reported J w file record ∧ exit = ⟨Cli.finalCode J w output record, []⟩) ∨
      (∃ msg, exit = Cli.writeError w msg) ∨
      ∃ definition errors, Cli.runExperiment J (w.post definition) = .error (.validation errors) ∧
        exit = Cli.rejected w errors := by
  cases hclient : w.client with
  | error e =>
    simp only [Cli.run, hclient, Option.some.injEq] at hrun
    exact .inr (.inl ⟨_, hrun.symm⟩)
  | ok =>
  have hfile := hrun
  simp only [Cli.run, hclient, Cli.runExperimentFile] at hfile
  cases hread : Cli.readDefinition w file with
  | error msg =>
    simp only [hread, Option.some.injEq] at hfile
    exact .inr (.inl ⟨_, hfile.symm⟩)
  | ok definition =>
  simp only [hread] at hfile
  cases hpost : Cli.runExperiment J (w.post definition) with
  | error e =>
    simp only [hpost] at hfile
    cases e with
    | validation errors => exact .inr (.inr ⟨definition, errors, hpost, (Option.some.inj hfile).symm⟩)
    | _ => exact .inr (.inl ⟨_, (Option.some.inj hfile).symm⟩)
  | ok created =>
  simp only [hpost, Bool.not_true, Bool.false_eq_true, if_false] at hfile
  cases hwait : Cli.waitUntilTerminal J (w.get created.id) with
  | none =>
    rw [hwait] at hfile
    cases hfile
  | some result =>
  cases result with
  | error e =>
    simp only [hwait, Option.some.injEq] at hfile
    exact .inr (.inl ⟨_, hfile.symm⟩)
  | ok record =>
    have hrep : Cli.Reported J w file record :=
      ⟨hclient, definition, created, hread, hpost, (Cli.waitUntilTerminal_ok _ _).1 hwait⟩
    rw [Cli.run_reported hrep] at hrun
    exact .inl ⟨record, hrep, (Option.some.inj hrun).symm⟩

/-! ## What the answers say -/

section
variable {J : Cli.Json} {print : Value → String} {w : Cli.Host} {file : String} {m : MasterState}

theorem runCall_submit {q : Request} (h : (runCall J w file).request = some q) : ∃ d, q = .submit d := by
  simp only [runCall] at h
  split at h
  next =>
    obtain ⟨d, -, rfl⟩ := Option.map_eq_some_iff.1 h
    exact ⟨d, rfl⟩
  next => cases h

/-- A body that the CLI has read as a record came whole, and from the printed value. -/
theorem experiment_received (hj : Serde J print) {status : Nat} {v : Value} {cut : Option String} {r : Cli.Experiment}
    (h : (received print ⟨status, some v⟩ cut).experiment J = .ok r) : Cli.Experiment.ofJson v = some r := by
  cases cut with
  | some e => cases h
  | none =>
    refine hj v r ?_
    simp only [received, Cli.Response.experiment, Option.map_some, Option.getD_some] at h
    split at h
    next => cases h
    next r' hr => rw [hr, Except.ok.inj h]

/-- A record that the submission has brought is that of the file. -/
theorem created_record (hj : Serde J print) {sent : Cli.Sent} (ha : Answered print (runCall J w file) m sent)
    {created : Cli.Experiment} (h : Cli.runExperiment J sent = .ok created) :
    ∃ e : Experiment, (runCall J w file).request = some (.submit e.definition) ∧ e.Recorded m.shared.store ∧
      Ticking m e.id ∧ created.id = e.id := by
  cases ha with
  | @handler q r cut hq ha htick =>
    obtain ⟨d, rfl⟩ := runCall_submit hq
    cases r with
    | created e =>
      obtain ⟨rfl, hrec⟩ := ha
      exact ⟨e, hq, hrec, htick e rfl, (Cli.experiment_named (experiment_received hj h)).1⟩
    | rejected fs => cases h
    | halted | cleared => exact ha.elim
  | undecodable body => cases h
  | refused hs h422 => simp [Cli.runExperiment, hs, h422] at h
  | failed => cases h

/-- A 422 is that of the framework, or that of VALIDATE. -/
theorem validation_record {sent : Cli.Sent} (ha : Answered print (runCall J w file) m sent) {errors : List String}
    (h : Cli.runExperiment J sent = .error (.validation errors)) :
    (runCall J w file).request = none ∨
      ∃ failures cut, failures ≠ [] ∧ sent = .ok (received print (Response.rejected failures).answer cut) := by
  cases ha with
  | @handler q r cut hq ha =>
    obtain ⟨d, rfl⟩ := runCall_submit hq
    cases r with
    | created e =>
      have hne : ∀ x : Cli.Response, x.experiment J ≠ .error (.validation errors) := fun x hx => by
        unfold Cli.Response.experiment at hx
        split at hx
        · cases hx
        · split at hx <;> cases hx
      exact absurd h (hne _)
    | rejected failures => exact .inr ⟨failures, cut, ha, rfl⟩
    | halted | cleared => exact ha.elim
  | undecodable body hq => exact .inl hq
  | refused hs h422 => simp [Cli.runExperiment, hs, h422, Cli.statusError] at h
  | failed he =>
    obtain rfl := Except.error.inj h
    cases he

/-- A terminal record that a poll has brought is still the stored one. -/
theorem terminal_record (hj : Serde J print) {id : Option ExperimentId} {sent : Cli.Sent}
    (hp : Polled print m.shared.store id sent) {r : Cli.Experiment} (h : Cli.getExperiment J sent = .ok r)
    (hterminal : r.isTerminal = true) :
    ∃ (e : Experiment) (outcome : ExperimentOutcome), id = some e.id ∧ m.shared.store.lookup e.id = some e ∧
      e.phase = .concluded outcome ∧ r.outcome = some (Cli.outcomeLabel outcome) := by
  cases hp with
  | missing cut => cases h
  | @record e cut hid hs =>
    obtain ⟨-, houtcome⟩ := Cli.experiment_named (experiment_received hj h)
    obtain ⟨e', he, -, hsame⟩ := hs
    cases hphase : e.phase with
    | concluded outcome =>
      obtain rfl := hsame (by simp [Experiment.isConcluded, hphase])
      exact ⟨e', outcome, hid, he, hphase, by rw [houtcome, hphase]; rfl⟩
    | _ => simp [Cli.Experiment.isTerminal, houtcome, hphase, Cli.phaseLabels] at hterminal
  | failed => cases h

end

/-! ## The gate -/

/-- The record of the call: of the definition in its file, stored, and concluded. -/
structure Ended (s : Deployment) (call : Call) (e : Experiment) (outcome : ExperimentOutcome) : Prop where
  stored : s.master.shared.store.lookup e.id = some e
  asked : call.request = some (.submit e.definition)
  concluded : e.phase = .concluded outcome

/-- On every host that the definition names, its fault has run from preflight to cleanup, each exiting 0. -/
def Fulfilled (s : Deployment) (e : Experiment) : Prop :=
  ∀ action d host, e.definition.actions[action]? = some d → host ∈ d.hosts →
    ∃ i ∈ e.instances, i.hostname.val = host ∧ i.actionIndex = action ∧
      [succeeded .cleanup, succeeded .inject, succeeded .preflight, succeeded .preflight].Sublist
        ((s.seats i.hostname).history i.instanceId)

/-- The call has got a record with this outcome, and nobody was left to read the line it prints of it. -/
def Unread (J : Cli.Json) (w : Cli.Host) (file : String) (output : Cli.OutputFormat) (s : Desk)
    (outcome : ExperimentOutcome) : Prop :=
  ∃ sent record, s.answer = some sent ∧ Cli.Reported J (s.host w sent) file record ∧
    record.outcome = some (Cli.outcomeLabel outcome) ∧
    w.stdout (Cli.renderExperiment J record output w.now) = .error .brokenPipe

section
variable {X : Agent.Ext} {C : Master.Config} {J : Cli.Json} {print : Value → String} {w : Cli.Host} {file : String}
  {s : Desk} {output : Cli.OutputFormat} {exit : Cli.Exit}

theorem Ended.fulfilled {system : Deployment} (h : Reach (deployLts X C) system) {call : Call} {e : Experiment}
    (he : Ended system call e .completed) : Fulfilled system e := by
  intro action d host hd hh
  have hrec := ((reach_sound (reach_master h)).records e.id e he.stored).2.1
  obtain ⟨i, hi, hhost, haction⟩ := reach_covers hrec hd hh
  exact ⟨i, hi, hhost, haction, completed_life h he.stored he.concluded hi⟩

/-- A record that the call has reported is that of its file, and is concluded as reported. -/
theorem reported_ended (hj : Serde J print) (h : Reach (deskLts X C print (runCall J w file)) s) {sent : Cli.Sent}
    (hanswer : s.answer = some sent) {record : Cli.Experiment} (hrep : Cli.Reported J (s.host w sent) file record) :
    ∃ e outcome, Ended s.system (runCall J w file) e outcome ∧ record.outcome = some (Cli.outcomeLabel outcome) := by
  have hs := reach_desk h
  obtain ⟨-, definition, created, hread, hpost, before, poll, after, hpolls, -, hget, hterminal⟩ := hrep
  obtain ⟨e₀, hq, ⟨e', he', hkept⟩, -, hid⟩ := created_record hj (hs.answer sent hanswer) hpost
  have hmem : poll ∈ s.polls := by
    have hpolls : s.polls = before ++ poll :: after := hpolls
    rw [hpolls]
    simp
  obtain ⟨e, outcome, hfollows, he, hphase, houtcome⟩ := terminal_record hj (hs.polls poll hmem) hget hterminal
  have hfollows : some created.id = some e.id := by
    rw [← hfollows, hanswer]
    simp only [Option.bind_some, runCall]
    rw [show Cli.runExperiment J sent = .ok created from hpost]
  have hid : e.id = e₀.id := (Option.some.inj hfollows).symm.trans hid
  rw [hid, he'] at he
  obtain rfl := Option.some.inj he
  refine ⟨e', outcome, ⟨hid ▸ he', ?_, hphase⟩, houtcome⟩
  rw [hq, hkept.definition]

/-- The code of a record that has been written, or not. -/
theorem finalCode_cases {w : Cli.Host} {record : Cli.Experiment} {outcome : ExperimentOutcome}
    (h : record.outcome = some (Cli.outcomeLabel outcome)) :
    Cli.finalCode J w output record = Cli.outcomeExitCode (some (Cli.outcomeLabel outcome)) ∨
      Cli.finalCode J w output record = Cli.EXIT_OK ∧
          w.stdout (Cli.renderExperiment J record output w.now) = .error .brokenPipe ∨
        Cli.finalCode J w output record = Cli.EXIT_ERROR := by
  unfold Cli.finalCode
  split
  next => exact .inl (congrArg _ h)
  next hpipe => exact .inr (.inl ⟨rfl, hpipe⟩)
  next => exact .inr (.inr rfl)

theorem rejected_codes (w : Cli.Host) (errors : List String) :
    (Cli.rejected w errors).code = Cli.EXIT_VALIDATION ∨ (Cli.rejected w errors).code = Cli.EXIT_PANIC := by
  unfold Cli.rejected
  split
  · exact .inl rfl
  · exact .inr rfl

/-- **The gate.** -/
theorem gate_holds (hj : Serde J print) (h : Reach (deskLts X C print (runCall J w file)) s)
    (hexit : s.exit J w file output = some exit) :
    (exit.code = Cli.EXIT_OK → ∃ e outcome, Ended s.system (runCall J w file) e outcome ∧
      (outcome = .completed ∧ Fulfilled s.system e ∨ Unread J w file output s outcome)) ∧
    (exit.code = Cli.EXIT_EXPERIMENT_ABORTED → ∃ e, Ended s.system (runCall J w file) e .aborted) ∧
    (exit.code = Cli.EXIT_EXPERIMENT_ERROR → ∃ e, Ended s.system (runCall J w file) e .error) ∧
    (exit.code = Cli.EXIT_VALIDATION → (runCall J w file).request = none ∨
      ∃ failures cut, failures ≠ [] ∧
        s.answer = some (.ok (received print (Response.rejected failures).answer cut))) := by
  obtain ⟨sent, hanswer, hrun⟩ := Option.bind_eq_some_iff.1 hexit
  rcases run_cases hrun with ⟨record, hrep, rfl⟩ | ⟨msg, rfl⟩ | ⟨definition, errors, hpost, rfl⟩
  · obtain ⟨e, outcome, hended, houtcome⟩ := reported_ended hj h hanswer hrep
    rcases @finalCode_cases J output (s.host w sent) _ _ houtcome with hcode | ⟨hcode, hpipe⟩ | hcode
    · -- the record was written: the code tells the outcomes apart
      cases outcome with
      | completed =>
        refine ⟨fun _ => ⟨e, .completed, hended, .inl ⟨rfl, hended.fulfilled (reach_desk h).system⟩⟩, ?_, ?_, ?_⟩ <;>
          exact fun hc => nomatch hcode.symm.trans hc
      | aborted =>
        refine ⟨?_, fun _ => ⟨e, hended⟩, ?_, ?_⟩ <;> exact fun hc => nomatch hcode.symm.trans hc
      | error =>
        refine ⟨?_, ?_, fun _ => ⟨e, hended⟩, ?_⟩ <;> exact fun hc => nomatch hcode.symm.trans hc
    · have hunread : Unread J w file output s outcome := ⟨sent, record, hanswer, hrep, houtcome, hpipe⟩
      refine ⟨fun _ => ⟨e, outcome, hended, .inr hunread⟩, ?_, ?_, ?_⟩ <;> exact fun hc => nomatch hcode.symm.trans hc
    · refine ⟨?_, ?_, ?_, ?_⟩ <;> exact fun hc => nomatch hcode.symm.trans hc
  · refine ⟨?_, ?_, ?_, ?_⟩ <;> exact fun hc => nomatch hc
  · have hrejected := validation_record ((reach_desk h).answer sent hanswer) hpost
    have hno : ∀ code, code ≠ Cli.EXIT_VALIDATION → code ≠ Cli.EXIT_PANIC →
        (Cli.rejected (s.host w sent) errors).code ≠ code := fun code hv hp hc => by
      rcases rejected_codes (s.host w sent) errors with h | h
      · exact hv (hc.symm.trans h)
      · exact hp (hc.symm.trans h)
    refine ⟨fun hc => absurd hc (hno _ (by decide) (by decide)), fun hc => absurd hc (hno _ (by decide) (by decide)),
      fun hc => absurd hc (hno _ (by decide) (by decide)), fun _ => hrejected.imp_right ?_⟩
    rintro ⟨failures, cut, hne, rfl⟩
    exact ⟨failures, cut, hne, hanswer⟩

/-! ## The wait -/

/-- Labels of the master, taken by the whole system. -/
theorem run_desk {c : Call} {s : Desk} {labels : List Label} {m : MasterState} (hw : ∀ l ∈ labels, wired l = false)
    (h : Lts.run (masterLts C) s.system.master labels = some m) :
    Lts.run (deskLts X C print c) s (labels.map fun l => .system (.master l)) =
      some { s with system := { s.system with master := m } } := by
  induction labels generalizing s with
  | nil =>
    obtain rfl := Option.some.inj h
    rfl
  | cons l labels ih =>
    obtain ⟨m₁, hstep, hrest⟩ := Option.bind_eq_some_iff.1 h
    replace hstep : masterStep C s.system.master l = some m₁ := hstep
    have hdesk : (deskLts X C print c).step s (.system (.master l)) =
        some { s with system := { s.system with master := m₁ } } := by
      simp only [deskLts, deskStep, deployStep, hw l List.mem_cons_self, Bool.false_eq_true, if_false, hstep,
        Option.map_some]
    rw [List.map_cons, Lts.run, hdesk, Option.bind_some]
    exact ih (s := { s with system := { s.system with master := m₁ } }) (fun k hk => hw k (List.mem_cons_of_mem _ hk))
      hrest

/-- A poll that does not leave the call waiting ends it. -/
theorem exit_of_poll {sent poll : Cli.Sent} (hanswer : s.answer = some sent) (hpoll : poll ∈ s.polls)
    (hstop : ¬ Cli.Pending J poll) : ∃ exit, s.exit J w file output = some exit := by
  unfold Desk.exit
  rw [hanswer, Option.bind_some]
  unfold Cli.run
  split
  next => exact ⟨_, rfl⟩
  next =>
    unfold Cli.runExperimentFile
    split
    next => exact ⟨_, rfl⟩
    next =>
      split
      next => exact ⟨_, rfl⟩
      next => exact ⟨_, rfl⟩
      next created _ =>
        simp only [Bool.not_true, Bool.false_eq_true, if_false]
        split
        next hwait => exact absurd ((Cli.waitUntilTerminal_none _).1 hwait poll hpoll) hstop
        next => exact ⟨_, rfl⟩
        next => split <;> exact ⟨_, rfl⟩

theorem concluded_not_pending (hj : Serde J print) {e : Experiment} (hc : e.isConcluded = true) :
    ¬ Cli.Pending J (.ok (received print ⟨200, some (experimentView e).toJson⟩ none)) := by
  rintro ⟨r, hget, hterminal⟩
  have hbody : (received print ⟨200, some (experimentView e).toJson⟩ none).experiment J = .ok r := hget
  obtain ⟨-, houtcome⟩ := Cli.experiment_named (experiment_received hj hbody)
  cases hphase : e.phase with
  | concluded outcome => simp [Cli.Experiment.isTerminal, houtcome, hphase, Cli.phaseLabels] at hterminal
  | _ => simp [Experiment.isConcluded, hphase] at hc

/-- **The wait can always end.** Once the call has its record, time and the tasks of the master alone bring it to its
end at the next poll: no host need answer, no channel need have room, no client need do anything. -/
theorem wait_ends (hj : Serde J print) (h : Reach (deskLts X C print (runCall J w file)) s) {sent : Cli.Sent}
    (hanswer : s.answer = some sent) {created : Cli.Experiment} (hcreated : Cli.runExperiment J sent = .ok created)
    (output : Cli.OutputFormat) :
    ∃ (ms : Nat) (ps : List Nat) (s' : Desk) (exit : Cli.Exit),
      Lts.run (deskLts X C print (runCall J w file)) s
        ((.tick ms :: ps.map Label.run).map (fun l => .system (.master l)) ++ [.poll none]) = some s' ∧
      s'.exit J w file output = some exit := by
  have hs := reach_desk h
  have hm := reach_sound (reach_master hs.system)
  obtain ⟨e, -, -, htick, hid⟩ := created_record hj (hs.answer sent hanswer) hcreated
  obtain ⟨e₁, he₁, -⟩ := id htick
  let ms := (e₁.deadlineUnixMs - s.system.master.shared.now).toNat
  have hstep : masterStep C s.system.master (.tick ms) =
      some ⟨{ s.system.master.shared with now := s.system.master.shared.now + ms }, s.system.master.tasks⟩ := rfl
  obtain ⟨ps, m, e', hrun, he', hc⟩ := (htick.step hm hstep).settles (hm.step (masterStep_step hstep)) fun e₂ he₂ => by
    obtain rfl := Option.some.inj (he₁.symm.trans he₂)
    show e₁.deadlineUnixMs ≤ s.system.master.shared.now + ms
    omega
  have hruns : Lts.run (masterLts C) s.system.master (.tick ms :: ps.map Label.run) = some m := by
    rw [Lts.run, show (masterLts C).step s.system.master (.tick ms) = _ from hstep, Option.bind_some]
    exact hrun
  have hwired : ∀ l ∈ Label.tick ms :: ps.map Label.run, wired l = false := by
    intro l hl
    rcases List.mem_cons.1 hl with rfl | hl
    · rfl
    · obtain ⟨p, -, rfl⟩ := List.mem_map.1 hl
      rfl
  have hpoll : getExperiment m.shared created.id = ⟨200, some (experimentView e').toJson⟩ := by
    unfold getExperiment
    rw [hid, he']
  have hfollows : s.answer.bind (runCall J w file).follows = some created.id := by
    simp only [hanswer, Option.bind_some, runCall, hcreated]
  let s₁ : Desk := { s with system := { s.system with master := m } }
  let s₂ : Desk := { s₁ with polls := s.polls ++ [.ok (received print ⟨200, some (experimentView e').toJson⟩ none)] }
  have hlast : (deskLts X C print (runCall J w file)).step s₁ (.poll none) = some s₂ := by
    show (s.answer.bind (runCall J w file).follows).map _ = _
    rw [hfollows, Option.map_some, hpoll]
  have hend : ∃ exit, s₂.exit J w file output = some exit :=
    exit_of_poll hanswer (List.mem_append_right _ (List.mem_singleton_self _)) (concluded_not_pending hj hc)
  obtain ⟨exit, hexit⟩ := hend
  refine ⟨ms, ps, s₂, exit, ?_, hexit⟩
  rw [Lts.run_append, run_desk hwired hruns, Option.bind_some, Lts.run, hlast]
  rfl

end

/-! ## One call, seen to its end -/

def sampleOperator : Cli.Host where
  client := .ok ()
  readToString := .ok ("name: smoke\nactions:\n  - hosts: [web-01]\n" ++
    "    plugin: \x7bname: cpu-stress, version: \"1.0.0\"\x7d\n    params: \x7b\x7d\n    duration_secs: 60\n")
  fromYaml _ := .ok (.object [("actions", .array [.object [("duration_secs", .unsigned 60),
    ("hosts", .array [.string "web-01"]), ("params", .object []),
    ("plugin", .object [("name", .string "cpu-stress"), ("version", .string "1.0.0")])]]), ("name", .string "smoke")])
  post _ := .error .timeout
  get _ := []
  stdout _ := .ok ()
  stderr := true
  now := 70000000000

/-- The record of the call, as the CLI reads it, with the text it comes in. -/
def shownRecord (state : String) (outcome : Option String) (instance' reason : String) (updated : Nat) :
    Cli.Experiment × String :=
  (⟨"exp-1000-1", "smoke", state, outcome, 30, 1000, 121000, none,
    [⟨"exp-1000-1:web-01:0", "web-01", 0, instance', reason, updated⟩]⟩,
  "\x7b\"id\":\"exp-1000-1\",\"name\":\"smoke\",\"state\":\"" ++ state ++ "\",\"outcome\":" ++
    outcome.elim "null" (fun label => "\"" ++ label ++ "\"") ++
    ",\"grace_secs\":30,\"started_unix_ms\":1000,\"deadline_unix_ms\":121000,\"cause\":null,\"instances\":[\x7b" ++
    "\"instance_id\":\"exp-1000-1:web-01:0\",\"hostname\":\"web-01\",\"action_index\":0,\"state\":\"" ++ instance' ++
    "\",\"reason\":\"" ++ reason ++ "\",\"updated_unix_ms\":" ++ toString updated ++ "\x7d]\x7d")

def shownRecords : List (Cli.Experiment × String) :=
  [shownRecord "RUNNING" none "PENDING" "" 1000,
    shownRecord "COMPLETED" (some "COMPLETED") "DONE" "duration elapsed" 61000]

def samplePrint (v : Value) : String :=
  match Cli.Experiment.ofJson v with
  | some r => (shownRecords.lookup r).getD "\x7b\x7d"
  | none => "null"

def sampleSerde : Cli.Json where
  errors _ := none
  experiment text :=
    match shownRecords.find? fun shown => shown.2 == text with
    | some shown => .ok shown.1
    | none => .error "expected value at line 1 column 1"
  pretty _ := .ok ""

/-- The texts tell the records apart, and from what is no record. -/
theorem shownRecords_apart : (∀ x ∈ shownRecords, ∀ y ∈ shownRecords, x.2 = y.2 → x.1 = y.1) ∧
    ∀ x ∈ shownRecords, x.2 ≠ "null" ∧ x.2 ≠ "\x7b\x7d" := by
  decide +kernel

theorem sampleSerde_spec : Serde sampleSerde samplePrint := by
  intro v r h
  obtain ⟨shown, hshown, rfl, htext⟩ : ∃ shown ∈ shownRecords, shown.1 = r ∧ shown.2 = samplePrint v := by
    simp only [sampleSerde] at h
    split at h
    next shown hfind =>
      exact ⟨shown, List.mem_of_find?_eq_some hfind, Except.ok.inj h, by simpa using List.find?_some hfind⟩
    next => cases h
  obtain ⟨hnull, hempty⟩ := shownRecords_apart.2 shown hshown
  unfold samplePrint at htext
  cases hv : Cli.Experiment.ofJson v with
  | none => rw [hv] at htext; exact absurd htext hnull
  | some r =>
    simp only [hv] at htext
    cases hl : shownRecords.lookup r with
    | none => rw [hl] at htext; exact absurd htext hempty
    | some text =>
      rw [hl] at htext
      obtain ⟨before, after, hmem, -⟩ := List.lookup_eq_some_iff.1 hl
      have hr : (r, text) ∈ shownRecords := by rw [hmem]; simp
      rw [shownRecords_apart.1 shown hshown (r, text) hr htext]

/-- The submission of the run is that of the call. -/
def asCall : DeployLabel → DeskLabel
  | .master (.submit _) => .deliver
  | label => .system label

/-- The host has its `RunFault`, and the call its record. -/
def createdLabels : List DeskLabel := orderedLabels.map asCall ++ (acts 1 2).map .system ++ [.answer none, .poll none]

/-- The fault runs its full life, and the call polls again. -/
def gateLabels : List DeskLabel :=
  createdLabels ++ (completedLabels.drop orderedLabels.length).map .system ++ [.poll none]

def sampleDesk : Desk := ⟨sampleDeployment, none, none, []⟩

def sampleCall : Call := runCall sampleSerde sampleOperator "exp.yaml"

theorem sampleDesk_init : (deskLts Agent.plainExt sampleConfig samplePrint sampleCall).init sampleDesk :=
  ⟨sampleDeployment_init, rfl, rfl, rfl⟩

theorem gate_holds_sample : ∃ (s : Desk) (exit : Cli.Exit),
    s.exit sampleSerde sampleOperator "exp.yaml" .json = some exit ∧ exit.code = Cli.EXIT_OK ∧
    ∃ e, Ended s.system sampleCall e .completed ∧ Fulfilled s.system e := by
  obtain ⟨s, hs, hp⟩ := reach_of_run
    (fun s : Desk => (s.exit sampleSerde sampleOperator "exp.yaml" .json).any fun exit => exit.code == Cli.EXIT_OK)
    sampleDesk_init gateLabels (by decide +kernel)
  obtain ⟨exit, hexit, hcode⟩ := (Option.any_eq_true _ _).1 hp
  have hok : exit.code = Cli.EXIT_OK := by simpa using hcode
  obtain ⟨e, outcome, hended, ⟨rfl, hdone⟩ | ⟨_, _, -, -, -, hpipe⟩⟩ := (gate_holds sampleSerde_spec hs hexit).1 hok
  · exact ⟨s, exit, hexit, hok, e, hended, hdone⟩
  · cases hpipe

/-- The host says nothing more, and the wait ends all the same. -/
theorem wait_ends_sample : ∃ (s : Desk) (ms : Nat) (ps : List Nat) (s' : Desk) (exit : Cli.Exit),
    s.exit sampleSerde sampleOperator "exp.yaml" .json = none ∧
    Lts.run (deskLts Agent.plainExt sampleConfig samplePrint sampleCall) s
      ((.tick ms :: ps.map Label.run).map (fun l => .system (.master l)) ++ [.poll none]) = some s' ∧
    s'.exit sampleSerde sampleOperator "exp.yaml" .json = some exit := by
  obtain ⟨s, hs, hp⟩ := reach_of_run
    (fun s : Desk => (s.exit sampleSerde sampleOperator "exp.yaml" .json).isNone &&
      (s.answer.any fun sent => (Cli.runExperiment sampleSerde sent).toOption.isSome))
    sampleDesk_init createdLabels (by decide +kernel)
  obtain ⟨hwaits, hanswer⟩ := Bool.and_eq_true_iff.1 hp
  obtain ⟨sent, hsent, hok⟩ := (Option.any_eq_true _ _).1 hanswer
  cases hcreated : Cli.runExperiment sampleSerde sent with
  | error e => rw [hcreated] at hok; cases hok
  | ok created =>
    obtain ⟨ms, ps, s', exit, hrun, hexit⟩ := wait_ends sampleSerde_spec hs hsent hcreated .json
    exact ⟨s, ms, ps, s', exit, by simpa using hwaits, hrun, hexit⟩

end FaultForge.System
