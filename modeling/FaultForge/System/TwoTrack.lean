import FaultForge.Agent.TwoTrack
import FaultForge.Master.Dispatch

/-!
# Two-track telemetry, from the plugin to the master

A plugin can print anything, a `status` line that claims any state included. `telemetry_never_steers` says that nothing
but the forwarded frames depends on it: neither what `run_instance` and `replay_entry` do (supervisor.rs:343-488,
749-898), nor anything the master keeps or answers (session.rs:111-116).
-/
namespace FaultForge.System

open Lts Agent Master

/-- The master reads a `FaultEvent`. -/
def isFaultEvent : Label → Bool
  | .recv _ (some (.faultEvent _ _)) => true
  | _ => false

/-- Reading one changes nothing. -/
theorem masterStep_faultEvent {C : Master.Config} {m m' : MasterState} {label : Label} (hl : isFaultEvent label = true)
    (h : masterStep C m label = some m') : m' = m := by
  cases label with
  | recv p payload =>
    cases payload with
    | none => cases hl
    | some frame =>
      cases frame with
      | faultEvent id line =>
        simp only [masterStep, intake, handleFrame] at h
        split at h
        · next stream hstream htask =>
          split at h
          · cases h
          · obtain rfl := Option.some.inj h
            rw [show m.tasks.set p [] = m.tasks from ?_]
            obtain ⟨hp, hget⟩ := List.getElem?_eq_some_iff.1 htask
            rw [← hget]
            exact List.set_getElem_self hp
        · cases h
      | _ => cases hl
  | _ => cases hl

/-- So a run goes on without them as it went with them. -/
theorem run_without_faultEvents {C : Master.Config} {m m' : MasterState} {labels : List Label}
    (h : run (masterLts C) m labels = some m') :
    run (masterLts C) m (labels.filter fun label => !isFaultEvent label) = some m' := by
  induction labels generalizing m with
  | nil => exact h
  | cons label labels ih =>
    simp only [run] at h
    cases hs : (masterLts C).step m label with
    | none => simp [hs] at h
    | some m₁ =>
      rw [hs, Option.bind_some] at h
      cases hl : isFaultEvent label with
      | true =>
        obtain rfl := masterStep_faultEvent hl hs
        rw [List.filter_cons_of_neg (by simp [hl])]
        exact ih h
      | false =>
        rw [List.filter_cons_of_pos (by simp [hl])]
        simp only [run, hs, Option.bind_some]
        exact ih h

/-- **Plugin output never steers the lifecycle.** Two runs of an instance, or two replays of a journaled one, with the
same invocation results, stop requests and clock perform the same commands, status and taint frames, journal and taint
operations, whatever the plugins print; and the master ends in the same state with every `FaultEvent` left out. -/
theorem telemetry_never_steers (X : Ext) (C : Master.Config) :
    (∀ {c₁ c₂ c₁' c₂' : Instance} {as₁ as₂ : List InstanceLabel}, (instanceLts X).init c₁ → (instanceLts X).init c₂ →
      c₁.quiet = c₂.quiet → run (instanceLts X) c₁ as₁ = some c₁' → run (instanceLts X) c₂ as₂ = some c₂' →
      erased X c₁ as₁ = erased X c₂ as₂ →
      operations (instanceLts X) c₁ as₁ = operations (instanceLts X) c₂ as₂ ∧ c₁'.quiet = c₂'.quiet) ∧
    (∀ (timeoutSecs : UInt64) (entry : JournalEntry) (now : Int) {env₁ env₂ : Nat → Answer} (result : Replayed),
      (∀ i, (env₁ i).quiet = (env₂ i).quiet) →
      replayEntryOperations X timeoutSecs entry now env₁ result =
          replayEntryOperations X timeoutSecs entry now env₂ result ∧
        (replayEntry X timeoutSecs entry now env₁ result).quiet =
          (replayEntry X timeoutSecs entry now env₂ result).quiet) ∧
    (∀ {m m' : MasterState} {labels : List Label}, run (masterLts C) m labels = some m' →
      run (masterLts C) m (labels.filter fun label => !isFaultEvent label) = some m') := by
  refine ⟨?_, ?_, run_without_faultEvents⟩
  · intro c₁ c₂ c₁' c₂' as₁ as₂ hi₁ hi₂ hc h₁ h₂ he
    exact (quiet_runs (init_sorted hi₁) (init_sorted hi₂) hc h₁ h₂ he).symm
  · intro timeoutSecs entry now env₁ env₂ result henv
    exact (replayEntry_quiet henv).symm

/-! ## A plugin that claims to be done -/

/-- The first preflight's digest is checked; its process runs. -/
def startChoices : List Choice :=
  [.go, .go, .resolved (.ok samplePlugin), .go, .go, .go, .go, .resolved (.ok samplePlugin)]

/-- It exits 10 and prints nothing. -/
def silentChoices : List Choice := startChoices ++ [.exit (printed (fun _ => true) "" "" (.code 10)), .go]

/-- It exits 10 and prints a line that is an event, one that is none, and something on stderr. -/
def claimingChoices : List Choice :=
  startChoices ++
    [.exit (printed (fun line => line = "done") "done\n \nnoise" "oops" (.code 10)), .go, .go, .go, .go, .go]

def sampleAnswer (stdout : String) : Answer where
  now := 5000
  resolved := .ok samplePlugin
  invocation := printed (fun _ => true) stdout "" (.code 0)
  error := none

theorem telemetry_never_steers_sample :
    operations (instanceLts plainExt) sampleInstance (silentChoices.map .task) =
        operations (instanceLts plainExt) sampleInstance (claimingChoices.map .task) ∧
      replayEntryOperations plainExt 10 (journalEntry (.spawn sampleRun)) 5000 (fun _ => sampleAnswer "")
          ⟨∅, none, [], []⟩ =
        replayEntryOperations plainExt 10 (journalEntry (.spawn sampleRun)) 5000 (fun _ => sampleAnswer "done")
          ⟨∅, none, [], []⟩ ∧
      ∃ m, run (masterLts sampleConfig) sampleMaster [.connect, .recv 0 (some (.faultEvent "i" "done"))] = some m ∧
        run (masterLts sampleConfig) sampleMaster [.connect] = some m := by
  have hinit : (instanceLts plainExt).init sampleInstance := ⟨sampleRun, rfl, rfl, rfl, rfl⟩
  obtain ⟨hrun, hreplay, hmaster⟩ := telemetry_never_steers plainExt sampleConfig
  obtain ⟨c₁, h₁⟩ := Option.isSome_iff_exists.1
    (show (run (instanceLts plainExt) sampleInstance (silentChoices.map .task)).isSome = true by decide +kernel)
  obtain ⟨c₂, h₂⟩ := Option.isSome_iff_exists.1
    (show (run (instanceLts plainExt) sampleInstance (claimingChoices.map .task)).isSome = true by decide +kernel)
  refine ⟨(hrun hinit hinit rfl h₁ h₂ (by rfl)).1, (hreplay _ _ _ _ fun _ => rfl).1, ?_⟩
  have hm : run (masterLts sampleConfig) sampleMaster [.connect, .recv 0 (some (.faultEvent "i" "done"))] = some _ :=
    rfl
  exact ⟨_, hm, hmaster hm⟩

end FaultForge.System
