import FaultForge.Fault.Protocol
import Mathlib.Algebra.Order.Ring.Int

/-!
# The per-instance state machine (crates/agent/src/machine.rs)

| here | there |
| --- | --- |
| `StopCause`, `Outcome`, `Recovery`, `State` | machine.rs:15-131 |
| `State.instanceState`, `State.replayRecovery` | `State::instance_state`, `State::replay_recovery` machine.rs:136-184 |
| `Event`, `Effect` | machine.rs:190-260 |
| `stepPreflight` … `stepInjecting`, `step` | machine.rs:264-609 |
| `StopClock`, `nextStop` | machine.rs:616-645 |

`step` is total, as in the source: a pair that cannot happen returns the state with no effects.
-/
namespace FaultForge.Agent

/-! ## Stop causes and outcomes -/

inductive StopCause | durationElapsed | operatorAbort | masterLost | deadman
deriving DecidableEq, Repr

def StopCause.reason : StopCause → String
  | .durationElapsed => "duration elapsed"
  | .operatorAbort => "operator abort"
  | .masterLost => "master unreachable beyond threshold; self-abort"
  | .deadman => "dead-man deadline reached"

inductive Outcome | done | aborted | error
deriving DecidableEq, Repr

def StopCause.outcome : StopCause → Outcome
  | .durationElapsed => .done
  | .operatorAbort | .masterLost => .aborted
  | .deadman => .error

/-- A graceful stop is an orderly `cleanup`; every other stop is `abort` first (machine.rs:49). -/
def StopCause.recoverySteps : StopCause → PluginCommand × List PluginCommand
  | .durationElapsed => (.cleanup, [])
  | .operatorAbort | .masterLost | .deadman => (.abort, [.cleanup])

def Outcome.terminalState : Outcome → InstanceState
  | .done => .done
  | .aborted => .aborted
  | .error => .error

/-! ## States -/

structure Recovery where
  current : PluginCommand
  remaining : List PluginCommand
  outcome : Outcome
  /-- One idempotent retry of the current command is allowed before the host is tainted. -/
  retried : Bool
  reason : Option String
deriving DecidableEq, Repr

inductive State
  | pending
  | preflightInstall (stop : Option StopCause)
  | preflightRuntime (stop : Option StopCause)
  | writingJournal (stop : Option StopCause)
  | injecting (stop : Option StopCause)
  | active
  | recovering (rec : Recovery)
  | done
  | aborted
  | error
deriving DecidableEq, Repr

/-- `State::instance_state` (machine.rs:138). -/
def State.instanceState : State → InstanceState
  | .pending => .pending
  | .preflightInstall _ | .preflightRuntime _ | .writingJournal _ => .preflight
  | .injecting _ => .injecting
  | .active => .active
  | .recovering _ => .recovering
  | .done => .done
  | .aborted => .aborted
  | .error => .error

/-- `State::is_terminal` (machine.rs:155). -/
def State.isTerminal : State → Bool
  | .done | .aborted | .error => true
  | _ => false

/-! ## Events and effects -/

inductive Event
  | setupOk
  | setupFailed (reason : String)
  | journalWritten
  | journalWriteFailed (reason : String)
  | commandFinished (command : PluginCommand) (disposition : Disposition)
  | invocationFailed (command : PluginCommand) (reason : String)
  | invokeRejected (command : PluginCommand) (reason : String)
  | stopRequested (cause : StopCause)
deriving DecidableEq, Repr

inductive Effect
  | emitStatus (state : InstanceState) (reason : Option String)
  | invoke (command : PluginCommand) (phase : Phase)
  | writeJournal
  | removeJournal
  | markTainted (reason : String)
deriving DecidableEq, Repr

/-- `State::replay_recovery` (machine.rs:163): a journaled instance goes straight to abort and cleanup. -/
def State.replayRecovery (outcome : Outcome) (reason : String) : State × List Effect :=
  (.recovering ⟨.abort, [.cleanup], outcome, false, some reason⟩,
   [.emitStatus .recovering (some reason), .invoke .abort .runtime])

/-! ## The transition function -/

def abortedWith (reason : String) : State × List Effect :=
  (.aborted, [.emitStatus .aborted (some reason)])

def startRecovery (cause : StopCause) (extraReason : Option String) : State × List Effect :=
  let (current, remaining) := cause.recoverySteps
  let reason := extraReason.getD cause.reason
  (.recovering ⟨current, remaining, cause.outcome, false, some reason⟩,
   [.emitStatus .recovering (some reason), .invoke current .runtime])

/-- `describe` (machine.rs:300). -/
def describe : Disposition → String
  | .success => "success"
  | .preflightFailed => "preflight precondition failed"
  | .injectFailed => "inject failed"
  | .recoveryFailed => "cleanup/abort failed"
  | .unexpected code => s!"unexpected exit code {code}"

/-- The closure `rebuild` of `step_preflight`. -/
def rebuildPreflight (which : Phase) (stop : Option StopCause) : State :=
  match which with
  | .install => .preflightInstall stop
  | .runtime => .preflightRuntime stop

def Phase.name : Phase → String
  | .install => "install"
  | .runtime => "runtime"

/-- `step_preflight` (machine.rs:310). -/
def stepPreflight (which : Phase) (stop : Option StopCause) : Event → State × List Effect
  | .stopRequested cause => (rebuildPreflight which (stop.or (some cause)), [])
  | .commandFinished .preflight .success =>
    match stop with
    | some cause => abortedWith s!"{cause.reason}; never injected"
    | none =>
      match which with
      | .install => (.preflightRuntime none, [.invoke .preflight .runtime])
      | .runtime => (.writingJournal none, [.writeJournal])
  | .commandFinished .preflight disposition =>
    abortedWith s!"{Phase.name which} preflight: {describe disposition}"
  | .invocationFailed .preflight reason => abortedWith s!"preflight invocation failed: {reason}"
  | .invokeRejected .preflight reason => abortedWith s!"preflight invocation failed: {reason}"
  | _ => (rebuildPreflight which stop, [])

/-- `recovery_failure` (machine.rs:422): retry once, then quarantine the host and end in `ERROR`. -/
def recoveryFailure (rec : Recovery) (detail : String) : State × List Effect :=
  if rec.retried then
    let reason := s!"recovery failed after retry ({rec.current.asStr}): {detail}"
    (.error, [.markTainted reason, .removeJournal, .emitStatus .error (some reason)])
  else
    (.recovering { rec with retried := true }, [.invoke rec.current .runtime])

def Outcome.state : Outcome → State
  | .done => .done
  | .aborted => .aborted
  | .error => .error

/-- `step_recovering` (machine.rs:364). -/
def stepRecovering (rec : Recovery) : Event → State × List Effect
  | .stopRequested .deadman => (.recovering { rec with outcome := .error }, [])
  | .commandFinished command .success =>
    if command = rec.current then
      match rec.remaining with
      | [] => (rec.outcome.state, [.removeJournal, .emitStatus rec.outcome.terminalState rec.reason])
      | next :: rest =>
        (.recovering { rec with current := next, remaining := rest, retried := false }, [.invoke next .runtime])
    else (.recovering rec, [])
  | .commandFinished command disposition =>
    if command = rec.current then recoveryFailure rec (describe disposition) else (.recovering rec, [])
  | .invocationFailed command reason =>
    if command = rec.current then recoveryFailure rec reason else (.recovering rec, [])
  | .invokeRejected command reason =>
    if command = rec.current then recoveryFailure rec reason else (.recovering rec, [])
  | _ => (.recovering rec, [])

/-- `step_pending` (machine.rs:451). -/
def stepPending : Event → State × List Effect
  | .setupOk => (.preflightInstall none, [.emitStatus .preflight none, .invoke .preflight .install])
  | .setupFailed reason => abortedWith reason
  | .stopRequested cause => abortedWith s!"{cause.reason}; never started"
  | _ => (.pending, [])

/-- `step_writing_journal` (machine.rs:474). -/
def stepWritingJournal (stop : Option StopCause) : Event → State × List Effect
  | .stopRequested cause => (.writingJournal (stop.or (some cause)), [])
  | .journalWritten =>
    match stop with
    | some cause =>
      (.aborted, [.removeJournal, .emitStatus .aborted (some s!"{cause.reason}; never injected")])
    | none => (.injecting none, [.emitStatus .injecting none, .invoke .inject .runtime])
  | .journalWriteFailed reason => abortedWith s!"journal write failed; refusing to inject: {reason}"
  | _ => (.writingJournal stop, [])

/-- `step_injecting` (machine.rs:521). The last two arms take any command, as the source does. -/
def stepInjecting (stop : Option StopCause) : Event → State × List Effect
  | .stopRequested cause => (.injecting (stop.or (some cause)), [])
  | .commandFinished .inject .success =>
    match stop with
    | some cause => startRecovery cause none
    | none => (.active, [.emitStatus .active none])
  | .commandFinished .inject .injectFailed =>
    (.aborted, [.removeJournal, .emitStatus .aborted (some "inject failed; host unaffected")])
  | .commandFinished .inject disposition =>
    startRecovery .deadman (some s!"inject: {describe disposition}")
  | .invocationFailed _ reason => startRecovery .deadman (some s!"inject invocation failed: {reason}")
  | .invokeRejected _ reason =>
    (.aborted, [.removeJournal, .emitStatus .aborted (some s!"inject refused: {reason}")])
  | _ => (.injecting stop, [])

/-- `step` (machine.rs:595). -/
def step : State → Event → State × List Effect
  | .pending, event => stepPending event
  | .preflightInstall stop, event => stepPreflight .install stop event
  | .preflightRuntime stop, event => stepPreflight .runtime stop event
  | .writingJournal stop, event => stepWritingJournal stop event
  | .injecting stop, event => stepInjecting stop event
  | .active, .stopRequested cause => startRecovery cause none
  | .active, _ => (.active, [])
  | .recovering rec, event => stepRecovering rec event
  | .done, _ => (.done, [])
  | .aborted, _ => (.aborted, [])
  | .error, _ => (.error, [])

/-! ## The single safety deadline -/

/-- `i64::saturating_add`. -/
def saturatingAdd (a b : Int) : Int := max (-2 ^ 63) (min (2 ^ 63 - 1) (a + b))

structure StopClock where
  durationEndMs : Int
  deadmanMs : Int
  masterLostSinceMs : Option Int
  lossThresholdMs : Int
deriving DecidableEq, Repr

/-- `next_stop` (machine.rs:633): the earliest candidate, ties to the gentlest outcome. -/
def nextStop (clock : StopClock) : Int × StopCause :=
  let best := (clock.durationEndMs, StopCause.durationElapsed)
  let best := match clock.masterLostSinceMs with
    | some since =>
      let at_ := saturatingAdd since clock.lossThresholdMs
      if at_ < best.1 then (at_, .masterLost) else best
    | none => best
  if clock.deadmanMs < best.1 then (clock.deadmanMs, .deadman) else best

end FaultForge.Agent
