/-!
# The plugin contract (crates/fault: state.rs, protocol.rs)

Lifecycle states, plugin commands, phases and the exit-code table. What is written to a plugin and read from it
(`PluginInput`, `PluginEvent`) is with the plugin that uses it; nothing the agent decides depends on it.
-/
namespace FaultForge

/-- `InstanceState` (state.rs:16). -/
inductive InstanceState
  | pending | preflight | injecting | active | recovering | done | aborted | error
deriving DecidableEq, Repr

/-- The three terminal lifecycle states (`matches!(.., Done | Aborted | Error)`). -/
def InstanceState.isTerminal : InstanceState → Bool
  | .done | .aborted | .error => true
  | _ => false

/-- `PluginCommand` (protocol.rs:47). -/
inductive PluginCommand
  | preflight | inject | report | abort | cleanup
deriving DecidableEq, Repr

/-- `PluginCommand::as_str` (protocol.rs:69). -/
def PluginCommand.asStr : PluginCommand → String
  | .preflight => "preflight"
  | .inject => "inject"
  | .report => "report"
  | .abort => "abort"
  | .cleanup => "cleanup"

/-- `Phase` (protocol.rs:111). -/
inductive Phase | install | runtime
deriving DecidableEq, Repr

/-! ## Exit codes -/

def EXIT_SUCCESS : Nat := 0
def EXIT_PREFLIGHT_FAILED : Nat := 10
def EXIT_INJECT_FAILED : Nat := 20
def EXIT_CLEANUP_FAILED : Nat := 30

/-- `Disposition` (protocol.rs:233). -/
inductive Disposition
  | success | preflightFailed | injectFailed | recoveryFailed
  | unexpected (code : Int)
deriving DecidableEq, Repr

/-- `classify_exit` (protocol.rs:250). -/
def classifyExit (code : Int) : Disposition :=
  if code = EXIT_SUCCESS then .success
  else if code = EXIT_PREFLIGHT_FAILED then .preflightFailed
  else if code = EXIT_INJECT_FAILED then .injectFailed
  else if code = EXIT_CLEANUP_FAILED then .recoveryFailed
  else .unexpected code

/-- Only exit 20 is an inject failure with the host unaffected. -/
theorem classifyExit_injectFailed (code : Int) : classifyExit code = .injectFailed ↔ code = 20 := by
  unfold classifyExit EXIT_SUCCESS EXIT_PREFLIGHT_FAILED EXIT_INJECT_FAILED EXIT_CLEANUP_FAILED
  repeat' split
  all_goals simp
  all_goals omega

end FaultForge
