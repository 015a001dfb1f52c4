import FaultForge.Lib.Lts
import FaultForge.Lib.Text
import FaultForge.Fault.Protocol
import FaultForge.Fault.Params
import FaultForge.Proto
import FaultForge.Agent.Machine
import FaultForge.Agent.Transitions
import FaultForge.Agent.MachineRun
import FaultForge.Agent.Runtime
import FaultForge.Agent.Instance
import FaultForge.Agent.TaskShape
import FaultForge.Agent.CrashSafe
import FaultForge.Agent.Replay
import FaultForge.Agent.Supervisor
import FaultForge.Agent.Once
import FaultForge.Agent.OutChannel
import FaultForge.Agent.Session
import FaultForge.Agent.Silence
import FaultForge.Master.Experiment
import FaultForge.Master.Record
import FaultForge.Master.Sessions
import FaultForge.Master.Accepted
import FaultForge.Lib.Tasks
import FaultForge.Master.Dispatch
import FaultForge.Master.DispatchSteps
import FaultForge.Master.Ledger
import FaultForge.Master.Once
import FaultForge.Master.Aborts
import FaultForge.Master.Salvo
import FaultForge.Master.Routing
import FaultForge.System.RegisterAck
import FaultForge.Master.Halt
import FaultForge.Master.Blame
import FaultForge.Agent.Announce
import FaultForge.Agent.Custody
import FaultForge.Agent.Quarantine
import FaultForge.System.TaintAgreement
import FaultForge.Agent.Journal
import FaultForge.Master.TaintGap
import FaultForge.Agent.Telling
import FaultForge.Lib.Replica
import FaultForge.Master.Heard
import FaultForge.System.Reconcile
import FaultForge.Agent.Catalog
import FaultForge.Master.Catalog
import FaultForge.System.Acceptance
import FaultForge.Agent.Heeded
import FaultForge.Master.Deadline
import FaultForge.Agent.AnyEvents
import FaultForge.Agent.Verdict
import FaultForge.Master.Newest
import FaultForge.Master.Final
import FaultForge.Master.Interleave
import FaultForge.Master.Shield
import FaultForge.Lib.Files
import FaultForge.Plugin.NoopMarker
import FaultForge.Plugin.Restores
import FaultForge.Agent.TwoTrack
import FaultForge.Agent.Deadman
import FaultForge.System.TwoTrack
import FaultForge.Agent.Dominates
import FaultForge.Agent.StatusTrack
import FaultForge.Agent.ReplayCourse
import FaultForge.Agent.ReplayClock
import FaultForge.Agent.History
import FaultForge.Agent.Allowance
import FaultForge.Master.Rejection
import FaultForge.Master.Admission
import FaultForge.System.InstanceIds
import FaultForge.Lib.I64
import FaultForge.System.Deadlines
import FaultForge.Agent.WaitForStop
import FaultForge.Plugin.Contract
import FaultForge.Agent.JournalStore
import FaultForge.Cli.Script
import FaultForge.System.HostAccounted
import FaultForge.System.MarkerHost
import FaultForge.Agent.Earned
import FaultForge.Agent.Instances
import FaultForge.Master.Provenance
import FaultForge.System.Account
import FaultForge.Fault.Json
import FaultForge.Master.Management
import FaultForge.Cli.Wire
import FaultForge.Master.Requests
import FaultForge.Master.Waited
import FaultForge.System.Desk
import FaultForge.System.Gate
import FaultForge.System.HaltCall
import FaultForge.Lib.Pipe
import FaultForge.Agent.Runner
import FaultForge.Agent.RunnerTime
import FaultForge.Agent.TaintStore
import FaultForge.Cli.Tui
