import AgentHub.Storage.LeaseFencing
import AgentHub.Storage.Runs.Progress
import AgentHub.Storage.Runs.MergeGate
import AgentHub.Workflow.ExecutableValidator
import AgentHub.Storage.Runs.Attempts
import AgentHub.Storage.Runs.Cancellation
import AgentHub.Storage.Idempotency
import AgentHub.Storage.EventReplay
import AgentHub.Storage.Approvals.Subjects
import AgentHub.Storage.Approvals.PrivilegeGate
import AgentHub.Storage.Approvals.SingleUse
import AgentHub.Storage.Runs.CancelCleanup
import AgentHub.Adapters.Cli.Output
import AgentHub.Storage.ChangeSetLifecycle
import AgentHub.Storage.ChangeSetAudit
import AgentHub.Storage.StateAudit
import AgentHub.Storage.Artifacts.Agreement
import AgentHub.Workspace.Restoration
import AgentHub.Security.PathPolicy
import AgentHub.Security.CommandSoundness
import AgentHub.Security.RiskClassifier
import AgentHub.Lib.Json
import AgentHub.Workflow.CapabilityPolicy
import AgentHub.Security.GateAgreement
import AgentHub.Security.PatchSoundness
import AgentHub.Workflow.CompiledIds
import AgentHub.Workspace.Manifest
import AgentHub.Storage.Captures.ReadBack
import AgentHub.Workflow.Handlers.MergeOutcome
import AgentHub.Adapters.Cli.Emission
import AgentHub.Workflow.Handlers.TestChain
import AgentHub.Context.Materialize
import AgentHub.Context.Cleanup
import AgentHub.Context.Trimming
import AgentHub.Workflow.GraphSearch
import AgentHub.Web.Boundary
import AgentHub.Workflow.IfConditions
import AgentHub.Workflow.OrderFree
import AgentHub.Workflow.IfUpstream
import AgentHub.Workspace.HoldProtocol
import AgentHub.Storage.Planning.Lineage
