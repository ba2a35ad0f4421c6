import AgentRuntime.JsonPointers
import AgentRuntime.QuarantineFreeze
import AgentRuntime.GateIntegrity
import AgentRuntime.ApplyEvidence
import AgentRuntime.BudgetAccounting
import AgentRuntime.ContinuationDispatcher
import AgentRuntime.FencedDelivery
import AgentRuntime.HostedReceipts
import AgentRuntime.PhysicalDispatch
import AgentRuntime.PortableCompaction
import AgentRuntime.LeaseSafety
import AgentRuntime.PublicRunFeed
import AgentRuntime.WorkflowIntents
import AgentRuntime.WorkflowSaga
import AgentRuntime.DefinitionScopes
import AgentRuntime.LedgerScopes
import AgentRuntime.RedisJobs
import AgentRuntime.SubworkflowRetries
import AgentRuntime.WorkerGates
import AgentRuntime.RunLeases
import AgentRuntime.ToolTimeline
import AgentRuntime.MiddlewareChains
import AgentRuntime.WorkflowEncoding
