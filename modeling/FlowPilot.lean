import FlowPilot.AiOrchestrator.ConfigurationFailures
import FlowPilot.AiOrchestrator.ResponseParsing
import FlowPilot.Api.Atomicity
import FlowPilot.Api.MemberFrame
import FlowPilot.Api.MemberPolicy
import FlowPilot.Api.Registration
import FlowPilot.Api.StoredDefinitions
import FlowPilot.Api.TenantIsolation
import FlowPilot.Api.WorkflowReads
import FlowPilot.Api.WorkspaceOwner
import FlowPilot.System.AiCalls
import FlowPilot.System.BrokerRefinement
import FlowPilot.System.DeadLetters
import FlowPilot.System.Durations
import FlowPilot.System.EventContent
import FlowPilot.System.EventKeys
import FlowPilot.System.FailureHandling
import FlowPilot.System.NodeAgreement
import FlowPilot.System.NodeOutcome
import FlowPilot.System.OutboxDrain
import FlowPilot.System.Retries
import FlowPilot.System.RetryDiagnostics
import FlowPilot.System.RetryTransparency
import FlowPilot.System.RunningNodes
import FlowPilot.System.StateMachine
import FlowPilot.System.TenantConsistency
import FlowPilot.System.Timeline
import FlowPilot.Web.EdgeDrafts
import FlowPilot.Web.NodeLevels
import FlowPilot.Worker.ConditionAction
import FlowPilot.Worker.Semantics
import FlowPilot.WorkflowService.Routing
import FlowPilot.WorkflowService.Wire
