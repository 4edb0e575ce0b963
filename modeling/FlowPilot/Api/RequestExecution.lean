import FlowPilot.Worker.Process

/-!
# Requesting an execution

The command that `requestExecution` of the API publishes for an execution it
has created. It is one the worker's parser accepts.
-/

namespace FlowPilot

/-- `createWorkflowExecutionRequestedMessage` of the API. -/
def createWorkflowExecutionRequestedMessage (execution : WorkflowExecution)
    (eventId occurredAt actorUserId : String) : Json :=
  .obj [("eventName", .str FlowPilotRoutingKey.workflowExecutionRequested.literal),
    ("eventId", .str eventId), ("schemaVersion", .num messageSchemaVersion),
    ("occurredAt", .str occurredAt), ("workspaceId", .str execution.workspaceId),
    ("correlationId", .str ("workflow-execution:" ++ execution.id)),
    ("producer", .str producerApi),
    ("actor", .obj [("type", .str "user"), ("id", .str actorUserId)]),
    ("idempotencyKey", .str ("workflow.execution.requested:" ++ execution.id)),
    ("payload", .obj [("workflowId", .str execution.workflowId),
      ("workflowVersion", .num execution.workflowVersion.version),
      ("executionId", .str execution.id),
      ("requestedBy", .obj [("type", .str "user"), ("id", .str actorUserId)]),
      ("input", .obj execution.input)])]

theorem createWorkflowExecutionRequestedMessage_accepted (execution : WorkflowExecution)
    (eventId occurredAt actorUserId : String) :
    isWorkflowExecutionRequestedMessage (createWorkflowExecutionRequestedMessage execution eventId
      occurredAt actorUserId) = true := by
  rfl

/-- The command the API publishes for an execution. -/
def requestCommand (execution : WorkflowExecution) (eventId occurredAt actorUserId : String) :
    WorkflowExecutionRequestedMessage :=
  ⟨_, createWorkflowExecutionRequestedMessage_accepted execution eventId occurredAt actorUserId⟩

/-- Its publication by `publishEvent`. -/
def requestPublication [Runtime] (m : WorkflowExecutionRequestedMessage) : Publication :=
  commandPublication m .commands FlowPilotRoutingKey.workflowExecutionRequested.literal
    [("correlationId", .str m.correlationId), ("producer", .str producerApi),
      ("schemaVersion", .num messageSchemaVersion), ("workspaceId", .str m.workspaceId)]

/-! ## A new execution -/

/-- A new row for a definition. -/
def newRow (definition : Json) : WorkflowExecutionRow where
  workspaceId := "workspace"
  workflowId := "workflow"
  workflowVersion := ⟨1, definition⟩
  status := .pending
  input := []
  output := none
  error := none
  startedAt := none
  completedAt := none

/-- Its execution, and the command that asks for it. -/
def newExecution (definition : Json) : WorkflowExecution :=
  { toWorkflowExecutionRow := newRow definition, id := "execution" }

def newCommand (definition : Json) : WorkflowExecutionRequestedMessage :=
  requestCommand (newExecution definition) "command" "1970-01-01T00:00:00.000Z" "user"

def newMessage [Runtime] (definition : Json) : ConsumeMessage :=
  (requestPublication (newCommand definition)).toMessage

theorem newMessage_parses [Runtime] (definition : Json) :
    parseWorkflowExecutionRequestedMessage (newMessage definition) = some (newCommand definition) :=
  parse_of_content rfl

end FlowPilot
