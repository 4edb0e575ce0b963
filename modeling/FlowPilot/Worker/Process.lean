import FlowPilot.Worker.Nodes

/-!
# Handling a delivery

`handleDelivery` with everything below it: processing a command from the
first read of its execution to the completion transaction, and the three
ways a failure is handled - a retry copy, a failed execution and a dead
letter, or giving the delivery back.
-/

namespace FlowPilot

/-! ## Processing a command -/

def findWorkflowExecutionForProcessing (executionId : String) :
    Worker (Option WorkflowExecution) :=
  db (.findExecution executionId)

/-- The transaction that starts an execution. -/
def startTransition (m : WorkflowExecutionRequestedMessage) (eventId : String)
    (effectiveStartedAt : Int) : StatusTransition where
  id := m.executionId
  fromStatuses := [.pending]
  data := .running effectiveStartedAt
  routingKey := .workflowExecutionStarted
  message := createWorkflowExecutionStartedMessage m eventId (toISOString effectiveStartedAt)

/-- The transaction that completes an execution. -/
def completeTransition (m : WorkflowExecutionRequestedMessage) (executionId eventId : String)
    (output : Record) (effectiveStartedAt completedAt : Int) : StatusTransition where
  id := executionId
  fromStatuses := [.running]
  data := .succeeded output completedAt
  routingKey := .workflowExecutionCompleted
  message := createWorkflowExecutionCompletedMessage m eventId output effectiveStartedAt completedAt

/-- The transaction that fails an execution. -/
def failTransition (m : WorkflowExecutionRequestedMessage) (eventId : String)
    (failureRecord : FlowPilotExecutionError) (failedAt : Int) : StatusTransition where
  id := m.executionId
  fromStatuses := [.pending, .running]
  data := .failed failureRecord failedAt
  routingKey := .workflowExecutionFailed
  message := createWorkflowExecutionFailedMessage m eventId failureRecord failedAt

/-- From the first read to the call of `executeWorkflowNodes`: the execution
to run, or `none` where the source returns early. -/
def enterRunning (m : WorkflowExecutionRequestedMessage) (existingExecution : WorkflowExecution)
    (effectiveStartedAt : Int) : Worker (Option WorkflowExecution) :=
  if existingExecution.status = .pending then do
    let eventId ← randomUUID
    let transition : TransitionResult ←
      db (.transaction (startTransition m eventId effectiveStartedAt))
    if transition.count = 0 then do
      let currentExecution? ← findWorkflowExecutionForProcessing m.executionId
      match currentExecution? with
      | none => do
          dispatchPendingWorkflowExecutionOutboxMessages m.executionId
          pure none
      | some currentExecution =>
          if isTerminalExecutionStatus currentExecution.status then do
            dispatchPendingWorkflowExecutionOutboxMessages m.executionId
            pure none
          else pure (some currentExecution)
    else
      match transition.outboxMessage with
      | none => throw (.workflowExecutionWorkerError "workflow_execution_started_outbox_missing"
          "Workflow execution started outbox message was not created" true none)
      | some outboxMessage => do
          dispatchOutboxEvent outboxMessage
          pure (some { existingExecution with
            status := .running, startedAt := some effectiveStartedAt })
  else do
    let eventId ← randomUUID
    let startedOutboxMessage ← persistOutboxEvent .workflowExecutionStarted
      (createWorkflowExecutionStartedMessage m eventId (toISOString effectiveStartedAt))
    dispatchOutboxEvent startedOutboxMessage
    pure (some existingExecution)

/-- The completion transaction and what follows it. -/
def completeWorkflowExecution (m : WorkflowExecutionRequestedMessage)
    (execution : WorkflowExecution) (output : Record) (effectiveStartedAt : Int) :
    Worker Unit := do
  let completedAt ← newDate
  let eventId ← randomUUID
  let completion : TransitionResult ← db (.transaction
    (completeTransition m execution.id eventId output effectiveStartedAt completedAt))
  if completion.count = 0 then do
    let conflict : Worker Unit :=
      throw (.workflowExecutionWorkerError "workflow_execution_completion_conflict"
        "Workflow execution could not be completed from RUNNING state" true none)
    let currentExecution? ← findWorkflowExecutionForProcessing execution.id
    match currentExecution? with
    | some currentExecution =>
        if isTerminalExecutionStatus currentExecution.status then
          dispatchPendingWorkflowExecutionOutboxMessages execution.id
        else conflict
    | none => conflict
  else
    match completion.outboxMessage with
    | none => throw (.workflowExecutionWorkerError "workflow_execution_completed_outbox_missing"
        "Workflow execution completed outbox message was not created" true none)
    | some outboxMessage => dispatchOutboxEvent outboxMessage

def processWorkflowExecution [Runtime] (m : WorkflowExecutionRequestedMessage) : Worker Unit := do
  let startedAt ← newDate
  let existingExecution? ← findWorkflowExecutionForProcessing m.executionId
  match existingExecution? with
  | none => throw (.workflowExecutionWorkerError "workflow_execution_not_found"
      "Workflow execution was not found" false none)
  | some existingExecution =>
      if isTerminalExecutionStatus existingExecution.status then
        dispatchPendingWorkflowExecutionOutboxMessages existingExecution.id
      else do
        let effectiveStartedAt := existingExecution.startedAt.getD startedAt
        let execution? ← enterRunning m existingExecution effectiveStartedAt
        match execution? with
        | none => pure ()
        | some execution => do
            let output ← executeWorkflowNodes m execution
            completeWorkflowExecution m execution output effectiveStartedAt

/-! ## Failing an execution -/

def failWorkflowExecution (m : WorkflowExecutionRequestedMessage)
    (failure : FlowPilotExecutionError) : Worker Unit := do
  let failedAt ← newDate
  let failureRecord : FlowPilotExecutionError := ⟨failure.code, failure.message, failure.retryable⟩
  let eventId ← randomUUID
  let update : TransitionResult ←
    db (.transaction (failTransition m eventId failureRecord failedAt))
  if update.count = 0 then do
    let conflict : Worker Unit :=
      throw (.workflowExecutionWorkerError "workflow_execution_failure_conflict"
        "Workflow execution could not be failed from PENDING or RUNNING state" true none)
    let execution? ← findWorkflowExecutionForProcessing m.executionId
    match execution? with
    | some execution =>
        if isTerminalExecutionStatus execution.status then
          dispatchPendingWorkflowExecutionOutboxMessages execution.id
        else conflict
    | none => conflict
  else
    match update.outboxMessage with
    | none => throw (.workflowExecutionWorkerError "workflow_execution_failed_outbox_missing"
        "Workflow execution failed outbox message was not created" true none)
    | some outboxMessage => dispatchOutboxEvent outboxMessage

/-! ## Retry and dead letter -/

structure RetryQueue where
  queue : String
  routingKey : String
  ttlMs : Nat

/-- `retryQueueConfig`. -/
def retryQueueConfig : List RetryQueue :=
  [⟨"flowpilot.retry.execution-worker.workflow-executions.10s",
      "workflow.execution.requested.retry.10s", 10000⟩,
    ⟨"flowpilot.retry.execution-worker.workflow-executions.1m",
      "workflow.execution.requested.retry.1m", 60000⟩,
    ⟨"flowpilot.retry.execution-worker.workflow-executions.5m",
      "workflow.execution.requested.retry.5m", 300000⟩]

/-- The headers both command publications start with. Producer and schema
version are those the guard of the parser compares with. -/
def commandHeaders (m : WorkflowExecutionRequestedMessage) (retryAttempt : Nat) : Record :=
  [("correlationId", .str m.correlationId), ("producer", .str producerApi),
    ("schemaVersion", .num messageSchemaVersion), ("workspaceId", .str m.workspaceId),
    (retryAttemptHeader, .num retryAttempt)]

/-- The publication of a command by the worker. The content is the value that
`JSON.stringify` writes, which is read back from the text
(`ReadFrom.readBack_iff`). -/
def commandPublication [Runtime] (m : WorkflowExecutionRequestedMessage)
    (exchange : FlowPilotExchange) (routingKey : String) (headers : Record) : Publication where
  exchange
  routingKey
  content := .json m.value
  contentType := some "application/json"
  deliveryMode := 2
  messageId := some m.eventId
  timestamp := (Runtime.dateParse m.occurredAt).map (· / 1000)
  type := some FlowPilotRoutingKey.workflowExecutionRequested.literal
  headers

def retryPublication [Runtime] (m : WorkflowExecutionRequestedMessage) (retryConfig : RetryQueue)
    (retryAttempt : Nat) : Publication :=
  commandPublication m .retry retryConfig.routingKey (commandHeaders m retryAttempt)

/-- Attempts count from 1; there is no queue for attempt 0. -/
def retryQueueFor (retryAttempt : Nat) : Option RetryQueue :=
  match retryAttempt with
  | 0 => none
  | n + 1 => retryQueueConfig[n]?

def publishRetryCommand [Runtime] (m : WorkflowExecutionRequestedMessage) (retryAttempt : Nat) :
    Worker Unit :=
  match retryQueueFor retryAttempt with
  | none => throw (.workflowExecutionWorkerError "workflow_execution_retry_policy_missing"
      ("No retry queue configured for attempt " ++ toString retryAttempt) false none)
  | some retryConfig => do
      let _ ← publish (retryPublication m retryConfig retryAttempt)
      pure ()

def deadLetterPublication [Runtime] (m : WorkflowExecutionRequestedMessage)
    (failure : FlowPilotExecutionError) (retryAttempt : Nat) : Publication :=
  commandPublication m .dlx FlowPilotRoutingKey.workflowExecutionRequested.literal
    (commandHeaders m retryAttempt
      ++ [("x-flowpilot-dead-letter-code", .str failure.code),
        ("x-flowpilot-dead-letter-reason", .str failure.message)])

def publishCommandDeadLetter [Runtime] (m : WorkflowExecutionRequestedMessage)
    (failure : FlowPilotExecutionError) (retryAttempt : Nat) : Worker Unit := do
  let _ ← publish (deadLetterPublication m failure retryAttempt)
  pure ()

def rawDeadLetterPublication (message : ConsumeMessage) (reason : String) (now : Int) :
    Publication where
  exchange := .dlx
  routingKey := message.routingKey
  content := message.content
  contentType := message.properties.contentType
  deliveryMode := 2
  messageId := message.properties.messageId
  timestamp := some (now / 1000)
  type := message.properties.type
  headers := JsMap.setEntries "x-flowpilot-dead-letter-reason" (.str reason)
    (message.properties.headers.getD [])

def publishRawDeadLetter (message : ConsumeMessage) (reason : String) : Worker Unit := do
  let now ← newDate
  let _ ← publish (rawDeadLetterPublication message reason now)
  pure ()

/-! ## The handler -/

/-- The `try` block: process the command and acknowledge it. -/
def processAndAck [Runtime] (message : ConsumeMessage) (m : WorkflowExecutionRequestedMessage) :
    Worker Unit := do
  processWorkflowExecution m
  ack message

/-- The inner `try` of the handler: fail the execution, dead-letter the
command, acknowledge; whatever throws on the way, give the delivery back. -/
def failAndDeadLetter [Runtime] (message : ConsumeMessage)
    (m : WorkflowExecutionRequestedMessage) (failure : WorkerFailure)
    (currentRetryAttempt : Nat) : Worker Unit :=
  Prog.tryCatch
    (do
      failWorkflowExecution m failure.toFlowPilotExecutionError
      publishCommandDeadLetter m failure.toFlowPilotExecutionError currentRetryAttempt
      ack message)
    fun _ => nack message false true

/-- The `catch` block of the handler. -/
def handleFailure [Runtime] (message : ConsumeMessage) (m : WorkflowExecutionRequestedMessage)
    (error : JsError) : Worker Unit :=
  let failure := normalizeWorkerFailure error
  let currentRetryAttempt := getWorkflowExecutionRetryAttempt message
  if failure.retryable ∧ currentRetryAttempt < maxRetryAttempts then do
    publishRetryCommand m (currentRetryAttempt + 1)
    ack message
  else failAndDeadLetter message m failure currentRetryAttempt

def handleDelivery [Runtime] (message : ConsumeMessage) : Worker Unit :=
  match parseWorkflowExecutionRequestedMessage message with
  | none => do
      publishRawDeadLetter message "invalid_payload"
      ack message
  | some m => (processAndAck message m).tryCatch (handleFailure message m)

end FlowPilot
