import FlowPilot.Worker.Order
import FlowPilot.Worker.Outbox

/-!
# Running the nodes of an execution

`executeWorkflowNodes` and the functions it calls: the data flow between the
nodes, the rows and events each node leaves, and what happens when a node
or one of these writes fails.
-/

namespace FlowPilot

/-! ## Before the first node -/

/-- `failureSimulationInputKey`. -/
def failureSimulationInputKey : String := "__flowpilotSimulateFailure"

/-- The failure the input asks for; only with failure simulation on. -/
def simulatedWorkflowFailure [Runtime] (input : Record) : Option JsError :=
  if Runtime.failureSimulation then
    if input.lookup failureSimulationInputKey = some (.str "retryable") then
      some (.workflowExecutionWorkerError "workflow_execution_simulated_retryable_failure"
        "Simulated retryable workflow execution failure" true none)
    else if input.lookup failureSimulationInputKey = some (.str "non_retryable") then
      some (.workflowExecutionWorkerError "workflow_execution_simulated_non_retryable_failure"
        "Simulated non-retryable workflow execution failure" false none)
    else none
  else none

def assertNoSimulatedWorkflowFailure [Runtime] (m : WorkflowExecutionRequestedMessage) :
    Except JsError Unit :=
  match simulatedWorkflowFailure m.input with
  | some error => .error error
  | none => .ok ()

/-- The `cause` of the error, the validation library's own, is left out. -/
def parseWorkflowDefinition [Runtime] (value : Json) : Except JsError WorkflowDefinition :=
  match workflowDefinitionSchema (some value) with
  | .ok definition => .ok definition
  | .issues _ => .error (.workflowExecutionWorkerError "workflow_definition_invalid"
      "Workflow definition is invalid for execution" false none)

theorem parseWorkflowDefinition_eq_ok [Runtime] {value : Json} {definition : WorkflowDefinition} :
    parseWorkflowDefinition value = .ok definition
      ↔ workflowDefinitionSchema (some value) = .ok definition := by
  unfold parseWorkflowDefinition
  cases workflowDefinitionSchema (some value) with
  | ok _ => simp
  | issues _ => simp

/-! ## The data flow -/

/-- The edges to `node`, in the order of the array. -/
def incomingEdges (definition : WorkflowDefinition) (node : WorkflowNode) : List WorkflowEdge :=
  definition.edges.filter (·.targetNodeId = node.id)

def getNodeInput (node : WorkflowNode) (definition : WorkflowDefinition)
    (nodeOutputs : JsMap Record) (fallbackInput : Record) : Record :=
  match incomingEdges definition node with
  | [] => fallbackInput
  | [edge] => (nodeOutputs.get? edge.sourceNodeId).getD fallbackInput
  | edges => Record.fromEntries (edges.map fun edge =>
      (edge.sourceNodeId, .obj ((nodeOutputs.get? edge.sourceNodeId).getD [])))

/-! ## Rows and events of a node -/

def upsertRunningNodeExecution (m : WorkflowExecutionRequestedMessage) (node : WorkflowNode)
    (input : Record) (startedAt : Int) : Worker WorkflowNodeExecution :=
  db (.upsertRunningNode m node input startedAt)

def completeNodeExecution (nodeExecutionId : String) (output : Record) (completedAt : Int) :
    Worker Unit :=
  db (.updateNode nodeExecutionId (.succeeded output completedAt))

def failNodeExecution (nodeExecutionId : String) (failure : WorkerFailure) (completedAt : Int) :
    Worker Unit :=
  db (.updateNode nodeExecutionId (.failed failure completedAt))

def publishNodeStartedEvent (m : WorkflowExecutionRequestedMessage) (node : WorkflowNode)
    (nodeExecutionId : String) (input : Record) (startedAt : Int) : Worker Unit := do
  let eventId ← randomUUID
  let outboxMessage ← persistOutboxEvent .nodeExecutionStarted
    (createNodeExecutionStartedMessage m eventId node nodeExecutionId input startedAt)
  dispatchOutboxEvent outboxMessage

def publishNodeCompletedEvent (m : WorkflowExecutionRequestedMessage) (node : WorkflowNode)
    (nodeExecutionId : String) (output : Record) (startedAt completedAt : Int) :
    Worker Unit := do
  let eventId ← randomUUID
  let outboxMessage ← persistOutboxEvent .nodeExecutionCompleted
    (createNodeExecutionCompletedMessage m eventId node nodeExecutionId output startedAt
      completedAt)
  dispatchOutboxEvent outboxMessage

def publishNodeFailedEvent (m : WorkflowExecutionRequestedMessage) (node : WorkflowNode)
    (nodeExecutionId : String) (failure : WorkerFailure) (failedAt : Int) : Worker Unit := do
  let eventId ← randomUUID
  let outboxMessage ← persistOutboxEvent .nodeExecutionFailed
    (createNodeExecutionFailedMessage m eventId node nodeExecutionId failure failedAt)
  dispatchOutboxEvent outboxMessage

def publishAiTraceCreatedEvent (m : WorkflowExecutionRequestedMessage) (trace : WorkflowAiTrace) :
    Worker Unit := do
  let eventId ← randomUUID
  let outboxMessage ← persistOutboxEvent .aiTraceCreated
    (createAiTraceCreatedMessage m eventId trace)
  dispatchOutboxEvent outboxMessage

/-- Store a trace and publish it; a failure is logged and swallowed. -/
def recordAiTrace (m : WorkflowExecutionRequestedMessage) (data : WorkflowAiTraceCreateData) :
    Worker Unit :=
  Prog.tryCatch
    (do
      let trace : WorkflowAiTrace ← db (.createAiTrace data)
      publishAiTraceCreatedEvent m
        { toWorkflowAiTraceCreateData := data, id := trace.id, createdAt := trace.createdAt })
    fun _ => pure ()

def recordAiTraceForSuccessfulNode [Runtime] (m : WorkflowExecutionRequestedMessage)
    (node : WorkflowNode) (nodeExecutionId : String) (input output : Record)
    (startedAt completedAt : Int) : Worker Unit :=
  match node.config with
  | .aiPromptAction config =>
      recordAiTrace m
        (successfulTraceData m node config nodeExecutionId input output startedAt completedAt)
  | _ => pure ()

def recordAiTraceForFailedNode [Runtime] (m : WorkflowExecutionRequestedMessage)
    (node : WorkflowNode) (nodeExecutionId : String) (input : Record) (failure : WorkerFailure)
    (startedAt failedAt : Int) : Worker Unit :=
  match node.config with
  | .aiPromptAction config =>
      recordAiTrace m
        (failedTraceData m node config nodeExecutionId input failure startedAt failedAt)
  | _ => pure ()

/-! ## The nodes -/

/-- The executor of manual triggers. -/
def executeManualTriggerNode (context : WorkflowNodeExecutionContext) : Record := context.input

def executeNode (node : WorkflowNode) (context : WorkflowNodeExecutionContext) : Worker Record :=
  call (.executeWorkflowNode node context)

section

variable [Runtime] (m : WorkflowExecutionRequestedMessage) (node : WorkflowNode)
  (nodeExecutionId : String) (input : Record) (startedAt : Int)

/-- The `try` block of an iteration, up to the output it hands on. -/
def nodeSuccessPath : Worker Record := do
  let output ← executeNode node ⟨input, m, nodeExecutionId⟩
  let completedAt ← newDate
  completeNodeExecution nodeExecutionId output completedAt
  recordAiTraceForSuccessfulNode m node nodeExecutionId input output startedAt completedAt
  publishNodeCompletedEvent m node nodeExecutionId output startedAt completedAt
  pure output

/-- The `catch` block of an iteration. -/
def nodeFailurePath (error : JsError) : Worker Record := do
  let failure := normalizeWorkerFailure error
  let failedAt ← newDate
  failNodeExecution nodeExecutionId failure failedAt
  recordAiTraceForFailedNode m node nodeExecutionId input failure startedAt failedAt
  publishNodeFailedEvent m node nodeExecutionId failure failedAt
  throw error

/-- One iteration of the loop: the output of the node, or what it threw. -/
def runNode : Worker Record := do
  let startedAt ← newDate
  let nodeExecution : WorkflowNodeExecution ← upsertRunningNodeExecution m node input startedAt
  publishNodeStartedEvent m node nodeExecution.id input startedAt
  (nodeSuccessPath m node nodeExecution.id input startedAt).tryCatch
    (nodeFailurePath m node nodeExecution.id input startedAt)

end

/-- The loop over the ordered nodes; the result is the last `currentInput`. -/
def executeNodes [Runtime] (m : WorkflowExecutionRequestedMessage)
    (definition : WorkflowDefinition) :
    List WorkflowNode → JsMap Record → Record → Worker Record
  | [], _, currentInput => pure currentInput
  | node :: nodes, nodeOutputs, currentInput => do
      let output ← runNode m node (getNodeInput node definition nodeOutputs currentInput)
      executeNodes m definition nodes (nodeOutputs.set node.id output) output

/-- What `executeWorkflowNodes` returns. -/
def executionOutput (nodeCount : Nat) (finalOutput : Record) : Record :=
  [("status", .str "ok"), ("nodeCount", .num nodeCount), ("finalOutput", .obj finalOutput),
    ("processedBy", .str producerExecutionWorker)]

def executeWorkflowNodes [Runtime] (m : WorkflowExecutionRequestedMessage)
    (execution : WorkflowExecution) : Worker Record := do
  ofExcept (assertNoSimulatedWorkflowFailure m)
  let definition ← ofExcept (parseWorkflowDefinition execution.workflowVersion.definition)
  let orderedNodes ← ofExcept (orderWorkflowNodes definition)
  let finalOutput ← executeNodes m definition orderedNodes .empty m.input
  pure (executionOutput orderedNodes.length finalOutput)

end FlowPilot
