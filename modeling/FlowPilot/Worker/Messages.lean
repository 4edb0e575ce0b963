import FlowPilot.Contracts.WorkflowNodes
import FlowPilot.Date
import FlowPilot.Lib.JsNumber
import FlowPilot.Worker.Errors

/-!
# Messages

What travels over the broker: the command the API publishes, as far as the
worker's parser looks into it, and the lifecycle messages the worker builds.

An accepted command is a `WorkflowExecutionRequestedMessage`, a JSON value
together with the fact that the parser's guard holds for it. A lifecycle
message is built by the constructors only, one per event name.
-/

namespace FlowPilot

/-! ## Names -/

/-- `FLOWPILOT_EXCHANGES`. -/
inductive FlowPilotExchange where
  | commands
  | events
  | retry
  | dlx
deriving DecidableEq, Repr

/-- `FLOWPILOT_ROUTING_KEYS`. -/
inductive FlowPilotRoutingKey where
  | workflowCreated
  | workflowExecutionRequested
  | workflowExecutionStarted
  | nodeExecutionStarted
  | nodeExecutionCompleted
  | nodeExecutionFailed
  | workflowExecutionCompleted
  | workflowExecutionFailed
  | aiTraceCreated
deriving DecidableEq, Repr

def FlowPilotRoutingKey.literal : FlowPilotRoutingKey → String
  | .workflowCreated => "workflow.created"
  | .workflowExecutionRequested => "workflow.execution.requested"
  | .workflowExecutionStarted => "workflow.execution.started"
  | .nodeExecutionStarted => "workflow.node.execution.started"
  | .nodeExecutionCompleted => "workflow.node.execution.completed"
  | .nodeExecutionFailed => "workflow.node.execution.failed"
  | .workflowExecutionCompleted => "workflow.execution.completed"
  | .workflowExecutionFailed => "workflow.execution.failed"
  | .aiTraceCreated => "ai.trace.created"

theorem FlowPilotRoutingKey.literal_inj {name name' : FlowPilotRoutingKey} :
    name.literal = name'.literal ↔ name = name' := by
  cases name <;> cases name' <;> decide

/-- `FLOWPILOT_MAX_RETRY_ATTEMPTS`. -/
def maxRetryAttempts : Nat := 3

/-- `FLOWPILOT_MESSAGE_SCHEMA_VERSION`. -/
def messageSchemaVersion : Nat := 1

/-- `FLOWPILOT_MESSAGE_PRODUCERS.api`. -/
def producerApi : String := "api"

/-- `FLOWPILOT_MESSAGE_PRODUCERS.executionWorker`. -/
def producerExecutionWorker : String := "execution-worker"

/-- `retryAttemptHeader`. -/
def retryAttemptHeader : String := "x-flowpilot-retry-attempt"

/-! ## Messages on a queue -/

/-- The content of a message: what `JSON.parse` makes of its text, whose
numbers are finite, or a text it refuses. -/
inductive Buffer where
  | json (value : Json)
  | notJson (text : String)
deriving DecidableEq

/-- `message.properties`, as far as it is read. -/
structure MessageProperties where
  contentType : Option String
  messageId : Option String
  type : Option String
  headers : Option Record
deriving DecidableEq

structure ConsumeMessage where
  content : Buffer
  routingKey : String
  properties : MessageProperties
deriving DecidableEq

/-- The arguments of `channel.publish`. -/
structure Publication where
  exchange : FlowPilotExchange
  routingKey : String
  content : Buffer
  contentType : Option String
  deliveryMode : Nat
  messageId : Option String
  timestamp : Option Int
  type : Option String
  headers : Record
deriving DecidableEq

/-- The message a consumer receives for a publication. -/
def Publication.toMessage (p : Publication) : ConsumeMessage where
  content := p.content
  routingKey := p.routingKey
  properties := ⟨p.contentType, p.messageId, p.type, some p.headers⟩

/-! ## The command -/

/-- `isWorkflowExecutionRequestedMessage`. -/
def isWorkflowExecutionRequestedMessage (value : Json) : Bool :=
  value.isRecord
  && value.get? "eventName" == some (.str FlowPilotRoutingKey.workflowExecutionRequested.literal)
  && Json.isString (value.get? "eventId")
  && value.get? "schemaVersion" == some (.num messageSchemaVersion)
  && Json.isString (value.get? "occurredAt")
  && Json.isString (value.get? "workspaceId")
  && Json.isString (value.get? "correlationId")
  && value.get? "producer" == some (.str producerApi)
  && match value.get? "payload" with
    | some payload =>
        payload.isRecord
        && Json.isString (payload.get? "workflowId")
        && Json.isNumber (payload.get? "workflowVersion")
        && Json.isString (payload.get? "executionId")
        && (match payload.get? "requestedBy" with
          | some requestedBy =>
              requestedBy.isRecord
              && requestedBy.get? "type" == some (.str "user")
              && Json.isString (requestedBy.get? "id")
          | none => false)
        && (match payload.get? "input" with
          | some input => input.isRecord
          | none => false)
    | none => false

/-- A command the worker's parser accepts. -/
structure WorkflowExecutionRequestedMessage where
  value : Json
  accepted : isWorkflowExecutionRequestedMessage value = true
deriving DecidableEq

namespace WorkflowExecutionRequestedMessage

variable (m : WorkflowExecutionRequestedMessage)

def eventId : String := Json.asString (m.value.get? "eventId")
def occurredAt : String := Json.asString (m.value.get? "occurredAt")
def workspaceId : String := Json.asString (m.value.get? "workspaceId")
def correlationId : String := Json.asString (m.value.get? "correlationId")

/-- `message.payload`. -/
def payload : Record := Json.asRecord (m.value.get? "payload")

/-- `message.payload.workflowId`. -/
def workflowId : String := Json.asString (m.payload.lookup "workflowId")

/-- `message.payload.executionId`. -/
def executionId : String := Json.asString (m.payload.lookup "executionId")

/-- `message.payload.input`. -/
def input : Record := Json.asRecord (m.payload.lookup "input")

end WorkflowExecutionRequestedMessage

/-- `parseWorkflowExecutionRequestedMessage`. -/
def parseWorkflowExecutionRequestedMessage (message : ConsumeMessage) :
    Option WorkflowExecutionRequestedMessage :=
  match message.content with
  | .json value =>
      if h : isWorkflowExecutionRequestedMessage value = true then some ⟨value, h⟩ else none
  | .notJson _ => none

/-- What is parsed from a message is its content. -/
theorem content_of_parsed {message : ConsumeMessage} {m : WorkflowExecutionRequestedMessage}
    (h : parseWorkflowExecutionRequestedMessage message = some m) :
    message.content = .json m.value := by
  unfold parseWorkflowExecutionRequestedMessage at h
  split at h
  · rename_i value hcontent
    split at h
    · obtain rfl := Option.some.inj h
      exact hcontent
    · cases h
  · cases h

/-- A message whose content is an accepted command parses to it. -/
theorem parse_of_content {message : ConsumeMessage} {m : WorkflowExecutionRequestedMessage}
    (h : message.content = .json m.value) :
    parseWorkflowExecutionRequestedMessage message = some m := by
  simp [parseWorkflowExecutionRequestedMessage, h, m.accepted]

/-! ## The retry header -/

/-- White space that `Number.parseInt` skips. -/
def isJsSpace (c : Char) : Bool :=
  c.toNat ∈ [9, 10, 11, 12, 13, 32, 160, 5760, 8232, 8233, 8239, 8287, 12288, 65279]
  || (8192 ≤ c.toNat && c.toNat ≤ 8202)

/-- The value of a non-empty run of decimal digits. -/
def decimalValue (digits : List Char) : Nat :=
  digits.foldl (fun n c => 10 * n + (c.toNat - '0'.toNat)) 0

/-- `Number.parseInt(s, 10)`. -/
def parseInt (s : String) : JsNumber :=
  let (negative, rest) := match s.toList.dropWhile isJsSpace with
    | '-' :: cs => (true, cs)
    | '+' :: cs => (false, cs)
    | cs => (false, cs)
  match rest.takeWhile Char.isDigit with
  | [] => .nan
  | digits =>
      let n := JsNumber.nearestDouble (decimalValue digits)
      if negative then n.neg else n

/-- `getWorkflowExecutionRetryAttempt`. -/
def getWorkflowExecutionRetryAttempt (message : ConsumeMessage) : Nat :=
  match message.properties.headers.bind (·.lookup retryAttemptHeader) with
  | some (.num q) => (JsNumber.finite q).natural?.getD 0
  | some (.str s) => (parseInt s).natural?.getD 0
  | _ => 0

/-! ## Failures as JSON -/

/-- The own enumerable properties of a thrown value, which is what
`JSON.stringify` keeps of it. -/
def JsError.toJson : JsError → Json
  | .workflowExecutionWorkerError code _ retryable _ =>
      .obj [("code", .str code), ("retryable", .bool retryable),
        ("name", .str "WorkflowExecutionWorkerError")]
  | .aiOrchestratorClientError code _ retryable statusCode responseBody =>
      .obj ([("code", .str code), ("retryable", .bool retryable)]
        ++ (statusCode.map fun n => ("statusCode", Json.num n)).toList
        ++ (responseBody.map fun body => ("responseBody", body)).toList
        ++ [("name", .str "AiOrchestratorClientError")])
  | .error _ => .obj []

def FlowPilotExecutionError.toJson (e : FlowPilotExecutionError) : Json :=
  .obj [("code", .str e.code), ("message", .str e.message), ("retryable", .bool e.retryable)]

def WorkerFailure.toJson (failure : WorkerFailure) : Json :=
  .obj ([("code", .str failure.code), ("message", .str failure.message),
      ("retryable", .bool failure.retryable)]
    ++ (failure.cause.map fun cause => ("cause", cause.toJson)).toList)

/-! ## Lifecycle messages -/

/-- `AiTraceCreatedPayload`. -/
structure AiTraceCreatedPayload where
  traceId : String
  workflowId : String
  executionId : String
  nodeExecutionId : String
  nodeId : String
  model : String
  provider : String
  latencyMs : Int
  providerLatencyMs : Option Nat
  finishReason : Option String
  inputTokens : Nat
  outputTokens : Nat
  totalTokens : JsNumber
  estimatedCostUsd : Option JsNumber
  succeeded : Bool
  errorCode : Option String
  providerStatusCode : Option Rat
  retryable : Option Bool
deriving DecidableEq

/-- The payload of a lifecycle message, one constructor for each event. -/
inductive LifecyclePayload where
  | started (workflowId executionId : String)
  | completed (workflowId executionId : String) (output : Record) (durationMs : Int)
  | failed (workflowId executionId : String) (error : FlowPilotExecutionError)
  | nodeStarted (workflowId executionId nodeExecutionId nodeId nodeType : String)
      (input : Record)
  | nodeCompleted (workflowId executionId nodeExecutionId nodeId nodeType : String)
      (output : Record) (durationMs : Int)
  | nodeFailed (workflowId executionId nodeExecutionId nodeId nodeType : String)
      (error : WorkerFailure)
  | aiTraceCreated (trace : AiTraceCreatedPayload)

/-- A lifecycle message as the worker's constructors fill it. -/
structure WorkflowLifecycleMessage where
  eventName : FlowPilotRoutingKey
  eventId : String
  schemaVersion : Nat
  occurredAt : String
  workspaceId : String
  correlationId : String
  causationId : String
  producer : String
  actorType : String
  actorId : String
  idempotencyKey : String
  payload : LifecyclePayload

/-- `value ?? null`. -/
def Json.orNull : Option Json → Json
  | some v => v
  | none => .null

/-- A number as `JSON.stringify` writes it. -/
def Json.ofNumber : JsNumber → Json
  | .finite q => .num q
  | _ => .null

def AiTraceCreatedPayload.toJson (t : AiTraceCreatedPayload) : Json :=
  .obj [("traceId", .str t.traceId), ("workflowId", .str t.workflowId),
    ("executionId", .str t.executionId), ("nodeExecutionId", .str t.nodeExecutionId),
    ("nodeId", .str t.nodeId), ("model", .str t.model), ("provider", .str t.provider),
    ("latencyMs", .num t.latencyMs),
    ("providerLatencyMs", Json.orNull (t.providerLatencyMs.map fun n => .num n)),
    ("finishReason", Json.orNull (t.finishReason.map .str)),
    ("tokenUsage", .obj [("inputTokens", .num t.inputTokens),
      ("outputTokens", .num t.outputTokens), ("totalTokens", .ofNumber t.totalTokens)]),
    ("estimatedCostUsd", Json.orNull (t.estimatedCostUsd.map .ofNumber)),
    ("status", .str (if t.succeeded then "SUCCEEDED" else "FAILED")),
    ("errorCode", Json.orNull (t.errorCode.map .str)),
    ("providerStatusCode", Json.orNull (t.providerStatusCode.map .num)),
    ("retryable", Json.orNull (t.retryable.map .bool))]

def LifecyclePayload.toJson : LifecyclePayload → Json
  | .started workflowId executionId =>
      .obj [("workflowId", .str workflowId), ("executionId", .str executionId)]
  | .completed workflowId executionId output durationMs =>
      .obj [("workflowId", .str workflowId), ("executionId", .str executionId),
        ("output", .obj output), ("durationMs", .num durationMs)]
  | .failed workflowId executionId error =>
      .obj [("workflowId", .str workflowId), ("executionId", .str executionId),
        ("error", error.toJson)]
  | .nodeStarted workflowId executionId nodeExecutionId nodeId nodeType input =>
      .obj [("workflowId", .str workflowId), ("executionId", .str executionId),
        ("nodeExecutionId", .str nodeExecutionId), ("nodeId", .str nodeId),
        ("nodeType", .str nodeType), ("input", .obj input)]
  | .nodeCompleted workflowId executionId nodeExecutionId nodeId nodeType output durationMs =>
      .obj [("workflowId", .str workflowId), ("executionId", .str executionId),
        ("nodeExecutionId", .str nodeExecutionId), ("nodeId", .str nodeId),
        ("nodeType", .str nodeType), ("output", .obj output), ("durationMs", .num durationMs)]
  | .nodeFailed workflowId executionId nodeExecutionId nodeId nodeType error =>
      .obj [("workflowId", .str workflowId), ("executionId", .str executionId),
        ("nodeExecutionId", .str nodeExecutionId), ("nodeId", .str nodeId),
        ("nodeType", .str nodeType), ("error", error.toJson)]
  | .aiTraceCreated trace => trace.toJson

def WorkflowLifecycleMessage.toJson (m : WorkflowLifecycleMessage) : Json :=
  .obj [("eventName", .str m.eventName.literal), ("eventId", .str m.eventId),
    ("schemaVersion", .num m.schemaVersion), ("occurredAt", .str m.occurredAt),
    ("workspaceId", .str m.workspaceId), ("correlationId", .str m.correlationId),
    ("causationId", .str m.causationId), ("producer", .str m.producer),
    ("actor", .obj [("type", .str m.actorType), ("id", .str m.actorId)]),
    ("idempotencyKey", .str m.idempotencyKey), ("payload", m.payload.toJson)]

/-- The fields every constructor fills the same way. -/
def createLifecycleMessage (m : WorkflowExecutionRequestedMessage)
    (eventName : FlowPilotRoutingKey) (eventId occurredAt idempotencyKey : String)
    (payload : LifecyclePayload) : WorkflowLifecycleMessage where
  eventName
  eventId
  schemaVersion := messageSchemaVersion
  occurredAt
  workspaceId := m.workspaceId
  correlationId := m.correlationId
  causationId := m.eventId
  producer := producerExecutionWorker
  actorType := "system"
  actorId := producerExecutionWorker
  idempotencyKey
  payload

/-- `` `workflow.execution.started:${executionId}` ``. -/
def startedKey (executionId : String) : String := "workflow.execution.started:" ++ executionId

/-- `` `workflow.execution.completed:${executionId}` ``. -/
def completedKey (executionId : String) : String := "workflow.execution.completed:" ++ executionId

/-- `` `workflow.execution.failed:${executionId}` ``. -/
def failedKey (executionId : String) : String := "workflow.execution.failed:" ++ executionId

section Constructors

variable (m : WorkflowExecutionRequestedMessage) (eventId : String)

def createWorkflowExecutionStartedMessage (occurredAt : String) : WorkflowLifecycleMessage :=
  createLifecycleMessage m .workflowExecutionStarted eventId occurredAt
    (startedKey m.executionId) (.started m.workflowId m.executionId)

def createWorkflowExecutionCompletedMessage (output : Record) (startedAt completedAt : Int) :
    WorkflowLifecycleMessage :=
  createLifecycleMessage m .workflowExecutionCompleted eventId (toISOString completedAt)
    (completedKey m.executionId)
    (.completed m.workflowId m.executionId output (completedAt - startedAt))

def createWorkflowExecutionFailedMessage (error : FlowPilotExecutionError) (occurredAt : Int) :
    WorkflowLifecycleMessage :=
  createLifecycleMessage m .workflowExecutionFailed eventId (toISOString occurredAt)
    (failedKey m.executionId) (.failed m.workflowId m.executionId error)

def createNodeExecutionStartedMessage (node : WorkflowNode) (nodeExecutionId : String)
    (input : Record) (startedAt : Int) : WorkflowLifecycleMessage :=
  createLifecycleMessage m .nodeExecutionStarted eventId (toISOString startedAt)
    ("workflow.node.execution.started:" ++ m.executionId ++ ":" ++ node.id)
    (.nodeStarted m.workflowId m.executionId nodeExecutionId node.id node.type.literal input)

def createNodeExecutionCompletedMessage (node : WorkflowNode) (nodeExecutionId : String)
    (output : Record) (startedAt completedAt : Int) : WorkflowLifecycleMessage :=
  createLifecycleMessage m .nodeExecutionCompleted eventId (toISOString completedAt)
    ("workflow.node.execution.completed:" ++ m.executionId ++ ":" ++ node.id)
    (.nodeCompleted m.workflowId m.executionId nodeExecutionId node.id node.type.literal output
      (completedAt - startedAt))

def createNodeExecutionFailedMessage (node : WorkflowNode) (nodeExecutionId : String)
    (failure : WorkerFailure) (failedAt : Int) : WorkflowLifecycleMessage :=
  createLifecycleMessage m .nodeExecutionFailed eventId (toISOString failedAt)
    ("workflow.node.execution.failed:" ++ m.executionId ++ ":" ++ node.id)
    (.nodeFailed m.workflowId m.executionId nodeExecutionId node.id node.type.literal failure)

end Constructors

end FlowPilot
