import FlowPilot.Lib.Prog
import FlowPilot.Worker.Store

/-!
# The workflow service

The consumer that fills the timeline of an execution: the parser of
lifecycle messages, the upsert of a row of `WorkflowExecutionEvent`, and the
handling of a delivery. Rows are keyed by the `eventId` of the message, so a
message that comes again finds its row.
-/

namespace FlowPilot.WorkflowService

open Prog hiding pure throw bind tryCatch

/-! ## Routing -/

/-- Topic matching for the patterns in use: `*` stands for one word. -/
def topicMatches (pattern routingKey : String) : Bool :=
  let words := pattern.toList.splitOn '.'
  let keyWords := routingKey.toList.splitOn '.'
  words.length = keyWords.length
    && (words.zip keyWords).all fun (word, keyWord) => word = ['*'] || word = keyWord

/-- The bindings of `workflowServiceExecutionEvents`, declared by the service
and, with the last one, by the API. -/
def executionEventBindings : List String :=
  ["workflow.execution.*", "workflow.node.execution.*",
    FlowPilotRoutingKey.workflowCreated.literal]

/-- The events exchange routes a message with this key to the queue. -/
def isRouted (routingKey : String) : Bool :=
  executionEventBindings.any (topicMatches · routingKey)

/-! ## Messages -/

/-- `workflowExecutionLifecycleEvents`. -/
def workflowExecutionLifecycleEvents : List FlowPilotRoutingKey :=
  [.workflowExecutionStarted, .workflowExecutionCompleted, .workflowExecutionFailed,
    .nodeExecutionStarted, .nodeExecutionCompleted, .nodeExecutionFailed]

/-- `isFlowPilotMessageProducer`. -/
def isFlowPilotMessageProducer (value : Option Json) : Bool :=
  value == some (.str producerApi) || value == some (.str "workflow-service")
  || value == some (.str producerExecutionWorker) || value == some (.str "ai-orchestrator")
  || value == some (.str "observability-service")

/-- `isRecord(value)` for a value that may be missing. -/
def isRecord : Option Json → Bool
  | some value => value.isRecord
  | none => false

/-- The fields the parser asks for besides the two ids, by event name. -/
def hasPayloadOf (eventName : Option Json) (payload : Json) : Bool :=
  let hasError := isRecord (payload.get? "error")
    && Json.isString ((payload.get? "error").bind (·.get? "message"))
  let hasNode := Json.isString (payload.get? "nodeExecutionId")
    && Json.isString (payload.get? "nodeId") && Json.isString (payload.get? "nodeType")
  let hasOutput := isRecord (payload.get? "output") && Json.isNumber (payload.get? "durationMs")
  if eventName == some (.str FlowPilotRoutingKey.workflowExecutionCompleted.literal) then hasOutput
  else if eventName == some (.str FlowPilotRoutingKey.workflowExecutionFailed.literal) then hasError
  else if eventName == some (.str FlowPilotRoutingKey.workflowExecutionStarted.literal) then true
  else if eventName == some (.str FlowPilotRoutingKey.nodeExecutionStarted.literal) then
    hasNode && isRecord (payload.get? "input")
  else if eventName == some (.str FlowPilotRoutingKey.nodeExecutionCompleted.literal) then
    hasNode && hasOutput
  else
    eventName == some (.str FlowPilotRoutingKey.nodeExecutionFailed.literal) && hasNode && hasError

/-- `isWorkflowExecutionLifecycleMessage`. -/
def isWorkflowExecutionLifecycleMessage (value : Json) : Bool :=
  value.isRecord
  && workflowExecutionLifecycleEvents.any (fun name =>
    value.get? "eventName" == some (.str name.literal))
  && Json.isString (value.get? "eventId")
  && value.get? "schemaVersion" == some (.num messageSchemaVersion)
  && Json.isString (value.get? "occurredAt")
  && Json.isString (value.get? "workspaceId")
  && Json.isString (value.get? "correlationId")
  && isFlowPilotMessageProducer (value.get? "producer")
  && match value.get? "payload" with
    | some payload =>
        payload.isRecord
        && Json.isString (payload.get? "workflowId")
        && Json.isString (payload.get? "executionId")
        && hasPayloadOf (value.get? "eventName") payload
    | none => false

/-- A message the parser accepts. -/
structure WorkflowExecutionLifecycleMessage where
  value : Json
  accepted : isWorkflowExecutionLifecycleMessage value = true

namespace WorkflowExecutionLifecycleMessage

variable (m : WorkflowExecutionLifecycleMessage)

def eventName : String := Json.asString (m.value.get? "eventName")
def eventId : String := Json.asString (m.value.get? "eventId")
def occurredAt : String := Json.asString (m.value.get? "occurredAt")
def workspaceId : String := Json.asString (m.value.get? "workspaceId")
def producer : String := Json.asString (m.value.get? "producer")

/-- `message.payload`. -/
def payload : Record := Json.asRecord (m.value.get? "payload")

/-- `message.payload.workflowId`. -/
def workflowId : String := Json.asString (m.payload.lookup "workflowId")

/-- `message.payload.executionId`. -/
def executionId : String := Json.asString (m.payload.lookup "executionId")

end WorkflowExecutionLifecycleMessage

/-- `parseWorkflowExecutionLifecycleMessage`. -/
def parseWorkflowExecutionLifecycleMessage (message : ConsumeMessage) :
    Option WorkflowExecutionLifecycleMessage :=
  match message.content with
  | .json value =>
      if h : isWorkflowExecutionLifecycleMessage value = true then some ⟨value, h⟩ else none
  | .notJson _ => none

/-- What is parsed from a message is its content. -/
theorem content_of_parsed {message : ConsumeMessage} {m : WorkflowExecutionLifecycleMessage}
    (h : parseWorkflowExecutionLifecycleMessage message = some m) :
    message.content = .json m.value := by
  unfold parseWorkflowExecutionLifecycleMessage at h
  split at h
  · rename_i value hcontent
    split at h
    · obtain rfl := Option.some.inj h
      exact hcontent
    · cases h
  · cases h

/-! ## The timeline -/

/-- `create` of the upsert; an `occurredAt` that is no date is `none`. -/
structure WorkflowExecutionEventCreateData where
  workspaceId : String
  workflowId : String
  executionId : String
  eventName : String
  eventId : String
  occurredAt : Option Int
  producer : String
  payload : Record

/-- A row of `WorkflowExecutionEvent`. -/
structure WorkflowExecutionEvent where
  id : String
  workspaceId : String
  workflowId : String
  executionId : String
  eventName : String
  eventId : String
  occurredAt : Int
  producer : String
  payload : Record
  createdAt : Int

/-- The data `persistWorkflowExecutionEvent` stores. -/
def createData [Runtime] (m : WorkflowExecutionLifecycleMessage) :
    WorkflowExecutionEventCreateData where
  workspaceId := m.workspaceId
  workflowId := m.workflowId
  executionId := m.executionId
  eventName := m.eventName
  eventId := m.eventId
  occurredAt := Runtime.dateParse m.occurredAt
  producer := m.producer
  payload := m.payload

/-- `workflowExecutionEvent.upsert` with an empty update. The database
rejects an invalid date, an execution that does not exist, and an id that is
taken. -/
def upsertEvent (executions : String → Option WorkflowExecutionRow) (ctx : DbContext)
    (data : WorkflowExecutionEventCreateData) (events : List WorkflowExecutionEvent) :
    Option (WorkflowExecutionEvent × List WorkflowExecutionEvent) :=
  match data.occurredAt with
  | none => none
  | some occurredAt =>
      match events.find? (·.eventId = data.eventId) with
      | some row => some (row, events)
      | none =>
          if (executions data.executionId).isNone ∨ events.any (·.id = ctx.uuid) then none
          else
            let row : WorkflowExecutionEvent :=
              { id := ctx.uuid, workspaceId := data.workspaceId, workflowId := data.workflowId
                executionId := data.executionId, eventName := data.eventName
                eventId := data.eventId, occurredAt, producer := data.producer
                payload := data.payload, createdAt := ctx.now }
            some (row, events ++ [row])

/-- What a row was created from. -/
def WorkflowExecutionEvent.createdFrom (row : WorkflowExecutionEvent) :
    WorkflowExecutionEventCreateData where
  workspaceId := row.workspaceId
  workflowId := row.workflowId
  executionId := row.executionId
  eventName := row.eventName
  eventId := row.eventId
  occurredAt := some row.occurredAt
  producer := row.producer
  payload := row.payload

/-- The upsert finds the row of its event and leaves the table alone, or adds
a row made from its data. -/
theorem upsertEvent_cases {executions : String → Option WorkflowExecutionRow} {ctx : DbContext}
    {data : WorkflowExecutionEventCreateData} {events events' : List WorkflowExecutionEvent}
    {row : WorkflowExecutionEvent}
    (h : upsertEvent executions ctx data events = some (row, events')) :
    (events' = events ∧ row ∈ events ∧ row.eventId = data.eventId)
      ∨ (events' = events ++ [row] ∧ (∀ event ∈ events, event.eventId ≠ data.eventId)
        ∧ row.createdFrom = data) := by
  unfold upsertEvent at h
  split at h
  · cases h
  · rename_i occurredAt hdate
    split at h
    · rename_i found hfind
      cases h
      exact Or.inl ⟨rfl, List.mem_of_find?_eq_some hfind, by simpa using List.find?_some hfind⟩
    · rename_i hnone
      split at h
      · cases h
      · cases h
        rw [List.find?_eq_none] at hnone
        refine Or.inr ⟨rfl, fun event hevent => by simpa using hnone event hevent, ?_⟩
        obtain ⟨workspaceId, workflowId, executionId, eventName, eventId, date, producer,
          payload⟩ := data
        obtain rfl : date = some occurredAt := hdate
        rfl

/-! ## Handling a delivery -/

/-- The error of a rejected call, with Prisma's code if it has one. -/
structure PersistenceError where
  code : Option String

/-- `isNonRetryablePersistenceError`. -/
def isNonRetryablePersistenceError (error : PersistenceError) : Bool := error.code = some "P2003"

inductive ServiceOp where
  | upsertEvent (data : WorkflowExecutionEventCreateData)
  | ack (message : ConsumeMessage)
  | nack (message : ConsumeMessage) (allUpTo requeue : Bool)

def ServiceOp.Result : ServiceOp → Type
  | upsertEvent _ => WorkflowExecutionEvent
  | ack _ => Unit
  | nack _ _ _ => Unit

abbrev Service (α : Type) := Prog ServiceOp ServiceOp.Result PersistenceError α

abbrev ServiceHistory := List (Event ServiceOp ServiceOp.Result PersistenceError)

def ack (message : ConsumeMessage) : Service Unit := Prog.perform (ServiceOp.ack message)

def nack (message : ConsumeMessage) (allUpTo requeue : Bool) : Service Unit :=
  Prog.perform (ServiceOp.nack message allUpTo requeue)

def persistWorkflowExecutionEvent [Runtime] (m : WorkflowExecutionLifecycleMessage) :
    Service Unit := do
  let _ ← Prog.perform (ServiceOp.upsertEvent (createData m))
  pure ()

def handleDelivery [Runtime] (message : ConsumeMessage) : Service Unit :=
  match parseWorkflowExecutionLifecycleMessage message with
  | none => nack message false false
  | some m =>
      Prog.tryCatch
        (do
          persistWorkflowExecutionEvent m
          ack message)
        fun error => nack message false (!isNonRetryablePersistenceError error)

/-- What the handler of `message` calls. -/
def DeliveryOp [Runtime] (message : ConsumeMessage) (_ : ServiceHistory) : ServiceOp → Prop
  | .upsertEvent data => ∃ m, parseWorkflowExecutionLifecycleMessage message = some m
      ∧ data = createData m
  | .ack message' => message' = message
  | .nack message' _ _ => message' = message

theorem handleDelivery_safe [Runtime] (message : ConsumeMessage) :
    Safe (DeliveryOp message) (handleDelivery message) := by
  have hnack : ∀ requeue, Safe (DeliveryOp message) (nack message false requeue) := fun requeue =>
    @safe_perform _ _ _ (DeliveryOp message) (.nack message false requeue) fun _ => rfl
  unfold handleDelivery
  split
  · exact hnack false
  · rename_i m hm
    have hpersist : Safe (DeliveryOp message) (persistWorkflowExecutionEvent m) :=
      Safe.bind (safe_perform fun _ => ⟨m, hm, rfl⟩) fun _ => safe_pure ()
    have hack : Safe (DeliveryOp message) (ack message) :=
      @safe_perform _ _ _ (DeliveryOp message) (.ack message) fun _ => rfl
    exact (hpersist.bind fun _ => hack).tryCatch fun error => hnack _

end FlowPilot.WorkflowService
