import FlowPilot.Worker.Effects

/-!
# The outbox

Events are stored before they are published: `persistOutboxEvent` writes the
row, `dispatchOutboxEvent` hands it to the broker and records how that went.
The two dispatchers republish pending rows, one for the periodic cycle, one
for the lifecycle events of an execution.
-/

namespace FlowPilot

/-- `outboxMaxPublishAttempts`. -/
def outboxMaxPublishAttempts : Nat := 5

/-- `outboxDispatcherBatchSize`. -/
def outboxDispatcherBatchSize : Nat := 25

def persistOutboxEvent (routingKey : FlowPilotRoutingKey) (message : WorkflowLifecycleMessage) :
    Worker OutboxMessage :=
  db (.upsertOutbox routingKey message)

/-- The arguments of the publish of an outbox row. -/
def outboxPublication (row : OutboxMessage) (now : Int) : Publication where
  exchange := row.exchange
  routingKey := row.routingKey.literal
  content := .json row.payload.toJson
  contentType := some "application/json"
  deliveryMode := 2
  messageId := some row.messageId
  timestamp := some (now / 1000)
  type := some row.eventName.literal
  headers := row.headers

def markOutboxPublishFailure (row : OutboxMessage) (error : JsError) : Worker Unit :=
  let attempts := row.attempts + 1
  db (.updateOutbox row.id (.publishFailure attempts error.message
    (if outboxMaxPublishAttempts ≤ attempts then .failed else row.status)))

def backpressureError : JsError :=
  .error "RabbitMQ channel backpressure while publishing outbox message"

def dispatchOutboxEvent (row : OutboxMessage) : Worker Unit :=
  if row.status = .published then pure ()
  else do
    let now ← newDate
    let published ← (publish (outboxPublication row now)).tryCatch fun error => do
      markOutboxPublishFailure row error
      throw error
    if published then do
      let publishedAt ← newDate
      db (.updateOutbox row.id (.published publishedAt))
    else do
      markOutboxPublishFailure row backpressureError
      throw backpressureError

structure DispatchResult where
  fetched : Nat
  failed : Nat
  published : Nat
deriving DecidableEq, Repr

/-- The loop of the periodic cycle: a row that fails is counted and the next
one is tried. -/
def dispatchBatch : List OutboxMessage → DispatchResult → Worker DispatchResult
  | [], result => pure result
  | row :: rows, result => do
      let result ← Prog.tryCatch
        (do
          dispatchOutboxEvent row
          pure { result with published := result.published + 1 })
        fun _ => pure { result with failed := result.failed + 1 }
      dispatchBatch rows result

def dispatchPendingOutboxMessages (batchSize : Nat) : Worker DispatchResult := do
  let pendingMessages ←
    db (.findOutbox (.attemptsBelow outboxMaxPublishAttempts) (some batchSize))
  dispatchBatch pendingMessages ⟨List.length pendingMessages, 0, 0⟩

/-- One cycle of `startOutboxDispatcher`. -/
def outboxDispatcherCycle : Worker Unit :=
  Prog.tryCatch
    (do
      let _ ← dispatchPendingOutboxMessages outboxDispatcherBatchSize
      pure ())
    fun _ => pure ()

/-- The loop over the rows of an execution: the first failure ends it. -/
def dispatchEach : List OutboxMessage → Worker Unit
  | [] => pure ()
  | row :: rows => do
      dispatchOutboxEvent row
      dispatchEach rows

def dispatchPendingWorkflowExecutionOutboxMessages (executionId : String) : Worker Unit := do
  let pendingMessages ←
    db (.findOutbox (.keyIn [startedKey executionId, completedKey executionId,
      failedKey executionId]) none)
  dispatchEach pendingMessages

end FlowPilot
