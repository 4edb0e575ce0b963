import FlowPilot.Worker.AiTrace
import Mathlib.Data.List.Sort
import Mathlib.Logic.Function.Basic

/-!
# The execution store

The four tables the worker uses, and the database calls it makes on them,
each one atomic. A transaction of the source is one call: it updates the
execution row under a guard on its status and, when that took effect, writes
an outbox row.

`DbCall.run` is partial: where it answers `none` the database rejects the
call (a unique constraint, an update of a missing row), so the call can only
throw.
-/

namespace FlowPilot

/-! ## Rows -/

inductive ExecutionStatus where
  | pending
  | running
  | succeeded
  | failed
  | cancelled
deriving DecidableEq, Repr

/-- `isTerminalExecutionStatus`. -/
def isTerminalExecutionStatus : ExecutionStatus → Bool
  | .succeeded => true
  | .failed => true
  | .cancelled => true
  | _ => false

structure WorkflowVersion where
  version : Nat
  definition : Json
deriving DecidableEq

/-- A row of `WorkflowExecution` joined with its version, apart from its id. -/
structure WorkflowExecutionRow where
  workspaceId : String
  workflowId : String
  workflowVersion : WorkflowVersion
  status : ExecutionStatus
  input : Record
  output : Option Record
  error : Option FlowPilotExecutionError
  startedAt : Option Int
  completedAt : Option Int
deriving DecidableEq

/-- What a query for an execution returns. -/
structure WorkflowExecution extends WorkflowExecutionRow where
  id : String
deriving DecidableEq

inductive NodeExecutionStatus where
  | running
  | succeeded
  | failed
deriving DecidableEq, Repr

/-- A row of `WorkflowNodeExecution`. -/
structure WorkflowNodeExecution where
  id : String
  workspaceId : String
  workflowId : String
  executionId : String
  nodeId : String
  nodeType : String
  status : NodeExecutionStatus
  input : Record
  output : Option Record
  error : Option WorkerFailure
  startedAt : Int
  completedAt : Option Int

inductive OutboxStatus where
  | pending
  | published
  | failed
deriving DecidableEq, Repr

/-- A row of `OutboxMessage`. What identifies the event is taken from its
payload. -/
structure OutboxMessage where
  id : String
  exchange : FlowPilotExchange
  routingKey : FlowPilotRoutingKey
  eventName : FlowPilotRoutingKey
  messageId : String
  idempotencyKey : String
  payload : WorkflowLifecycleMessage
  headers : Record
  status : OutboxStatus
  attempts : Nat
  lastError : Option String
  publishedAt : Option Int
  createdAt : Int
  exchange_eq : exchange = .events
  eventName_eq : eventName = payload.eventName
  messageId_eq : messageId = payload.eventId
  idempotencyKey_eq : idempotencyKey = payload.idempotencyKey

/-! ## Updates -/

/-- `data` of an update of an execution. -/
inductive ExecutionUpdate where
  | running (startedAt : Int)
  | succeeded (output : Record) (completedAt : Int)
  | failed (error : FlowPilotExecutionError) (completedAt : Int)
deriving DecidableEq

def ExecutionUpdate.apply : ExecutionUpdate → WorkflowExecutionRow → WorkflowExecutionRow
  | .running startedAt, row => { row with status := .running, startedAt := some startedAt }
  | .succeeded output completedAt, row =>
      { row with status := .succeeded, output := some output, completedAt := some completedAt }
  | .failed error completedAt, row =>
      { row with status := .failed, error := some error, completedAt := some completedAt }

/-- `data` of an update of a node execution. -/
inductive NodeExecutionUpdate where
  | succeeded (output : Record) (completedAt : Int)
  | failed (failure : WorkerFailure) (completedAt : Int)

def NodeExecutionUpdate.apply : NodeExecutionUpdate → WorkflowNodeExecution →
    WorkflowNodeExecution
  | .succeeded output completedAt, row =>
      { row with
        status := .succeeded, output := some output, error := none
        completedAt := some completedAt }
  | .failed failure completedAt, row =>
      { row with status := .failed, error := some failure, completedAt := some completedAt }

/-- `data` of an update of an outbox row. -/
inductive OutboxUpdate where
  | published (publishedAt : Int)
  | publishFailure (attempts : Nat) (lastError : String) (status : OutboxStatus)

def OutboxUpdate.apply : OutboxUpdate → OutboxMessage → OutboxMessage
  | .published publishedAt, row =>
      { row with
        status := .published, attempts := row.attempts + 1, lastError := none
        publishedAt := some publishedAt }
  | .publishFailure attempts lastError status, row =>
      { row with attempts, lastError := some lastError, status }

@[simp] theorem OutboxUpdate.apply_idempotencyKey (u : OutboxUpdate) (row : OutboxMessage) :
    (u.apply row).idempotencyKey = row.idempotencyKey := by
  cases u <;> rfl

@[simp] theorem OutboxUpdate.apply_payload (u : OutboxUpdate) (row : OutboxMessage) :
    (u.apply row).payload = row.payload := by
  cases u <;> rfl

/-! ## The store -/

structure Store where
  executions : String → Option WorkflowExecutionRow
  nodeExecutions : List WorkflowNodeExecution
  outbox : List OutboxMessage
  aiTraces : List WorkflowAiTrace

def Store.empty : Store := ⟨fun _ => none, [], [], []⟩

/-- What the database adds to a call: its clock, a fresh id for a new row,
and the order in which it lists rows with equal sort keys. -/
structure DbContext where
  now : Int
  uuid : String
  rank : String → Nat

namespace Store

variable (s : Store) (ctx : DbContext)

/-- `workflowExecution.findUnique({ where: { id } })`. -/
def findExecution (id : String) : Option WorkflowExecution :=
  (s.executions id).map fun row => { toWorkflowExecutionRow := row, id }

/-- `workflowExecution.updateMany({ where: { id, status: { in } }, data })`
with the number of rows it changed. -/
def updateManyExecution (id : String) (fromStatuses : List ExecutionStatus)
    (data : ExecutionUpdate) : Nat × Store :=
  match s.executions id with
  | some row =>
      if row.status ∈ fromStatuses then
        (1, { s with executions := Function.update s.executions id (some (data.apply row)) })
      else (0, s)
  | none => (0, s)

/-- `createOutboxHeaders`. -/
def createOutboxHeaders (message : WorkflowLifecycleMessage) : Record :=
  [("correlationId", .str message.correlationId), ("producer", .str message.producer),
    ("schemaVersion", .num message.schemaVersion), ("workspaceId", .str message.workspaceId)]

/-- The row `persistOutboxEvent` creates. -/
def newOutboxMessage (routingKey : FlowPilotRoutingKey) (message : WorkflowLifecycleMessage) :
    OutboxMessage where
  id := ctx.uuid
  exchange := .events
  routingKey
  eventName := message.eventName
  messageId := message.eventId
  idempotencyKey := message.idempotencyKey
  payload := message
  headers := createOutboxHeaders message
  status := .pending
  attempts := 0
  lastError := none
  publishedAt := none
  createdAt := ctx.now
  exchange_eq := rfl
  eventName_eq := rfl
  messageId_eq := rfl
  idempotencyKey_eq := rfl

/-- The upsert of `persistOutboxEvent`: a row with the same idempotency key
is returned as it is. -/
def upsertOutbox (routingKey : FlowPilotRoutingKey) (message : WorkflowLifecycleMessage) :
    Option (OutboxMessage × Store) :=
  match s.outbox.find? (·.idempotencyKey = message.idempotencyKey) with
  | some row => some (row, s)
  | none =>
      if s.outbox.any fun row => row.id = ctx.uuid ∨ row.messageId = message.eventId then none
      else
        let row := newOutboxMessage ctx routingKey message
        some (row, { s with outbox := s.outbox ++ [row] })

/-- Rows by creation time, ties in the database's order. -/
def orderByCreatedAt (rows : List OutboxMessage) : List OutboxMessage :=
  rows.insertionSort fun a b =>
    a.createdAt < b.createdAt ∨ a.createdAt = b.createdAt ∧ ctx.rank a.id ≤ ctx.rank b.id

/-- `workflowNodeExecution.upsert` on `(executionId, nodeId)`. -/
def upsertRunningNode (m : WorkflowExecutionRequestedMessage) (node : WorkflowNode)
    (input : Record) (startedAt : Int) : Option (WorkflowNodeExecution × Store) :=
  let matching (row : WorkflowNodeExecution) : Bool :=
    row.executionId = m.executionId ∧ row.nodeId = node.id
  let update (row : WorkflowNodeExecution) : WorkflowNodeExecution :=
    { row with
      status := .running, input, output := none, error := none, startedAt
      completedAt := none }
  match s.nodeExecutions.find? matching with
  | some row =>
      some (update row, { s with
        nodeExecutions := s.nodeExecutions.map fun r => if matching r then update r else r })
  | none =>
      if s.nodeExecutions.any (·.id = ctx.uuid) then none
      else
        let row : WorkflowNodeExecution :=
          { id := ctx.uuid, workspaceId := m.workspaceId, workflowId := m.workflowId
            executionId := m.executionId, nodeId := node.id, nodeType := node.type.literal
            status := .running, input, output := none, error := none, startedAt
            completedAt := none }
        some (row, { s with nodeExecutions := s.nodeExecutions ++ [row] })

end Store

/-! ## Database calls -/

/-- A transaction: move an execution from one of `fromStatuses` and write the
event of the move. -/
structure StatusTransition where
  id : String
  fromStatuses : List ExecutionStatus
  data : ExecutionUpdate
  routingKey : FlowPilotRoutingKey
  message : WorkflowLifecycleMessage

/-- `{ update, outboxMessage }`. -/
structure TransitionResult where
  count : Nat
  outboxMessage : Option OutboxMessage

/-- `where` of the two outbox queries; both ask for status `PENDING`. -/
inductive OutboxFilter where
  | attemptsBelow (limit : Nat)
  | keyIn (keys : List String)

def OutboxFilter.matches : OutboxFilter → OutboxMessage → Bool
  | .attemptsBelow limit, row => row.status = .pending ∧ row.attempts < limit
  | .keyIn keys, row => row.status = .pending ∧ row.idempotencyKey ∈ keys

inductive DbCall where
  | findExecution (id : String)
  | transaction (t : StatusTransition)
  | upsertOutbox (routingKey : FlowPilotRoutingKey) (message : WorkflowLifecycleMessage)
  | updateOutbox (id : String) (data : OutboxUpdate)
  | findOutbox (filter : OutboxFilter) (take : Option Nat)
  | upsertRunningNode (m : WorkflowExecutionRequestedMessage) (node : WorkflowNode)
      (input : Record) (startedAt : Int)
  | updateNode (id : String) (data : NodeExecutionUpdate)
  | createAiTrace (data : WorkflowAiTraceCreateData)

namespace DbCall

def Result : DbCall → Type
  | findExecution _ => Option WorkflowExecution
  | transaction _ => TransitionResult
  | upsertOutbox _ _ => OutboxMessage
  | updateOutbox _ _ => Unit
  | findOutbox _ _ => List OutboxMessage
  | upsertRunningNode _ _ _ _ => WorkflowNodeExecution
  | updateNode _ _ => Unit
  | createAiTrace _ => WorkflowAiTrace

/-- `prisma.$transaction(async (tx) => { ... })`. -/
def runTransaction (t : StatusTransition) (ctx : DbContext) (s : Store) :
    Option (TransitionResult × Store) :=
  let (count, s₁) := s.updateManyExecution t.id t.fromStatuses t.data
  if count = 0 then some (⟨count, none⟩, s₁)
  else
    (s₁.upsertOutbox ctx t.routingKey t.message).map fun (row, s₂) => (⟨count, some row⟩, s₂)

/-- The answer of a call and the store after it; `none` when the database
rejects it. -/
def run : (c : DbCall) → DbContext → Store → Option (c.Result × Store)
  | findExecution id, _, s => some (s.findExecution id, s)
  | transaction t, ctx, s => runTransaction t ctx s
  | upsertOutbox routingKey message, ctx, s => s.upsertOutbox ctx routingKey message
  | updateOutbox id data, _, s =>
      if s.outbox.any (·.id = id) then
        some ((), { s with
          outbox := s.outbox.map fun row => if row.id = id then data.apply row else row })
      else none
  | findOutbox filter take, ctx, s =>
      let rows := s.outbox.filter filter.matches
      let sorted := Store.orderByCreatedAt ctx rows
      some (match take with
        | some n => sorted.take n
        | none => sorted, s)
  | upsertRunningNode m node input startedAt, ctx, s =>
      s.upsertRunningNode ctx m node input startedAt
  | updateNode id data, _, s =>
      if s.nodeExecutions.any (·.id = id) then
        some ((), { s with
          nodeExecutions := s.nodeExecutions.map fun row =>
            if row.id = id then data.apply row else row })
      else none
  | createAiTrace data, ctx, s =>
      if s.aiTraces.any (·.id = ctx.uuid) then none
      else
        let row : WorkflowAiTrace :=
          { toWorkflowAiTraceCreateData := data, id := ctx.uuid, createdAt := ctx.now }
        some (row, { s with aiTraces := s.aiTraces ++ [row] })

end DbCall

end FlowPilot
