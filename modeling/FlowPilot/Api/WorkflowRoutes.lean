import FlowPilot.Api.Editing
import FlowPilot.Api.WorkflowReads

/-!
# The workflow routes

Every handler of `WorkflowsController`, behind its guards, as a program over
single statements: the publishing operations, the edits, and the nine reads
(`WorkflowRead.request`), which come to what the reads of the tables come to
when nothing interrupts them (`request_interpret`).

`RouteOp.exec` is one call against the database, with the ids of new rows
that no row has.
-/

namespace FlowPilot.Api

open Prog hiding pure throw bind tryCatch

/-! ## Calls -/

/-- The queries of the reads, apart from those that an edit makes too. -/
inductive QueryCall where
  /-- With the current versions. -/
  | findManyWorkflow (workspaceId : String)
  | findManyWorkflowVersion (workflowId : String)
  | findManyWorkflowExecution (workspaceId workflowId : String)
  | findFirstWorkflowExecution (id workspaceId workflowId : String)
  /-- `select: { id: true }`. -/
  | selectWorkflowExecution (id workspaceId workflowId : String)
  | findManyWorkflowExecutionEvent (workspaceId workflowId executionId : String)
  | findManyWorkflowNodeExecution (workspaceId workflowId executionId : String)
  | findManyWorkflowAiTrace (workspaceId workflowId executionId : String)
  | findManyOutboxMessage (executionId : String)

namespace QueryCall

def Result : QueryCall → Type
  | findManyWorkflow _ => List WorkflowWithCurrentVersion
  | findManyWorkflowVersion _ => List WorkflowVersion
  | findManyWorkflowExecution _ _ => List WorkflowExecution
  | findFirstWorkflowExecution _ _ _ => Option WorkflowExecution
  | selectWorkflowExecution _ _ _ => Option String
  | findManyWorkflowExecutionEvent _ _ _ => List WorkflowService.WorkflowExecutionEvent
  | findManyWorkflowNodeExecution _ _ _ => List WorkflowNodeExecution
  | findManyWorkflowAiTrace _ _ _ => List WorkflowAiTrace
  | findManyOutboxMessage _ => List OutboxMessage

def run (ctx : DbContext) (db : Database) : (c : QueryCall) → c.Result
  | findManyWorkflow workspaceId => db.findManyWorkflow ctx workspaceId
  | findManyWorkflowVersion workflowId => db.findManyWorkflowVersion ctx workflowId
  | findManyWorkflowExecution workspaceId workflowId =>
      db.findManyWorkflowExecution ctx workspaceId workflowId
  | findFirstWorkflowExecution id workspaceId workflowId =>
      db.findFirstWorkflowExecution id workspaceId workflowId
  | selectWorkflowExecution id workspaceId workflowId =>
      (db.findFirstWorkflowExecution id workspaceId workflowId).map (·.id)
  | findManyWorkflowExecutionEvent workspaceId workflowId executionId =>
      db.findManyWorkflowExecutionEvent ctx workspaceId workflowId executionId
  | findManyWorkflowNodeExecution workspaceId workflowId executionId =>
      db.findManyWorkflowNodeExecution ctx workspaceId workflowId executionId
  | findManyWorkflowAiTrace workspaceId workflowId executionId =>
      db.findManyWorkflowAiTrace ctx workspaceId workflowId executionId
  | findManyOutboxMessage executionId => db.findManyOutboxMessage ctx executionId

end QueryCall

/-- The calls of the edits, and the queries. -/
abbrev RouteOp := EditOp ⊕ QueryCall

abbrev RouteOp.Result : RouteOp → Type := Sum.elim EditOp.Result QueryCall.Result

abbrev RouteRequest (α : Type) := Prog RouteOp RouteOp.Result ApiError α

abbrev RouteEvent := Event RouteOp RouteOp.Result ApiError

abbrev RouteHistory := List RouteEvent

namespace RouteRequest

def lift {α : Type} (p : EditRequest α) : RouteRequest α := p.inl

def query (c : QueryCall) : RouteRequest c.Result :=
  @Prog.perform RouteOp RouteOp.Result ApiError (.inr c)

def findFirstWorkflow (id workspaceId : String) :
    RouteRequest (Option WorkflowWithCurrentVersion) :=
  @Prog.perform RouteOp RouteOp.Result ApiError
    (.inl (.inl (.db (.findFirstWorkflow id workspaceId))))

/-- The result of a function that calls nothing. -/
def ofExcept {α : Type} : Except ApiError α → RouteRequest α
  | .ok a => .pure a
  | .error e => .throw e

/-! ## The reads of `WorkflowsService` -/

def ensureWorkflowExists (workspaceId workflowId : String) : RouteRequest Unit :=
  lift (EditRequest.ensureWorkflowExists workspaceId workflowId)

def ensureExecutionExists (workspaceId workflowId executionId : String) : RouteRequest Unit := do
  match ← query (.selectWorkflowExecution executionId workspaceId workflowId) with
  | none => throw (.notFoundException "Workflow execution not found")
  | some _ => pure ()

def findAllForWorkspace (workspaceId : String) : RouteRequest (List WorkflowResponse) := do
  let workflows ← query (.findManyWorkflow workspaceId)
  ofExcept (workflows.mapM toWorkflowResponse)

def findOne (workspaceId workflowId : String) : RouteRequest WorkflowResponse := do
  match ← findFirstWorkflow workflowId workspaceId with
  | none => throw (.notFoundException "Workflow not found")
  | some workflow => ofExcept (toWorkflowResponse workflow)

def findVersions (workspaceId workflowId : String) :
    RouteRequest (List WorkflowVersionResponse) := do
  ensureWorkflowExists workspaceId workflowId
  let versions ← query (.findManyWorkflowVersion workflowId)
  pure (versions.map toWorkflowVersionResponse)

def findExecutions (workspaceId workflowId : String) :
    RouteRequest (List WorkflowExecutionResponse) := do
  ensureWorkflowExists workspaceId workflowId
  let executions ← query (.findManyWorkflowExecution workspaceId workflowId)
  pure (executions.map toWorkflowExecutionResponse)

def findExecution (workspaceId workflowId executionId : String) :
    RouteRequest WorkflowExecutionResponse := do
  match ← query (.findFirstWorkflowExecution executionId workspaceId workflowId) with
  | none => throw (.notFoundException "Workflow execution not found")
  | some execution => pure (toWorkflowExecutionResponse execution)

def findExecutionEvents (workspaceId workflowId executionId : String) :
    RouteRequest (List WorkflowExecutionEventResponse) := do
  ensureExecutionExists workspaceId workflowId executionId
  let events ← query (.findManyWorkflowExecutionEvent workspaceId workflowId executionId)
  pure (events.map toWorkflowExecutionEventResponse)

def findExecutionNodes (workspaceId workflowId executionId : String) :
    RouteRequest (List WorkflowNodeExecutionResponse) := do
  ensureExecutionExists workspaceId workflowId executionId
  let nodeExecutions ← query (.findManyWorkflowNodeExecution workspaceId workflowId executionId)
  pure (nodeExecutions.map toWorkflowNodeExecutionResponse)

/-- The queries of a `Promise.all` are made in the order they are listed. -/
def findExecutionSummary (workspaceId workflowId executionId : String) :
    RouteRequest WorkflowExecutionSummary := do
  let execution ← findExecution workspaceId workflowId executionId
  let nodeExecutions ← query (.findManyWorkflowNodeExecution workspaceId workflowId executionId)
  let events ← query (.findManyWorkflowExecutionEvent workspaceId workflowId executionId)
  let aiTraces ← query (.findManyWorkflowAiTrace workspaceId workflowId executionId)
  pure
    { execution, nodes := nodeExecutions.map toWorkflowNodeExecutionResponse
      events := events.map toWorkflowExecutionEventResponse
      aiTraces := aiTraces.map toWorkflowAiTraceResponse }

def findExecutionDiagnostics (workspaceId workflowId executionId : String) :
    RouteRequest WorkflowExecutionDiagnostics := do
  let execution ← findExecution workspaceId workflowId executionId
  let events ← query (.findManyWorkflowExecutionEvent workspaceId workflowId executionId)
  let outboxMessages ← query (.findManyOutboxMessage executionId)
  let failedEvent :=
    events.find? (·.eventName = FlowPilotRoutingKey.workflowExecutionFailed.literal)
  let failure := getFailureFromExecutionDiagnostics execution.error (failedEvent.map (·.payload))
  let failedOutboxMessage := outboxMessages.find? (·.eventName = .workflowExecutionFailed)
  pure
    { retry :=
        { attempts := max 0 ((failedOutboxMessage.map (·.attempts)).getD 0)
          deadLettered := execution.status = .failed && failure.isSome
          lastFailureCode := failure.map (·.code)
          lastFailureMessage := failure.map (·.message)
          retryable := failure.map (·.retryable) }
      outbox := outboxMessages.map toWorkflowExecutionOutboxDiagnosticsResponse }

end RouteRequest

namespace WorkflowRead

/-- The read as a request. -/
def request (workspaceId : String) : (read : WorkflowRead) → RouteRequest read.Response
  | findAllForWorkspace => .findAllForWorkspace workspaceId
  | findOne workflowId => .findOne workspaceId workflowId
  | findVersions workflowId => .findVersions workspaceId workflowId
  | findExecutions workflowId => .findExecutions workspaceId workflowId
  | findExecution workflowId executionId => .findExecution workspaceId workflowId executionId
  | findExecutionEvents workflowId executionId =>
      .findExecutionEvents workspaceId workflowId executionId
  | findExecutionNodes workflowId executionId =>
      .findExecutionNodes workspaceId workflowId executionId
  | findExecutionSummary workflowId executionId =>
      .findExecutionSummary workspaceId workflowId executionId
  | findExecutionDiagnostics workflowId executionId =>
      .findExecutionDiagnostics workspaceId workflowId executionId

end WorkflowRead

/-! ## Calls against the database -/

/-- The answer of a call and the world after it, or Prisma's code for the
constraint that rejects it. -/
def RouteOp.run : (op : RouteOp) → EditContext → ApiWorld →
    Except String (RouteOp.Result op × ApiWorld)
  | .inl (.inl op), ctx, w => op.run ctx.api w
  | .inl (.inr c), ctx, w => (c.run ctx w.db).map fun (r, db') => (r, { w with db := db' })
  | .inr c, ctx, w => .ok (c.run ctx.api w.db, w)

/-- The errors a call may throw. -/
def RouteOp.Throws : RouteOp → EditContext → ApiWorld → ApiError → Prop
  | .inl (.inl op), ctx, w, e => op.Throws ctx.api w e
  | .inl (.inr c), ctx, w, e => c.Throws ctx w.db e
  | .inr _, _, _, .error _ => True
  | .inr _, _, _, .prismaClientKnownRequestError code => code ≠ "P2002"
  | .inr _, _, _, _ => False

/-- No row has the ids that a row would be created with. -/
structure EditContext.Fresh (ctx : EditContext) (db : Database) : Prop where
  workflow : ∀ row ∈ db.workflows, row.id ≠ ctx.uuid
  workflowVersion : ∀ row ∈ db.workflowVersions, row.id ≠ ctx.nestedUuid
  workflowExecution : ∀ row ∈ db.workflowExecutions, row.id ≠ ctx.uuid

/-- One call against the world. -/
def RouteOp.exec (op : RouteOp) (w : ApiWorld) (reply : Reply ApiError (RouteOp.Result op))
    (w' : ApiWorld) : Prop :=
  ∃ ctx : EditContext, ctx.Fresh w.db ∧ match reply with
    | .ok r => op.run ctx w = .ok (r, w')
    | .lost e => op.Throws ctx w e ∧ ∃ r, op.run ctx w = .ok (r, w')
    | .failed e => op.Throws ctx w e ∧ w' = w

/-! ## Uninterrupted reads -/

/-- What a call answers on a world that stays as it is. -/
def RouteOp.answer (ctx : EditContext) (w : ApiWorld) (op : RouteOp) :
    Except ApiError (RouteOp.Result op) :=
  match op.run ctx w with
  | .ok (r, _) => .ok r
  | .error code => .error (.prismaClientKnownRequestError code)

section

variable {ctx : EditContext} {w : ApiWorld} {workspaceId : String}

theorem query_interpret (c : QueryCall) :
    (RouteRequest.query c).interpret (RouteOp.answer ctx w) = .ok (c.run ctx.api w.db) :=
  interpret_perform

theorem ofExcept_interpret {α : Type} (result : Except ApiError α) :
    (RouteRequest.ofExcept result).interpret (RouteOp.answer ctx w) = result := by
  cases result <;> rfl

theorem ensureWorkflowExists_interpret (workflowId : String) :
    (RouteRequest.ensureWorkflowExists workspaceId workflowId).interpret (RouteOp.answer ctx w)
      = ensureWorkflowExists w.db workspaceId workflowId := by
  let answer (op : EditOp) : Except ApiError (EditOp.Result op) := RouteOp.answer ctx w (.inl op)
  have hselect : (EditRequest.edit (.selectWorkflow workflowId workspaceId)).interpret answer
      = .ok ((w.db.findFirstWorkflow workflowId workspaceId).map (·.id)) := interpret_perform
  have hinl : (RouteRequest.ensureWorkflowExists workspaceId workflowId).interpret
        (RouteOp.answer ctx w)
      = (EditRequest.ensureWorkflowExists workspaceId workflowId).interpret answer := interpret_inl
  rw [hinl, EditRequest.ensureWorkflowExists, interpret_bind, hselect, ensureWorkflowExists]
  cases w.db.findFirstWorkflow workflowId workspaceId <;> rfl

theorem ensureExecutionExists_interpret (workflowId executionId : String) :
    (RouteRequest.ensureExecutionExists workspaceId workflowId executionId).interpret
        (RouteOp.answer ctx w)
      = ensureExecutionExists w.db workspaceId workflowId executionId := by
  rw [RouteRequest.ensureExecutionExists, interpret_bind, query_interpret, ensureExecutionExists]
  simp only [QueryCall.run]
  cases w.db.findFirstWorkflowExecution executionId workspaceId workflowId <;> rfl

theorem findOne_interpret (workflowId : String) :
    (RouteRequest.findOne workspaceId workflowId).interpret (RouteOp.answer ctx w)
      = findOne ctx.api w.db workspaceId workflowId := by
  have hfind : (RouteRequest.findFirstWorkflow workflowId workspaceId).interpret
        (RouteOp.answer ctx w)
      = .ok ((w.db.findFirstWorkflow workflowId workspaceId).map
        (w.db.withCurrentVersion ctx.api)) := interpret_perform
  rw [RouteRequest.findOne, interpret_bind, hfind, findOne]
  cases w.db.findFirstWorkflow workflowId workspaceId with
  | none => rfl
  | some workflow => exact ofExcept_interpret _

theorem findExecution_interpret (workflowId executionId : String) :
    (RouteRequest.findExecution workspaceId workflowId executionId).interpret
        (RouteOp.answer ctx w)
      = findExecution w.db workspaceId workflowId executionId := by
  rw [RouteRequest.findExecution, interpret_bind, query_interpret, findExecution]
  simp only [QueryCall.run]
  cases w.db.findFirstWorkflowExecution executionId workspaceId workflowId <;> rfl

/-- **Uninterrupted reads.** A read during which nothing is written comes to
what the read of the tables comes to. -/
theorem request_interpret (read : WorkflowRead) :
    (read.request workspaceId).interpret (RouteOp.answer ctx w)
      = read.run ctx.api workspaceId w.db := by
  cases read with
  | findAllForWorkspace =>
      refine interpret_bind.trans ?_
      rw [query_interpret]
      exact ofExcept_interpret _
  | findOne workflowId => exact findOne_interpret workflowId
  | findVersions workflowId =>
      refine interpret_bind.trans ?_
      rw [ensureWorkflowExists_interpret]
      rfl
  | findExecutions workflowId =>
      refine interpret_bind.trans ?_
      rw [ensureWorkflowExists_interpret]
      rfl
  | findExecution workflowId executionId => exact findExecution_interpret workflowId executionId
  | findExecutionEvents workflowId executionId =>
      refine interpret_bind.trans ?_
      rw [ensureExecutionExists_interpret]
      rfl
  | findExecutionNodes workflowId executionId =>
      refine interpret_bind.trans ?_
      rw [ensureExecutionExists_interpret]
      rfl
  | findExecutionSummary workflowId executionId =>
      refine interpret_bind.trans ?_
      rw [findExecution_interpret]
      rfl
  | findExecutionDiagnostics workflowId executionId =>
      refine interpret_bind.trans ?_
      rw [findExecution_interpret]
      rfl

end

end FlowPilot.Api
