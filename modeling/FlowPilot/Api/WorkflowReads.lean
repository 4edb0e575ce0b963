import FlowPilot.Api.Workflows

/-!
# The workflow reads of the API

The nine reads of `WorkflowsService`, as functions of the database. All but
one query filter by workspace, or by the id of something that was found in
the workspace. The diagnostics find the outbox rows of an execution by
substring, and a key holds node ids that the users of any workspace choose;
so what a workspace reads is its own exactly if no other workspace has such
a key (`reads_isolated_iff`).
-/

namespace FlowPilot.Api

/-! ## Responses -/

/-- Every column. -/
abbrev WorkflowExecutionEventResponse := WorkflowService.WorkflowExecutionEvent

/-- Every column. -/
abbrev WorkflowNodeExecutionResponse := WorkflowNodeExecution

def toWorkflowExecutionEventResponse (event : WorkflowService.WorkflowExecutionEvent) :
    WorkflowExecutionEventResponse :=
  event

def toWorkflowNodeExecutionResponse (nodeExecution : WorkflowNodeExecution) :
    WorkflowNodeExecutionResponse :=
  nodeExecution

/-- Every column, the cost as a string. -/
structure WorkflowAiTraceResponse where
  id : String
  workspaceId : String
  workflowId : Option String
  workflowExecutionId : Option String
  nodeExecutionId : Option String
  nodeId : Option String
  credentialId : Option String
  provider : String
  model : String
  status : AiTraceStatus
  latencyMs : Int
  providerLatencyMs : Option Int
  finishReason : Option String
  inputTokenCount : Int
  outputTokenCount : Int
  totalTokenCount : Int
  estimatedCostUsd : Option String
  inputSizeBytes : Option Int
  outputSizeBytes : Option Int
  schemaValid : Option Bool
  errorCode : Option String
  errorMessage : Option String
  providerStatusCode : Option Int
  retryable : Option Bool
  createdAt : Int

def toWorkflowAiTraceResponse (trace : WorkflowAiTrace) : WorkflowAiTraceResponse :=
  { trace with estimatedCostUsd := trace.estimatedCostUsd.map Decimal.toString }

structure WorkflowExecutionOutboxDiagnosticsResponse where
  id : String
  eventName : FlowPilotRoutingKey
  status : OutboxStatus
  attempts : Nat
  exchange : FlowPilotExchange
  routingKey : FlowPilotRoutingKey
  lastError : Option String
  publishedAt : Option Int
  createdAt : Int

def toWorkflowExecutionOutboxDiagnosticsResponse (message : OutboxMessage) :
    WorkflowExecutionOutboxDiagnosticsResponse where
  id := message.id
  eventName := message.eventName
  status := message.status
  attempts := message.attempts
  exchange := message.exchange
  routingKey := message.routingKey
  lastError := message.lastError
  publishedAt := message.publishedAt
  createdAt := message.createdAt

structure WorkflowExecutionSummary where
  execution : WorkflowExecutionResponse
  nodes : List WorkflowNodeExecutionResponse
  events : List WorkflowExecutionEventResponse
  aiTraces : List WorkflowAiTraceResponse

structure WorkflowExecutionRetryDiagnostics where
  attempts : Nat
  deadLettered : Bool
  lastFailureCode : Option String
  lastFailureMessage : Option String
  retryable : Option Bool

structure WorkflowExecutionDiagnostics where
  retry : WorkflowExecutionRetryDiagnostics
  outbox : List WorkflowExecutionOutboxDiagnosticsResponse

/-! ## The failure in the diagnostics -/

/-- What `isFlowPilotFailure` accepts. -/
structure FlowPilotFailure where
  code : String
  message : String
  retryable : Bool

/-- The value, if `isFlowPilotFailure` holds for it. -/
def asFlowPilotFailure (value : Json) : Option FlowPilotFailure :=
  match value.get? "code", value.get? "message", value.get? "retryable" with
  | some (.str code), some (.str message), some (.bool retryable) =>
      some ⟨code, message, retryable⟩
  | _, _, _ => none

def getFailureFromExecutionDiagnostics (executionError : Option Json)
    (failedEventPayload : Option Record) : Option FlowPilotFailure :=
  match executionError.bind asFlowPilotFailure with
  | some failure => some failure
  | none => (failedEventPayload.bind (·.lookup "error")).bind asFlowPilotFailure

/-! ## Queries -/

namespace Database

variable (db : Database) (ctx : DbContext)

/-- `workflow.findMany({ where: { workspaceId }, orderBy: { updatedAt:
"desc" } })`, with the current versions. -/
def findManyWorkflow (workspaceId : String) : List WorkflowWithCurrentVersion :=
  (orderByDesc (fun row => ctx.rank row.id) (·.updatedAt)
    (db.workflows.filter (·.workspaceId = workspaceId))).map (db.withCurrentVersion ctx)

def findManyWorkflowExecution (workspaceId workflowId : String) : List WorkflowExecution :=
  orderByDesc (fun row => ctx.rank row.id) (·.createdAt)
    (db.workflowExecutions.filter fun row =>
      row.workspaceId = workspaceId ∧ row.workflowId = workflowId)

def findManyWorkflowExecutionEvent (workspaceId workflowId executionId : String) :
    List WorkflowService.WorkflowExecutionEvent :=
  orderByAsc (fun row => ctx.rank row.id) (·.occurredAt)
    (db.workflowExecutionEvents.filter fun row =>
      row.workspaceId = workspaceId ∧ row.workflowId = workflowId
        ∧ row.executionId = executionId)

def findManyWorkflowNodeExecution (workspaceId workflowId executionId : String) :
    List WorkflowNodeExecution :=
  orderByAsc (fun row => ctx.rank row.id) (·.createdAt)
    (db.workflowNodeExecutions.filter fun row =>
      row.workspaceId = workspaceId ∧ row.workflowId = workflowId
        ∧ row.executionId = executionId)

def findManyWorkflowAiTrace (workspaceId workflowId executionId : String) :
    List WorkflowAiTrace :=
  orderByAsc (fun row => ctx.rank row.id) (·.createdAt)
    (db.workflowAiTraces.filter fun row =>
      row.workspaceId = workspaceId ∧ row.workflowId = some workflowId
        ∧ row.workflowExecutionId = some executionId)

/-- `contains`. -/
def keyContains (executionId : String) (row : OutboxMessage) : Bool :=
  executionId.toList <:+: row.idempotencyKey.toList

/-- `outboxMessage.findMany({ where: { idempotencyKey: { contains } } })`. -/
def findManyOutboxMessage (executionId : String) : List OutboxMessage :=
  orderByAsc (fun row => ctx.rank row.id) (·.createdAt)
    (db.outboxMessages.filter (keyContains executionId))

end Database

/-! ## The reads -/

section Reads

variable (ctx : DbContext) (db : Database) (workspaceId : String)

def ensureWorkflowExists (workflowId : String) : Except ApiError Unit :=
  match db.findFirstWorkflow workflowId workspaceId with
  | some _ => .ok ()
  | none => .error (.notFoundException "Workflow not found")

def ensureExecutionExists (workflowId executionId : String) : Except ApiError Unit :=
  match db.findFirstWorkflowExecution executionId workspaceId workflowId with
  | some _ => .ok ()
  | none => .error (.notFoundException "Workflow execution not found")

def findAllForWorkspace : Except ApiError (List WorkflowResponse) :=
  (db.findManyWorkflow ctx workspaceId).mapM toWorkflowResponse

def findOne (workflowId : String) : Except ApiError WorkflowResponse :=
  match db.findFirstWorkflow workflowId workspaceId with
  | some workflow => toWorkflowResponse (db.withCurrentVersion ctx workflow)
  | none => .error (.notFoundException "Workflow not found")

def findVersions (workflowId : String) : Except ApiError (List WorkflowVersionResponse) := do
  ensureWorkflowExists db workspaceId workflowId
  pure ((db.findManyWorkflowVersion ctx workflowId).map toWorkflowVersionResponse)

def findExecutions (workflowId : String) : Except ApiError (List WorkflowExecutionResponse) := do
  ensureWorkflowExists db workspaceId workflowId
  pure ((db.findManyWorkflowExecution ctx workspaceId workflowId).map toWorkflowExecutionResponse)

def findExecution (workflowId executionId : String) :
    Except ApiError WorkflowExecutionResponse :=
  match db.findFirstWorkflowExecution executionId workspaceId workflowId with
  | some execution => .ok (toWorkflowExecutionResponse execution)
  | none => .error (.notFoundException "Workflow execution not found")

def findExecutionEvents (workflowId executionId : String) :
    Except ApiError (List WorkflowExecutionEventResponse) := do
  ensureExecutionExists db workspaceId workflowId executionId
  pure ((db.findManyWorkflowExecutionEvent ctx workspaceId workflowId executionId).map
    toWorkflowExecutionEventResponse)

def findExecutionNodes (workflowId executionId : String) :
    Except ApiError (List WorkflowNodeExecutionResponse) := do
  ensureExecutionExists db workspaceId workflowId executionId
  pure ((db.findManyWorkflowNodeExecution ctx workspaceId workflowId executionId).map
    toWorkflowNodeExecutionResponse)

def findExecutionSummary (workflowId executionId : String) :
    Except ApiError WorkflowExecutionSummary := do
  let execution ← findExecution db workspaceId workflowId executionId
  let nodeExecutions := db.findManyWorkflowNodeExecution ctx workspaceId workflowId executionId
  let events := db.findManyWorkflowExecutionEvent ctx workspaceId workflowId executionId
  let aiTraces := db.findManyWorkflowAiTrace ctx workspaceId workflowId executionId
  pure
    { execution, nodes := nodeExecutions.map toWorkflowNodeExecutionResponse
      events := events.map toWorkflowExecutionEventResponse
      aiTraces := aiTraces.map toWorkflowAiTraceResponse }

def findExecutionDiagnostics (workflowId executionId : String) :
    Except ApiError WorkflowExecutionDiagnostics := do
  let execution ← findExecution db workspaceId workflowId executionId
  let events := db.findManyWorkflowExecutionEvent ctx workspaceId workflowId executionId
  let outboxMessages := db.findManyOutboxMessage ctx executionId
  let failedEvent :=
    events.find? (·.eventName = FlowPilotRoutingKey.workflowExecutionFailed.literal)
  let failure := getFailureFromExecutionDiagnostics execution.error (failedEvent.map (·.payload))
  let failedOutboxMessage := outboxMessages.find? (·.eventName = .workflowExecutionFailed)
  pure
    { retry :=
        { attempts := max 0 ((failedOutboxMessage.map (·.attempts)).getD 0)
          deadLettered := execution.status = .failed && failure.isSome
          lastFailureCode := failure.map (·.code)
          lastFailureMessage := failure.map (·.message)
          retryable := failure.map (·.retryable) }
      outbox := outboxMessages.map toWorkflowExecutionOutboxDiagnosticsResponse }

end Reads

/-- The reads of `WorkflowsService`. -/
inductive WorkflowRead where
  | findAllForWorkspace
  | findOne (workflowId : String)
  | findVersions (workflowId : String)
  | findExecutions (workflowId : String)
  | findExecution (workflowId executionId : String)
  | findExecutionEvents (workflowId executionId : String)
  | findExecutionNodes (workflowId executionId : String)
  | findExecutionSummary (workflowId executionId : String)
  | findExecutionDiagnostics (workflowId executionId : String)

namespace WorkflowRead

def Response : WorkflowRead → Type
  | findAllForWorkspace => List WorkflowResponse
  | findOne _ => WorkflowResponse
  | findVersions _ => List WorkflowVersionResponse
  | findExecutions _ => List WorkflowExecutionResponse
  | findExecution _ _ => WorkflowExecutionResponse
  | findExecutionEvents _ _ => List WorkflowExecutionEventResponse
  | findExecutionNodes _ _ => List WorkflowNodeExecutionResponse
  | findExecutionSummary _ _ => WorkflowExecutionSummary
  | findExecutionDiagnostics _ _ => WorkflowExecutionDiagnostics

def run (ctx : DbContext) (workspaceId : String) (db : Database) :
    (read : WorkflowRead) → Except ApiError read.Response
  | findAllForWorkspace => Api.findAllForWorkspace ctx db workspaceId
  | findOne workflowId => Api.findOne ctx db workspaceId workflowId
  | findVersions workflowId => Api.findVersions ctx db workspaceId workflowId
  | findExecutions workflowId => Api.findExecutions ctx db workspaceId workflowId
  | findExecution workflowId executionId =>
      Api.findExecution db workspaceId workflowId executionId
  | findExecutionEvents workflowId executionId =>
      Api.findExecutionEvents ctx db workspaceId workflowId executionId
  | findExecutionNodes workflowId executionId =>
      Api.findExecutionNodes ctx db workspaceId workflowId executionId
  | findExecutionSummary workflowId executionId =>
      Api.findExecutionSummary ctx db workspaceId workflowId executionId
  | findExecutionDiagnostics workflowId executionId =>
      Api.findExecutionDiagnostics ctx db workspaceId workflowId executionId

end WorkflowRead

/-! ## The rows of a workspace -/

/-- Two databases have the same rows of a workspace: its workflows, their
versions, its executions, events, node executions and traces, and the
messages it sent. -/
structure AgreeOn (workspaceId : String) (db db' : Database) : Prop where
  workflows : db.workflows.filter (·.workspaceId = workspaceId)
    = db'.workflows.filter (·.workspaceId = workspaceId)
  workflowVersions : ∀ workflow ∈ db.workflows, workflow.workspaceId = workspaceId →
    db.workflowVersions.filter (·.workflowId = workflow.id)
      = db'.workflowVersions.filter (·.workflowId = workflow.id)
  workflowExecutions : db.workflowExecutions.filter (·.workspaceId = workspaceId)
    = db'.workflowExecutions.filter (·.workspaceId = workspaceId)
  workflowExecutionEvents : db.workflowExecutionEvents.filter (·.workspaceId = workspaceId)
    = db'.workflowExecutionEvents.filter (·.workspaceId = workspaceId)
  workflowNodeExecutions : db.workflowNodeExecutions.filter (·.workspaceId = workspaceId)
    = db'.workflowNodeExecutions.filter (·.workspaceId = workspaceId)
  workflowAiTraces : db.workflowAiTraces.filter (·.workspaceId = workspaceId)
    = db'.workflowAiTraces.filter (·.workspaceId = workspaceId)
  outboxMessages : db.outboxMessages.filter (·.payload.workspaceId = workspaceId)
    = db'.outboxMessages.filter (·.payload.workspaceId = workspaceId)

/-- No message of another workspace has a key that contains the id of an
execution of this one. -/
def Apart (workspaceId : String) (db : Database) : Prop :=
  ∀ execution ∈ db.workflowExecutions, execution.workspaceId = workspaceId →
    ∀ row ∈ db.outboxMessages, Database.keyContains execution.id row = true →
      row.payload.workspaceId = workspaceId

/-! ## What agreement gives -/

section

variable {α : Type} {own p : α → Bool} {rows rows' : List α}

/-- A query that asks for own rows only sees nothing else. -/
theorem filter_eq_of_own (hown : rows.filter own = rows'.filter own)
    (hp : ∀ row ∈ rows ++ rows', p row = true → own row = true) :
    rows.filter p = rows'.filter p := by
  have hnarrow : ∀ {l : List α}, (∀ row ∈ l, p row = true → own row = true) →
      l.filter p = (l.filter own).filter p := by
    intro l hl
    rw [List.filter_filter]
    refine List.filter_congr fun row hrow => ?_
    cases hrow' : p row with
    | false => rfl
    | true => simp [hl row hrow hrow']
  rw [hnarrow fun row hrow => hp row (List.mem_append_left _ hrow), hown,
    ← hnarrow fun row hrow => hp row (List.mem_append_right _ hrow)]

theorem find?_eq_of_own (hown : rows.filter own = rows'.filter own)
    (hp : ∀ row, p row = true → own row = true) : rows.find? p = rows'.find? p := by
  rw [← List.head?_filter, ← List.head?_filter, filter_eq_of_own hown fun row _ => hp row]

end

section

variable {workspaceId : String} {db db' : Database} {ctx : DbContext}

theorem AgreeOn.findFirstWorkflow (h : AgreeOn workspaceId db db') (id : String) :
    db.findFirstWorkflow id workspaceId = db'.findFirstWorkflow id workspaceId :=
  find?_eq_of_own h.workflows (by simp)

theorem AgreeOn.findFirstWorkflowExecution (h : AgreeOn workspaceId db db')
    (id workflowId : String) :
    db.findFirstWorkflowExecution id workspaceId workflowId
      = db'.findFirstWorkflowExecution id workspaceId workflowId :=
  find?_eq_of_own h.workflowExecutions (by simp +contextual)

theorem AgreeOn.findManyWorkflowVersion (h : AgreeOn workspaceId db db') {workflow : Workflow}
    (hmem : workflow ∈ db.workflows) (hworkspace : workflow.workspaceId = workspaceId) :
    db.findManyWorkflowVersion ctx workflow.id = db'.findManyWorkflowVersion ctx workflow.id := by
  simp only [Database.findManyWorkflowVersion, h.workflowVersions workflow hmem hworkspace]

theorem AgreeOn.withCurrentVersion (h : AgreeOn workspaceId db db') {workflow : Workflow}
    (hmem : workflow ∈ db.workflows) (hworkspace : workflow.workspaceId = workspaceId) :
    db.withCurrentVersion ctx workflow = db'.withCurrentVersion ctx workflow := by
  simp only [Database.withCurrentVersion, h.findManyWorkflowVersion hmem hworkspace]

theorem AgreeOn.findManyWorkflow (h : AgreeOn workspaceId db db') :
    db.findManyWorkflow ctx workspaceId = db'.findManyWorkflow ctx workspaceId := by
  simp only [Database.findManyWorkflow, ← h.workflows]
  refine List.map_congr_left fun workflow hworkflow => ?_
  rw [orderByDesc, mem_orderByAsc, List.mem_filter, decide_eq_true_eq] at hworkflow
  exact h.withCurrentVersion hworkflow.1 hworkflow.2

theorem AgreeOn.findManyWorkflowExecution (h : AgreeOn workspaceId db db')
    (workflowId : String) :
    db.findManyWorkflowExecution ctx workspaceId workflowId
      = db'.findManyWorkflowExecution ctx workspaceId workflowId := by
  unfold Database.findManyWorkflowExecution
  rw [filter_eq_of_own h.workflowExecutions (by simp +contextual)]

theorem AgreeOn.findManyWorkflowExecutionEvent (h : AgreeOn workspaceId db db')
    (workflowId executionId : String) :
    db.findManyWorkflowExecutionEvent ctx workspaceId workflowId executionId
      = db'.findManyWorkflowExecutionEvent ctx workspaceId workflowId executionId := by
  unfold Database.findManyWorkflowExecutionEvent
  rw [filter_eq_of_own h.workflowExecutionEvents (by simp +contextual)]

theorem AgreeOn.findManyWorkflowNodeExecution (h : AgreeOn workspaceId db db')
    (workflowId executionId : String) :
    db.findManyWorkflowNodeExecution ctx workspaceId workflowId executionId
      = db'.findManyWorkflowNodeExecution ctx workspaceId workflowId executionId := by
  unfold Database.findManyWorkflowNodeExecution
  rw [filter_eq_of_own h.workflowNodeExecutions (by simp +contextual)]

theorem AgreeOn.findManyWorkflowAiTrace (h : AgreeOn workspaceId db db')
    (workflowId executionId : String) :
    db.findManyWorkflowAiTrace ctx workspaceId workflowId executionId
      = db'.findManyWorkflowAiTrace ctx workspaceId workflowId executionId := by
  unfold Database.findManyWorkflowAiTrace
  rw [filter_eq_of_own h.workflowAiTraces (by simp +contextual)]

/-- The substring search is the one query that needs more. -/
theorem AgreeOn.findManyOutboxMessage (h : AgreeOn workspaceId db db')
    (hapart : Apart workspaceId db) (hapart' : Apart workspaceId db')
    {execution : WorkflowExecution} (hmem : execution ∈ db.workflowExecutions)
    (hmem' : execution ∈ db'.workflowExecutions)
    (hworkspace : execution.workspaceId = workspaceId) :
    db.findManyOutboxMessage ctx execution.id = db'.findManyOutboxMessage ctx execution.id := by
  unfold Database.findManyOutboxMessage
  rw [filter_eq_of_own h.outboxMessages]
  intro row hrow hcontains
  rw [decide_eq_true_eq]
  rcases List.mem_append.mp hrow with hrow | hrow
  · exact hapart execution hmem hworkspace row hrow hcontains
  · exact hapart' execution hmem' hworkspace row hrow hcontains

/-! ## Reads on agreeing databases -/

theorem mem_of_findFirstWorkflow {id : String} {workflow : Workflow}
    (h : db.findFirstWorkflow id workspaceId = some workflow) :
    workflow ∈ db.workflows ∧ workflow.id = id ∧ workflow.workspaceId = workspaceId :=
  ⟨List.mem_of_find?_eq_some h, by simpa using List.find?_some h⟩

theorem mem_of_findFirstWorkflowExecution {id workflowId : String} {execution : WorkflowExecution}
    (h : db.findFirstWorkflowExecution id workspaceId workflowId = some execution) :
    execution ∈ db.workflowExecutions ∧ execution.id = id
      ∧ execution.workspaceId = workspaceId ∧ execution.workflowId = workflowId :=
  ⟨List.mem_of_find?_eq_some h, by simpa using List.find?_some h⟩

theorem AgreeOn.ensureWorkflowExists (h : AgreeOn workspaceId db db') (workflowId : String) :
    ensureWorkflowExists db workspaceId workflowId
      = ensureWorkflowExists db' workspaceId workflowId := by
  simp only [Api.ensureWorkflowExists, h.findFirstWorkflow]

theorem AgreeOn.ensureExecutionExists (h : AgreeOn workspaceId db db')
    (workflowId executionId : String) :
    ensureExecutionExists db workspaceId workflowId executionId
      = ensureExecutionExists db' workspaceId workflowId executionId := by
  simp only [Api.ensureExecutionExists, h.findFirstWorkflowExecution]

theorem AgreeOn.findOne (h : AgreeOn workspaceId db db') (workflowId : String) :
    findOne ctx db workspaceId workflowId = findOne ctx db' workspaceId workflowId := by
  simp only [Api.findOne, ← h.findFirstWorkflow]
  cases hfind : db.findFirstWorkflow workflowId workspaceId with
  | none => rfl
  | some workflow =>
      obtain ⟨hmem, -, hworkspace⟩ := mem_of_findFirstWorkflow hfind
      simp only [h.withCurrentVersion hmem hworkspace]

theorem AgreeOn.findVersions (h : AgreeOn workspaceId db db') (workflowId : String) :
    findVersions ctx db workspaceId workflowId = findVersions ctx db' workspaceId workflowId := by
  simp only [Api.findVersions, Api.ensureWorkflowExists, ← h.findFirstWorkflow]
  cases hfind : db.findFirstWorkflow workflowId workspaceId with
  | none => rfl
  | some workflow =>
      obtain ⟨hmem, rfl, hworkspace⟩ := mem_of_findFirstWorkflow hfind
      rw [h.findManyWorkflowVersion hmem hworkspace]

theorem AgreeOn.findExecution (h : AgreeOn workspaceId db db') (workflowId executionId : String) :
    findExecution db workspaceId workflowId executionId
      = findExecution db' workspaceId workflowId executionId := by
  simp only [Api.findExecution, h.findFirstWorkflowExecution]

theorem AgreeOn.findAllForWorkspace (h : AgreeOn workspaceId db db') :
    findAllForWorkspace ctx db workspaceId = findAllForWorkspace ctx db' workspaceId := by
  simp only [Api.findAllForWorkspace, h.findManyWorkflow]

theorem AgreeOn.findExecutions (h : AgreeOn workspaceId db db') (workflowId : String) :
    findExecutions ctx db workspaceId workflowId
      = findExecutions ctx db' workspaceId workflowId := by
  simp only [Api.findExecutions, h.ensureWorkflowExists, h.findManyWorkflowExecution]

theorem AgreeOn.findExecutionEvents (h : AgreeOn workspaceId db db')
    (workflowId executionId : String) :
    findExecutionEvents ctx db workspaceId workflowId executionId
      = findExecutionEvents ctx db' workspaceId workflowId executionId := by
  simp only [Api.findExecutionEvents, h.ensureExecutionExists, h.findManyWorkflowExecutionEvent]

theorem AgreeOn.findExecutionNodes (h : AgreeOn workspaceId db db')
    (workflowId executionId : String) :
    findExecutionNodes ctx db workspaceId workflowId executionId
      = findExecutionNodes ctx db' workspaceId workflowId executionId := by
  simp only [Api.findExecutionNodes, h.ensureExecutionExists, h.findManyWorkflowNodeExecution]

theorem AgreeOn.findExecutionSummary (h : AgreeOn workspaceId db db')
    (workflowId executionId : String) :
    findExecutionSummary ctx db workspaceId workflowId executionId
      = findExecutionSummary ctx db' workspaceId workflowId executionId := by
  simp only [Api.findExecutionSummary, h.findExecution, h.findManyWorkflowNodeExecution,
    h.findManyWorkflowExecutionEvent, h.findManyWorkflowAiTrace]

theorem AgreeOn.findExecutionDiagnostics (h : AgreeOn workspaceId db db')
    (hapart : Apart workspaceId db) (hapart' : Apart workspaceId db')
    (workflowId executionId : String) :
    findExecutionDiagnostics ctx db workspaceId workflowId executionId
      = findExecutionDiagnostics ctx db' workspaceId workflowId executionId := by
  have hsame := h.findFirstWorkflowExecution executionId workflowId
  simp only [Api.findExecutionDiagnostics, Api.findExecution, ← hsame,
    h.findManyWorkflowExecutionEvent]
  cases hfind : db.findFirstWorkflowExecution executionId workspaceId workflowId with
  | none => rfl
  | some execution =>
      obtain ⟨hmem, rfl, hworkspace, -⟩ := mem_of_findFirstWorkflowExecution hfind
      have hmem' := (mem_of_findFirstWorkflowExecution (hsame ▸ hfind)).1
      rw [h.findManyOutboxMessage hapart hapart' hmem hmem' hworkspace]

/-- Where both databases are apart, every read is the same. -/
theorem AgreeOn.run (h : AgreeOn workspaceId db db') (hapart : Apart workspaceId db)
    (hapart' : Apart workspaceId db') (read : WorkflowRead) :
    read.run ctx workspaceId db = read.run ctx workspaceId db' := by
  cases read with
  | findAllForWorkspace => exact h.findAllForWorkspace
  | findOne workflowId => exact h.findOne workflowId
  | findVersions workflowId => exact h.findVersions workflowId
  | findExecutions workflowId => exact h.findExecutions workflowId
  | findExecution workflowId executionId => exact h.findExecution workflowId executionId
  | findExecutionEvents workflowId executionId =>
      exact h.findExecutionEvents workflowId executionId
  | findExecutionNodes workflowId executionId =>
      exact h.findExecutionNodes workflowId executionId
  | findExecutionSummary workflowId executionId =>
      exact h.findExecutionSummary workflowId executionId
  | findExecutionDiagnostics workflowId executionId =>
      exact h.findExecutionDiagnostics hapart hapart' workflowId executionId

end

/-! ## Only where the keys are apart -/

/-- The database without the messages of other workspaces. -/
def Database.ownMessages (db : Database) (workspaceId : String) : Database :=
  { db with outboxMessages := db.outboxMessages.filter (·.payload.workspaceId = workspaceId) }

theorem agreeOn_ownMessages (db : Database) (workspaceId : String) :
    AgreeOn workspaceId db (db.ownMessages workspaceId) where
  workflows := rfl
  workflowVersions _ _ _ := rfl
  workflowExecutions := rfl
  workflowExecutionEvents := rfl
  workflowNodeExecutions := rfl
  workflowAiTraces := rfl
  outboxMessages := by simp [Database.ownMessages]

theorem apart_ownMessages (db : Database) (workspaceId : String) :
    Apart workspaceId (db.ownMessages workspaceId) := by
  intro execution _ _ row hrow _
  simpa using (List.mem_filter.mp hrow).2

/-- The messages of an execution are among its diagnostics, and no others. -/
theorem length_outbox {ctx : DbContext} {db : Database} {workspaceId workflowId id : String}
    {execution : WorkflowExecution} {diagnostics : WorkflowExecutionDiagnostics}
    (hfind : db.findFirstWorkflowExecution id workspaceId workflowId = some execution)
    (h : findExecutionDiagnostics ctx db workspaceId workflowId id = .ok diagnostics) :
    diagnostics.outbox.length
      = (db.outboxMessages.filter (Database.keyContains id)).length := by
  simp only [findExecutionDiagnostics, findExecution, hfind] at h
  cases h
  simp [Database.findManyOutboxMessage, orderByAsc, (List.perm_insertionSort _ _).length_eq]

/-- **Tenant isolation.** The reads of a workspace cannot tell a database
from those that agree with it on the rows of the workspace, and whose
messages are apart, if and only if its own messages are apart. -/
theorem reads_isolated_iff (ctx : DbContext) (workspaceId : String) (db : Database) :
    (∀ db', AgreeOn workspaceId db db' → Apart workspaceId db' →
        ∀ read : WorkflowRead, read.run ctx workspaceId db = read.run ctx workspaceId db')
      ↔ Apart workspaceId db := by
  constructor
  · intro h execution hmem hworkspace row hrow hcontains
    have hfound : (db.findFirstWorkflowExecution execution.id workspaceId
        execution.workflowId).isSome := by
      rw [Database.findFirstWorkflowExecution, List.find?_isSome]
      exact ⟨execution, hmem, by simp [hworkspace]⟩
    obtain ⟨found, hfind⟩ := Option.isSome_iff_exists.mp hfound
    obtain ⟨diagnostics, hread⟩ : ∃ diagnostics, findExecutionDiagnostics ctx db workspaceId
        execution.workflowId execution.id = .ok diagnostics := by
      simp only [findExecutionDiagnostics, findExecution, hfind]
      exact ⟨_, rfl⟩
    -- the same diagnostics, read without the messages of other workspaces
    have hread' : findExecutionDiagnostics ctx (db.ownMessages workspaceId) workspaceId
        execution.workflowId execution.id = .ok diagnostics :=
      (h _ (agreeOn_ownMessages db workspaceId) (apart_ownMessages db workspaceId)
        (.findExecutionDiagnostics execution.workflowId execution.id)).symm.trans hread
    have hfind' : (db.ownMessages workspaceId).findFirstWorkflowExecution execution.id workspaceId
        execution.workflowId = some found := hfind
    have hlength := (length_outbox hfind' hread').symm.trans (length_outbox hfind hread)
    simp only [Database.ownMessages, List.filter_filter] at hlength
    rw [List.filter_congr fun _ _ => Bool.and_comm _ _, ← List.filter_filter,
      List.length_filter_eq_length_iff] at hlength
    simpa using hlength row (List.mem_filter.mpr ⟨hrow, hcontains⟩)
  · intro hapart db' hagree hapart' read
    exact hagree.run hapart hapart' read

/-! ## A node named like an execution -/

/-- A database with one execution, `7f6221c1`. -/
def ownDatabase : Database :=
  { Database.empty with
    workflows := [⟨"workflow", "workspace", "Workflow", "workflow", none, .active, 0, 0⟩]
    workflowVersions := [⟨"version", "workflow", 1, defaultWorkflowDefinition, 0, 0⟩]
    workflowExecutions := [{ id := "7f6221c1", workspaceId := "workspace"
                             workflowId := "workflow", workflowVersionId := "version"
                             requestedByUserId := none, status := .pending, input := .obj []
                             output := none, error := none, startedAt := none
                             completedAt := none, createdAt := 0, updatedAt := 0 }] }

/-- A node of another workspace with that id. -/
def namesakeNode : WorkflowNode where
  nodeId := ⟨"7f6221c1", by decide, by decide⟩
  name := ⟨"Namesake", by decide⟩
  position := none
  config := .manualTrigger

/-- Its start, as the worker stores it. -/
def namesakeStarted : OutboxMessage :=
  Store.newOutboxMessage ⟨0, "row", fun _ => 0⟩ .nodeExecutionStarted
    (createNodeExecutionStartedMessage
      (requestCommand
        { newExecution defaultWorkflowDefinition with workspaceId := "other", id := "b8d1c9e8" }
        "command" "1970-01-01T00:00:00.000Z" "user")
      "event" namesakeNode "node-execution" [] 0)

/-- The message appears among the diagnostics of the execution. -/
theorem reads_not_isolated :
    AgreeOn "workspace" ownDatabase { ownDatabase with outboxMessages := [namesakeStarted] }
      ∧ findExecutionDiagnostics ⟨⟨0, "", fun _ => 0⟩, ""⟩ ownDatabase "workspace" "workflow"
          "7f6221c1"
        ≠ findExecutionDiagnostics ⟨⟨0, "", fun _ => 0⟩, ""⟩
          { ownDatabase with outboxMessages := [namesakeStarted] } "workspace" "workflow"
          "7f6221c1" := by
  have hsender : namesakeStarted.payload.workspaceId = "other" := rfl
  refine ⟨⟨rfl, fun _ _ _ => rfl, rfl, rfl, rfl, rfl, ?_⟩, fun heq => ?_⟩
  · simp [ownDatabase, Database.empty, hsender]
  · have hlength := congrArg (fun result => result.toOption.map (·.outbox.length)) heq
    revert hlength
    decide +kernel

end FlowPilot.Api
