import FlowPilot.WorkflowService.Delivery

/-!
# The database of the API

The tables the workflow service of the API reads and writes, row by row as
the Prisma schema has them, and its queries on them. The timeline and the
outbox are the ones the other services write.

A query lists its rows in the order it asks for, ties in the database's
(`DbContext.rank`). A write answers with a code of Prisma where a constraint
rejects it.
-/

namespace FlowPilot.Api

/-! ## Rows -/

inductive WorkflowStatus where
  | draft
  | active
  | archived
deriving DecidableEq, Repr

def WorkflowStatus.literal : WorkflowStatus → String
  | .draft => "DRAFT"
  | .active => "ACTIVE"
  | .archived => "ARCHIVED"

structure Workflow where
  id : String
  workspaceId : String
  name : String
  slug : String
  description : Option String
  status : WorkflowStatus
  createdAt : Int
  updatedAt : Int
deriving DecidableEq

structure WorkflowVersion where
  id : String
  workflowId : String
  version : Nat
  definition : Json
  createdAt : Int
  updatedAt : Int
deriving DecidableEq

/-- A row of `WorkflowExecution`; `none` is `NULL`. -/
structure WorkflowExecution where
  id : String
  workspaceId : String
  workflowId : String
  workflowVersionId : String
  requestedByUserId : Option String
  status : ExecutionStatus
  input : Json
  output : Option Json
  error : Option Json
  startedAt : Option Int
  completedAt : Option Int
  createdAt : Int
  updatedAt : Int
deriving DecidableEq

/-- `WorkflowNodeExecutionStatus`. -/
inductive NodeExecutionStatus where
  | pending
  | running
  | succeeded
  | failed
  | skipped
deriving DecidableEq, Repr

structure WorkflowNodeExecution where
  id : String
  workspaceId : String
  workflowId : String
  executionId : String
  nodeId : String
  nodeType : String
  status : NodeExecutionStatus
  input : Json
  output : Option Json
  error : Option Json
  startedAt : Option Int
  completedAt : Option Int
  createdAt : Int
  updatedAt : Int

inductive AiTraceStatus where
  | succeeded
  | failed
deriving DecidableEq, Repr

/-- `Decimal(12, 6)`, in millionths. -/
structure Decimal where
  millionths : Int
deriving DecidableEq

/-- `toString`: the integer part, and the decimals that are not trailing
zeros. -/
def Decimal.toString (d : Decimal) : String :=
  let decimals :=
    ((padded 6 (d.millionths.natAbs % 1000000)).toList.reverse.dropWhile (· = '0')).reverse
  (if d.millionths < 0 then "-" else "") ++ padded 1 (d.millionths.natAbs / 1000000)
    ++ (if decimals = [] then "" else "." ++ String.ofList decimals)

example : (⟨-12050000⟩ : Decimal).toString = "-12.05" := by decide +kernel

/-- A row of `WorkflowAiTrace`, without the relations. -/
structure WorkflowAiTrace where
  id : String
  workspaceId : String
  workflowId : Option String
  workflowExecutionId : Option String
  nodeExecutionId : Option String
  nodeId : Option String
  credentialId : Option String
  provider : String
  model : String
  status : AiTraceStatus
  latencyMs : Int
  providerLatencyMs : Option Int
  finishReason : Option String
  inputTokenCount : Int
  outputTokenCount : Int
  totalTokenCount : Int
  estimatedCostUsd : Option Decimal
  inputSizeBytes : Option Int
  outputSizeBytes : Option Int
  schemaValid : Option Bool
  errorCode : Option String
  errorMessage : Option String
  providerStatusCode : Option Int
  retryable : Option Bool
  createdAt : Int

structure Database where
  workflows : List Workflow
  workflowVersions : List WorkflowVersion
  workflowExecutions : List WorkflowExecution
  workflowExecutionEvents : List WorkflowService.WorkflowExecutionEvent
  workflowNodeExecutions : List WorkflowNodeExecution
  workflowAiTraces : List WorkflowAiTrace
  outboxMessages : List OutboxMessage

def Database.empty : Database := ⟨[], [], [], [], [], [], []⟩

/-! ## Queries -/

/-- What the database adds to a call; the last field is the id of a row that
is created inside another. -/
structure DbContext extends FlowPilot.DbContext where
  nestedUuid : String

/-- `orderBy: { key: "asc" }`, ties in the database's order. -/
def orderByAsc {α : Type} (rank : α → Nat) (key : α → Int) (rows : List α) : List α :=
  rows.insertionSort fun a b => key a < key b ∨ key a = key b ∧ rank a ≤ rank b

/-- `orderBy: { key: "desc" }`. -/
def orderByDesc {α : Type} (rank : α → Nat) (key : α → Int) (rows : List α) : List α :=
  orderByAsc rank (fun row => -key row) rows

/-- The rows are only put in order. -/
theorem mem_orderByAsc {α : Type} {rank : α → Nat} {key : α → Int} {rows : List α} {row : α} :
    row ∈ orderByAsc rank key rows ↔ row ∈ rows :=
  (List.perm_insertionSort _ rows).mem_iff

/-- `WorkflowWithCurrentVersion`. -/
structure WorkflowWithCurrentVersion extends Workflow where
  versions : List WorkflowVersion
deriving DecidableEq

namespace Database

variable (db : Database) (ctx : DbContext)

/-- `workflowVersion.findMany({ where: { workflowId }, orderBy: { version:
"desc" } })`. -/
def findManyWorkflowVersion (workflowId : String) : List WorkflowVersion :=
  orderByDesc (fun row => ctx.rank row.id) (fun row => row.version)
    (db.workflowVersions.filter (·.workflowId = workflowId))

/-- `include: workflowWithCurrentVersion`. -/
def withCurrentVersion (workflow : Workflow) : WorkflowWithCurrentVersion :=
  { workflow with versions := (db.findManyWorkflowVersion ctx workflow.id).take 1 }

/-- `workflow.findFirst({ where: { id, workspaceId } })`. -/
def findFirstWorkflow (id workspaceId : String) : Option Workflow :=
  db.workflows.find? fun row => row.id = id ∧ row.workspaceId = workspaceId

/-- `workflowExecution.findFirst({ where: { id, workspaceId, workflowId } })`. -/
def findFirstWorkflowExecution (id workspaceId workflowId : String) : Option WorkflowExecution :=
  db.workflowExecutions.find? fun row =>
    row.id = id ∧ row.workspaceId = workspaceId ∧ row.workflowId = workflowId

/-! ## Writes -/

/-- `data` of `workflow.create`, with the first version inside. -/
structure WorkflowCreateData where
  workspaceId : String
  name : String
  slug : String
  description : Option String
  status : WorkflowStatus
  version : Nat
  definition : Json

/-- The row of a new workflow. -/
def newWorkflow (data : WorkflowCreateData) : Workflow where
  id := ctx.uuid
  workspaceId := data.workspaceId
  name := data.name
  slug := data.slug
  description := data.description
  status := data.status
  createdAt := ctx.now
  updatedAt := ctx.now

/-- The row of its version. -/
def newWorkflowVersion (data : WorkflowCreateData) : WorkflowVersion where
  id := ctx.nestedUuid
  workflowId := ctx.uuid
  version := data.version
  definition := data.definition
  createdAt := ctx.now
  updatedAt := ctx.now

/-- `workflow.create` with a nested `versions.create`, both rows or none.
Ids, `(workspaceId, slug)` and `(workflowId, version)` are unique. -/
def createWorkflow (data : WorkflowCreateData) :
    Except String (WorkflowWithCurrentVersion × Database) :=
  if db.workflows.any (fun row => row.id = ctx.uuid
      ∨ row.workspaceId = data.workspaceId ∧ row.slug = data.slug)
    ∨ db.workflowVersions.any (fun row => row.id = ctx.nestedUuid
      ∨ row.workflowId = ctx.uuid ∧ row.version = data.version) then
    .error "P2002"
  else
    let workflow := newWorkflow ctx data
    let db' := { db with
      workflows := db.workflows ++ [workflow]
      workflowVersions := db.workflowVersions ++ [newWorkflowVersion ctx data] }
    .ok (db'.withCurrentVersion ctx workflow, db')

/-- `data` of `workflowExecution.create`. -/
structure WorkflowExecutionCreateData where
  workspaceId : String
  workflowId : String
  workflowVersionId : String
  requestedByUserId : String
  status : ExecutionStatus
  input : Json

/-- The row of a new execution. -/
def newWorkflowExecution (data : WorkflowExecutionCreateData) : WorkflowExecution where
  id := ctx.uuid
  workspaceId := data.workspaceId
  workflowId := data.workflowId
  workflowVersionId := data.workflowVersionId
  requestedByUserId := some data.requestedByUserId
  status := data.status
  input := data.input
  output := none
  error := none
  startedAt := none
  completedAt := none
  createdAt := ctx.now
  updatedAt := ctx.now

/-- `workflowExecution.create`. The id is unique, and the workflow and its
version exist. -/
def createWorkflowExecution (data : WorkflowExecutionCreateData) :
    Except String (WorkflowExecution × Database) :=
  if db.workflowExecutions.any (·.id = ctx.uuid) then .error "P2002"
  else if db.workflows.any (·.id = data.workflowId)
      ∧ db.workflowVersions.any (·.id = data.workflowVersionId) then
    let execution := newWorkflowExecution ctx data
    .ok (execution, { db with workflowExecutions := db.workflowExecutions ++ [execution] })
  else .error "P2003"

/-! ## What the writes do -/

theorem mem_findManyWorkflowVersion {workflowId : String} {row : WorkflowVersion} :
    row ∈ db.findManyWorkflowVersion ctx workflowId
      ↔ row ∈ db.workflowVersions ∧ row.workflowId = workflowId := by
  simp [findManyWorkflowVersion, orderByDesc, mem_orderByAsc]

variable {db ctx}

theorem createWorkflow_eq_ok {data : WorkflowCreateData} {workflow : WorkflowWithCurrentVersion}
    {db' : Database} (h : db.createWorkflow ctx data = .ok (workflow, db')) :
    workflow = db'.withCurrentVersion ctx (newWorkflow ctx data)
      ∧ db' = { db with
          workflows := db.workflows ++ [newWorkflow ctx data]
          workflowVersions := db.workflowVersions ++ [newWorkflowVersion ctx data] } := by
  unfold createWorkflow at h
  split at h
  · cases h
  · cases h
    exact ⟨rfl, rfl⟩

theorem createWorkflowExecution_eq_ok {data : WorkflowExecutionCreateData}
    {execution : WorkflowExecution} {db' : Database}
    (h : db.createWorkflowExecution ctx data = .ok (execution, db')) :
    execution = newWorkflowExecution ctx data
      ∧ db' = { db with workflowExecutions := db.workflowExecutions ++ [execution] } := by
  unfold createWorkflowExecution at h
  split at h
  · cases h
  · split at h
    · cases h
      exact ⟨rfl, rfl⟩
    · cases h

/-- A workflow that was just created has a version. -/
theorem createWorkflow_versions {data : WorkflowCreateData}
    {workflow : WorkflowWithCurrentVersion} {db' : Database}
    (h : db.createWorkflow ctx data = .ok (workflow, db')) :
    ∃ version, workflow.versions = [version] := by
  obtain ⟨rfl, hdb⟩ := createWorkflow_eq_ok h
  have hmem : newWorkflowVersion ctx data ∈ db'.findManyWorkflowVersion ctx ctx.uuid := by
    rw [mem_findManyWorkflowVersion, hdb]
    exact ⟨List.mem_append_right _ (List.mem_singleton_self _), rfl⟩
  show ∃ version, (db'.findManyWorkflowVersion ctx ctx.uuid).take 1 = [version]
  cases hrows : db'.findManyWorkflowVersion ctx ctx.uuid with
  | nil =>
      rw [hrows] at hmem
      cases hmem
  | cons row rows => exact ⟨row, rfl⟩

end Database

end FlowPilot.Api
