import FlowPilot.Api.Database
import FlowPilot.Api.RequestExecution
import FlowPilot.Lib.Run

/-!
# The publishing operations of the API

`WorkflowsService.create` and `WorkflowsService.requestExecution`, as
programs over the calls the API makes: it draws ids, reads the clock, calls
the database, and publishes through a confirm channel that is opened on
first use. The command that is published for an execution is the one that the
model of the workers starts from (`eventPublication_requested`).
-/

namespace FlowPilot.Api

open Prog hiding pure throw bind tryCatch

/-! ## Calls -/

/-- What a request throws. -/
inductive ApiError where
  | prismaClientKnownRequestError (code : String)
  | conflictException (message : String)
  | notFoundException (message : String)
  | error (message : String)
deriving DecidableEq

/-- The database calls; a workflow comes with its current version. -/
inductive DbCall where
  | findFirstWorkflow (id workspaceId : String)
  | createWorkflow (data : Database.WorkflowCreateData)
  | createWorkflowExecution (data : Database.WorkflowExecutionCreateData)

def DbCall.Result : DbCall → Type
  | findFirstWorkflow _ _ => Option WorkflowWithCurrentVersion
  | createWorkflow _ => WorkflowWithCurrentVersion
  | createWorkflowExecution _ => WorkflowExecution

/-- The answer of a call and the database after it, or Prisma's code for the
constraint that rejects it. -/
def DbCall.run : (c : DbCall) → DbContext → Database → Except String (c.Result × Database)
  | findFirstWorkflow id workspaceId, ctx, db =>
      .ok ((db.findFirstWorkflow id workspaceId).map (db.withCurrentVersion ctx), db)
  | createWorkflow data, ctx, db => db.createWorkflow ctx data
  | createWorkflowExecution data, ctx, db => db.createWorkflowExecution ctx data

inductive ApiOp where
  | newDate
  | randomUUID
  | db (c : DbCall)
  /-- Whether `this.channel` is set. -/
  | readChannel
  | connect
  | createConfirmChannel
  /-- `this.channel` is assigned. -/
  | assignChannel
  | declareTopology
  | publish (p : Publication)
  | waitForConfirms

def ApiOp.Result : ApiOp → Type
  | newDate => Int
  | randomUUID => String
  | db c => c.Result
  | readChannel => Bool
  | _ => Unit

abbrev Request (α : Type) := Prog ApiOp ApiOp.Result ApiError α

abbrev RequestHistory := List (Event ApiOp ApiOp.Result ApiError)

def call (op : ApiOp) : Request op.Result := Prog.perform op

/-- `new Date()`. -/
def newDate : Request Int := call .newDate

def randomUUID : Request String := call .randomUUID

def db (c : DbCall) : Request c.Result := call (.db c)

def readChannel : Request Bool := call .readChannel

def connect : Request Unit := call .connect

def createConfirmChannel : Request Unit := call .createConfirmChannel

def assignChannel : Request Unit := call .assignChannel

def declareTopology : Request Unit := call .declareTopology

/-- `channel.publish`; its answer is not read. -/
def publish (p : Publication) : Request Unit := call (.publish p)

def waitForConfirms : Request Unit := call .waitForConfirms

/-- The result of a function that calls nothing. -/
def ofExcept {α : Type} : Except ApiError α → Request α
  | .ok a => .pure a
  | .error e => .throw e

/-! ## Responses -/

structure WorkflowVersionResponse where
  id : String
  version : Nat
  definition : Json
  createdAt : Int
  updatedAt : Int
deriving DecidableEq

structure WorkflowResponse where
  id : String
  workspaceId : String
  name : String
  slug : String
  description : Option String
  status : WorkflowStatus
  createdAt : Int
  updatedAt : Int
  currentVersion : WorkflowVersionResponse
deriving DecidableEq

/-- Every column. -/
abbrev WorkflowExecutionResponse := WorkflowExecution

def toWorkflowVersionResponse (version : WorkflowVersion) : WorkflowVersionResponse where
  id := version.id
  version := version.version
  definition := version.definition
  createdAt := version.createdAt
  updatedAt := version.updatedAt

def toWorkflowResponse (workflow : WorkflowWithCurrentVersion) :
    Except ApiError WorkflowResponse :=
  match workflow.versions with
  | [] => .error (.notFoundException "Workflow version not found")
  | currentVersion :: _ =>
      .ok
        { id := workflow.id, workspaceId := workflow.workspaceId, name := workflow.name
          slug := workflow.slug, description := workflow.description
          status := workflow.status, createdAt := workflow.createdAt
          updatedAt := workflow.updatedAt
          currentVersion := toWorkflowVersionResponse currentVersion }

def toWorkflowExecutionResponse (execution : WorkflowExecution) : WorkflowExecutionResponse :=
  execution

/-! ## Messages -/

/-- `FlowPilotMessage`, as the API fills it; its actor is a user. -/
structure FlowPilotMessage where
  eventName : FlowPilotRoutingKey
  eventId : String
  schemaVersion : Nat
  occurredAt : String
  workspaceId : String
  correlationId : String
  producer : String
  actorId : String
  idempotencyKey : String
  payload : Json

def FlowPilotMessage.toJson (m : FlowPilotMessage) : Json :=
  .obj [("eventName", .str m.eventName.literal), ("eventId", .str m.eventId),
    ("schemaVersion", .num m.schemaVersion), ("occurredAt", .str m.occurredAt),
    ("workspaceId", .str m.workspaceId), ("correlationId", .str m.correlationId),
    ("producer", .str m.producer),
    ("actor", .obj [("type", .str "user"), ("id", .str m.actorId)]),
    ("idempotencyKey", .str m.idempotencyKey), ("payload", m.payload)]

def createWorkflowCreatedMessage (workflow : WorkflowResponse)
    (eventId occurredAt actorUserId : String) : FlowPilotMessage where
  eventName := .workflowCreated
  eventId
  schemaVersion := messageSchemaVersion
  occurredAt
  workspaceId := workflow.workspaceId
  correlationId := "workflow:" ++ workflow.id
  producer := producerApi
  actorId := actorUserId
  idempotencyKey := "workflow.created:" ++ workflow.id
  payload := .obj [("workflowId", .str workflow.id),
    ("workflowVersionId", .str workflow.currentVersion.id),
    ("version", .num workflow.currentVersion.version), ("name", .str workflow.name),
    ("slug", .str workflow.slug), ("status", .str workflow.status.literal)]

def createWorkflowExecutionRequestedMessage (execution : WorkflowExecutionResponse)
    (workflowVersion : Nat) (eventId occurredAt actorUserId : String) : FlowPilotMessage where
  eventName := .workflowExecutionRequested
  eventId
  schemaVersion := messageSchemaVersion
  occurredAt
  workspaceId := execution.workspaceId
  correlationId := "workflow-execution:" ++ execution.id
  producer := producerApi
  actorId := actorUserId
  idempotencyKey := "workflow.execution.requested:" ++ execution.id
  payload := .obj [("workflowId", .str execution.workflowId),
    ("workflowVersion", .num workflowVersion), ("executionId", .str execution.id),
    ("requestedBy", .obj [("type", .str "user"), ("id", .str actorUserId)]),
    ("input", execution.input)]

/-- `commandRoutingKeys`. -/
def commandRoutingKeys : List FlowPilotRoutingKey := [.workflowExecutionRequested]

def getExchangeForRoutingKey (routingKey : FlowPilotRoutingKey) : FlowPilotExchange :=
  if routingKey ∈ commandRoutingKeys then .commands else .events

/-- What `publishEvent` hands to the channel. -/
def eventPublication [Runtime] (routingKey : FlowPilotRoutingKey) (message : FlowPilotMessage) :
    Publication where
  exchange := getExchangeForRoutingKey routingKey
  routingKey := routingKey.literal
  content := .json message.toJson
  contentType := some "application/json"
  deliveryMode := 2
  messageId := some message.eventId
  timestamp := (Runtime.dateParse message.occurredAt).map (· / 1000)
  type := some message.eventName.literal
  headers := [("correlationId", .str message.correlationId),
    ("producer", .str message.producer), ("schemaVersion", .num message.schemaVersion),
    ("workspaceId", .str message.workspaceId)]

/-- An execution as the worker reads it, with the version it runs. -/
def WorkflowExecution.joined (execution : WorkflowExecution) (version : FlowPilot.WorkflowVersion)
    (input : Record) : FlowPilot.WorkflowExecution where
  id := execution.id
  workspaceId := execution.workspaceId
  workflowId := execution.workflowId
  workflowVersion := version
  status := execution.status
  input
  output := none
  error := none
  startedAt := execution.startedAt
  completedAt := execution.completedAt

/-- The command is the one the worker's model starts from. -/
theorem eventPublication_requested [Runtime] {execution : WorkflowExecution} {input : Record}
    (hinput : execution.input = .obj input) (version : FlowPilot.WorkflowVersion)
    (eventId occurredAt actorUserId : String) :
    eventPublication .workflowExecutionRequested
        (createWorkflowExecutionRequestedMessage execution version.version eventId occurredAt
          actorUserId)
      = requestPublication
          (requestCommand (execution.joined version input) eventId occurredAt actorUserId) := by
  simp only [eventPublication, createWorkflowExecutionRequestedMessage, FlowPilotMessage.toJson,
    hinput]
  rfl

/-! ## `MessagingService` -/

/-- `process.env`, as far as it is read. -/
class ProcessEnv where
  nodeEnv : Option String

def ensureChannel : Request Unit := do
  if ← readChannel then pure ()
  else
    connect
    createConfirmChannel
    assignChannel
    declareTopology

def publishEvent [Runtime] [ProcessEnv] (routingKey : FlowPilotRoutingKey)
    (message : FlowPilotMessage) : Request Unit :=
  if ProcessEnv.nodeEnv = some "test" then pure ()
  else do
    ensureChannel
    publish (eventPublication routingKey message)
    waitForConfirms

/-! ## `WorkflowsService` -/

structure CreateWorkflowDto where
  name : String
  slug : String
  description : Option String
  definition : Option Json

structure CreateWorkflowExecutionDto where
  input : Option Record

def getInitialDefinition (definition : Option Json) : Json :=
  definition.getD defaultWorkflowDefinition

def getExecutionInput (input : Option Record) : Json := .obj (input.getD [])

/-- The `catch` block of `create`. -/
def rethrowConflict {α : Type} : ApiError → Request α
  | .prismaClientKnownRequestError "P2002" =>
      throw (.conflictException "Workflow slug already exists in this workspace")
  | error => throw error

section

variable [Runtime] [ProcessEnv]

/-- What `create` does once it has the workflow. -/
def announceWorkflow (actorUserId : String) (workflow : WorkflowWithCurrentVersion) :
    Request WorkflowResponse := do
  let response ← ofExcept (toWorkflowResponse workflow)
  let eventId ← randomUUID
  let occurredAt ← newDate
  publishEvent .workflowCreated
    (createWorkflowCreatedMessage response eventId (toISOString occurredAt) actorUserId)
  pure response

/-- `data` of the `workflow.create` of `create`. -/
def draftWorkflow (workspaceId : String) (dto : CreateWorkflowDto) :
    Database.WorkflowCreateData where
  workspaceId
  name := dto.name
  slug := dto.slug
  description := dto.description
  status := .draft
  version := 1
  definition := getInitialDefinition dto.definition

def create (workspaceId : String) (dto : CreateWorkflowDto) (actorUserId : String) :
    Request WorkflowResponse :=
  Prog.tryCatch
    (do
      let workflow ← db (.createWorkflow (draftWorkflow workspaceId dto))
      announceWorkflow actorUserId workflow)
    rethrowConflict

/-- What `requestExecution` does once it has the execution. -/
def announceExecution (workflowVersion : Nat) (actorUserId : String)
    (execution : WorkflowExecution) : Request WorkflowExecutionResponse := do
  let response := toWorkflowExecutionResponse execution
  let eventId ← randomUUID
  let occurredAt ← newDate
  publishEvent .workflowExecutionRequested
    (createWorkflowExecutionRequestedMessage response workflowVersion eventId
      (toISOString occurredAt) actorUserId)
  pure response

def requestExecution (workspaceId workflowId : String) (dto : CreateWorkflowExecutionDto)
    (actorUserId : String) : Request WorkflowExecutionResponse := do
  match ← db (.findFirstWorkflow workflowId workspaceId) with
  | none => throw (.notFoundException "Workflow not found")
  | some workflow =>
      match workflow.versions with
      | [] => throw (.notFoundException "Workflow version not found")
      | currentVersion :: _ =>
          let execution ← db (.createWorkflowExecution
            { workspaceId, workflowId, workflowVersionId := currentVersion.id
              requestedByUserId := actorUserId, status := .pending
              input := getExecutionInput dto.input })
          announceExecution currentVersion.version actorUserId execution

end

/-! ## The world of a request -/

structure ApiWorld where
  db : Database
  /-- Whether `this.channel` is set. -/
  channel : Bool
  /-- What was handed to the broker. -/
  publications : List Publication

/-- The effect of a call that is not refused, or the constraint that rejects
it. -/
def ApiOp.run : (op : ApiOp) → DbContext → ApiWorld → Except String (op.Result × ApiWorld)
  | .newDate, ctx, w => .ok (ctx.now, w)
  | .randomUUID, ctx, w => .ok (ctx.uuid, w)
  | .db c, ctx, w => (c.run ctx w.db).map fun (r, db') => (r, { w with db := db' })
  | .readChannel, _, w => .ok (w.channel, w)
  | .assignChannel, _, w => .ok ((), { w with channel := true })
  | .publish p, _, w => .ok ((), { w with publications := w.publications ++ [p] })
  | .connect, _, w => .ok ((), w)
  | .createConfirmChannel, _, w => .ok ((), w)
  | .declareTopology, _, w => .ok ((), w)
  | .waitForConfirms, _, w => .ok ((), w)

/-- The calls that do not throw. -/
def ApiOp.Infallible : ApiOp → Prop
  | .newDate => True
  | .randomUUID => True
  | .readChannel => True
  | .assignChannel => True
  | _ => False

/-- The errors a call may throw. Prisma reports a violated unique constraint
where there is one. -/
def ApiOp.Throws (op : ApiOp) (ctx : DbContext) (w : ApiWorld) : ApiError → Prop
  | .error _ => ¬ op.Infallible
  | .prismaClientKnownRequestError code =>
      ∃ c, op = .db c ∧ (code = "P2002" → c.run ctx w.db = .error code)
  | _ => False

/-- One call against the world. -/
def ApiOp.exec (op : ApiOp) (w : ApiWorld) (reply : Reply ApiError op.Result) (w' : ApiWorld) :
    Prop :=
  ∃ ctx, match reply with
    | .ok r => op.run ctx w = .ok (r, w')
    | .lost e => op.Throws ctx w e ∧ ∃ r, op.run ctx w = .ok (r, w')
    | .failed e => op.Throws ctx w e ∧ w' = w

end FlowPilot.Api
