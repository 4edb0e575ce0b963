import FlowPilot.Api.Workflows
import FlowPilot.Lib.Pool
import FlowPilot.Lib.Table

/-!
# Editing workflows

`createVersion`, `restoreVersion` and `updateMetadata` of `WorkflowsService`,
and `create` from the publishing operations, as requests that any number of
editors make at once. A number of a version is taken from an earlier read;
the unique `(workflowId, version)` is all that orders the writes.
-/

namespace FlowPilot.Api

open Prog hiding pure throw bind tryCatch

/-! ## The queries and the write -/

/-- What the database adds to an edit. Whether Prisma sets `updatedAt` where
no column of the row is set is left open. -/
structure EditContext extends api : DbContext where
  touches : Bool

namespace Database

/-- `versions: { create }`. -/
structure VersionCreateData where
  version : Nat
  definition : Json

/-- `data` of `workflow.update`; a column that is `none` is not set. -/
structure WorkflowUpdateData where
  name : Option String
  slug : Option String
  description : Option (Option String)
  status : Option WorkflowStatus
  versions : Option VersionCreateData

variable (db : Database) (ctx : EditContext)

/-- `workflowVersion.findFirst({ where: { id, workflowId } })`. -/
def findFirstWorkflowVersion (id workflowId : String) : Option WorkflowVersion :=
  db.workflowVersions.find? fun row => row.id = id ∧ row.workflowId = workflowId

/-- Whether a column of the workflow is set. -/
def WorkflowUpdateData.sets (data : WorkflowUpdateData) : Bool :=
  data.name.isSome || data.slug.isSome || data.description.isSome || data.status.isSome

/-- The workflow, updated. -/
def WorkflowUpdateData.apply (data : WorkflowUpdateData) (workflow : Workflow) : Workflow :=
  { workflow with
    name := data.name.getD workflow.name
    slug := data.slug.getD workflow.slug
    description := data.description.getD workflow.description
    status := data.status.getD workflow.status
    updatedAt := if data.sets || ctx.touches then ctx.now else workflow.updatedAt }

/-- The row of a further version. -/
def nextWorkflowVersion (workflowId : String) (data : VersionCreateData) : WorkflowVersion where
  id := ctx.nestedUuid
  workflowId
  version := data.version
  definition := data.definition
  createdAt := ctx.now
  updatedAt := ctx.now

/-- `workflow.update({ where: { id } })`, with a nested `versions.create` if
there is one, both rows or none. -/
def updateWorkflow (id : String) (data : WorkflowUpdateData) :
    Except String (WorkflowWithCurrentVersion × Database) :=
  match db.workflows.find? (·.id = id) with
  | none => .error "P2025"
  | some workflow =>
      let updated := data.apply ctx workflow
      if db.workflows.any (fun row => row.id ≠ id ∧ row.workspaceId = updated.workspaceId
          ∧ row.slug = updated.slug)
        ∨ data.versions.any (fun nested => db.workflowVersions.any fun row =>
          row.id = ctx.nestedUuid ∨ row.workflowId = id ∧ row.version = nested.version) then
        .error "P2002"
      else
        let db' := { db with
          workflows := db.workflows.map fun row => if row.id = id then data.apply ctx row else row
          workflowVersions :=
            db.workflowVersions ++ (data.versions.map (nextWorkflowVersion ctx id)).toList }
        .ok (db'.withCurrentVersion ctx.api updated, db')

variable {db ctx}

/-- A workflow is created under a number that is free. -/
theorem createWorkflow_fresh {ctx : DbContext} {data : WorkflowCreateData}
    {workflow : WorkflowWithCurrentVersion} {db' : Database}
    (h : db.createWorkflow ctx data = .ok (workflow, db')) :
    ∀ row ∈ db.workflowVersions, row.workflowId = ctx.uuid → row.version ≠ data.version := by
  unfold createWorkflow at h
  split at h
  · cases h
  · rename_i hfree
    intro row hrow hid hversion
    refine hfree (Or.inr ?_)
    simp only [List.any_eq_true, decide_eq_true_eq]
    exact ⟨row, hrow, Or.inr ⟨hid, hversion⟩⟩

theorem updateWorkflow_eq_ok {id : String} {data : WorkflowUpdateData}
    {updated : WorkflowWithCurrentVersion} {db' : Database}
    (h : db.updateWorkflow ctx id data = .ok (updated, db')) :
    (∃ workflow ∈ db.workflows, workflow.id = id
        ∧ updated = db'.withCurrentVersion ctx.api (data.apply ctx workflow))
      ∧ (∀ nested, data.versions = some nested →
        ∀ row ∈ db.workflowVersions, row.workflowId = id → row.version ≠ nested.version)
      ∧ db' = { db with
          workflows := db.workflows.map fun row => if row.id = id then data.apply ctx row else row
          workflowVersions :=
            db.workflowVersions ++ (data.versions.map (nextWorkflowVersion ctx id)).toList } := by
  unfold updateWorkflow at h
  split at h
  · cases h
  · rename_i workflow hfind
    dsimp only at h
    split at h
    · cases h
    · rename_i hfree
      cases h
      refine ⟨⟨workflow, List.mem_of_find?_eq_some hfind, ?_, rfl⟩, ?_, rfl⟩
      · simpa using List.find?_some hfind
      · intro nested hnested row hrow hid hversion
        refine hfree (Or.inr ?_)
        simp only [hnested, Option.any_some, List.any_eq_true, decide_eq_true_eq]
        exact ⟨row, hrow, Or.inr ⟨hid, hversion⟩⟩

/-- A workflow to which a version was added comes with a version. -/
theorem updateWorkflow_versions {id : String} {data : WorkflowUpdateData}
    {updated : WorkflowWithCurrentVersion} {db' : Database}
    (h : db.updateWorkflow ctx id data = .ok (updated, db'))
    (hnested : data.versions.isSome = true) :
    ∃ version, updated.versions = [version] := by
  obtain ⟨⟨workflow, -, hid, rfl⟩, -, hdb⟩ := updateWorkflow_eq_ok h
  obtain ⟨nested, hnested⟩ := Option.isSome_iff_exists.mp hnested
  have hmem :
      nextWorkflowVersion ctx id nested ∈ db'.findManyWorkflowVersion ctx.api workflow.id := by
    rw [mem_findManyWorkflowVersion, hdb, hnested]
    exact ⟨List.mem_append_right _ (List.mem_singleton_self _), hid.symm⟩
  show ∃ version, (db'.findManyWorkflowVersion ctx.api workflow.id).take 1 = [version]
  cases hrows : db'.findManyWorkflowVersion ctx.api workflow.id with
  | nil =>
      rw [hrows] at hmem
      cases hmem
  | cons row rows => exact ⟨row, rfl⟩

end Database

/-! ## Calls -/

inductive EditCall where
  /-- `select: { id: true }`. -/
  | selectWorkflow (id workspaceId : String)
  | findFirstWorkflowVersion (id workflowId : String)
  | updateWorkflow (id : String) (data : Database.WorkflowUpdateData)

def EditCall.Result : EditCall → Type
  | selectWorkflow _ _ => Option String
  | findFirstWorkflowVersion _ _ => Option WorkflowVersion
  | updateWorkflow _ _ => WorkflowWithCurrentVersion

def EditCall.run : (c : EditCall) → EditContext → Database →
    Except String (c.Result × Database)
  | selectWorkflow id workspaceId, _, db =>
      .ok ((db.findFirstWorkflow id workspaceId).map (·.id), db)
  | findFirstWorkflowVersion id workflowId, _, db =>
      .ok (db.findFirstWorkflowVersion id workflowId, db)
  | updateWorkflow id data, ctx, db => db.updateWorkflow ctx id data

/-- The calls of the publishing operations, and those of the edits. -/
abbrev EditOp := ApiOp ⊕ EditCall

abbrev EditOp.Result : EditOp → Type := Sum.elim ApiOp.Result EditCall.Result

abbrev EditRequest (α : Type) := Prog EditOp EditOp.Result ApiError α

abbrev EditEvent := Event EditOp EditOp.Result ApiError

abbrev EditHistory := List EditEvent

namespace EditRequest

def lift {α : Type} (p : Request α) : EditRequest α := p.inl

def edit (c : EditCall) : EditRequest c.Result :=
  @Prog.perform EditOp EditOp.Result ApiError (.inr c)

def findFirstWorkflow (id workspaceId : String) :
    EditRequest (Option WorkflowWithCurrentVersion) :=
  @Prog.perform EditOp EditOp.Result ApiError (.inl (.db (.findFirstWorkflow id workspaceId)))

end EditRequest

/-! ## `WorkflowsService` -/

/-- A field that is `none` is not given; `some none` is `null`. -/
structure UpdateWorkflowDto where
  name : Option String
  slug : Option String
  description : Option (Option String)
  status : Option WorkflowStatus

structure CreateWorkflowVersionDto where
  definition : Json

namespace EditRequest

def ensureWorkflowExists (workspaceId workflowId : String) : EditRequest Unit := do
  match ← edit (.selectWorkflow workflowId workspaceId) with
  | none => throw (.notFoundException "Workflow not found")
  | some _ => pure ()

def updateMetadata (workspaceId workflowId : String) (dto : UpdateWorkflowDto) :
    EditRequest WorkflowResponse := do
  ensureWorkflowExists workspaceId workflowId
  Prog.tryCatch
    (do
      let workflow ← edit (.updateWorkflow workflowId
        ⟨dto.name, dto.slug, dto.description, dto.status, none⟩)
      lift (ofExcept (toWorkflowResponse workflow)))
    (fun error => lift (rethrowConflict error))

/-- The end of `createVersion` and `restoreVersion`. -/
def appendVersion (workflow : WorkflowWithCurrentVersion) (currentVersion : WorkflowVersion)
    (definition : Json) : EditRequest WorkflowResponse := do
  let updatedWorkflow ← edit (.updateWorkflow workflow.id
    ⟨none, none, none, none, some ⟨currentVersion.version + 1, definition⟩⟩)
  lift (ofExcept (toWorkflowResponse updatedWorkflow))

def createVersion (workspaceId workflowId : String) (dto : CreateWorkflowVersionDto) :
    EditRequest WorkflowResponse := do
  match ← findFirstWorkflow workflowId workspaceId with
  | none => throw (.notFoundException "Workflow not found")
  | some workflow =>
      match workflow.versions with
      | [] => throw (.notFoundException "Workflow version not found")
      | currentVersion :: _ => appendVersion workflow currentVersion dto.definition

def restoreVersion (workspaceId workflowId versionId : String) :
    EditRequest WorkflowResponse := do
  match ← findFirstWorkflow workflowId workspaceId with
  | none => throw (.notFoundException "Workflow not found")
  | some workflow =>
      match ← edit (.findFirstWorkflowVersion versionId workflowId) with
      | none => throw (.notFoundException "Workflow version not found")
      | some sourceVersion =>
          match workflow.versions with
          | [] => throw (.notFoundException "Workflow version not found")
          | currentVersion :: _ => appendVersion workflow currentVersion sourceVersion.definition

end EditRequest

/-! ## Any number of editors -/

/-- The errors a call of an edit may throw. -/
def EditCall.Throws (c : EditCall) (ctx : EditContext) (db : Database) : ApiError → Prop
  | .error _ => True
  | .prismaClientKnownRequestError code => code = "P2002" → c.run ctx db = .error code
  | _ => False

/-- One call of an edit against the database. -/
def EditCall.exec (c : EditCall) (db : Database) (reply : Reply ApiError c.Result)
    (db' : Database) : Prop :=
  ∃ ctx, match reply with
    | .ok r => c.run ctx db = .ok (r, db')
    | .lost e => c.Throws ctx db e ∧ ∃ r, c.run ctx db = .ok (r, db')
    | .failed e => c.Throws ctx db e ∧ db' = db

def EditOp.exec : (op : EditOp) → ApiWorld → Reply ApiError (EditOp.Result op) → ApiWorld → Prop
  | .inl op, w, reply, w' => op.exec w reply w'
  | .inr c, w, reply, w' => ∃ db', c.exec w.db reply db' ∧ w' = { w with db := db' }

inductive EditJob where
  | create (workspaceId : String) (dto : CreateWorkflowDto) (actorUserId : String)
  | createVersion (workspaceId workflowId : String) (dto : CreateWorkflowVersionDto)
  | restoreVersion (workspaceId workflowId versionId : String)
  | updateMetadata (workspaceId workflowId : String) (dto : UpdateWorkflowDto)

section

variable [Runtime] [ProcessEnv]

def EditJob.request : EditJob → EditRequest WorkflowResponse
  | .create workspaceId dto actorUserId => .lift (Api.create workspaceId dto actorUserId)
  | .createVersion workspaceId workflowId dto => .createVersion workspaceId workflowId dto
  | .restoreVersion workspaceId workflowId versionId =>
      .restoreVersion workspaceId workflowId versionId
  | .updateMetadata workspaceId workflowId dto => .updateMetadata workspaceId workflowId dto

def EditJob.program (job : EditJob) : EditRequest Unit := do
  let _ ← job.request
  pure ()

/-- Any number of edits, and a database that may change by itself as `env`
says. A request that dies takes no further step. -/
def editSystem (env : ApiWorld → ApiWorld → Prop) :
    PoolSystem ApiWorld EditJob EditOp EditOp.Result ApiError where
  exec := EditOp.exec
  program := EditJob.program
  spawn _ w w' := w' = w
  stop _ _ _ _ := False
  env := env

end

abbrev EditPool := Pool Nat ApiWorld EditJob EditOp EditOp.Result ApiError

abbrev EditLabel := Pool.Label Nat EditJob EditOp EditOp.Result ApiError

/-- A world, and no request yet. -/
def ApiWorld.idle (w : ApiWorld) : EditPool := ⟨w, fun _ => none⟩

end FlowPilot.Api
