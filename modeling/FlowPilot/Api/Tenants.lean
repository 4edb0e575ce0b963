import FlowPilot.Api.Atomicity
import FlowPilot.Api.WorkflowRoutes
import FlowPilot.Lib.Table

/-!
# The rows of a workspace

`Database.only` keeps what belongs to one workspace: its rows, and the
versions of its workflows. A write of the workspace can be made on these rows
alone, and leaves those of all others as they are. For that ids have to be
unique across workspaces (`Database.Keyed`, `EditContext.Fresh`), since the
columns that a row refers to another by do not name the workspace.
-/

namespace FlowPilot.Api

/-! ## What belongs to a workspace -/

namespace Database

/-- The workflow belongs to the workspace. -/
def Owns (db : Database) (workspaceId workflowId : String) : Prop :=
  ∃ workflow ∈ db.workflows, workflow.id = workflowId ∧ workflow.workspaceId = workspaceId

instance (db : Database) (workspaceId workflowId : String) :
    Decidable (db.Owns workspaceId workflowId) :=
  List.decidableBEx _ _

/-- The rows of the workspace, and the versions of its workflows. -/
def only (db : Database) (workspaceId : String) : Database where
  workflows := db.workflows.filter (·.workspaceId = workspaceId)
  workflowVersions := db.workflowVersions.filter (db.Owns workspaceId ·.workflowId)
  workflowExecutions := db.workflowExecutions.filter (·.workspaceId = workspaceId)
  workflowExecutionEvents := db.workflowExecutionEvents.filter (·.workspaceId = workspaceId)
  workflowNodeExecutions := db.workflowNodeExecutions.filter (·.workspaceId = workspaceId)
  workflowAiTraces := db.workflowAiTraces.filter (·.workspaceId = workspaceId)
  outboxMessages := db.outboxMessages.filter (·.payload.workspaceId = workspaceId)

/-- Ids of workflows are unique, and a version has a workflow. -/
structure Keyed (db : Database) : Prop where
  workflow_ids : (db.workflows.map (·.id)).Nodup
  version_workflow : ∀ row ∈ db.workflowVersions, ∃ workflow ∈ db.workflows,
    workflow.id = row.workflowId

end Database

/-- The message is sent for the workspace. -/
def sentFor (workspaceId : String) (p : Publication) : Bool :=
  p.headers.lookup "workspaceId" = some (.str workspaceId)

/-- What a workspace has: a database, and the messages sent for it. -/
structure Tenant where
  db : Database
  publications : List Publication

/-- What the world holds for the workspace. -/
def ApiWorld.tenant (w : ApiWorld) (workspaceId : String) : Tenant where
  db := w.db.only workspaceId
  publications := w.publications.filter (sentFor workspaceId)

/-- A world of its own, but for the channel. -/
def Tenant.world (tenant : Tenant) (channel : Bool) : ApiWorld where
  db := tenant.db
  channel := channel
  publications := tenant.publications

/-- The rest is not there. -/
def ApiWorld.only (w : ApiWorld) (workspaceId : String) : ApiWorld :=
  (w.tenant workspaceId).world w.channel

section

variable {db db' : Database} {workspaceId other workflowId : String} {ctx : EditContext}

theorem Database.owns_only :
    (db.only workspaceId).Owns workspaceId workflowId ↔ db.Owns workspaceId workflowId := by
  constructor
  · rintro ⟨workflow, hmem, h⟩
    exact ⟨workflow, (List.mem_filter.mp hmem).1, h⟩
  · rintro ⟨workflow, hmem, h⟩
    exact ⟨workflow, List.mem_filter.mpr ⟨hmem, by simpa using h.2⟩, h⟩

/-- A workflow belongs to one workspace. -/
theorem Database.Owns.unique (h : db.Owns workspaceId workflowId) (hkeyed : db.Keyed)
    (hother : db.Owns other workflowId) : other = workspaceId := by
  obtain ⟨workflow, hmem, hid, rfl⟩ := h
  obtain ⟨workflow', hmem', hid', rfl⟩ := hother
  rw [List.inj_on_of_nodup_map hkeyed.workflow_ids hmem' hmem (hid'.trans hid.symm)]

theorem agreeOn_only : AgreeOn workspaceId db (db.only workspaceId) where
  workflows := by simp [Database.only]
  workflowVersions workflow hmem hworkspace := by
    rw [Database.only, List.filter_filter]
    refine List.filter_congr fun row _ => ?_
    by_cases hrow : row.workflowId = workflow.id
    · have howns : db.Owns workspaceId row.workflowId := ⟨workflow, hmem, hrow.symm, hworkspace⟩
      simp [hrow, hrow ▸ howns]
    · simp [hrow]
  workflowExecutions := by simp [Database.only]
  workflowExecutionEvents := by simp [Database.only]
  workflowNodeExecutions := by simp [Database.only]
  workflowAiTraces := by simp [Database.only]
  outboxMessages := by simp [Database.only]

theorem Database.Keyed.only (h : db.Keyed) : (db.only workspaceId).Keyed where
  workflow_ids := h.workflow_ids.sublist (List.filter_sublist.map _)
  version_workflow row hrow := by
    obtain ⟨-, howns⟩ := List.mem_filter.mp hrow
    obtain ⟨workflow, hmem, hid, -⟩ := Database.owns_only.mpr (by simpa using howns)
    exact ⟨workflow, hmem, hid⟩

theorem EditContext.Fresh.only (h : ctx.Fresh db) : ctx.Fresh (db.only workspaceId) where
  workflow row hrow := h.workflow row (List.mem_of_mem_filter hrow)
  workflowVersion row hrow := h.workflowVersion row (List.mem_of_mem_filter hrow)
  workflowExecution row hrow := h.workflowExecution row (List.mem_of_mem_filter hrow)

end

/-! ## Creating a workflow -/

namespace Database

variable {db : Database} {workspaceId other : String} {ctx : EditContext} {workflow : Workflow}
  {version : WorkflowVersion}

/-- A workflow and its version are added. -/
def addWorkflow (db : Database) (workflow : Workflow) (version : WorkflowVersion) : Database :=
  { db with
    workflows := db.workflows ++ [workflow]
    workflowVersions := db.workflowVersions ++ [version] }

theorem owns_addWorkflow {workflowId : String} :
    (db.addWorkflow workflow version).Owns other workflowId
      ↔ db.Owns other workflowId ∨ workflow.id = workflowId ∧ workflow.workspaceId = other := by
  simp [Owns, addWorkflow, or_and_right, exists_or]

/-- The versions that there were belong to whom they belonged. -/
theorem filter_addWorkflow (hkeyed : db.Keyed) (hnew : ∀ row ∈ db.workflows, row.id ≠ workflow.id) :
    db.workflowVersions.filter (fun row =>
        (db.addWorkflow workflow version).Owns other row.workflowId)
      = db.workflowVersions.filter (fun row => db.Owns other row.workflowId) := by
  refine List.filter_congr fun row hrow => ?_
  obtain ⟨old, hold, hid⟩ := hkeyed.version_workflow row hrow
  have hne : workflow.id ≠ row.workflowId := fun h => hnew old hold (hid.trans h.symm)
  simp [owns_addWorkflow, hne]

theorem only_addWorkflow (hkeyed : db.Keyed) (hnew : ∀ row ∈ db.workflows, row.id ≠ workflow.id)
    (hversion : version.workflowId = workflow.id) :
    (db.addWorkflow workflow version).only workflow.workspaceId
      = (db.only workflow.workspaceId).addWorkflow workflow version := by
  have howns : (db.addWorkflow workflow version).Owns workflow.workspaceId version.workflowId :=
    owns_addWorkflow.mpr (Or.inr ⟨hversion.symm, rfl⟩)
  have hworkflows : (db.addWorkflow workflow version).workflows.filter
        (·.workspaceId = workflow.workspaceId)
      = db.workflows.filter (·.workspaceId = workflow.workspaceId) ++ [workflow] := by
    simp [addWorkflow]
  have hversions : (db.addWorkflow workflow version).workflowVersions.filter
        (fun row => (db.addWorkflow workflow version).Owns workflow.workspaceId row.workflowId)
      = (db.only workflow.workspaceId).workflowVersions ++ [version] := by
    show (db.workflowVersions ++ [version]).filter _ = _
    rw [List.filter_append, filter_addWorkflow hkeyed hnew, List.filter_cons_of_pos (by simpa),
      List.filter_nil]
    rfl
  rw [only, hworkflows, hversions]
  rfl

theorem only_addWorkflow_of_ne (hkeyed : db.Keyed)
    (hnew : ∀ row ∈ db.workflows, row.id ≠ workflow.id)
    (hversion : version.workflowId = workflow.id) (hother : other ≠ workflow.workspaceId) :
    (db.addWorkflow workflow version).only other = db.only other := by
  have howns : ¬ (db.addWorkflow workflow version).Owns other version.workflowId := by
    rw [owns_addWorkflow]
    rintro (⟨old, hold, hid, -⟩ | ⟨-, hworkspace⟩)
    · exact hnew old hold (hid.trans hversion)
    · exact hother hworkspace.symm
  have hworkflows : (db.addWorkflow workflow version).workflows.filter (·.workspaceId = other)
      = db.workflows.filter (·.workspaceId = other) := by
    simp [addWorkflow, hother.symm]
  have hversions : (db.addWorkflow workflow version).workflowVersions.filter
        (fun row => (db.addWorkflow workflow version).Owns other row.workflowId)
      = (db.only other).workflowVersions := by
    show (db.workflowVersions ++ [version]).filter _ = _
    rw [List.filter_append, filter_addWorkflow hkeyed hnew, List.filter_cons_of_neg (by simpa),
      List.filter_nil, List.append_nil]
    rfl
  rw [only, hworkflows, hversions]
  rfl

/-- A workflow is refused for its slug, since its ids are new. -/
theorem createWorkflow_conflicts (hkeyed : db.Keyed) (hfresh : ctx.Fresh db)
    {data : WorkflowCreateData} :
    (db.workflows.any (fun row => row.id = ctx.uuid
        ∨ row.workspaceId = data.workspaceId ∧ row.slug = data.slug)
      ∨ db.workflowVersions.any (fun row => row.id = ctx.nestedUuid
        ∨ row.workflowId = ctx.uuid ∧ row.version = data.version))
      ↔ ∃ row ∈ db.workflows, row.workspaceId = data.workspaceId ∧ row.slug = data.slug := by
  simp only [List.any_eq_true, decide_eq_true_eq]
  constructor
  · rintro (⟨row, hrow, hid | hslug⟩ | ⟨row, hrow, hid | ⟨hid, -⟩⟩)
    · exact absurd hid (hfresh.workflow row hrow)
    · exact ⟨row, hrow, hslug⟩
    · exact absurd hid (hfresh.workflowVersion row hrow)
    · obtain ⟨workflow, hmem, hworkflow⟩ := hkeyed.version_workflow row hrow
      exact absurd (hworkflow.trans hid) (hfresh.workflow workflow hmem)
  · rintro ⟨row, hrow, hslug⟩
    exact Or.inl ⟨row, hrow, Or.inr hslug⟩

/-- A workflow is created among the rows of its workspace. -/
theorem createWorkflow_only (hkeyed : db.Keyed) (hfresh : ctx.Fresh db)
    {data : WorkflowCreateData} :
    (db.only data.workspaceId).createWorkflow ctx.api data
      = (db.createWorkflow ctx.api data).map fun (r, db') => (r, db'.only data.workspaceId) := by
  have hconflict : (∃ row ∈ (db.only data.workspaceId).workflows,
        row.workspaceId = data.workspaceId ∧ row.slug = data.slug)
      ↔ ∃ row ∈ db.workflows, row.workspaceId = data.workspaceId ∧ row.slug = data.slug := by
    simp [only, and_assoc]
  have hadd : (db.addWorkflow (newWorkflow ctx.api data) (newWorkflowVersion ctx.api data)).only
        data.workspaceId
      = (db.only data.workspaceId).addWorkflow (newWorkflow ctx.api data)
        (newWorkflowVersion ctx.api data) :=
    only_addWorkflow hkeyed hfresh.workflow rfl
  unfold createWorkflow
  simp only [createWorkflow_conflicts hkeyed hfresh,
    createWorkflow_conflicts hkeyed.only hfresh.only, hconflict]
  split
  · rfl
  · refine congrArg Except.ok (Prod.ext ?_ hadd.symm)
    show ((db.only data.workspaceId).addWorkflow _ _).withCurrentVersion ctx.api _
      = (db.addWorkflow _ _).withCurrentVersion ctx.api _
    rw [← hadd]
    exact (agreeOn_only.withCurrentVersion
      (List.mem_append_right _ (List.mem_singleton_self _)) rfl).symm

/-! ## Editing a workflow -/

variable {id : String} {f : Workflow → Workflow} {versions : List WorkflowVersion}

/-- A workflow is changed, and versions of it are added. -/
def editWorkflow (db : Database) (id : String) (f : Workflow → Workflow)
    (versions : List WorkflowVersion) : Database :=
  { db with
    workflows := db.workflows.map fun row => if row.id = id then f row else row
    workflowVersions := db.workflowVersions ++ versions }

theorem owns_editWorkflow (hid : ∀ row, (f row).id = row.id)
    (hworkspace : ∀ row, (f row).workspaceId = row.workspaceId) {workflowId : String} :
    (db.editWorkflow id f versions).Owns other workflowId ↔ db.Owns other workflowId := by
  have hkept : ∀ row : Workflow, (if row.id = id then f row else row).id = row.id
      ∧ (if row.id = id then f row else row).workspaceId = row.workspaceId := by
    intro row
    split
    · exact ⟨hid row, hworkspace row⟩
    · exact ⟨rfl, rfl⟩
  simp [Owns, editWorkflow, hkept]

theorem only_editWorkflow (hid : ∀ row, (f row).id = row.id)
    (hworkspace : ∀ row, (f row).workspaceId = row.workspaceId)
    (hversions : ∀ version ∈ versions, version.workflowId = id)
    (howns : db.Owns workspaceId id) :
    (db.editWorkflow id f versions).only workspaceId
      = (db.only workspaceId).editWorkflow id f versions := by
  have hworkflows : (db.editWorkflow id f versions).workflows.filter (·.workspaceId = workspaceId)
      = ((db.only workspaceId).editWorkflow id f versions).workflows := by
    simp only [editWorkflow, only, List.filter_map]
    congr 2
    funext row
    simp only [Function.comp]
    split <;> simp [hworkspace]
  have hadded : (db.editWorkflow id f versions).workflowVersions.filter
        (fun row => (db.editWorkflow id f versions).Owns workspaceId row.workflowId)
      = ((db.only workspaceId).editWorkflow id f versions).workflowVersions := by
    have hall : versions.filter (fun row => db.Owns workspaceId row.workflowId) = versions :=
      List.filter_eq_self.mpr fun version hversion => by
        simpa only [hversions version hversion, decide_eq_true_eq] using howns
    simp only [owns_editWorkflow hid hworkspace]
    show (db.workflowVersions ++ versions).filter _ = _
    rw [List.filter_append, hall]
    rfl
  rw [only, hworkflows, hadded]
  rfl

theorem only_editWorkflow_of_ne (hkeyed : db.Keyed) (hid : ∀ row, (f row).id = row.id)
    (hworkspace : ∀ row, (f row).workspaceId = row.workspaceId)
    (hversions : ∀ version ∈ versions, version.workflowId = id)
    (howns : db.Owns workspaceId id) (hother : other ≠ workspaceId) :
    (db.editWorkflow id f versions).only other = db.only other := by
  have hnot : ¬ db.Owns other id := fun h => hother (howns.unique hkeyed h)
  have hworkflows : (db.editWorkflow id f versions).workflows.filter (·.workspaceId = other)
      = db.workflows.filter (·.workspaceId = other) := by
    refine Table.filter_update fun row hrow heq => ?_
    have hne : row.workspaceId ≠ other := fun h => hnot ⟨row, hrow, heq, h⟩
    simp [hworkspace, hne]
  have hadded : (db.editWorkflow id f versions).workflowVersions.filter
        (fun row => (db.editWorkflow id f versions).Owns other row.workflowId)
      = (db.only other).workflowVersions := by
    have hnone : versions.filter (fun row => db.Owns other row.workflowId) = [] :=
      List.filter_eq_nil_iff.mpr fun version hversion => by
        simpa only [hversions version hversion, decide_eq_true_eq] using hnot
    simp only [owns_editWorkflow hid hworkspace]
    show (db.workflowVersions ++ versions).filter _ = _
    rw [List.filter_append, hnone, List.append_nil]
    rfl
  rw [only, hworkflows, hadded]
  rfl

/-- The workflow is found among the rows of its workspace. -/
theorem find?_only (hkeyed : db.Keyed) (howns : db.Owns workspaceId id) :
    (db.only workspaceId).workflows.find? (·.id = id) = db.workflows.find? (·.id = id) := by
  rw [← List.head?_filter, ← List.head?_filter]
  refine congrArg List.head? (filter_eq_of_own agreeOn_only.workflows fun row hrow hid => ?_).symm
  have hmem : row ∈ db.workflows :=
    (List.mem_append.mp hrow).elim (fun h => h) List.mem_of_mem_filter
  simp only [decide_eq_true_eq] at hid ⊢
  exact howns.unique hkeyed ⟨row, hmem, hid, rfl⟩

/-- What an update is refused for: a slug of the workspace, or a number of the
workflow. -/
def Conflicts (db : Database) (workspaceId id slug : String) (nested : Option VersionCreateData) :
    Prop :=
  (∃ row ∈ db.workflows, row.id ≠ id ∧ row.workspaceId = workspaceId ∧ row.slug = slug)
    ∨ ∃ data, nested = some data ∧ ∃ row ∈ db.workflowVersions,
      row.workflowId = id ∧ row.version = data.version

theorem updateWorkflow_conflicts (hfresh : ctx.Fresh db) {slug : String}
    {nested : Option VersionCreateData} :
    (db.workflows.any (fun row => row.id ≠ id ∧ row.workspaceId = workspaceId ∧ row.slug = slug)
      ∨ nested.any (fun nested => db.workflowVersions.any fun row =>
        row.id = ctx.nestedUuid ∨ row.workflowId = id ∧ row.version = nested.version))
      ↔ db.Conflicts workspaceId id slug nested := by
  simp only [List.any_eq_true, decide_eq_true_eq, Option.any_eq_true]
  refine or_congr Iff.rfl (exists_congr fun data => and_congr Iff.rfl (exists_congr fun row =>
    and_congr_right fun hrow => ?_))
  simp [hfresh.workflowVersion row hrow]

/-- The rows of the workspace decide. -/
theorem conflicts_only (howns : db.Owns workspaceId id) {slug : String}
    {nested : Option VersionCreateData} :
    (db.only workspaceId).Conflicts workspaceId id slug nested
      ↔ db.Conflicts workspaceId id slug nested := by
  refine or_congr (exists_congr fun row => ?_) (exists_congr fun data => and_congr Iff.rfl
    (exists_congr fun row => ?_))
  · simp only [only, List.mem_filter, decide_eq_true_eq]
    exact ⟨fun h => ⟨h.1.1, h.2⟩, fun h => ⟨⟨h.1, h.2.2.1⟩, h.2⟩⟩
  · simp only [only, List.mem_filter, decide_eq_true_eq]
    exact ⟨fun h => ⟨h.1.1, h.2⟩, fun h => ⟨⟨h.1, h.2.1 ▸ howns⟩, h.2⟩⟩

/-- A workflow is updated among the rows of its workspace. -/
theorem updateWorkflow_only (hkeyed : db.Keyed) (hfresh : ctx.Fresh db)
    {data : WorkflowUpdateData} (howns : db.Owns workspaceId id) :
    (db.only workspaceId).updateWorkflow ctx id data
      = (db.updateWorkflow ctx id data).map fun (r, db') => (r, db'.only workspaceId) := by
  unfold updateWorkflow
  rw [find?_only hkeyed howns]
  cases hfind : db.workflows.find? (·.id = id) with
  | none => rfl
  | some workflow =>
      have hmem := List.mem_of_find?_eq_some hfind
      have hid : workflow.id = id := by simpa using List.find?_some hfind
      have hworkspace : (data.apply ctx workflow).workspaceId = workspaceId :=
        howns.unique hkeyed ⟨workflow, hmem, hid, rfl⟩
      have hversions : ∀ version ∈ (data.versions.map (nextWorkflowVersion ctx id)).toList,
          version.workflowId = id := by
        simp +contextual [nextWorkflowVersion]
      have hedit := only_editWorkflow (f := data.apply ctx) (fun _ => rfl) (fun _ => rfl)
        hversions howns
      dsimp only
      rw [hworkspace]
      by_cases hconflicts :
          db.Conflicts workspaceId id (data.apply ctx workflow).slug data.versions
      · rw [if_pos ((updateWorkflow_conflicts hfresh).mpr hconflicts),
          if_pos ((updateWorkflow_conflicts hfresh.only).mpr
            ((conflicts_only howns).mpr hconflicts))]
        rfl
      · rw [if_neg (mt (updateWorkflow_conflicts hfresh).mp hconflicts),
          if_neg (mt (updateWorkflow_conflicts hfresh.only).mp
            (mt (conflicts_only howns).mp hconflicts))]
        refine congrArg Except.ok (Prod.ext ?_ hedit.symm)
        show ((db.only workspaceId).editWorkflow id (data.apply ctx) _).withCurrentVersion _ _
          = (db.editWorkflow id (data.apply ctx) _).withCurrentVersion _ _
        rw [← hedit]
        refine (agreeOn_only.withCurrentVersion ?_ hworkspace).symm
        exact Table.mem_update.mpr (Or.inr ⟨workflow, hmem, hid, rfl⟩)

/-! ## Creating an execution -/

/-- The workflow has the version. -/
def HasVersion (db : Database) (id workflowId : String) : Prop :=
  ∃ version ∈ db.workflowVersions, version.id = id ∧ version.workflowId = workflowId

theorem createWorkflowExecution_eq (hfresh : ctx.Fresh db) {data : WorkflowExecutionCreateData}
    (howns : db.Owns data.workspaceId data.workflowId)
    (hversion : db.HasVersion data.workflowVersionId data.workflowId) :
    db.createWorkflowExecution ctx.api data
      = .ok (newWorkflowExecution ctx.api data, { db with
          workflowExecutions :=
            db.workflowExecutions ++ [newWorkflowExecution ctx.api data] }) := by
  obtain ⟨workflow, hworkflow, hid, -⟩ := howns
  obtain ⟨version, hmem, hversion, -⟩ := hversion
  have hnew : ¬ db.workflowExecutions.any (·.id = ctx.uuid) = true := by
    simpa using hfresh.workflowExecution
  have hrefs : db.workflows.any (·.id = data.workflowId) = true
      ∧ db.workflowVersions.any (·.id = data.workflowVersionId) = true := by
    simp only [List.any_eq_true, decide_eq_true_eq]
    exact ⟨⟨workflow, hworkflow, hid⟩, version, hmem, hversion⟩
  rw [createWorkflowExecution, if_neg hnew, if_pos hrefs]

/-- An execution is created among the rows of its workspace. -/
theorem createWorkflowExecution_only (hfresh : ctx.Fresh db) {data : WorkflowExecutionCreateData}
    (howns : db.Owns data.workspaceId data.workflowId)
    (hversion : db.HasVersion data.workflowVersionId data.workflowId) :
    (db.only data.workspaceId).createWorkflowExecution ctx.api data
      = (db.createWorkflowExecution ctx.api data).map
        fun (r, db') => (r, db'.only data.workspaceId) := by
  have hversion' : (db.only data.workspaceId).HasVersion data.workflowVersionId
      data.workflowId := by
    obtain ⟨version, hmem, hid, hworkflow⟩ := hversion
    exact ⟨version, List.mem_filter.mpr ⟨hmem, by simpa [hworkflow] using howns⟩, hid, hworkflow⟩
  rw [createWorkflowExecution_eq hfresh howns hversion,
    createWorkflowExecution_eq hfresh.only (owns_only.mpr howns) hversion']
  refine congrArg Except.ok (Prod.ext rfl ?_)
  simp [only, newWorkflowExecution, Owns]

theorem createWorkflowExecution_of_ne {data : WorkflowExecutionCreateData}
    {execution : WorkflowExecution} {db' : Database}
    (h : db.createWorkflowExecution ctx.api data = .ok (execution, db'))
    (hother : other ≠ data.workspaceId) : db'.only other = db.only other := by
  obtain ⟨rfl, rfl⟩ := createWorkflowExecution_eq_ok h
  simp [only, newWorkflowExecution, Owns, hother.symm]

end Database

end FlowPilot.Api
