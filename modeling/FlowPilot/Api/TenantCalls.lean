import FlowPilot.Api.Tenants

/-!
# Calls within a workspace

Some statements name a workflow, or a version of it, without its workspace.
`RouteOp.Within` is what makes a call stay in the workspace: it names the
workspace, or a workflow that the workspace owns. Such a call does on the rows
of the workspace what it does on all rows (`RouteOp.exec_only`), and leaves
the other workspaces as they are (`RouteOp.exec_of_ne`).
-/

namespace FlowPilot.Api

/-! ## Staying within -/

/-- The call concerns the workspace, given the workflows that are known to
belong to it, and their versions. -/
def RouteOp.Within (workspaceId : String) (Owned : String → Prop)
    (Version : String → String → Prop) : RouteOp → Prop
  | .inl (.inl (.db (.findFirstWorkflow _ workspaceId'))) => workspaceId' = workspaceId
  | .inl (.inl (.db (.createWorkflow data))) => data.workspaceId = workspaceId
  | .inl (.inl (.db (.createWorkflowExecution data))) => data.workspaceId = workspaceId
      ∧ Owned data.workflowId ∧ Version data.workflowVersionId data.workflowId
  | .inl (.inl (.publish p)) => sentFor workspaceId p = true
  | .inl (.inl _) => True
  | .inl (.inr (.selectWorkflow _ workspaceId')) => workspaceId' = workspaceId
  | .inl (.inr (.findFirstWorkflowVersion _ workflowId)) => Owned workflowId
  | .inl (.inr (.updateWorkflow id _)) => Owned id
  | .inr (.findManyWorkflow workspaceId') => workspaceId' = workspaceId
  | .inr (.findManyWorkflowVersion workflowId) => Owned workflowId
  | .inr (.findManyWorkflowExecution workspaceId' _) => workspaceId' = workspaceId
  | .inr (.findFirstWorkflowExecution _ workspaceId' _) => workspaceId' = workspaceId
  | .inr (.selectWorkflowExecution _ workspaceId' _) => workspaceId' = workspaceId
  | .inr (.findManyWorkflowExecutionEvent workspaceId' _ _) => workspaceId' = workspaceId
  | .inr (.findManyWorkflowNodeExecution workspaceId' _ _) => workspaceId' = workspaceId
  | .inr (.findManyWorkflowAiTrace workspaceId' _ _) => workspaceId' = workspaceId
  | .inr (.findManyOutboxMessage _) => False

theorem RouteOp.Within.mono {workspaceId : String} {Owned Owned' : String → Prop}
    {Version Version' : String → String → Prop} {op : RouteOp}
    (howned : ∀ id, Owned id → Owned' id)
    (hversion : ∀ id workflowId, Version id workflowId → Version' id workflowId)
    (h : op.Within workspaceId Owned Version) : op.Within workspaceId Owned' Version' := by
  rcases op with (op | c) | c
  · cases op with
    | db c =>
        cases c with
        | createWorkflowExecution data => exact ⟨h.1, howned _ h.2.1, hversion _ _ h.2.2⟩
        | _ => exact h
    | _ => exact h
  · cases c with
    | selectWorkflow id workspaceId' => exact h
    | findFirstWorkflowVersion id workflowId => exact howned _ h
    | updateWorkflow id data => exact howned _ h
  · cases c with
    | findManyWorkflowVersion workflowId => exact howned _ h
    | _ => exact h

/-- The call concerns the workspace, by what the tables hold. -/
def RouteOp.In (db : Database) (workspaceId : String) (op : RouteOp) : Prop :=
  op.Within workspaceId (db.Owns workspaceId) db.HasVersion

section

variable {db : Database} {w w' : ApiWorld} {workspaceId other : String} {ctx : EditContext}

/-! ## On the rows of the workspace -/

theorem DbCall.run_only (hkeyed : db.Keyed) (hfresh : ctx.Fresh db) {c : DbCall}
    (hin : RouteOp.In db workspaceId (.inl (.inl (.db c)))) :
    c.run ctx.api (db.only workspaceId)
      = (c.run ctx.api db).map fun (r, db') => (r, db'.only workspaceId) := by
  cases c with
  | findFirstWorkflow id workspaceId' =>
      obtain rfl : workspaceId' = workspaceId := hin
      simp only [run, ← agreeOn_only.findFirstWorkflow]
      cases hfind : db.findFirstWorkflow id workspaceId' with
      | none => rfl
      | some workflow =>
          obtain ⟨hmem, -, hworkspace⟩ := mem_of_findFirstWorkflow hfind
          rw [Option.map_some, ← agreeOn_only.withCurrentVersion hmem hworkspace]
          rfl
  | createWorkflow data =>
      obtain rfl : data.workspaceId = workspaceId := hin
      exact Database.createWorkflow_only hkeyed hfresh
  | createWorkflowExecution data =>
      obtain ⟨rfl, howns, hversion⟩ := hin
      exact Database.createWorkflowExecution_only hfresh howns hversion

theorem EditCall.run_only (hkeyed : db.Keyed) (hfresh : ctx.Fresh db) {c : EditCall}
    (hin : RouteOp.In db workspaceId (.inl (.inr c))) :
    c.run ctx (db.only workspaceId)
      = (c.run ctx db).map fun (r, db') => (r, db'.only workspaceId) := by
  cases c with
  | selectWorkflow id workspaceId' =>
      obtain rfl : workspaceId' = workspaceId := hin
      simp only [run, ← agreeOn_only.findFirstWorkflow]
      rfl
  | findFirstWorkflowVersion id workflowId =>
      have howns : db.Owns workspaceId workflowId := hin
      have hfind : (db.only workspaceId).findFirstWorkflowVersion id workflowId
          = db.findFirstWorkflowVersion id workflowId := by
        have hown : db.workflowVersions.filter (fun row => db.Owns workspaceId row.workflowId)
            = (db.only workspaceId).workflowVersions.filter
              fun row => db.Owns workspaceId row.workflowId := by
          simp [Database.only]
        refine (find?_eq_of_own hown fun row hrow => ?_).symm
        simp only [decide_eq_true_eq] at hrow ⊢
        exact hrow.2 ▸ howns
      simp only [run, hfind]
      rfl
  | updateWorkflow id data => exact Database.updateWorkflow_only hkeyed hfresh hin

theorem QueryCall.run_only {c : QueryCall} (hin : RouteOp.In db workspaceId (.inr c)) :
    c.run ctx.api (db.only workspaceId) = c.run ctx.api db := by
  cases c with
  | findManyWorkflow workspaceId' =>
      obtain rfl : workspaceId' = workspaceId := hin
      exact agreeOn_only.findManyWorkflow.symm
  | findManyWorkflowVersion workflowId =>
      obtain ⟨workflow, hmem, rfl, hworkspace⟩ : db.Owns workspaceId workflowId := hin
      exact (agreeOn_only.findManyWorkflowVersion hmem hworkspace).symm
  | findManyWorkflowExecution workspaceId' workflowId =>
      obtain rfl : workspaceId' = workspaceId := hin
      exact (agreeOn_only.findManyWorkflowExecution workflowId).symm
  | findFirstWorkflowExecution id workspaceId' workflowId =>
      obtain rfl : workspaceId' = workspaceId := hin
      exact (agreeOn_only.findFirstWorkflowExecution id workflowId).symm
  | selectWorkflowExecution id workspaceId' workflowId =>
      obtain rfl : workspaceId' = workspaceId := hin
      simp only [run, ← agreeOn_only.findFirstWorkflowExecution]
      rfl
  | findManyWorkflowExecutionEvent workspaceId' workflowId executionId =>
      obtain rfl : workspaceId' = workspaceId := hin
      exact (agreeOn_only.findManyWorkflowExecutionEvent workflowId executionId).symm
  | findManyWorkflowNodeExecution workspaceId' workflowId executionId =>
      obtain rfl : workspaceId' = workspaceId := hin
      exact (agreeOn_only.findManyWorkflowNodeExecution workflowId executionId).symm
  | findManyWorkflowAiTrace workspaceId' workflowId executionId =>
      obtain rfl : workspaceId' = workspaceId := hin
      exact (agreeOn_only.findManyWorkflowAiTrace workflowId executionId).symm
  | findManyOutboxMessage executionId => exact hin.elim

/-- The call does on the rows of the workspace what it does on all rows. -/
theorem RouteOp.run_only (hkeyed : w.db.Keyed) (hfresh : ctx.Fresh w.db) {op : RouteOp}
    (hin : op.In w.db workspaceId) :
    op.run ctx (w.only workspaceId)
      = (op.run ctx w).map fun (r, w') => (r, w'.only workspaceId) := by
  rcases op with (op | c) | c
  · cases op with
    | db c =>
        have hcall := DbCall.run_only hkeyed hfresh hin
        show ((c.run ctx.api (w.db.only workspaceId)).map _) = ((c.run ctx.api w.db).map _).map _
        rw [hcall]
        cases c.run ctx.api w.db <;> rfl
    | publish p =>
        have hsent : sentFor workspaceId p = true := hin
        refine congrArg Except.ok (Prod.ext rfl ?_)
        simp [ApiWorld.only, ApiWorld.tenant, Tenant.world, hsent]
    | _ => rfl
  · show ((c.run ctx (w.db.only workspaceId)).map _) = ((c.run ctx w.db).map _).map _
    rw [EditCall.run_only hkeyed hfresh hin]
    cases c.run ctx w.db <;> rfl
  · exact congrArg Except.ok (Prod.ext (QueryCall.run_only hin) rfl)

theorem RouteOp.throws_only (hkeyed : w.db.Keyed) (hfresh : ctx.Fresh w.db) {op : RouteOp}
    (hin : op.In w.db workspaceId) {e : ApiError} (h : op.Throws ctx w e) :
    op.Throws ctx (w.only workspaceId) e := by
  rcases op with (op | c) | c
  · cases e with
    | prismaClientKnownRequestError code =>
        obtain ⟨c, rfl, hcode⟩ := h
        refine ⟨c, rfl, fun hconflict => ?_⟩
        show c.run ctx.api (w.db.only workspaceId) = _
        rw [DbCall.run_only hkeyed hfresh hin, hcode hconflict]
        rfl
    | _ => exact h
  · cases e with
    | prismaClientKnownRequestError code =>
        intro hconflict
        show c.run ctx (w.db.only workspaceId) = _
        rw [EditCall.run_only hkeyed hfresh hin, h hconflict]
        rfl
    | _ => exact h
  · cases e with
    | prismaClientKnownRequestError code => exact h
    | _ => exact h

theorem RouteOp.exec_only (hkeyed : w.db.Keyed) {op : RouteOp} (hin : op.In w.db workspaceId)
    {reply : Reply ApiError (RouteOp.Result op)} (h : op.exec w reply w') :
    op.exec (w.only workspaceId) reply (w'.only workspaceId) := by
  obtain ⟨ctx, hfresh, h⟩ := h
  have hrun : ∀ {r : RouteOp.Result op}, op.run ctx w = .ok (r, w') →
      op.run ctx (w.only workspaceId) = .ok (r, w'.only workspaceId) := by
    intro r hrun
    rw [run_only hkeyed hfresh hin, hrun]
    rfl
  refine ⟨ctx, hfresh.only, ?_⟩
  cases reply with
  | ok r => exact hrun h
  | lost e =>
      obtain ⟨hthrows, r, h⟩ := h
      exact ⟨throws_only hkeyed hfresh hin hthrows, r, hrun h⟩
  | failed e =>
      obtain ⟨hthrows, rfl⟩ := h
      exact ⟨throws_only hkeyed hfresh hin hthrows, rfl⟩

/-! ## On the rows of the others -/

/-- What a call makes of the world when it takes effect. -/
inductive RouteOp.Effect (ctx : EditContext) (w : ApiWorld) : RouteOp → ApiWorld → Prop
  | none {op : RouteOp} {w' : ApiWorld} : w'.db = w.db → w'.publications = w.publications →
      Effect ctx w op w'
  | createWorkflow {data : Database.WorkflowCreateData} :
      Effect ctx w (.inl (.inl (.db (.createWorkflow data))))
        { w with
          db := w.db.addWorkflow (Database.newWorkflow ctx.api data)
            (Database.newWorkflowVersion ctx.api data) }
  | createWorkflowExecution {data : Database.WorkflowExecutionCreateData}
      {execution : WorkflowExecution} {db' : Database} :
      w.db.createWorkflowExecution ctx.api data = .ok (execution, db') →
      Effect ctx w (.inl (.inl (.db (.createWorkflowExecution data)))) { w with db := db' }
  | publish {p : Publication} :
      Effect ctx w (.inl (.inl (.publish p))) { w with publications := w.publications ++ [p] }
  | updateWorkflow {id : String} {data : Database.WorkflowUpdateData} :
      (∃ workflow ∈ w.db.workflows, workflow.id = id) →
      Effect ctx w (.inl (.inr (.updateWorkflow id data)))
        { w with
          db := w.db.editWorkflow id (data.apply ctx)
            (data.versions.map (Database.nextWorkflowVersion ctx id)).toList }

theorem RouteOp.run_effect {op : RouteOp} {r : RouteOp.Result op}
    (hrun : op.run ctx w = .ok (r, w')) : RouteOp.Effect ctx w op w' := by
  rcases op with (op | c) | c
  · cases op with
    | db c =>
        obtain ⟨db', hcall, rfl⟩ := run_db_call hrun
        cases c with
        | findFirstWorkflow id workspaceId =>
            cases hcall
            exact .none rfl rfl
        | createWorkflow data =>
            obtain ⟨-, rfl⟩ := Database.createWorkflow_eq_ok hcall
            exact .createWorkflow
        | createWorkflowExecution data => exact .createWorkflowExecution hcall
    | publish p =>
        cases hrun
        exact .publish
    | _ =>
        cases hrun
        exact .none rfl rfl
  · simp only [run] at hrun
    cases hcall : c.run ctx w.db with
    | error code =>
        rw [hcall] at hrun
        cases hrun
    | ok result =>
        rw [hcall] at hrun
        cases hrun
        cases c with
        | updateWorkflow id data =>
            obtain ⟨⟨workflow, hmem, hid, -⟩, -, hdb⟩ := Database.updateWorkflow_eq_ok hcall
            rw [hdb]
            exact .updateWorkflow ⟨workflow, hmem, hid⟩
        | _ =>
            cases hcall
            exact .none rfl rfl
  · cases hrun
    exact .none rfl rfl

/-- A call has an effect or none. -/
theorem RouteOp.exec_effect {op : RouteOp} {reply : Reply ApiError (RouteOp.Result op)}
    (h : op.exec w reply w') : w' = w ∨ ∃ ctx, ctx.Fresh w.db ∧ RouteOp.Effect ctx w op w' := by
  obtain ⟨ctx, hfresh, h⟩ := h
  cases reply with
  | ok r => exact Or.inr ⟨ctx, hfresh, run_effect h⟩
  | lost e =>
      obtain ⟨-, r, hrun⟩ := h
      exact Or.inr ⟨ctx, hfresh, run_effect hrun⟩
  | failed e => exact Or.inl h.2

/-- A message is sent for one workspace. -/
theorem sentFor_of_ne {p : Publication} (h : sentFor workspaceId p = true)
    (hother : other ≠ workspaceId) : sentFor other p = false := by
  simp only [sentFor, decide_eq_true_eq, decide_eq_false_iff_not] at h ⊢
  rw [h]
  simpa using hother.symm

/-- The call leaves the rows of the other workspaces as they are. -/
theorem RouteOp.Effect.tenant_of_ne {op : RouteOp} (h : RouteOp.Effect ctx w op w')
    (hkeyed : w.db.Keyed) (hfresh : ctx.Fresh w.db) (hin : op.In w.db workspaceId)
    (hother : other ≠ workspaceId) : w'.tenant other = w.tenant other := by
  cases h with
  | none hdb hpublications => rw [ApiWorld.tenant, ApiWorld.tenant, hdb, hpublications]
  | createWorkflow =>
      obtain rfl : _ = workspaceId := hin
      exact congrArg (Tenant.mk · _)
        (Database.only_addWorkflow_of_ne hkeyed hfresh.workflow rfl hother)
  | createWorkflowExecution hcreate =>
      obtain ⟨rfl, -⟩ := hin
      exact congrArg (Tenant.mk · _) (Database.createWorkflowExecution_of_ne hcreate hother)
  | publish =>
      refine congrArg (Tenant.mk _) ?_
      simp [sentFor_of_ne hin hother]
  | updateWorkflow _ =>
      refine congrArg (Tenant.mk · _) (Database.only_editWorkflow_of_ne hkeyed (fun _ => rfl)
        (fun _ => rfl) ?_ hin hother)
      simp +contextual [Database.nextWorkflowVersion]

theorem RouteOp.exec_of_ne (hkeyed : w.db.Keyed) {op : RouteOp} (hin : op.In w.db workspaceId)
    {reply : Reply ApiError (RouteOp.Result op)} (h : op.exec w reply w')
    (hother : other ≠ workspaceId) : w'.tenant other = w.tenant other := by
  rcases RouteOp.exec_effect h with rfl | ⟨ctx, hfresh, heffect⟩
  · rfl
  · exact heffect.tenant_of_ne hkeyed hfresh hin hother

/-! ## What a call keeps -/

theorem Database.Keyed.addWorkflow (h : db.Keyed) {workflow : Workflow} {version : WorkflowVersion}
    (hnew : ∀ row ∈ db.workflows, row.id ≠ workflow.id)
    (hversion : version.workflowId = workflow.id) : (db.addWorkflow workflow version).Keyed where
  workflow_ids := Table.nodup_insert h.workflow_ids hnew
  version_workflow row hrow := by
    rcases List.mem_append.mp hrow with hold | hlast
    · obtain ⟨old, hmem, hid⟩ := h.version_workflow row hold
      exact ⟨old, List.mem_append_left _ hmem, hid⟩
    · obtain rfl := List.mem_singleton.mp hlast
      exact ⟨workflow, List.mem_append_right _ (List.mem_singleton_self _), hversion.symm⟩

theorem Database.Keyed.editWorkflow (h : db.Keyed) {id : String} {f : Workflow → Workflow}
    {versions : List WorkflowVersion} (hid : ∀ row, (f row).id = row.id)
    (hversions : ∀ version ∈ versions, version.workflowId = id)
    (hworkflow : ∃ workflow ∈ db.workflows, workflow.id = id) :
    (db.editWorkflow id f versions).Keyed := by
  have hids : (db.editWorkflow id f versions).workflows.map (·.id) = db.workflows.map (·.id) :=
    Table.map_update hid
  have hstill : ∀ workflowId, (∃ workflow ∈ db.workflows, workflow.id = workflowId) →
      ∃ workflow ∈ (db.editWorkflow id f versions).workflows, workflow.id = workflowId := by
    intro workflowId hworkflow
    rw [← List.mem_map] at hworkflow ⊢
    exact hids ▸ hworkflow
  refine ⟨hids ▸ h.workflow_ids, fun row hrow => hstill _ ?_⟩
  rcases List.mem_append.mp hrow with hold | hnew
  · exact h.version_workflow row hold
  · exact hversions row hnew ▸ hworkflow

theorem RouteOp.exec_keyed (hkeyed : w.db.Keyed) {op : RouteOp}
    {reply : Reply ApiError (RouteOp.Result op)} (h : op.exec w reply w') : w'.db.Keyed := by
  rcases RouteOp.exec_effect h with rfl | ⟨ctx, hfresh, heffect⟩
  · exact hkeyed
  · cases heffect with
    | none hdb _ => exact hdb ▸ hkeyed
    | createWorkflow => exact hkeyed.addWorkflow hfresh.workflow rfl
    | createWorkflowExecution hcreate =>
        obtain ⟨-, rfl⟩ := Database.createWorkflowExecution_eq_ok hcreate
        exact ⟨hkeyed.workflow_ids, hkeyed.version_workflow⟩
    | publish => exact hkeyed
    | updateWorkflow hworkflow =>
        exact hkeyed.editWorkflow (fun _ => rfl)
          (by simp +contextual [Database.nextWorkflowVersion]) hworkflow

/-- Workflows stay in their workspace. -/
theorem RouteOp.exec_owns {op : RouteOp} {reply : Reply ApiError (RouteOp.Result op)}
    (h : op.exec w reply w') {workflowId : String} (howns : w.db.Owns workspaceId workflowId) :
    w'.db.Owns workspaceId workflowId := by
  rcases RouteOp.exec_effect h with rfl | ⟨ctx, -, heffect⟩
  · exact howns
  · cases heffect with
    | none hdb _ => exact hdb ▸ howns
    | createWorkflow => exact Database.owns_addWorkflow.mpr (Or.inl howns)
    | createWorkflowExecution hcreate =>
        obtain ⟨-, rfl⟩ := Database.createWorkflowExecution_eq_ok hcreate
        exact howns
    | publish => exact howns
    | @updateWorkflow id data _ =>
        exact (Database.owns_editWorkflow (f := data.apply ctx) (fun _ => rfl) fun _ => rfl).mpr
          howns

/-- Versions stay with their workflow. -/
theorem RouteOp.exec_hasVersion {op : RouteOp} {reply : Reply ApiError (RouteOp.Result op)}
    (h : op.exec w reply w') {id workflowId : String} (hversion : w.db.HasVersion id workflowId) :
    w'.db.HasVersion id workflowId := by
  obtain ⟨version, hmem, hid⟩ := hversion
  rcases RouteOp.exec_effect h with rfl | ⟨ctx, -, heffect⟩
  · exact ⟨version, hmem, hid⟩
  · cases heffect with
    | none hdb _ => exact ⟨version, hdb ▸ hmem, hid⟩
    | createWorkflow => exact ⟨version, List.mem_append_left _ hmem, hid⟩
    | createWorkflowExecution hcreate =>
        obtain ⟨-, rfl⟩ := Database.createWorkflowExecution_eq_ok hcreate
        exact ⟨version, hmem, hid⟩
    | publish => exact ⟨version, hmem, hid⟩
    | updateWorkflow _ => exact ⟨version, List.mem_append_left _ hmem, hid⟩

end

end FlowPilot.Api
