import FlowPilot.Api.TenantCalls

/-!
# Requests within a workspace

The routes of `WorkflowsController` stay in the workspace of their path: a
statement that names a workflow without its workspace comes after a lookup in
the workspace that found it, and a message is sent for the workspace of the
row that it announces (`handle_stays`). The diagnostics are not among them:
they search the outbox of all workspaces.
-/

namespace FlowPilot.Api

open Prog hiding pure throw bind tryCatch

/-! ## The routes -/

inductive WorkflowRoute where
  | create (dto : CreateWorkflowDto) (actorUserId : String)
  | updateMetadata (workflowId : String) (dto : UpdateWorkflowDto)
  | createVersion (workflowId : String) (dto : CreateWorkflowVersionDto)
  | restoreVersion (workflowId versionId : String)
  | requestExecution (workflowId : String) (dto : CreateWorkflowExecutionDto)
      (actorUserId : String)
  | read (read : WorkflowRead)

namespace WorkflowRoute

/-- All but the diagnostics. -/
def Scoped : WorkflowRoute → Prop
  | read (.findExecutionDiagnostics _ _) => False
  | _ => True

/-- The handler of the route, without its response. -/
def handle [Runtime] [ProcessEnv] (workspaceId : String) : WorkflowRoute → RouteRequest Unit
  | create dto actorUserId => do
      let _ ← RouteRequest.lift (.lift (Api.create workspaceId dto actorUserId))
      pure ()
  | updateMetadata workflowId dto => do
      let _ ← RouteRequest.lift (.updateMetadata workspaceId workflowId dto)
      pure ()
  | createVersion workflowId dto => do
      let _ ← RouteRequest.lift (.createVersion workspaceId workflowId dto)
      pure ()
  | restoreVersion workflowId versionId => do
      let _ ← RouteRequest.lift (.restoreVersion workspaceId workflowId versionId)
      pure ()
  | requestExecution workflowId dto actorUserId => do
      let _ ← RouteRequest.lift
        (.lift (Api.requestExecution workspaceId workflowId dto actorUserId))
      pure ()
  | .read query => do
      let _ ← query.request workspaceId
      pure ()

end WorkflowRoute

/-! ## What a request has found -/

/-- A lookup in the workspace has found the workflow. -/
def Looked (workspaceId : String) (h : RouteHistory) (workflowId : String) : Prop :=
  (∃ workflow, ⟨.inl (.inl (.db (.findFirstWorkflow workflowId workspaceId))),
      .ok (some workflow)⟩ ∈ h)
    ∨ ∃ id, ⟨.inl (.inr (.selectWorkflow workflowId workspaceId)), .ok (some id)⟩ ∈ h

/-- It came with the version. -/
def SawVersion (workspaceId : String) (h : RouteHistory) (id workflowId : String) : Prop :=
  ∃ workflow, ⟨.inl (.inl (.db (.findFirstWorkflow workflowId workspaceId))),
      .ok (some workflow)⟩ ∈ h
    ∧ ∃ version ∈ workflow.versions, version.id = id

/-- The call concerns the workspace, by what the request has found. -/
def Stays (workspaceId : String) (h : RouteHistory) (op : RouteOp) : Prop :=
  op.Within workspaceId (Looked workspaceId h) (SawVersion workspaceId h)

/-- A row that is answered is the one that was asked for. -/
def Answers : RouteEvent → Prop
  | ⟨.inl (.inl (.db (.findFirstWorkflow id _))), .ok (some workflow)⟩ => workflow.id = id
  | ⟨.inl (.inl (.db (.createWorkflow data))), .ok workflow⟩ =>
      workflow.workspaceId = data.workspaceId
  | ⟨.inl (.inl (.db (.createWorkflowExecution data))), .ok execution⟩ =>
      execution.workspaceId = data.workspaceId
  | _ => True

/-- The request stays in the workspace, and leaves `Q` when it returns. -/
def StaysIn (workspaceId : String) {α : Type} (p : RouteRequest α) (h : RouteHistory)
    (Q : α → RouteHistory → Prop) : Prop :=
  wp (fun _ ev => Answers ev) (Stays workspaceId) p h Q fun _ _ => True

/-- The same of a request that only publishes and creates. -/
def RequestStays (workspaceId : String) {α : Type} (p : Request α) (h : RequestHistory) : Prop :=
  wp (fun _ ev => Answers (eventInl (eventInl ev)))
    (fun h op => Stays workspaceId ((h.map eventInl).map eventInl) (.inl (.inl op))) p h
    (fun _ _ => True) fun _ _ => True

/-- The same of an edit. -/
def EditStays (workspaceId : String) {α : Type} (p : EditRequest α) (h : EditHistory)
    (Q : α → RouteHistory → Prop) : Prop :=
  wp (fun _ ev => Answers (eventInl ev))
    (fun h op => Stays workspaceId (h.map eventInl) (.inl op)) p h
    (fun a h => Q a (h.map eventInl)) fun _ _ => True

section

variable {workspaceId : String} {α β : Type}

theorem EditStays.lift {p : EditRequest α} {Q : α → RouteHistory → Prop}
    (h : EditStays workspaceId p [] Q) : StaysIn workspaceId (RouteRequest.lift p) [] Q :=
  wp_inl (h := []) (fun _ _ h => h) (fun _ _ h => h) h

theorem RequestStays.lift {p : Request α} (h : RequestStays workspaceId p []) :
    EditStays workspaceId (EditRequest.lift p) [] fun _ _ => True :=
  wp_inl (h := []) (fun _ _ h => h) (fun _ _ h => h) h

/-- A result that is not used. -/
theorem StaysIn.discard {p : RouteRequest α} {Q : α → RouteHistory → Prop}
    (h : StaysIn workspaceId p [] Q) :
    StaysIn workspaceId (p >>= fun _ => pure ()) [] fun _ _ => True :=
  wp_bind (wp_mono (fun _ _ _ => trivial) (fun _ _ _ => trivial) h)

/-! ## Publishing -/

/-- What a request does once it has the row to announce. -/
def Announces (workspaceId : String) : ApiOp → Prop
  | .publish p => sentFor workspaceId p = true
  | .db _ => False
  | _ => True

theorem Announces.stays {op : ApiOp} (hop : Announces workspaceId op) {h : RouteHistory} :
    Stays workspaceId h (.inl (.inl op)) := by
  cases op with
  | db c => exact hop.elim
  | _ => exact hop

theorem ensureChannel_announces : Issues (Announces workspaceId) ensureChannel := by
  refine issues_bind (issues_perform trivial) fun channel => ?_
  cases channel with
  | true => exact issues_pure ()
  | false =>
      refine issues_bind (issues_perform trivial) fun _ => ?_
      refine issues_bind (issues_perform trivial) fun _ => ?_
      exact issues_bind (issues_perform trivial) fun _ => issues_perform trivial

variable [Runtime] [ProcessEnv]

theorem publishEvent_announces {routingKey : FlowPilotRoutingKey} {message : FlowPilotMessage}
    (hmessage : message.workspaceId = workspaceId) :
    Issues (Announces workspaceId) (publishEvent routingKey message) := by
  have hheader : (eventPublication routingKey message).headers.lookup "workspaceId"
      = some (.str message.workspaceId) := rfl
  have hsent : sentFor workspaceId (eventPublication routingKey message) = true := by
    simp [sentFor, hheader, hmessage]
  unfold publishEvent
  split
  · exact issues_pure ()
  · refine issues_bind ensureChannel_announces fun _ => ?_
    exact issues_bind (issues_perform hsent) fun _ => issues_perform trivial

omit [Runtime] [ProcessEnv] in
theorem toWorkflowResponse_workspaceId {workflow : WorkflowWithCurrentVersion}
    {response : WorkflowResponse} (h : toWorkflowResponse workflow = .ok response) :
    response.workspaceId = workflow.workspaceId := by
  unfold toWorkflowResponse at h
  split at h
  · cases h
  · cases h
    rfl

theorem announceWorkflow_announces {actorUserId : String} {workflow : WorkflowWithCurrentVersion}
    (hworkflow : workflow.workspaceId = workspaceId) :
    Issues (Announces workspaceId) (announceWorkflow actorUserId workflow) := by
  unfold announceWorkflow
  cases hresponse : toWorkflowResponse workflow with
  | error e => exact issues_throw e
  | ok response =>
      have hmessage := (toWorkflowResponse_workspaceId hresponse).trans hworkflow
      show Issues _ (randomUUID >>= fun _ => _)
      refine issues_bind (issues_perform trivial) fun _ => ?_
      refine issues_bind (issues_perform trivial) fun _ => ?_
      exact issues_bind (publishEvent_announces hmessage) fun _ => issues_pure _

theorem announceExecution_announces {workflowVersion : Nat} {actorUserId : String}
    {execution : WorkflowExecution} (hexecution : execution.workspaceId = workspaceId) :
    Issues (Announces workspaceId) (announceExecution workflowVersion actorUserId execution) := by
  refine issues_bind (issues_perform trivial) fun _ => ?_
  refine issues_bind (issues_perform trivial) fun _ => ?_
  exact issues_bind (publishEvent_announces hexecution) fun _ => issues_pure _

omit [Runtime] [ProcessEnv] in
theorem RequestStays.of_announces {p : Request α} {h : RequestHistory}
    (hp : Issues (Announces workspaceId) p) : RequestStays workspaceId p h :=
  wp_mono (fun _ _ _ => trivial) (fun _ _ _ => trivial)
    (wp_of_spec hp fun _ _ _ hop => hop.stays)

/-! ## Creating and editing -/

omit [Runtime] [ProcessEnv] in
theorem rethrowConflict_stays {e : ApiError} {h : RequestHistory} :
    RequestStays workspaceId (rethrowConflict e : Request α) h := by
  obtain ⟨e', he'⟩ := rethrowConflict_throws (α := α) e
  rw [he']
  exact trivial

theorem create_stays (dto : CreateWorkflowDto) (actorUserId : String) :
    RequestStays workspaceId (Api.create workspaceId dto actorUserId) [] := by
  refine wp_tryCatch (wp_bind (wp_perform rfl (fun workflow hanswers => ?_)
    (fun _ _ => rethrowConflict_stays) fun _ _ => rethrowConflict_stays))
  refine wp_mono (fun _ _ _ => trivial) (fun _ _ _ => rethrowConflict_stays)
    (wp_of_spec (announceWorkflow_announces hanswers) fun _ _ _ hop => hop.stays)

theorem requestExecution_stays (workflowId : String) (dto : CreateWorkflowExecutionDto)
    (actorUserId : String) :
    RequestStays workspaceId (Api.requestExecution workspaceId workflowId dto actorUserId) [] := by
  refine wp_bind (wp_perform rfl (fun found _ => ?_) (fun _ _ => trivial) fun _ _ => trivial)
  cases found with
  | none => exact trivial
  | some workflow =>
      dsimp only
      cases hversions : workflow.versions with
      | nil => exact trivial
      | cons version older =>
          have hstays : Stays workspaceId [⟨.inl (.inl (.db (.findFirstWorkflow workflowId
              workspaceId))), .ok (some workflow)⟩]
              (.inl (.inl (.db (.createWorkflowExecution
                { workspaceId, workflowId, workflowVersionId := version.id
                  requestedByUserId := actorUserId, status := .pending
                  input := getExecutionInput dto.input })))) := by
            refine ⟨rfl, Or.inl ⟨workflow, List.mem_singleton_self _⟩, workflow,
              List.mem_singleton_self _, version, ?_, rfl⟩
            exact hversions ▸ List.mem_cons_self
          exact wp_bind (wp_perform hstays
            (fun execution hanswers => RequestStays.of_announces
              (announceExecution_announces hanswers))
            (fun _ _ => trivial) fun _ _ => trivial)

omit [Runtime] [ProcessEnv] in
theorem edit_rethrowConflict_stays {e : ApiError} {h : EditHistory} :
    EditStays workspaceId (EditRequest.lift (rethrowConflict e : Request α)) h
      fun _ _ => True := by
  obtain ⟨e', he'⟩ := rethrowConflict_throws (α := α) e
  rw [he']
  exact trivial

omit [Runtime] [ProcessEnv] in
theorem response_stays {workflow : WorkflowWithCurrentVersion} {h : EditHistory} :
    EditStays workspaceId (EditRequest.lift (ofExcept (toWorkflowResponse workflow))) h
      fun _ _ => True := by
  cases toWorkflowResponse workflow <;> exact trivial

omit [Runtime] [ProcessEnv] in
/-- The workflow is looked up. -/
theorem ensureWorkflowExists_stays (workflowId : String) :
    EditStays workspaceId (EditRequest.ensureWorkflowExists workspaceId workflowId) []
      fun _ h => Looked workspaceId h workflowId := by
  refine wp_bind (wp_perform rfl (fun found _ => ?_) (fun _ _ => trivial) fun _ _ => trivial)
  cases found with
  | none => exact trivial
  | some id => exact Or.inr ⟨id, List.mem_singleton_self _⟩

omit [Runtime] [ProcessEnv] in
theorem updateMetadata_stays (workflowId : String) (dto : UpdateWorkflowDto) :
    EditStays workspaceId (EditRequest.updateMetadata workspaceId workflowId dto) []
      fun _ _ => True := by
  refine wp_bind (wp_mono (fun _ h hlooked => ?_) (fun _ _ _ => trivial)
    (ensureWorkflowExists_stays workflowId))
  refine wp_tryCatch (wp_bind (wp_perform hlooked (fun workflow _ => ?_)
    (fun _ _ => edit_rethrowConflict_stays) fun _ _ => edit_rethrowConflict_stays))
  exact wp_mono (fun _ _ _ => trivial) (fun _ _ _ => edit_rethrowConflict_stays) response_stays

omit [Runtime] [ProcessEnv] in
theorem appendVersion_stays {workflow : WorkflowWithCurrentVersion}
    {currentVersion : WorkflowVersion} {definition : Json} {h : EditHistory}
    (hlooked : Looked workspaceId (h.map eventInl) workflow.id) :
    EditStays workspaceId (EditRequest.appendVersion workflow currentVersion definition) h
      fun _ _ => True :=
  wp_bind (wp_perform hlooked (fun _ _ => response_stays) (fun _ _ => trivial) fun _ _ => trivial)

omit [Runtime] [ProcessEnv] in
theorem createVersion_stays (workflowId : String) (dto : CreateWorkflowVersionDto) :
    EditStays workspaceId (EditRequest.createVersion workspaceId workflowId dto) []
      fun _ _ => True := by
  refine wp_bind (wp_perform rfl (fun found hanswers => ?_) (fun _ _ => trivial)
    fun _ _ => trivial)
  cases found with
  | none => exact trivial
  | some workflow =>
      obtain rfl : workflow.id = workflowId := hanswers
      dsimp only
      cases workflow.versions with
      | nil => exact trivial
      | cons currentVersion older =>
          exact appendVersion_stays (Or.inl ⟨workflow, List.mem_singleton_self _⟩)

omit [Runtime] [ProcessEnv] in
theorem restoreVersion_stays (workflowId versionId : String) :
    EditStays workspaceId (EditRequest.restoreVersion workspaceId workflowId versionId) []
      fun _ _ => True := by
  refine wp_bind (wp_perform rfl (fun found hanswers => ?_) (fun _ _ => trivial)
    fun _ _ => trivial)
  cases found with
  | none => exact trivial
  | some workflow =>
      obtain rfl : workflow.id = workflowId := hanswers
      refine wp_bind (wp_perform (Or.inl ⟨workflow, List.mem_singleton_self _⟩)
        (fun source _ => ?_) (fun _ _ => trivial) fun _ _ => trivial)
      cases source with
      | none => exact trivial
      | some sourceVersion =>
          dsimp only
          cases workflow.versions with
          | nil => exact trivial
          | cons currentVersion older =>
              exact appendVersion_stays (Or.inl ⟨workflow, List.mem_cons_self⟩)

/-! ## Reading -/

omit [Runtime] [ProcessEnv] in
/-- A query, and what follows it when it answers. -/
theorem query_stays {c : QueryCall} {f : c.Result → RouteRequest α} {h : RouteHistory}
    (hstays : Stays workspaceId h (.inr c))
    (hf : ∀ rows, StaysIn workspaceId (f rows) (h ++ [⟨.inr c, .ok rows⟩]) fun _ _ => True) :
    StaysIn workspaceId (RouteRequest.query c >>= f) h fun _ _ => True :=
  wp_bind (wp_perform hstays (fun rows _ => hf rows) (fun _ _ => trivial) fun _ _ => trivial)

omit [Runtime] [ProcessEnv] in
theorem ofExcept_stays {result : Except ApiError α} {h : RouteHistory} :
    StaysIn workspaceId (RouteRequest.ofExcept result) h fun _ _ => True := by
  cases result <;> exact trivial

omit [Runtime] [ProcessEnv] in
/-- A read that first looks the workflow up. -/
theorem ensureWorkflowExists_bind {workflowId : String} {f : Unit → RouteRequest α}
    (hf : ∀ h, Looked workspaceId h workflowId → StaysIn workspaceId (f ()) h fun _ _ => True) :
    StaysIn workspaceId (RouteRequest.ensureWorkflowExists workspaceId workflowId >>= f) []
      fun _ _ => True :=
  wp_bind (wp_mono (fun _ h hlooked => hf h hlooked) (fun _ _ _ => trivial)
    (ensureWorkflowExists_stays workflowId).lift)

omit [Runtime] [ProcessEnv] in
/-- A read that first looks the execution up. -/
theorem ensureExecutionExists_bind {workflowId executionId : String} {f : Unit → RouteRequest α}
    (hf : ∀ h, StaysIn workspaceId (f ()) h fun _ _ => True) :
    StaysIn workspaceId
      (RouteRequest.ensureExecutionExists workspaceId workflowId executionId >>= f) []
      fun _ _ => True := by
  refine wp_bind (wp_bind (wp_perform rfl (fun found _ => ?_) (fun _ _ => trivial)
    fun _ _ => trivial))
  cases found with
  | none => exact trivial
  | some id => exact hf _

omit [Runtime] [ProcessEnv] in
theorem findExecution_stays (workflowId executionId : String) :
    StaysIn workspaceId (RouteRequest.findExecution workspaceId workflowId executionId) []
      fun _ _ => True := by
  refine query_stays rfl fun found => ?_
  cases found with
  | none => exact trivial
  | some execution => exact trivial

omit [Runtime] [ProcessEnv] in
theorem request_stays {query : WorkflowRead} (hscoped : (WorkflowRoute.read query).Scoped) :
    StaysIn workspaceId (query.request workspaceId) [] fun _ _ => True := by
  cases query with
  | findAllForWorkspace => exact query_stays rfl fun _ => ofExcept_stays
  | findOne workflowId =>
      refine wp_bind (wp_perform rfl (fun found _ => ?_) (fun _ _ => trivial) fun _ _ => trivial)
      cases found with
      | none => exact trivial
      | some workflow => exact ofExcept_stays
  | findVersions workflowId =>
      exact ensureWorkflowExists_bind fun h hlooked => query_stays hlooked fun _ => trivial
  | findExecutions workflowId =>
      exact ensureWorkflowExists_bind fun h _ => query_stays rfl fun _ => trivial
  | findExecution workflowId executionId => exact findExecution_stays workflowId executionId
  | findExecutionEvents workflowId executionId =>
      exact ensureExecutionExists_bind fun h => query_stays rfl fun _ => trivial
  | findExecutionNodes workflowId executionId =>
      exact ensureExecutionExists_bind fun h => query_stays rfl fun _ => trivial
  | findExecutionSummary workflowId executionId =>
      refine wp_bind (wp_mono (fun _ h _ => ?_) (fun _ _ _ => trivial)
        (findExecution_stays workflowId executionId))
      refine query_stays rfl fun _ => ?_
      refine query_stays rfl fun _ => ?_
      exact query_stays rfl fun _ => trivial
  | findExecutionDiagnostics workflowId executionId => exact hscoped.elim

/-! ## The routes stay in the workspace -/

theorem handle_stays {route : WorkflowRoute} (hscoped : route.Scoped) :
    StaysIn workspaceId (route.handle workspaceId) [] fun _ _ => True := by
  cases route with
  | create dto actorUserId => exact (create_stays dto actorUserId).lift.lift.discard
  | updateMetadata workflowId dto => exact (updateMetadata_stays workflowId dto).lift.discard
  | createVersion workflowId dto => exact (createVersion_stays workflowId dto).lift.discard
  | restoreVersion workflowId versionId =>
      exact (restoreVersion_stays workflowId versionId).lift.discard
  | requestExecution workflowId dto actorUserId =>
      exact (requestExecution_stays workflowId dto actorUserId).lift.lift.discard
  | read query => exact (request_stays hscoped).discard

end

end FlowPilot.Api
