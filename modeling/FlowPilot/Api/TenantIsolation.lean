import FlowPilot.Api.TenantRequests
import FlowPilot.Lib.Parts

/-!
# Workspaces share a database as if each had its own

Requests of any workspaces, interleaved statement by statement over one
database, get the replies that they get when every workspace has a database
of its own, and its own messages (`sharedDatabase_refines`). What is shared
is the channel to the broker.

A statement that names a workflow by its id alone relies on a lookup that
the request has made before: the workflow it found is still in the workspace
(`reachable_stillOwned`).
-/

namespace FlowPilot.Api

open Prog hiding pure throw bind tryCatch

/-! ## Requests of many workspaces -/

/-- A request to one of the routes, past its guards. -/
structure TenantRequest where
  workspaceId : String
  route : WorkflowRoute
  stays : route.Scoped

/-- The calls of the requests, each marked with the workspace of its request. -/
abbrev TenantOp := String × RouteOp

abbrev TenantOp.Result : TenantOp → Type := fun op => RouteOp.Result op.2

def TenantRequest.program [Runtime] [ProcessEnv] (request : TenantRequest) :
    Prog TenantOp TenantOp.Result ApiError Unit :=
  (request.route.handle request.workspaceId).mark request.workspaceId

abbrev TenantPool := Pool Nat ApiWorld TenantRequest TenantOp TenantOp.Result ApiError

/-- What the rest of the system does: executions proceed, and the channel
may open or close. -/
structure ApiWorld.Proceeds (w w' : ApiWorld) : Prop where
  workflows : w'.db.workflows = w.db.workflows
  workflowVersions : w'.db.workflowVersions = w.db.workflowVersions
  publications : w'.publications = w.publications

section

variable [Runtime] [ProcessEnv]

/-- Any number of requests over one database. A request that dies takes no
further step. -/
def sharedSystem : PoolSystem ApiWorld TenantRequest TenantOp TenantOp.Result ApiError where
  exec op w reply w' := op.2.exec w reply w'
  program := TenantRequest.program
  spawn _ w w' := w' = w
  stop _ _ _ _ := False
  env := ApiWorld.Proceeds

/-- The same requests, each over the database of its workspace. -/
def privateSystem :
    PoolSystem (Parts String Bool Tenant) TenantRequest TenantOp TenantOp.Result ApiError :=
  Pool.partSystem (fun op v reply v' => op.exec (v.2.world v.1) reply (v'.2.world v'.1))
    TenantRequest.program fun v v' => (v.2.world v.1).Proceeds (v'.2.world v'.1)

end

/-- The world, by workspaces. -/
def ApiWorld.tenants (w : ApiWorld) : Parts String Bool Tenant := ⟨w.channel, w.tenant⟩

/-! ## What has been found stays -/

/-- Workflows stay in their workspaces, and their versions stay. -/
structure Database.Retains (db db' : Database) : Prop where
  owns : ∀ {workspaceId workflowId : String}, db.Owns workspaceId workflowId →
    db'.Owns workspaceId workflowId
  hasVersion : ∀ {id workflowId : String}, db.HasVersion id workflowId →
    db'.HasVersion id workflowId

/-- The workflow that the event found is in the workspace, with the versions
that it came with. -/
def StillOwned (db : Database) : RouteEvent → Prop
  | ⟨.inl (.inl (.db (.findFirstWorkflow id workspaceId))), .ok (some workflow)⟩ =>
      db.Owns workspaceId id ∧ ∀ version ∈ workflow.versions, db.HasVersion version.id id
  | ⟨.inl (.inr (.selectWorkflow id workspaceId)), .ok (some _)⟩ => db.Owns workspaceId id
  | _ => True

theorem StillOwned.mono {db db' : Database} {ev : RouteEvent} (h : StillOwned db ev)
    (hretains : db.Retains db') : StillOwned db' ev := by
  unfold StillOwned at h ⊢
  split at h
  · exact ⟨hretains.owns h.1, fun version hversion => hretains.hasVersion (h.2 version hversion)⟩
  · exact hretains.owns h
  · trivial

section

variable {w w' : ApiWorld} {op : RouteOp} {reply : Reply ApiError (RouteOp.Result op)}

theorem RouteOp.exec_retains (h : op.exec w reply w') : w.db.Retains w'.db :=
  ⟨exec_owns h, exec_hasVersion h⟩

theorem ApiWorld.Proceeds.retains (h : w.Proceeds w') : w.db.Retains w'.db := by
  refine ⟨fun howns => ?_, fun hversion => ?_⟩
  · rwa [Database.Owns, h.workflows]
  · rwa [Database.HasVersion, h.workflowVersions]

/-- What a database call answers. -/
theorem RouteOp.run_of_answered {c : DbCall} {r : c.Result}
    (h : RouteOp.exec (.inl (.inl (.db c))) w (.ok r) w') :
    ∃ ctx, c.run ctx w.db = .ok (r, w'.db) := by
  obtain ⟨ctx, -, hrun⟩ := h
  have hrun : (ApiOp.db c).run ctx.api w = .ok (r, w') := hrun
  obtain ⟨db', hcall, rfl⟩ := run_db_call hrun
  exact ⟨ctx.api, hcall⟩

theorem RouteOp.find_of_answered {id workspaceId : String} {workflow : WorkflowWithCurrentVersion}
    (h : RouteOp.exec (.inl (.inl (.db (.findFirstWorkflow id workspaceId)))) w
      (.ok (some workflow)) w') :
    ∃ ctx row, w'.db.findFirstWorkflow id workspaceId = some row
      ∧ workflow = w'.db.withCurrentVersion ctx row := by
  obtain ⟨ctx, hcall⟩ := run_of_answered h
  obtain ⟨hfound, hdb⟩ := Prod.mk.inj (Except.ok.inj hcall)
  obtain ⟨row, hrow, hworkflow⟩ := Option.map_eq_some_iff.mp hfound
  exact ⟨ctx, row, hdb ▸ hrow, hdb ▸ hworkflow.symm⟩

/-- What a lookup finds is in the workspace. -/
theorem RouteOp.exec_stillOwned (h : op.exec w reply w') : StillOwned w'.db ⟨op, reply⟩ := by
  unfold StillOwned
  split
  · rename_i id workspaceId workflow heq
    cases heq
    obtain ⟨ctx, row, hrow, rfl⟩ := find_of_answered h
    obtain ⟨hmem, hid, hworkspace⟩ := mem_of_findFirstWorkflow hrow
    refine ⟨⟨row, hmem, hid, hworkspace⟩, fun version hversion => ?_⟩
    have hversion := (Database.mem_findManyWorkflowVersion _ _).mp (List.mem_of_mem_take hversion)
    exact ⟨version, hversion.1, rfl, hversion.2.trans hid⟩
  · rename_i id workspaceId found heq
    cases heq
    obtain ⟨ctx, -, hrun⟩ := h
    obtain ⟨hfound, rfl⟩ := Prod.mk.inj (Except.ok.inj hrun)
    obtain ⟨row, hrow, -⟩ := Option.map_eq_some_iff.mp hfound
    obtain ⟨hmem, hid, hworkspace⟩ := mem_of_findFirstWorkflow hrow
    exact ⟨row, hmem, hid, hworkspace⟩
  · trivial

/-- The database answers with the row that was asked for. -/
theorem RouteOp.exec_answers (h : op.exec w reply w') : Answers ⟨op, reply⟩ := by
  unfold Answers
  split
  · rename_i id workspaceId workflow heq
    cases heq
    obtain ⟨ctx, row, hrow, rfl⟩ := find_of_answered h
    exact (mem_of_findFirstWorkflow hrow).2.1
  · rename_i data workflow heq
    cases heq
    obtain ⟨ctx, hcall⟩ := run_of_answered h
    obtain ⟨rfl, -⟩ := Database.createWorkflow_eq_ok hcall
    rfl
  · rename_i data execution heq
    cases heq
    obtain ⟨ctx, hcall⟩ := run_of_answered h
    obtain ⟨rfl, -⟩ := Database.createWorkflowExecution_eq_ok hcall
    rfl
  · trivial

/-- By what is still there, a call that stays in its workspace concerns it. -/
theorem Stays.isIn {workspaceId : String} {h : RouteHistory} (hstays : Stays workspaceId h op)
    (howned : ∀ ev ∈ h, StillOwned w.db ev) : op.In w.db workspaceId := by
  refine RouteOp.Within.mono (fun workflowId hlooked => ?_) (fun id workflowId hsaw => ?_) hstays
  · rcases hlooked with ⟨workflow, hev⟩ | ⟨found, hev⟩
    · exact (howned _ hev).1
    · exact howned _ hev
  · obtain ⟨workflow, hev, version, hversion, rfl⟩ := hsaw
    exact (howned _ hev).2 version hversion

end

/-! ## What every request keeps to -/

/-- Every call is marked with the workspace of its request and stays in it. -/
def tenancy : Pool.Discipline TenantRequest TenantOp TenantOp.Result ApiError where
  assumption _ _ ev := Answers (unmark ev)
  obligation info h op :=
    op.1 = info.workspaceId ∧ Stays info.workspaceId (h.map unmark) op.2
  returned _ _ := True
  threw _ _ := True

section

variable [Runtime] [ProcessEnv] {init : ApiWorld → Prop} {s : TenantPool}

theorem program_tenancy (request : TenantRequest) :
    tenancy.Keeps request request.program [] :=
  wp_mark (h := []) (handle_stays request.stays)

theorem step_retains {s' : TenantPool}
    {l : Pool.Label Nat TenantRequest TenantOp TenantOp.Result ApiError}
    (hstep : Pool.Step sharedSystem s l s') : s.world.db.Retains s'.world.db := by
  cases hstep with
  | act _ hexec => exact RouteOp.exec_retains hexec
  | spawn _ hspawn => exact hspawn ▸ ⟨fun h => h, fun h => h⟩
  | stop _ hstop => exact hstop.elim
  | env henv => exact henv.retains

theorem step_keyed {s' : TenantPool}
    {l : Pool.Label Nat TenantRequest TenantOp TenantOp.Result ApiError}
    (hkeyed : s.world.db.Keyed) (hstep : Pool.Step sharedSystem s l s') :
    s'.world.db.Keyed := by
  cases hstep with
  | act _ hexec => exact RouteOp.exec_keyed hkeyed hexec
  | spawn _ hspawn => exact hspawn ▸ hkeyed
  | stop _ hstop => exact hstop.elim
  | env henv =>
      refine ⟨henv.workflows ▸ hkeyed.workflow_ids, fun row hrow => ?_⟩
      rw [henv.workflows]
      exact hkeyed.version_workflow row (henv.workflowVersions ▸ hrow)

theorem reachable_tenancy (hinit : ∀ w, init w → w.db.Keyed)
    (hreach : Pool.Reachable sharedSystem init (fun _ _ => True) s) :
    s.world.db.Keyed ∧ s.Conform tenancy :=
  hreach.invariant tenancy (·.world.db.Keyed) program_tenancy hinit
    (fun _ _ _ _ _ _ _ _ _ _ _ _ hexec => RouteOp.exec_answers hexec)
    fun _ _ _ hkeyed _ _ _ hstep => step_keyed hkeyed hstep

theorem reachable_stillOwned (hreach : Pool.Reachable sharedSystem init (fun _ _ => True) s)
    {t : Nat} {th : Thread TenantRequest TenantOp TenantOp.Result ApiError}
    (hth : s.threads t = some th) : ∀ ev ∈ th.history.map unmark, StillOwned s.world.db ev := by
  have halong := Pool.Reachable.along (F := fun w _ ev => StillOwned w.db (unmark ev))
    (fun _ _ hstep _ _ h => h.mono (step_retains hstep))
    (fun _ _ _ hstep => by
      obtain ⟨_, _, _, -, hexec, -⟩ := hstep.act_cases
      exact RouteOp.exec_stillOwned hexec) hreach t th hth
  intro ev hev
  obtain ⟨marked, hmarked, rfl⟩ := List.mem_map.mp hev
  obtain ⟨_, _, -, howned⟩ := halong.mem hmarked
  exact howned

/-- A call concerns the workspace that it is marked with. -/
theorem reachable_isIn (hinit : ∀ w, init w → w.db.Keyed)
    (hreach : Pool.Reachable sharedSystem init (fun _ _ => True) s) {t : Nat}
    {info : TenantRequest} {h : History TenantOp TenantOp.Result ApiError} {workspaceId : String}
    {op : RouteOp}
    {k : Except ApiError (RouteOp.Result op) → Prog TenantOp TenantOp.Result ApiError Unit}
    (hth : s.threads t = some ⟨info, h, .call (workspaceId, op) k⟩) :
    op.In s.world.db workspaceId := by
  obtain ⟨hmark, hstays⟩ := ((reachable_tenancy hinit hreach).2 t _ hth).rest.1
  have hmark : workspaceId = info.workspaceId := hmark
  rw [hmark]
  exact hstays.isIn (reachable_stillOwned hreach hth)

/-! ## The refinement -/

theorem sharedSystem_divides (hinit : ∀ w, init w → w.db.Keyed) :
    Pool.Divides Nat sharedSystem init ApiWorld.tenants
      (fun op v reply v' => op.exec (v.2.world v.1) reply (v'.2.world v'.1))
      fun v v' => (v.2.world v.1).Proceeds (v'.2.world v'.1) where
  spawn hspawn := hspawn
  stop hstop := hstop
  env {w w'} henv workspaceId := by
    refine ⟨?_, ?_, ?_⟩
    · show w'.db.workflows.filter _ = w.db.workflows.filter _
      rw [henv.workflows]
    · show w'.db.workflowVersions.filter _ = w.db.workflowVersions.filter _
      simp only [Database.Owns, henv.workflows, henv.workflowVersions]
    · show w'.publications.filter _ = w.publications.filter _
      rw [henv.publications]
  exec hreach hth hexec := by
    have hkeyed := (reachable_tenancy hinit hreach).1
    have hin := reachable_isIn hinit hreach hth
    exact ⟨RouteOp.exec_only hkeyed hin hexec,
      fun other hother => RouteOp.exec_of_ne hkeyed hin hexec hother⟩

/-- **Workspaces are isolated.** What any requests do over one database, they
do when each workspace has its own. -/
theorem sharedDatabase_refines (hinit : ∀ w, init w → w.db.Keyed)
    (hreach : Pool.Reachable sharedSystem init (fun _ _ => True) s) :
    Pool.Reachable privateSystem (fun v => ∃ w, init w ∧ v = w.tenants) (fun _ _ => True)
      (⟨s.world.tenants, s.threads⟩ :
        Pool Nat (Parts String Bool Tenant) TenantRequest TenantOp TenantOp.Result ApiError) :=
  (sharedSystem_divides hinit).reachable hreach

end

/-! ### Two workspaces -/

instance (ctx : EditContext) (db : Database) : Decidable (ctx.Fresh db) :=
  decidable_of_iff ((∀ row ∈ db.workflows, row.id ≠ ctx.uuid)
      ∧ (∀ row ∈ db.workflowVersions, row.id ≠ ctx.nestedUuid)
      ∧ ∀ row ∈ db.workflowExecutions, row.id ≠ ctx.uuid)
    ⟨fun h => ⟨h.1, h.2.1, h.2.2⟩, fun h => ⟨h.1, h.2, h.3⟩⟩

/-- Every call takes effect and answers. -/
def scriptedRoute (i : Nat) (op : TenantOp) (w : ApiWorld) :
    Option (Reply ApiError (TenantOp.Result op) × ApiWorld) :=
  if (⟨requestContext i, true⟩ : EditContext).Fresh w.db then
    match op.2.run ⟨requestContext i, true⟩ w with
    | .ok (r, w') => some (.ok r, w')
    | .error _ => none
  else none

theorem scriptedRoute_sound (i : Nat) (op : TenantOp) (w : ApiWorld)
    (reply : Reply ApiError (TenantOp.Result op)) (w' : ApiWorld)
    (h : scriptedRoute i op w = some (reply, w')) : op.2.exec w reply w' := by
  unfold scriptedRoute at h
  split at h
  · rename_i hfresh
    split at h
    · rename_i hrun
      cases h
      exact ⟨_, hfresh, hrun⟩
    · cases h
  · cases h

/-- Two workspaces with a workflow each. -/
def ApiWorld.twoWorkspaces : ApiWorld where
  db := { Database.empty with
    workflows :=
      [⟨"invoices", "finance", "Invoices", "invoices", none, .active, 0, 0⟩,
        ⟨"orders", "sales", "Orders", "orders", none, .draft, 0, 0⟩]
    workflowVersions :=
      [⟨"invoices-1", "invoices", 1, .obj [], 0, 0⟩, ⟨"orders-1", "orders", 1, .obj [], 0, 0⟩] }
  channel := false
  publications := []

/-- One workflow takes the slug of the other, which gets a version meanwhile. -/
def twoWorkspacesSchedule : List (Nat × Option TenantRequest) :=
  [(0, some ⟨"finance", .updateMetadata "invoices" ⟨none, some "orders", none, none⟩, trivial⟩),
    (1, some ⟨"sales", .createVersion "orders" ⟨.obj [("nodes", .arr [])]⟩, trivial⟩),
    (0, none), (1, none), (0, none), (1, none)]

def hasReturnedRoute (s : TenantPool) (t : Nat) : Bool :=
  match s.threads t with
  | some th => th.prog.returned
  | none => false

theorem twoWorkspaces_keyed : ApiWorld.twoWorkspaces.db.Keyed :=
  ⟨by decide, by decide⟩

theorem sharedDatabase_refines_twoWorkspaces :
    let _ : Runtime := .sample false
    let _ : ProcessEnv := ⟨none⟩
    ∃ s : TenantPool, hasReturnedRoute s 0 = true ∧ hasReturnedRoute s 1 = true
      ∧ Pool.Reachable privateSystem (fun v => ∃ w, w = ApiWorld.twoWorkspaces ∧ v = w.tenants)
        (fun _ _ => True)
        (⟨s.world.tenants, s.threads⟩ :
          Pool Nat (Parts String Bool Tenant) TenantRequest TenantOp TenantOp.Result ApiError) := by
  intro _ _
  have hplay : (Pool.play TenantRequest.program scriptedRoute 0 twoWorkspacesSchedule
      ⟨.twoWorkspaces, fun _ => none⟩).any
      (fun s => hasReturnedRoute s 0 && hasReturnedRoute s 1) = true := by
    decide
  obtain ⟨s, hplay, hreturned⟩ := (Option.any_eq_true _ _).mp hplay
  rw [Bool.and_eq_true] at hreturned
  have hreach : Pool.Reachable sharedSystem (· = .twoWorkspaces) (fun _ _ => True) s :=
    Pool.Reachable.play (fun _ _ => rfl) scriptedRoute_sound (fun _ _ _ _ _ _ _ => trivial) hplay
      (fun _ _ _ _ => trivial) (.start rfl)
  have hkeyed : ∀ w, w = ApiWorld.twoWorkspaces → w.db.Keyed :=
    fun _ hw => hw ▸ twoWorkspaces_keyed
  exact ⟨s, hreturned.1, hreturned.2, sharedDatabase_refines hkeyed hreach⟩

end FlowPilot.Api
