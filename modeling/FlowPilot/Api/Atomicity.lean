import FlowPilot.Api.Workflows

/-!
# Atomicity on error

`create` and `requestExecution` write their rows before they publish, and
nothing takes the rows back. A request that throws leaves the tables as they
were exactly if what threw came before the write (`Undisturbed`).
-/

namespace FlowPilot.Api

open Prog hiding pure throw bind tryCatch

/-! ## What a request may leave behind -/

/-- The three tables are the same. -/
structure Database.SameTables (db db' : Database) : Prop where
  workflows : db'.workflows = db.workflows
  workflowVersions : db'.workflowVersions = db.workflowVersions
  workflowExecutions : db'.workflowExecutions = db.workflowExecutions

/-- A publication is the command for an execution. -/
def Requests (p : Publication) (executionId : String) : Prop :=
  p.exchange = .commands ∧ ∃ m, parseWorkflowExecutionRequestedMessage p.toMessage = some m
    ∧ m.executionId = executionId

/-- An execution waits for a command that was never published. -/
def ApiWorld.Stranded (w : ApiWorld) (execution : WorkflowExecution) : Prop :=
  execution ∈ w.db.workflowExecutions ∧ execution.status = .pending
    ∧ ∀ p ∈ w.publications, ¬ Requests p execution.id

/-- The tables are kept, and no further execution is stranded. -/
def ApiWorld.Kept (w w' : ApiWorld) : Prop :=
  w.db.SameTables w'.db ∧ ∀ execution, w'.Stranded execution → w.Stranded execution

/-- The calls that create the rows of a request. -/
def ApiOp.Creates : ApiOp → Prop
  | .db (.createWorkflow _) => True
  | .db (.createWorkflowExecution _) => True
  | _ => False

/-- Once a row is created no call throws, that one included. -/
def Undisturbed (events : RequestHistory) : Prop :=
  ∀ first ev rest, events = first ++ ev :: rest → ev.op.Creates → ev.reply.applied = true →
    ∀ ev' ∈ ev :: rest, ev'.reply.answered = true

/-! ## Calls that create nothing -/

section

variable {op : ApiOp} {ctx : DbContext} {w w' : ApiWorld} {events rest : RequestHistory}

/-- A database call acts on the database alone. -/
theorem run_db_call {c : DbCall} {r : c.Result}
    (hrun : (ApiOp.db c).run ctx w = .ok (r, w')) :
    ∃ db', c.run ctx w.db = .ok (r, db') ∧ w' = { w with db := db' } := by
  cases hcall : c.run ctx w.db with
  | error code =>
      simp only [ApiOp.run, hcall] at hrun
      cases hrun
  | ok result =>
      simp only [ApiOp.run, hcall] at hrun
      cases hrun
      exact ⟨result.2, rfl, rfl⟩

theorem run_db (hop : ¬ op.Creates) {r : op.Result} (hrun : op.run ctx w = .ok (r, w')) :
    w'.db = w.db := by
  cases op with
  | db c =>
      cases c with
      | findFirstWorkflow id workspaceId =>
          cases hrun
          rfl
      | createWorkflow data => exact absurd trivial hop
      | createWorkflowExecution data => exact absurd trivial hop
  | _ =>
      cases hrun
      rfl

theorem run_publications {r : op.Result} (hrun : op.run ctx w = .ok (r, w')) :
    w.publications <+: w'.publications := by
  cases op with
  | db c =>
      obtain ⟨db', -, rfl⟩ := run_db_call hrun
      exact List.prefix_refl _
  | publish p =>
      cases hrun
      exact List.prefix_append _ _
  | _ =>
      cases hrun
      exact List.prefix_refl _

/-- A call has its effect or none. -/
theorem ApiOp.exec.effect {reply : Reply ApiError op.Result} (h : op.exec w reply w') :
    w' = w ∨ ∃ ctx r, op.run ctx w = .ok (r, w') := by
  obtain ⟨ctx, h⟩ := h
  cases reply with
  | ok r => exact Or.inr ⟨ctx, r, h⟩
  | lost e => exact Or.inr ⟨ctx, h.2⟩
  | failed e => exact Or.inl h.2

theorem replays_db : ∀ {events : RequestHistory} {w : ApiWorld},
    (∀ ev ∈ events, ¬ ev.op.Creates) → Replays ApiOp.exec w events w' → w'.db = w.db
  | [], _, _, h => by
      rw [h]
  | ev :: events, w, hops, ⟨w₁, hexec, hreplays⟩ => by
      rw [List.forall_mem_cons] at hops
      rw [replays_db hops.2 hreplays]
      rcases hexec.effect with rfl | ⟨ctx, r, hrun⟩
      · rfl
      · exact run_db hops.1 hrun

theorem replays_publications : ∀ {events : RequestHistory} {w : ApiWorld},
    Replays ApiOp.exec w events w' → w.publications <+: w'.publications
  | [], _, h => by
      rw [h]
  | ev :: events, w, ⟨w₁, hexec, hreplays⟩ => by
      refine List.IsPrefix.trans ?_ (replays_publications hreplays)
      rcases hexec.effect with rfl | ⟨ctx, r, hrun⟩
      · exact List.prefix_refl _
      · exact run_publications hrun

/-- Without a creation everything is kept. -/
theorem kept_of_not_creates (hops : ∀ ev ∈ events, ¬ ev.op.Creates)
    (hreplays : Replays ApiOp.exec w events w') : w.Kept w' := by
  have hdb := replays_db hops hreplays
  refine ⟨⟨by rw [hdb], by rw [hdb], by rw [hdb]⟩, fun execution hstranded => ?_⟩
  obtain ⟨hmem, hpending, hnone⟩ := hstranded
  rw [hdb] at hmem
  exact ⟨hmem, hpending, fun p hp => hnone p ((replays_publications hreplays).subset hp)⟩

theorem undisturbed_of_not_creates (hops : ∀ ev ∈ events, ¬ ev.op.Creates) :
    Undisturbed events := by
  rintro first ev rest rfl hcreates
  exact absurd hcreates (hops ev (by simp))

theorem undisturbed_cons {ev : Event ApiOp ApiOp.Result ApiError} (hev : ¬ ev.op.Creates) :
    Undisturbed (ev :: rest) ↔ Undisturbed rest := by
  constructor
  · rintro h first ev' rest' rfl
    exact h (ev :: first) ev' rest' rfl
  · intro h first ev' rest' heq hcreates
    cases first with
    | nil =>
        obtain ⟨rfl, -⟩ := List.cons.inj heq
        exact absurd hcreates hev
    | cons ev₀ first =>
        obtain ⟨rfl, rfl⟩ := List.cons.inj heq
        exact h first ev' rest' rfl hcreates

/-- When the first call alone creates rows. -/
theorem undisturbed_creating {ev : Event ApiOp ApiOp.Result ApiError} (hev : ev.op.Creates)
    (hrest : ∀ ev' ∈ rest, ¬ ev'.op.Creates) :
    Undisturbed (ev :: rest)
      ↔ (ev.reply.applied = true → ∀ ev' ∈ ev :: rest, ev'.reply.answered = true) := by
  constructor
  · intro h
    exact h [] ev rest rfl hev
  · intro h first ev' rest' heq hcreates happlied
    cases first with
    | nil =>
        obtain ⟨rfl, rfl⟩ := List.cons.inj heq
        exact h happlied
    | cons ev₀ first =>
        obtain ⟨rfl, rfl⟩ := List.cons.inj heq
        exact absurd hcreates (hrest ev' (by simp))

end

/-! ## Publishing throws exactly if a call does -/

/-- A call that creates nothing. -/
def CreatesNothing (op : ApiOp) : Prop := ¬ op.Creates

theorem ensureChannel_propagates : Propagates CreatesNothing ensureChannel := by
  refine propagates_bind (propagates_perform id) fun hasChannel => ?_
  cases hasChannel with
  | true => exact propagates_pure ()
  | false =>
      exact propagates_bind (propagates_perform id) fun _ =>
        propagates_bind (propagates_perform id) fun _ =>
        propagates_bind (propagates_perform id) fun _ => propagates_perform id

section

variable [Runtime] [ProcessEnv]

theorem publishEvent_propagates (routingKey : FlowPilotRoutingKey) (message : FlowPilotMessage) :
    Propagates CreatesNothing (publishEvent routingKey message) := by
  unfold publishEvent
  split
  · exact propagates_pure ()
  · exact propagates_bind ensureChannel_propagates fun _ =>
      propagates_bind (propagates_perform id) fun _ => propagates_perform id

theorem announceWorkflow_propagates (actorUserId : String)
    {workflow : WorkflowWithCurrentVersion} (h : ∃ version, workflow.versions = [version]) :
    Propagates CreatesNothing (announceWorkflow actorUserId workflow) := by
  obtain ⟨version, h⟩ := h
  have hresponse : ∃ response, toWorkflowResponse workflow = .ok response := by
    simp only [toWorkflowResponse, h]
    exact ⟨_, rfl⟩
  obtain ⟨response, hresponse⟩ := hresponse
  simp only [announceWorkflow, hresponse]
  exact propagates_bind (propagates_pure response) fun _ =>
    propagates_bind (propagates_perform id) fun _ =>
    propagates_bind (propagates_perform id) fun _ =>
    propagates_bind (publishEvent_propagates _ _) fun _ => propagates_pure _

theorem announceExecution_propagates (workflowVersion : Nat) (actorUserId : String)
    (execution : WorkflowExecution) :
    Propagates CreatesNothing (announceExecution workflowVersion actorUserId execution) :=
  propagates_bind (propagates_perform id) fun _ =>
    propagates_bind (propagates_perform id) fun _ =>
    propagates_bind (publishEvent_propagates _ _) fun _ => propagates_pure _

end

/-! ## From the creation on -/

/-- A creation changes the tables. -/
theorem run_creates {c : DbCall} (hc : (ApiOp.db c).Creates) {ctx : DbContext} {w w' : ApiWorld}
    {r : c.Result} (hrun : (ApiOp.db c).run ctx w = .ok (r, w')) : ¬ w.db.SameTables w'.db := by
  intro hsame
  obtain ⟨db', hcall, rfl⟩ := run_db_call hrun
  cases c with
  | findFirstWorkflow id workspaceId => exact hc
  | createWorkflow data =>
      obtain ⟨-, rfl⟩ := Database.createWorkflow_eq_ok hcall
      simpa using hsame.workflows
  | createWorkflowExecution data =>
      obtain ⟨-, rfl⟩ := Database.createWorkflowExecution_eq_ok hcall
      simpa using hsame.workflowExecutions

section

variable {α : Type} {c : DbCall} {f : c.Result → Request α} {events : RequestHistory}
  {out : Except ApiError α} {w w' : ApiWorld}

/-- A request that creates its rows now, and then does what throws exactly
if a call does. -/
theorem creating_kept_iff (hc : (ApiOp.db c).Creates)
    (hf : ∀ ctx r db', c.run ctx w.db = .ok (r, db') → Propagates CreatesNothing (f r))
    (htrace : Trace (db c >>= f) events out) (hreplays : Replays ApiOp.exec w events w') :
    ((∃ e, out = .error e) → w.Kept w') ↔ Undisturbed events := by
  obtain ⟨reply, rest, rfl, hreply⟩ := trace_perform_bind htrace
  obtain ⟨w₁, ⟨ctx, hexec⟩, hrest⟩ := hreplays
  rcases hreply with ⟨r, rfl, hafter⟩ | ⟨e, rfl | rfl, rfl, rfl⟩
  · obtain ⟨db', hrun, -⟩ := run_db_call hexec
    obtain ⟨hops, hout⟩ := spec_trace (hf ctx r db' hrun) hafter
    have hchanged : ¬ w.Kept w' := fun hkept =>
      run_creates hc hexec (replays_db hops hrest ▸ hkept.1)
    rw [undisturbed_creating hc hops]
    cases out with
    | ok a => exact ⟨fun _ _ => List.forall_mem_cons.mpr ⟨rfl, hout⟩, fun _ ⟨_, he⟩ => by cases he⟩
    | error e =>
        obtain ⟨ev, hev, hthrew⟩ := hout
        refine ⟨fun h => absurd (h ⟨e, rfl⟩) hchanged, fun h => ?_⟩
        have hanswered := h rfl ev (List.mem_cons_of_mem _ hev)
        rw [hthrew] at hanswered
        cases hanswered
  · obtain ⟨-, r, hrun⟩ := hexec
    obtain rfl := hrest
    have hchanged : ¬ w.Kept w₁ := fun hkept => run_creates hc hrun hkept.1
    rw [undisturbed_creating hc (by simp)]
    refine ⟨fun h => absurd (h ⟨e, rfl⟩) hchanged, fun h => ?_⟩
    cases h rfl _ List.mem_cons_self
  · obtain ⟨-, rfl⟩ := hexec
    obtain rfl := hrest
    rw [undisturbed_creating hc (by simp)]
    have hnone : ∀ ev ∈ ([] : RequestHistory), ¬ ev.op.Creates := by simp
    exact ⟨fun _ happlied => (by cases happlied), fun _ _ => kept_of_not_creates hnone rfl⟩

end

/-! ## The two operations -/

inductive PublishingRequest where
  | create (workspaceId : String) (dto : CreateWorkflowDto) (actorUserId : String)
  | requestExecution (workspaceId workflowId : String) (dto : CreateWorkflowExecutionDto)
      (actorUserId : String)

namespace PublishingRequest

def Response : PublishingRequest → Type
  | create _ _ _ => WorkflowResponse
  | requestExecution _ _ _ _ => WorkflowExecutionResponse

def program [Runtime] [ProcessEnv] : (request : PublishingRequest) → Request request.Response
  | create workspaceId dto actorUserId => Api.create workspaceId dto actorUserId
  | requestExecution workspaceId workflowId dto actorUserId =>
      Api.requestExecution workspaceId workflowId dto actorUserId

end PublishingRequest

theorem rethrowConflict_throws {α : Type} (e : ApiError) :
    ∃ e', (rethrowConflict e : Request α) = throw e' := by
  unfold rethrowConflict
  split
  · exact ⟨_, rfl⟩
  · exact ⟨_, rfl⟩

section

variable [Runtime] [ProcessEnv] {events : RequestHistory} {w w' : ApiWorld}

theorem create_kept_iff (workspaceId : String) (dto : CreateWorkflowDto) (actorUserId : String)
    {out : Except ApiError WorkflowResponse}
    (htrace : Trace (create workspaceId dto actorUserId) events out)
    (hreplays : Replays ApiOp.exec w events w') :
    ((∃ e, out = .error e) → w.Kept w') ↔ Undisturbed events := by
  have hbody : ∀ {events : RequestHistory} {out : Except ApiError WorkflowResponse},
      Trace (db (.createWorkflow (draftWorkflow workspaceId dto)) >>= announceWorkflow actorUserId)
        events out → Replays ApiOp.exec w events w' →
      (((∃ e, out = .error e) → w.Kept w') ↔ Undisturbed events) :=
    creating_kept_iff (c := .createWorkflow (draftWorkflow workspaceId dto)) trivial
      fun _ _ _ hrun =>
        announceWorkflow_propagates actorUserId (Database.createWorkflow_versions hrun)
  rcases trace_tryCatch htrace with
    ⟨response, hreturned, rfl⟩ | ⟨e, first, rest, hthrew, hhandler, rfl⟩
  · exact hbody hreturned hreplays
  · obtain ⟨e', he'⟩ := rethrowConflict_throws (α := WorkflowResponse) e
    rw [he'] at hhandler
    cases hhandler
    rw [List.append_nil] at hreplays ⊢
    have hiff := hbody hthrew hreplays
    exact ⟨fun h => hiff.mp fun _ => h ⟨_, rfl⟩, fun h _ => hiff.mpr h ⟨_, rfl⟩⟩

theorem requestExecution_kept_iff (workspaceId workflowId : String)
    (dto : CreateWorkflowExecutionDto) (actorUserId : String)
    {out : Except ApiError WorkflowExecutionResponse}
    (htrace : Trace (requestExecution workspaceId workflowId dto actorUserId) events out)
    (hreplays : Replays ApiOp.exec w events w') :
    ((∃ e, out = .error e) → w.Kept w') ↔ Undisturbed events := by
  obtain ⟨reply, rest, rfl, hreply⟩ := trace_perform_bind htrace
  have hkept : rest = [] →
      (((∃ e, out = .error e) → w.Kept w') ↔ Undisturbed (⟨_, reply⟩ :: rest)) := by
    rintro rfl
    have hops : ∀ ev ∈ [(⟨.db (.findFirstWorkflow workflowId workspaceId), reply⟩ :
        Event ApiOp ApiOp.Result ApiError)], ¬ ev.op.Creates := by
      simp [ApiOp.Creates]
    exact ⟨fun _ => undisturbed_of_not_creates hops, fun _ _ => kept_of_not_creates hops hreplays⟩
  obtain ⟨w₁, hfind, hrest⟩ := hreplays
  rcases hreply with ⟨workflow, rfl, hafter⟩ | ⟨e, -, hnil, -⟩
  · cases workflow with
    | none =>
        cases hafter
        exact hkept rfl
    | some workflow =>
        cases hversions : workflow.versions with
        | nil =>
            simp only [hversions] at hafter
            cases hafter
            exact hkept rfl
        | cons currentVersion versions =>
            simp only [hversions] at hafter
            obtain ⟨ctx, hrun⟩ := hfind
            obtain ⟨db', hcall, rfl⟩ := run_db_call hrun
            obtain ⟨-, rfl⟩ := Prod.mk.inj (Except.ok.inj hcall)
            rw [undisturbed_cons id]
            exact creating_kept_iff (c := .createWorkflowExecution _) trivial
              (fun _ _ _ _ => announceExecution_propagates _ actorUserId _) hafter hrest
  · exact hkept hnil

/-- **Atomicity on error.** A request that throws leaves the tables as they
were, with no further execution stranded, if and only if no call threw once
its rows had been created. -/
theorem publishing_kept_iff (request : PublishingRequest)
    {out : Except ApiError request.Response} (htrace : Trace request.program events out)
    (hreplays : Replays ApiOp.exec w events w') :
    ((∃ e, out = .error e) → w.Kept w') ↔ Undisturbed events := by
  cases request with
  | create workspaceId dto actorUserId =>
      exact create_kept_iff workspaceId dto actorUserId htrace hreplays
  | requestExecution workspaceId workflowId dto actorUserId =>
      exact requestExecution_kept_iff workspaceId workflowId dto actorUserId htrace hreplays

end

/-! ## With and without a broker -/

/-- The clock shows the number of the call, and ids are made of it. -/
def requestContext (i : Nat) : DbContext where
  now := i
  uuid := String.ofList (List.replicate (i + 1) 'u')
  rank _ := 0
  nestedUuid := String.ofList (List.replicate (i + 1) 'v')

/-- Calls take effect and answer, apart from the connection to a broker that
is down. -/
def scriptedRequest (brokerUp : Bool) (i : Nat) (op : ApiOp) (w : ApiWorld) :
    Option (Reply ApiError op.Result × ApiWorld) :=
  match op with
  | .connect =>
      if brokerUp then some (.ok (), w)
      else some (.failed (.error "connect ECONNREFUSED"), w)
  | op =>
      match op.run (requestContext i) w with
      | .ok (r, w') => some (.ok r, w')
      | .error _ => none

theorem scriptedRequest_sound {brokerUp : Bool} (i : Nat) (op : ApiOp) (w : ApiWorld)
    (reply : Reply ApiError op.Result) (w' : ApiWorld)
    (h : scriptedRequest brokerUp i op w = some (reply, w')) : op.exec w reply w' := by
  refine ⟨requestContext i, ?_⟩
  unfold scriptedRequest at h
  split at h
  · split at h
    · cases h
      rfl
    · cases h
      exact ⟨id, rfl⟩
  · split at h
    · rename_i hrun
      cases h
      exact hrun
    · cases h

/-- A workspace with one workflow, before the API has a channel. -/
def ApiWorld.serving : ApiWorld where
  db := { Database.empty with
    workflows := [⟨"workflow", "workspace", "Workflow", "workflow", none, .active, 0, 0⟩]
    workflowVersions := [⟨"version", "workflow", 1, defaultWorkflowDefinition, 0, 0⟩] }
  channel := false
  publications := []

/-- The same request is made of it. -/
def sampleRequest : PublishingRequest :=
  .requestExecution "workspace" "workflow" ⟨none⟩ "user"

/-- How the request ends and what it leaves. -/
def runSampleRequest (brokerUp : Bool) :=
  runCalls (scriptedRequest brokerUp) 20 0
    (@PublishingRequest.program (.sample false) ⟨none⟩ sampleRequest) .serving

/-- What was evaluated is a run. -/
theorem exists_run_of_runSampleRequest (brokerUp returns : Bool) {P : ApiWorld → Prop}
    [DecidablePred P]
    (h : (runSampleRequest brokerUp).any (fun (_, q, w') =>
      q.ended?.any (·.toBool == returns) && decide (P w')) = true) :
    ∃ events out w', Trace (@PublishingRequest.program (.sample false) ⟨none⟩ sampleRequest)
        events out
      ∧ Replays ApiOp.exec .serving events w' ∧ out.toBool = returns ∧ P w' := by
  obtain ⟨⟨events, q, w'⟩, hrun, hcheck⟩ := (Option.any_eq_true _ _).mp h
  simp only [Bool.and_eq_true, decide_eq_true_eq] at hcheck
  obtain ⟨out, hq, hreturns⟩ := (Option.any_eq_true _ _).mp hcheck.1
  obtain ⟨hafter, hreplays⟩ := runCalls_sound scriptedRequest_sound hrun
  exact ⟨events, out, w', trace_of_after hafter (trace_of_ended? hq), hreplays,
    beq_iff_eq.mp hreturns, hcheck.2⟩

/-- A request that returns, its command published. -/
theorem publishing_kept_serving :
    ∃ events out w', Trace (@PublishingRequest.program (.sample false) ⟨none⟩ sampleRequest)
        events out
      ∧ Replays ApiOp.exec .serving events w' ∧ out.toBool = true ∧ w'.publications ≠ []
      ∧ (((∃ e, out = .error e) → ApiWorld.serving.Kept w') ↔ Undisturbed events) := by
  obtain ⟨events, out, w', htrace, hreplays, hreturns, hpublished⟩ :=
    exists_run_of_runSampleRequest true true (P := fun w' => w'.publications ≠ [])
      (by decide +kernel)
  exact ⟨events, out, w', htrace, hreplays, hreturns, hpublished,
    @publishing_kept_iff (.sample false) ⟨none⟩ _ _ _ sampleRequest out htrace hreplays⟩

/-- The execution that is created. -/
def sampleExecution : WorkflowExecution where
  id := "uu"
  workspaceId := "workspace"
  workflowId := "workflow"
  workflowVersionId := "version"
  requestedByUserId := some "user"
  status := .pending
  input := .obj []
  output := none
  error := none
  startedAt := none
  completedAt := none
  createdAt := 1
  updatedAt := 1

/-- With the broker down the request throws, and the execution it created
stays behind without a command. -/
theorem requestExecution_strands :
    ∃ events e w', Trace (@PublishingRequest.program (.sample false) ⟨none⟩ sampleRequest)
        events (.error e)
      ∧ Replays ApiOp.exec .serving events w' ∧ ¬ ApiWorld.serving.db.SameTables w'.db
      ∧ w'.Stranded sampleExecution := by
  obtain ⟨events, out, w', htrace, hreplays, hthrew, hrows, hnone⟩ :=
    exists_run_of_runSampleRequest false false
      (P := fun w' => w'.db.workflowExecutions = [sampleExecution] ∧ w'.publications = [])
      (by decide +kernel)
  cases out with
  | ok response => cases hthrew
  | error e =>
      refine ⟨events, e, w', htrace, hreplays, fun hsame => ?_, ?_, rfl, ?_⟩
      · have hkept := hsame.workflowExecutions
        rw [hrows] at hkept
        cases hkept
      · rw [hrows]
        exact List.mem_singleton_self _
      · rw [hnone]
        simp

end FlowPilot.Api
