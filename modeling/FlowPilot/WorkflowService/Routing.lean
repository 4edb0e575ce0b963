import FlowPilot.Api.Atomicity
import FlowPilot.System.Provenance
import FlowPilot.System.Scripts
import FlowPilot.WorkflowService.Wire

/-!
# Routed and accepted

Which publications the broker routes to the queue of the workflow service,
and which of them its parser accepts. The API and the service declare their
bindings independently; every lifecycle event the workers publish is
accepted, but the API also binds `workflow.created`, which the parser does
not know.
-/

namespace FlowPilot

open Prog hiding pure throw bind tryCatch

/-! ## Topology -/

/-- `FLOWPILOT_QUEUES`. -/
inductive FlowPilotQueue where
  | executionWorkerWorkflowExecutions
  | workflowServiceExecutionEvents
  | observabilityServiceAiTraces
  | observabilityServiceExecutionEvents
deriving DecidableEq, Repr

structure QueueBinding where
  queue : FlowPilotQueue
  exchange : FlowPilotExchange
  routingKey : String
deriving DecidableEq

/-- The bindings the API declares. -/
def Api.flowPilotQueueBindings : List QueueBinding :=
  [⟨.executionWorkerWorkflowExecutions, .commands,
      FlowPilotRoutingKey.workflowExecutionRequested.literal⟩,
    ⟨.workflowServiceExecutionEvents, .events, "workflow.execution.*"⟩,
    ⟨.workflowServiceExecutionEvents, .events, "workflow.node.execution.*"⟩,
    ⟨.workflowServiceExecutionEvents, .events, FlowPilotRoutingKey.workflowCreated.literal⟩,
    ⟨.observabilityServiceAiTraces, .events, FlowPilotRoutingKey.aiTraceCreated.literal⟩,
    ⟨.observabilityServiceExecutionEvents, .events, "workflow.execution.*"⟩,
    ⟨.observabilityServiceExecutionEvents, .events, "workflow.node.execution.*"⟩,
    ⟨.observabilityServiceExecutionEvents, .events, FlowPilotRoutingKey.workflowCreated.literal⟩]

/-- The bindings of the service's own `declareTopology`. -/
def WorkflowService.declaredBindings : List QueueBinding :=
  [⟨.workflowServiceExecutionEvents, .events, "workflow.execution.*"⟩,
    ⟨.workflowServiceExecutionEvents, .events, "workflow.node.execution.*"⟩]

/-- The broker routes the publication to the queue. -/
def Publication.routedTo (p : Publication) (queue : FlowPilotQueue) : Bool :=
  (Api.flowPilotQueueBindings ++ WorkflowService.declaredBindings).any fun binding =>
    binding.queue = queue && binding.exchange = p.exchange
      && WorkflowService.topicMatches binding.routingKey p.routingKey

/-- The queue is bound to the events exchange only, by the three patterns. -/
theorem routedTo_executionEvents (p : Publication) :
    p.routedTo .workflowServiceExecutionEvents = true
      ↔ p.exchange = .events ∧ WorkflowService.isRouted p.routingKey = true := by
  simp [Publication.routedTo, Api.flowPilotQueueBindings, WorkflowService.declaredBindings,
    WorkflowService.isRouted, WorkflowService.executionEventBindings]
  grind

/-! ## Producers -/

/-- What the API publishes for `create` and `requestExecution`, and what the
workers publish in any run of the system. -/
inductive Produced [Runtime] [Api.ProcessEnv] (p : Publication) : Prop
  | api {request : Api.PublishingRequest} {events : Api.RequestHistory}
      {out : Except Api.ApiError request.Response}
      {ev : Event Api.ApiOp Api.ApiOp.Result Api.ApiError} :
      Trace request.program events out → ev ∈ events → ev.op = .publish p → Produced p
  | worker {env : Environment} {s : WorkerPool} {t : Nat} {th : WorkerThread} {ev : WorkerEvent} :
      ReachableSystem env s → s.threads t = some th → ev ∈ th.history → ev.op = .publish p →
      Produced p

/-- The publication is a `workflow.created` event. -/
def Publication.IsWorkflowCreated (p : Publication) : Prop :=
  p.exchange = .events ∧ p.routingKey = FlowPilotRoutingKey.workflowCreated.literal

/-- The parser of the workflow service accepts the message. -/
def Publication.Accepted (p : Publication) : Prop :=
  ∃ m, WorkflowService.parseWorkflowExecutionLifecycleMessage p.toMessage = some m

/-! ## The parser and the constructors -/

theorem accepted_of_content {p : Publication} {value : Json} (hcontent : p.content = .json value)
    (haccepted : WorkflowService.isWorkflowExecutionLifecycleMessage value = true) :
    p.Accepted := by
  refine ⟨⟨value, haccepted⟩, ?_⟩
  simp [WorkflowService.parseWorkflowExecutionLifecycleMessage, Publication.toMessage, hcontent,
    haccepted]

/-- Every event a worker builds is one the parser accepts, apart from traces. -/
theorem CreatedFor.accepted {m : WorkflowExecutionRequestedMessage}
    {message : WorkflowLifecycleMessage} (h : CreatedFor m message)
    (hname : message.eventName ≠ .aiTraceCreated) :
    WorkflowService.isWorkflowExecutionLifecycleMessage message.toJson = true := by
  have haccepted := WorkflowService.stringified_accepted h hname fun cause => some cause.toJson
  rwa [WorkflowLifecycleMessage.stringified_toJson] at haccepted

/-- Their names: never `workflow.created`. -/
theorem CreatedFor.eventName_ne {m : WorkflowExecutionRequestedMessage}
    {message : WorkflowLifecycleMessage} (h : CreatedFor m message) :
    message.eventName ≠ .workflowCreated := by
  cases h <;> exact fun hname => by cases hname

/-- A `workflow.created` event is none the parser accepts. -/
theorem not_accepted_workflowCreated {p : Publication} {value : Json}
    (hcontent : p.content = .json value)
    (hname : value.get? "eventName" = some (.str FlowPilotRoutingKey.workflowCreated.literal)) :
    ¬ p.Accepted := by
  rintro ⟨m, hm⟩
  have hvalue : value = m.value :=
    Buffer.json.inj (hcontent.symm.trans (WorkflowService.content_of_parsed hm))
  have haccepted := m.accepted
  rw [← hvalue] at haccepted
  simp [WorkflowService.isWorkflowExecutionLifecycleMessage, hname,
    WorkflowService.workflowExecutionLifecycleEvents, FlowPilotRoutingKey.literal] at haccepted

/-! ## The API -/

namespace Api

section

variable [Runtime] [ProcessEnv]

/-- What a request publishes: a command, or that a workflow was created. -/
def PublishesOp : ApiOp → Prop
  | .publish p => p.exchange = .commands ∨ ∃ message : FlowPilotMessage,
      message.eventName = .workflowCreated ∧ p = eventPublication .workflowCreated message
  | _ => True

theorem publishEvent_publishes {routingKey : FlowPilotRoutingKey} {message : FlowPilotMessage}
    (h : PublishesOp (.publish (eventPublication routingKey message))) :
    Issues PublishesOp (publishEvent routingKey message) := by
  unfold publishEvent
  split
  · exact issues_pure ()
  · refine issues_bind (issues_bind (issues_perform trivial) fun hasChannel => ?_) fun _ =>
      issues_bind (issues_perform h) fun _ => issues_perform trivial
    cases hasChannel with
    | true => exact issues_pure ()
    | false =>
        exact issues_bind (issues_perform trivial) fun _ =>
          issues_bind (issues_perform trivial) fun _ =>
          issues_bind (issues_perform trivial) fun _ => issues_perform trivial

omit [ProcessEnv] in
theorem ofExcept_publishes {α : Type} (result : Except ApiError α) :
    Issues PublishesOp (ofExcept result) := by
  cases result <;> trivial

theorem create_publishes (workspaceId : String) (dto : CreateWorkflowDto) (actorUserId : String) :
    Issues PublishesOp (create workspaceId dto actorUserId) := by
  refine issues_tryCatch
    (issues_bind (issues_perform trivial) fun workflow =>
      issues_bind (ofExcept_publishes _) fun response =>
        issues_bind (issues_perform trivial) fun eventId =>
          issues_bind (issues_perform trivial) fun occurredAt =>
            issues_bind (publishEvent_publishes (Or.inr ⟨_, rfl, rfl⟩)) fun _ => issues_pure _)
    fun e => ?_
  obtain ⟨e', he'⟩ := rethrowConflict_throws (α := WorkflowResponse) e
  rw [he']
  exact issues_throw e'

theorem requestExecution_publishes (workspaceId workflowId : String)
    (dto : CreateWorkflowExecutionDto) (actorUserId : String) :
    Issues PublishesOp (requestExecution workspaceId workflowId dto actorUserId) := by
  refine issues_bind (issues_perform trivial) fun workflow? => ?_
  cases workflow? with
  | none => exact issues_throw _
  | some workflow =>
      dsimp only
      split
      · exact issues_throw _
      · exact issues_bind (issues_perform trivial) fun execution =>
          issues_bind (issues_perform trivial) fun eventId =>
            issues_bind (issues_perform trivial) fun occurredAt =>
              issues_bind (publishEvent_publishes (Or.inl rfl)) fun _ => issues_pure _

theorem publishing_publishes : ∀ request : PublishingRequest,
    Issues PublishesOp request.program
  | .create workspaceId dto actorUserId => create_publishes workspaceId dto actorUserId
  | .requestExecution workspaceId workflowId dto actorUserId =>
      requestExecution_publishes workspaceId workflowId dto actorUserId

end

end Api

/-! ## Routed implies accepted -/

section

variable [Runtime] [Api.ProcessEnv] {p : Publication}

omit [Api.ProcessEnv] in
/-- A publication of a worker to the events exchange is an event of the
outbox. -/
theorem ReachableUnder.publication_created {env : Environment}
    {C : WorkerPool → WorkerLabel → Prop} {s : WorkerPool} (h : ReachableUnder env C s) {t : Nat}
    {th : WorkerThread} {ev : WorkerEvent} (hth : s.threads t = some th) (hev : ev ∈ th.history)
    (hop : ev.op = .publish p) (hp : p.exchange = .events) :
    ∃ m row now, OutboxMessage.CreatedFor m row ∧ p = outboxPublication row now := by
  obtain ⟨first, rest, hsplit, hobeys, -⟩ := (h.outboxOp t th hth).past.mem hev
  simp only [Pool.Discipline.ofSafe, hop, List.nil_append] at hobeys
  obtain ⟨snapshot, now, hseen, -, rfl⟩ := hobeys hp
  have hseen' : RowSeen th.history snapshot := by
    rw [hsplit]
    exact RowSeen.append hseen _
  obtain ⟨row, hrow, hsame⟩ := h.snapshots t th hth snapshot hseen'
  obtain ⟨m, hcreated⟩ := h.created row hrow
  exact ⟨m, row, now, hcreated, (hsame.publication now).symm⟩

omit [Runtime] [Api.ProcessEnv] in
/-- An event of the outbox is accepted where it is routed. -/
theorem accepted_of_created {m : WorkflowExecutionRequestedMessage} {row : OutboxMessage}
    (h : row.CreatedFor m) (now : Int)
    (hrouted : WorkflowService.isRouted row.routingKey.literal = true) :
    (outboxPublication row now).Accepted := by
  refine @accepted_of_content _ row.payload.toJson rfl (h.payload.accepted ?_)
  intro hname
  rw [h.routingKey, hname] at hrouted
  exact absurd hrouted (by decide)

/-- **Routed implies accepted.** A message the API or a worker publishes is
accepted by the workflow service wherever it is routed to its queue, if and
only if it is no `workflow.created` event. -/
theorem routed_accepted_iff (h : Produced p) :
    (p.routedTo .workflowServiceExecutionEvents = true → p.Accepted) ↔ ¬ p.IsWorkflowCreated := by
  rw [routedTo_executionEvents]
  cases h with
  | @api request events out ev htrace hev hop =>
      have hpublishes := (spec_trace (Api.publishing_publishes request) htrace).1 ev hev
      rw [hop] at hpublishes
      rcases hpublishes with hcommand | ⟨message, hname, rfl⟩
      · refine ⟨fun _ hcreated => ?_, fun _ hrouted => ?_⟩
        · cases hcommand.symm.trans hcreated.1
        · cases hcommand.symm.trans hrouted.1
      · have hrejected : ¬ (Api.eventPublication .workflowCreated message).Accepted :=
          not_accepted_workflowCreated rfl (by
            simp [Api.FlowPilotMessage.toJson, Json.get?, hname])
        have hbound :
            WorkflowService.isRouted FlowPilotRoutingKey.workflowCreated.literal = true := by decide
        exact ⟨fun h => absurd (h ⟨rfl, hbound⟩) hrejected, fun h => absurd ⟨rfl, rfl⟩ h⟩
  | @worker env s t th ev hs hth hev hop =>
      by_cases hp : p.exchange = .events
      · obtain ⟨m, row, now, hcreated, rfl⟩ := ReachableUnder.publication_created hs hth hev hop hp
        refine ⟨fun _ hiscreated => ?_, fun _ hrouted => accepted_of_created hcreated now hrouted.2⟩
        have hname := FlowPilotRoutingKey.literal_inj.mp hiscreated.2
        exact hcreated.payload.eventName_ne (hcreated.routingKey.symm.trans hname)
      · exact ⟨fun _ hcreated => hp hcreated.1, fun _ hrouted => absurd hrouted.1 hp⟩

end

/-! ## Runs -/

/-- The publication of a call of the API, and of a worker. -/
def Api.ApiOp.publication : Api.ApiOp → Option Publication
  | .publish p => some p
  | _ => none

def WorkerOp.publication : WorkerOp → Option Publication
  | .publish p => some p
  | _ => none

theorem Api.ApiOp.publication_eq_some {op : Api.ApiOp} {p : Publication}
    (h : op.publication = some p) : op = .publish p := by
  cases op <;> cases h
  rfl

theorem WorkerOp.publication_eq_some {op : WorkerOp} {p : Publication}
    (h : op.publication = some p) : op = .publish p := by
  cases op <;> cases h
  rfl

/-- The run publishes something with the property checked. -/
def publishes {Op : Type} {Res : Op → Type} {ε : Type} (publication : Op → Option Publication)
    (check : Publication → Bool) (events : List (Event Op Res ε)) : Bool :=
  events.any fun ev => (publication ev.op).any check

theorem exists_publication {Op : Type} {Res : Op → Type} {ε : Type}
    {publication : Op → Option Publication} {check : Publication → Bool}
    {events : List (Event Op Res ε)} (h : publishes publication check events = true) :
    ∃ p, ∃ ev ∈ events, publication ev.op = some p ∧ check p = true := by
  obtain ⟨ev, hev, hany⟩ := List.any_eq_true.mp h
  obtain ⟨p, hp, hcheck⟩ := (Option.any_eq_true _ _).mp hany
  exact ⟨p, ev, hev, hp, hcheck⟩

/-- The started event of a new execution, published by the delivery of its
command. -/
theorem routed_accepted_started :
    ∃ (_ : Runtime) (_ : Api.ProcessEnv) (p : Publication), Produced p
      ∧ p.routedTo .workflowServiceExecutionEvents = true
      ∧ ((p.routedTo .workflowServiceExecutionEvents = true → p.Accepted)
        ↔ ¬ p.IsWorkflowCreated) := by
  let : Runtime := .sample false
  let : Api.ProcessEnv := ⟨none⟩
  have hscript : (script (fun _ => true) 100 0
      (handleDelivery (newMessage defaultWorkflowDefinition))
      { World.requesting defaultWorkflowDefinition with commands := [] }).any
        (fun result => publishes WorkerOp.publication
          (·.routedTo .workflowServiceExecutionEvents) result.1) = true := by
    decide +kernel
  obtain ⟨⟨events, q, w'⟩, hscript, hcheck⟩ := (Option.any_eq_true _ _).mp hscript
  obtain ⟨p, ev, hev, hop, hrouted⟩ := exists_publication hcheck
  have hdone := reachable_delivery (C := fun _ _ => True)
    (reachable_requesting defaultWorkflowDefinition rfl fun _ => trivial) (k := 0) rfl
    (fun _ => trivial) (fun _ _ => trivial) (fun _ _ _ _ => trivial) rfl
    (script_sound (newRow defaultWorkflowDefinition) hscript)
  have hproduced : Produced p :=
    .worker hdone (Function.update_self ..) hev (WorkerOp.publication_eq_some hop)
  exact ⟨_, _, p, hproduced, hrouted, routed_accepted_iff hproduced⟩

/-- Whether the message names itself a `workflow.created` event. -/
def namesWorkflowCreated (p : Publication) : Bool :=
  match p.content with
  | .json value =>
      value.get? "eventName" = some (.str FlowPilotRoutingKey.workflowCreated.literal)
  | .notJson _ => false

theorem not_accepted_of_names {p : Publication} (h : namesWorkflowCreated p = true) :
    ¬ p.Accepted := by
  unfold namesWorkflowCreated at h
  split at h
  · rename_i value hcontent
    exact not_accepted_workflowCreated hcontent (of_decide_eq_true h)
  · cases h

/-- A new workflow is announced to the workflow service, which rejects the
event. -/
theorem workflowCreated_rejected :
    ∃ (_ : Runtime) (_ : Api.ProcessEnv) (p : Publication), Produced p
      ∧ p.routedTo .workflowServiceExecutionEvents = true ∧ ¬ p.Accepted := by
  let : Runtime := .sample false
  let : Api.ProcessEnv := ⟨none⟩
  let request : Api.PublishingRequest :=
    .create "workspace" ⟨"Second workflow", "second-workflow", none, none⟩ "user"
  have hrun : (runCalls (Api.scriptedRequest true) 20 0 request.program .serving).any
      (fun result => result.2.1.ended?.isSome && publishes Api.ApiOp.publication
        (fun p => p.routedTo .workflowServiceExecutionEvents && namesWorkflowCreated p)
        result.1) = true := by
    decide +kernel
  obtain ⟨⟨events, q, w'⟩, hrun, hcheck⟩ := (Option.any_eq_true _ _).mp hrun
  obtain ⟨hended, hpublishes⟩ := (Bool.and_eq_true _ _).mp hcheck
  obtain ⟨out, hq⟩ := Option.isSome_iff_exists.mp hended
  obtain ⟨p, ev, hev, hop, hp⟩ := exists_publication hpublishes
  obtain ⟨hrouted, hname⟩ := (Bool.and_eq_true _ _).mp hp
  obtain ⟨hafter, -⟩ := runCalls_sound Api.scriptedRequest_sound hrun
  have hproduced : Produced p :=
    .api (trace_of_after hafter (trace_of_ended? hq)) hev (Api.ApiOp.publication_eq_some hop)
  exact ⟨_, _, p, hproduced, hrouted, not_accepted_of_names hname⟩

end FlowPilot
