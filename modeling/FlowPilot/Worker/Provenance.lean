import FlowPilot.Worker.Process

/-!
# What a worker makes for a command

Everything a delivery leaves behind is made from the command it carries: the
ids of its rows, events and requests are the command's, whatever the store
answers. `MadeFor` says so of one call, `CreatedFor` of one event, and the
traversal below shows it of everything a delivery runs.
-/

namespace FlowPilot

open Prog hiding pure throw bind tryCatch

/-! ## Events -/

/-- The trace is one of an execution of the command. -/
structure WorkflowAiTraceCreateData.TraceOf (m : WorkflowExecutionRequestedMessage)
    (data : WorkflowAiTraceCreateData) : Prop where
  workspaceId : data.workspaceId = m.workspaceId
  workflowId : data.workflowId = m.workflowId
  executionId : data.workflowExecutionId = m.executionId

/-- The events that are built for the command, one constructor for each of
the source. -/
inductive CreatedFor (m : WorkflowExecutionRequestedMessage) : WorkflowLifecycleMessage → Prop
  | executionStarted (eventId : String) (startedAt : Int) :
      CreatedFor m (createWorkflowExecutionStartedMessage m eventId (toISOString startedAt))
  | executionCompleted (eventId : String) (output : Record) (startedAt completedAt : Int) :
      CreatedFor m
        (createWorkflowExecutionCompletedMessage m eventId output startedAt completedAt)
  | executionFailed (eventId : String) (error : FlowPilotExecutionError) (occurredAt : Int) :
      CreatedFor m (createWorkflowExecutionFailedMessage m eventId error occurredAt)
  | nodeStarted (eventId : String) (node : WorkflowNode) (nodeExecutionId : String)
      (input : Record) (startedAt : Int) :
      CreatedFor m
        (createNodeExecutionStartedMessage m eventId node nodeExecutionId input startedAt)
  | nodeCompleted (eventId : String) (node : WorkflowNode) (nodeExecutionId : String)
      (output : Record) (startedAt completedAt : Int) :
      CreatedFor m
        (createNodeExecutionCompletedMessage m eventId node nodeExecutionId output startedAt
          completedAt)
  | nodeFailed (eventId : String) (node : WorkflowNode) (nodeExecutionId : String)
      (failure : WorkerFailure) (failedAt : Int) :
      CreatedFor m
        (createNodeExecutionFailedMessage m eventId node nodeExecutionId failure failedAt)
  | aiTraceCreated (eventId : String) (trace : WorkflowAiTrace) :
      trace.toWorkflowAiTraceCreateData.TraceOf m →
      CreatedFor m (createAiTraceCreatedMessage m eventId trace)

/-! ## Calls -/

/-- Where the call produces something, it is made from the command. -/
def MadeFor (m : WorkflowExecutionRequestedMessage) : WorkerOp → Prop
  | .db (.upsertOutbox routingKey message) =>
      CreatedFor m message ∧ routingKey = message.eventName
  | .db (.transaction t) => CreatedFor m t.message ∧ t.routingKey = t.message.eventName
  | .db (.upsertRunningNode m' _ _ _) => m' = m
  | .db (.createAiTrace data) => data.TraceOf m
  | .executeWorkflowNode _ context => context.message = m
  | _ => True

/-- The call produces nothing. -/
def MakesNothing : WorkerOp → Prop
  | .db (.upsertOutbox _ _) => False
  | .db (.transaction _) => False
  | .db (.upsertRunningNode _ _ _ _) => False
  | .db (.createAiTrace _) => False
  | .executeWorkflowNode _ _ => False
  | _ => True

theorem MakesNothing.madeFor (m : WorkflowExecutionRequestedMessage) {op : WorkerOp}
    (hop : MakesNothing op) : MadeFor m op := by
  cases op with
  | db c =>
      cases c with
      | upsertOutbox _ _ => exact hop.elim
      | transaction _ => exact hop.elim
      | upsertRunningNode _ _ _ _ => exact hop.elim
      | createAiTrace _ => exact hop.elim
      | _ => trivial
  | executeWorkflowNode _ _ => exact hop.elim
  | _ => trivial

/-- The calls a delivery makes outside the nodes. -/
inductive LifecycleOp (m : WorkflowExecutionRequestedMessage) : WorkerOp → Prop
  | nothing {op : WorkerOp} : MakesNothing op → LifecycleOp m op
  | started (eventId : String) (startedAt : Int) :
      LifecycleOp m (.db (.upsertOutbox .workflowExecutionStarted
        (createWorkflowExecutionStartedMessage m eventId (toISOString startedAt))))
  | start (eventId : String) (startedAt : Int) :
      LifecycleOp m (.db (.transaction (startTransition m eventId startedAt)))
  | complete (executionId eventId : String) (output : Record) (startedAt completedAt : Int) :
      LifecycleOp m (.db (.transaction
        (completeTransition m executionId eventId output startedAt completedAt)))
  | fail (eventId : String) (failureRecord : FlowPilotExecutionError) (failedAt : Int) :
      LifecycleOp m (.db (.transaction (failTransition m eventId failureRecord failedAt)))

theorem LifecycleOp.madeFor {m : WorkflowExecutionRequestedMessage} {op : WorkerOp}
    (hop : LifecycleOp m op) : MadeFor m op := by
  cases hop with
  | nothing hop => exact hop.madeFor m
  | started eventId startedAt => exact ⟨.executionStarted eventId startedAt, rfl⟩
  | start eventId startedAt => exact ⟨.executionStarted eventId startedAt, rfl⟩
  | complete executionId eventId output startedAt completedAt =>
      exact ⟨.executionCompleted eventId output startedAt completedAt, rfl⟩
  | fail eventId failureRecord failedAt =>
      exact ⟨.executionFailed eventId failureRecord failedAt, rfl⟩

/-! ## Dispatching -/

theorem markOutboxPublishFailure_makesNothing (row : OutboxMessage) (error : JsError) :
    Issues MakesNothing (markOutboxPublishFailure row error) :=
  issues_perform trivial

theorem dispatchOutboxEvent_makesNothing (row : OutboxMessage) :
    Issues MakesNothing (dispatchOutboxEvent row) := by
  unfold dispatchOutboxEvent
  split
  · exact issues_pure ()
  · refine issues_bind (issues_perform trivial) fun now => issues_bind
      (issues_tryCatch (issues_perform trivial) fun error =>
        issues_bind (markOutboxPublishFailure_makesNothing row error) fun _ => issues_throw error)
      fun published => ?_
    cases published with
    | true => exact issues_bind (issues_perform trivial) fun _ => issues_perform trivial
    | false =>
        exact issues_bind (markOutboxPublishFailure_makesNothing row _) fun _ => issues_throw _

theorem dispatchEach_makesNothing : ∀ rows : List OutboxMessage,
    Issues MakesNothing (dispatchEach rows)
  | [] => issues_pure ()
  | row :: rows =>
      issues_bind (dispatchOutboxEvent_makesNothing row) fun _ => dispatchEach_makesNothing rows

theorem dispatchBatch_makesNothing : ∀ (rows : List OutboxMessage) (result : DispatchResult),
    Issues MakesNothing (dispatchBatch rows result)
  | [], result => issues_pure result
  | row :: rows, _ =>
      issues_bind
        (issues_tryCatch
          (issues_bind (dispatchOutboxEvent_makesNothing row) fun _ => issues_pure _)
          fun _ => issues_pure _)
        fun result => dispatchBatch_makesNothing rows result

theorem outboxDispatcherCycle_makesNothing : Issues MakesNothing outboxDispatcherCycle :=
  issues_tryCatch
    (issues_bind
      (issues_bind (issues_perform trivial) fun rows => dispatchBatch_makesNothing rows _)
      fun _ => issues_pure ())
    fun _ => issues_pure ()

section

variable (m : WorkflowExecutionRequestedMessage)

theorem dispatchOutboxEvent_madeFor (row : OutboxMessage) :
    Issues (MadeFor m) (dispatchOutboxEvent row) :=
  issues_mono (fun _ hop => hop.madeFor m) (dispatchOutboxEvent_makesNothing row)

/-- An event is stored under its own name and dispatched. -/
theorem publishEvent_madeFor {routingKey : FlowPilotRoutingKey}
    {message : String → WorkflowLifecycleMessage}
    (hmessage : ∀ eventId,
      CreatedFor m (message eventId) ∧ routingKey = (message eventId).eventName) :
    Issues (MadeFor m) (do
      let eventId ← randomUUID
      let outboxMessage ← persistOutboxEvent routingKey (message eventId)
      dispatchOutboxEvent outboxMessage) :=
  issues_bind (issues_perform trivial) fun eventId =>
    issues_bind (issues_perform (hmessage eventId)) fun row => dispatchOutboxEvent_madeFor m row

/-! ## The nodes -/

section

variable (node : WorkflowNode) (nodeExecutionId : String) (input : Record) (startedAt : Int)

theorem recordAiTrace_madeFor {data : WorkflowAiTraceCreateData} (hdata : data.TraceOf m) :
    Issues (MadeFor m) (recordAiTrace m data) :=
  issues_tryCatch
    (issues_bind (issues_perform hdata) fun _ =>
      publishEvent_madeFor m fun eventId => ⟨.aiTraceCreated eventId _ hdata, rfl⟩)
    fun _ => issues_pure ()

variable [Runtime]

theorem nodeSuccessPath_madeFor :
    Issues (MadeFor m) (nodeSuccessPath m node nodeExecutionId input startedAt) := by
  have htrace : ∀ output completedAt, Issues (MadeFor m)
      (recordAiTraceForSuccessfulNode m node nodeExecutionId input output startedAt
        completedAt) := by
    intro output completedAt
    unfold recordAiTraceForSuccessfulNode
    split
    · exact recordAiTrace_madeFor m ⟨rfl, rfl, rfl⟩
    · exact issues_pure ()
  exact issues_bind (issues_perform rfl) fun output =>
    issues_bind (issues_perform trivial) fun completedAt =>
      issues_bind (issues_perform trivial) fun _ =>
        issues_bind (htrace output completedAt) fun _ =>
          issues_bind (publishEvent_madeFor m fun eventId =>
            ⟨.nodeCompleted eventId node nodeExecutionId output startedAt completedAt, rfl⟩)
            fun _ => issues_pure output

theorem nodeFailurePath_madeFor (error : JsError) :
    Issues (MadeFor m) (nodeFailurePath m node nodeExecutionId input startedAt error) := by
  have htrace : ∀ failure failedAt, Issues (MadeFor m)
      (recordAiTraceForFailedNode m node nodeExecutionId input failure startedAt failedAt) := by
    intro failure failedAt
    unfold recordAiTraceForFailedNode
    split
    · exact recordAiTrace_madeFor m ⟨rfl, rfl, rfl⟩
    · exact issues_pure ()
  exact issues_bind (issues_perform trivial) fun failedAt =>
    issues_bind (issues_perform trivial) fun _ =>
      issues_bind (htrace _ failedAt) fun _ =>
        issues_bind (publishEvent_madeFor m fun eventId =>
          ⟨.nodeFailed eventId node nodeExecutionId _ failedAt, rfl⟩)
          fun _ => issues_throw error

theorem runNode_madeFor : Issues (MadeFor m) (runNode m node input) :=
  issues_bind (issues_perform trivial) fun startedAt =>
    issues_bind (issues_perform rfl) fun row =>
      issues_bind (publishEvent_madeFor m fun eventId =>
          ⟨.nodeStarted eventId node row.id input startedAt, rfl⟩) fun _ =>
        issues_tryCatch (nodeSuccessPath_madeFor m node row.id input startedAt) fun error =>
          nodeFailurePath_madeFor m node row.id input startedAt error

end

theorem executeNodes_madeFor [Runtime] (definition : WorkflowDefinition) :
    ∀ (nodes : List WorkflowNode) (nodeOutputs : JsMap Record) (currentInput : Record),
      Issues (MadeFor m) (executeNodes m definition nodes nodeOutputs currentInput)
  | [], _, currentInput => issues_pure currentInput
  | node :: nodes, _, _ =>
      issues_bind (runNode_madeFor m node _) fun _ => executeNodes_madeFor definition nodes _ _

theorem ofExcept_madeFor {α : Type} (result : Except JsError α) :
    Issues (MadeFor m) (ofExcept result) := by
  cases result <;> trivial

theorem executeWorkflowNodes_madeFor [Runtime] (execution : WorkflowExecution) :
    Issues (MadeFor m) (executeWorkflowNodes m execution) :=
  issues_bind (ofExcept_madeFor m _) fun _ =>
    issues_bind (ofExcept_madeFor m _) fun definition =>
      issues_bind (ofExcept_madeFor m _) fun nodes =>
        issues_bind (executeNodes_madeFor m definition nodes _ _) fun _ => issues_pure _

/-! ## The handler -/

theorem issues_madeFor {α : Type} {p : Worker α} (hp : Issues (LifecycleOp m) p) :
    Issues (MadeFor m) p :=
  issues_mono (fun _ hop => hop.madeFor) hp

theorem issues_nothing {α : Type} {p : Worker α} (hp : Issues MakesNothing p) :
    Issues (LifecycleOp m) p :=
  issues_mono (fun _ hop => .nothing hop) hp

theorem lifecycle_call {op : WorkerOp} (hop : MakesNothing op) :
    Issues (LifecycleOp m) (call op) :=
  issues_perform (.nothing hop)

theorem dispatchOutboxEvent_lifecycle (row : OutboxMessage) :
    Issues (LifecycleOp m) (dispatchOutboxEvent row) :=
  issues_nothing m (dispatchOutboxEvent_makesNothing row)

theorem dispatchPending_lifecycle (executionId : String) :
    Issues (LifecycleOp m) (dispatchPendingWorkflowExecutionOutboxMessages executionId) :=
  issues_nothing m (issues_bind (issues_perform trivial) fun rows => dispatchEach_makesNothing rows)

/-- A guarded transaction and what follows it. -/
theorem transition_lifecycle {α : Type} {t : StatusTransition} {unchanged missing : Worker α}
    {f : OutboxMessage → Worker α} (ht : LifecycleOp m (.db (.transaction t)))
    (hunchanged : Issues (LifecycleOp m) unchanged) (hmissing : Issues (LifecycleOp m) missing)
    (hf : ∀ row, Issues (LifecycleOp m) (f row)) :
    Issues (LifecycleOp m) (do
      let transition : TransitionResult ← db (.transaction t)
      if transition.count = 0 then unchanged
      else
        match transition.outboxMessage with
        | none => missing
        | some outboxMessage => f outboxMessage) := by
  refine issues_bind (issues_perform ht) fun transition => ?_
  split
  · exact hunchanged
  · split
    · exact hmissing
    · exact hf _

/-- The row decides: the lifecycle events of an ended execution are
dispatched. -/
theorem ended_lifecycle {execution? : Option WorkflowExecution} {conflict : Worker Unit}
    {id : WorkflowExecution → String} (hconflict : Issues (LifecycleOp m) conflict) :
    Issues (LifecycleOp m) (match execution? with
      | some execution =>
          if isTerminalExecutionStatus execution.status then
            dispatchPendingWorkflowExecutionOutboxMessages (id execution)
          else conflict
      | none => conflict) := by
  split
  · split
    · exact dispatchPending_lifecycle m _
    · exact hconflict
  · exact hconflict

theorem enterRunning_lifecycle (existingExecution : WorkflowExecution) (effectiveStartedAt : Int) :
    Issues (LifecycleOp m) (enterRunning m existingExecution effectiveStartedAt) := by
  unfold enterRunning
  split
  · refine issues_bind (lifecycle_call m trivial) fun eventId => transition_lifecycle m
      (.start eventId effectiveStartedAt) ?_ (issues_throw _)
      fun row => issues_bind (dispatchOutboxEvent_lifecycle m row) fun _ => issues_pure _
    refine issues_bind (lifecycle_call m trivial) fun currentExecution? => ?_
    split
    · exact issues_bind (dispatchPending_lifecycle m _) fun _ => issues_pure _
    · split
      · exact issues_bind (dispatchPending_lifecycle m _) fun _ => issues_pure _
      · exact issues_pure _
  · exact issues_bind (lifecycle_call m trivial) fun eventId =>
      issues_bind (issues_perform (.started eventId effectiveStartedAt)) fun row =>
        issues_bind (dispatchOutboxEvent_lifecycle m row) fun _ => issues_pure _

theorem completeWorkflowExecution_lifecycle (execution : WorkflowExecution) (output : Record)
    (effectiveStartedAt : Int) :
    Issues (LifecycleOp m) (completeWorkflowExecution m execution output effectiveStartedAt) :=
  issues_bind (lifecycle_call m trivial) fun completedAt =>
    issues_bind (lifecycle_call m trivial) fun eventId => transition_lifecycle m
      (.complete execution.id eventId output effectiveStartedAt completedAt)
      (issues_bind (lifecycle_call m trivial) fun _ => ended_lifecycle m (issues_throw _))
      (issues_throw _) fun row => dispatchOutboxEvent_lifecycle m row

theorem failWorkflowExecution_lifecycle (failure : FlowPilotExecutionError) :
    Issues (LifecycleOp m) (failWorkflowExecution m failure) :=
  issues_bind (lifecycle_call m trivial) fun failedAt =>
    issues_bind (lifecycle_call m trivial) fun eventId => transition_lifecycle m
      (.fail eventId _ failedAt)
      (issues_bind (lifecycle_call m trivial) fun _ => ended_lifecycle m (issues_throw _))
      (issues_throw _) fun row => dispatchOutboxEvent_lifecycle m row

variable [Runtime]

theorem handleFailure_lifecycle (message : ConsumeMessage) (error : JsError) :
    Issues (LifecycleOp m) (handleFailure message m error) := by
  have hpublish : ∀ p, Issues (LifecycleOp m) (do
      let _ ← publish p
      pure () : Worker Unit) :=
    fun _ => issues_bind (lifecycle_call m trivial) fun _ => issues_pure ()
  simp only [handleFailure]
  split
  · refine issues_bind ?_ fun _ => lifecycle_call m trivial
    unfold publishRetryCommand
    split
    · exact issues_throw _
    · exact hpublish _
  · exact issues_tryCatch
      (issues_bind (failWorkflowExecution_lifecycle m _) fun _ =>
        issues_bind (hpublish _) fun _ => lifecycle_call m trivial)
      fun _ => lifecycle_call m trivial

theorem processWorkflowExecution_madeFor : Issues (MadeFor m) (processWorkflowExecution m) := by
  refine issues_bind (issues_perform trivial) fun startedAt =>
    issues_bind (issues_perform trivial) fun existingExecution? => ?_
  split
  · exact issues_throw _
  · split
    · exact issues_madeFor m (dispatchPending_lifecycle m _)
    · refine issues_bind (issues_madeFor m (enterRunning_lifecycle m _ _)) fun execution? => ?_
      split
      · exact issues_pure _
      · exact issues_bind (executeWorkflowNodes_madeFor m _) fun output =>
          issues_madeFor m (completeWorkflowExecution_lifecycle m _ output _)

/-- What the delivery of a message may make: everything from the command it
carries, and nothing without one. -/
def DeliveryMakes (message : ConsumeMessage) (op : WorkerOp) : Prop :=
  match parseWorkflowExecutionRequestedMessage message with
  | some m => MadeFor m op
  | none => MakesNothing op

end

theorem handleDelivery_makes [Runtime] (message : ConsumeMessage) :
    Issues (DeliveryMakes message) (handleDelivery message) := by
  unfold handleDelivery DeliveryMakes
  cases parseWorkflowExecutionRequestedMessage message with
  | none =>
      exact issues_bind
        (issues_bind (issues_perform trivial) fun _ =>
          issues_bind (issues_perform trivial) fun _ => issues_pure ())
        fun _ => issues_perform trivial
  | some m =>
      exact issues_tryCatch
        (issues_bind (processWorkflowExecution_madeFor m) fun _ => issues_perform trivial)
        fun error => issues_madeFor m (handleFailure_lifecycle m message error)

end FlowPilot
