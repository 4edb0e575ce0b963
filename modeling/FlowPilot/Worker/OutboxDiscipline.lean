import FlowPilot.Worker.Process

/-!
# What a worker does with the outbox

Every event a worker stores is named and keyed by its payload (`Keyed`), and
one delivery stores events of one execution. Every publish to the events
exchange and every update of an outbox row comes from `dispatchOutboxEvent`,
which works on a snapshot: a row that an earlier call of the same thread
answered with, and no later call of it answered with again (`LatestRow`).
`OutboxOp` says so in terms of the thread's history, and the traversal below
shows it of everything a worker runs.
-/

namespace FlowPilot

open Prog hiding pure throw bind tryCatch

/-! ## Events and their payloads -/

namespace LifecyclePayload

/-- The execution the event is about. -/
def executionId : LifecyclePayload → String
  | started _ executionId => executionId
  | completed _ executionId _ _ => executionId
  | failed _ executionId _ => executionId
  | nodeStarted _ executionId _ _ _ _ => executionId
  | nodeCompleted _ executionId _ _ _ _ _ => executionId
  | nodeFailed _ executionId _ _ _ _ => executionId
  | aiTraceCreated trace => trace.executionId

/-- The event name that goes with the payload. -/
def eventName : LifecyclePayload → FlowPilotRoutingKey
  | started _ _ => .workflowExecutionStarted
  | completed _ _ _ _ => .workflowExecutionCompleted
  | failed _ _ _ => .workflowExecutionFailed
  | nodeStarted _ _ _ _ _ _ => .nodeExecutionStarted
  | nodeCompleted _ _ _ _ _ _ _ => .nodeExecutionCompleted
  | nodeFailed _ _ _ _ _ _ => .nodeExecutionFailed
  | aiTraceCreated _ => .aiTraceCreated

/-- The idempotency key that goes with the payload. -/
def idempotencyKey : LifecyclePayload → String
  | started _ executionId => startedKey executionId
  | completed _ executionId _ _ => completedKey executionId
  | failed _ executionId _ => failedKey executionId
  | nodeStarted _ executionId _ nodeId _ _ =>
      "workflow.node.execution.started:" ++ executionId ++ ":" ++ nodeId
  | nodeCompleted _ executionId _ nodeId _ _ _ =>
      "workflow.node.execution.completed:" ++ executionId ++ ":" ++ nodeId
  | nodeFailed _ executionId _ nodeId _ _ =>
      "workflow.node.execution.failed:" ++ executionId ++ ":" ++ nodeId
  | aiTraceCreated trace => "ai.trace.created:" ++ trace.traceId

theorem completed_of_eventName {payload : LifecyclePayload}
    (h : payload.eventName = .workflowExecutionCompleted) :
    ∃ workflowId executionId output durationMs,
      payload = completed workflowId executionId output durationMs := by
  cases payload with
  | completed workflowId executionId output durationMs => exact ⟨_, _, _, _, rfl⟩
  | _ => cases h

theorem failed_of_eventName {payload : LifecyclePayload}
    (h : payload.eventName = .workflowExecutionFailed) :
    ∃ workflowId executionId error, payload = failed workflowId executionId error := by
  cases payload with
  | failed workflowId executionId error => exact ⟨_, _, _, rfl⟩
  | _ => cases h

end LifecyclePayload

/-- The message is named and keyed by its payload. -/
structure WorkflowLifecycleMessage.Keyed (message : WorkflowLifecycleMessage) : Prop where
  eventName : message.eventName = message.payload.eventName
  idempotencyKey : message.idempotencyKey = message.payload.idempotencyKey

/-- The message is an event of the execution `x`. -/
structure WorkflowLifecycleMessage.EventOf (x : String) (message : WorkflowLifecycleMessage) :
    Prop extends message.Keyed where
  executionId : message.payload.executionId = x

/-- The call stores the message, unless its key is taken. -/
inductive Stores : WorkerOp → WorkflowLifecycleMessage → Prop
  | upsert (routingKey : FlowPilotRoutingKey) (message : WorkflowLifecycleMessage) :
      Stores (.db (.upsertOutbox routingKey message)) message
  | transaction (t : StatusTransition) : Stores (.db (.transaction t)) t.message

/-! ## Snapshots -/

/-- The call was answered with the row, alone or among others. -/
def AnswersRow : WorkerEvent → OutboxMessage → Prop
  | ⟨.db (.upsertOutbox _ _), .ok answer⟩, row => answer = row
  | ⟨.db (.transaction _), .ok r⟩, row => TransitionResult.outboxMessage r = some row
  | ⟨.db (.findOutbox _ _), .ok rows⟩, row => List.Mem row rows
  | _, _ => False

/-- The row is a snapshot of the thread. -/
def RowSeen (h : WorkerHistory) (row : OutboxMessage) : Prop := ∃ ev ∈ h, AnswersRow ev row

theorem RowSeen.mono {h h' : WorkerHistory} {row : OutboxMessage} (hs : RowSeen h row)
    (hle : h ⊆ h') : RowSeen h' row := by
  obtain ⟨ev, hmem, hrow⟩ := hs
  exact ⟨ev, hle hmem, hrow⟩

theorem RowSeen.append {h : WorkerHistory} {row : OutboxMessage} (hs : RowSeen h row)
    (rest : WorkerHistory) : RowSeen (h ++ rest) row :=
  hs.mono (List.subset_append_left h rest)

theorem rowSeen_append_singleton {h : WorkerHistory} {ev : WorkerEvent} {row : OutboxMessage} :
    RowSeen (h ++ [ev]) row ↔ RowSeen h row ∨ AnswersRow ev row := by
  simp [RowSeen, or_and_right, exists_or]

/-- The row is the last the thread was answered with under its id. -/
def LatestRow (h : WorkerHistory) (row : OutboxMessage) : Prop :=
  ∃ before ev after, h = before ++ ev :: after ∧ AnswersRow ev row
    ∧ ∀ ev' ∈ after, ∀ row', AnswersRow ev' row' → row'.id ≠ row.id

theorem LatestRow.seen {h : WorkerHistory} {row : OutboxMessage} (hrow : LatestRow h row) :
    RowSeen h row := by
  obtain ⟨before, ev, after, rfl, hanswers, -⟩ := hrow
  exact ⟨ev, by simp, hanswers⟩

theorem latestRow_of_answers {h : WorkerHistory} {ev : WorkerEvent} {row : OutboxMessage}
    (hrow : AnswersRow ev row) : LatestRow (h ++ [ev]) row :=
  ⟨h, ev, [], rfl, hrow, by simp⟩

/-- No call answers with a row. -/
def AnswersNoRow (op : WorkerOp) : Prop := ∀ reply row, ¬ AnswersRow ⟨op, reply⟩ row

/-- Such calls do not change which row is the last. -/
theorem LatestRow.append {h events : WorkerHistory} {row : OutboxMessage} (hrow : LatestRow h row)
    (hevents : ∀ ev ∈ events, AnswersNoRow ev.op) : LatestRow (h ++ events) row := by
  obtain ⟨before, ev, after, rfl, hanswers, hafter⟩ := hrow
  refine ⟨before, ev, after ++ events, by simp, hanswers, fun ev' hev' row' hrow' => ?_⟩
  rcases List.mem_append.mp hev' with hev' | hev'
  · exact hafter ev' hev' row' hrow'
  · exact absurd hrow' (hevents ev' hev' ev'.reply row')

theorem LatestRow.append_singleton {h : WorkerHistory} {ev : WorkerEvent} {row : OutboxMessage}
    (hrow : LatestRow h row) (hev : AnswersNoRow ev.op) : LatestRow (h ++ [ev]) row :=
  hrow.append fun _ hmem => List.mem_singleton.mp hmem ▸ hev

/-- The last row under an id is the one of the last call, or the one before. -/
theorem latestRow_concat {h : WorkerHistory} {ev : WorkerEvent} {row : OutboxMessage}
    (hrow : LatestRow (h ++ [ev]) row) :
    AnswersRow ev row
      ∨ LatestRow h row ∧ ∀ row', AnswersRow ev row' → row'.id ≠ row.id := by
  obtain ⟨before, ev', after, heq, hanswers, hafter⟩ := hrow
  rcases List.eq_nil_or_concat' after with rfl | ⟨after, last, rfl⟩
  · obtain ⟨-, hlast⟩ := List.append_inj' heq rfl
    cases hlast
    exact Or.inl hanswers
  · rw [← List.cons_append, ← List.append_assoc] at heq
    obtain ⟨rfl, hlast⟩ := List.append_inj' heq rfl
    cases hlast
    exact Or.inr ⟨⟨before, ev', after, rfl, hanswers, fun ev hev =>
      hafter ev (List.mem_append_left _ hev)⟩, hafter _ (by simp)⟩

theorem latestRow_upsert {h : WorkerHistory} {routingKey : FlowPilotRoutingKey}
    {message : WorkflowLifecycleMessage} (row : OutboxMessage) :
    LatestRow (h ++ [⟨.db (.upsertOutbox routingKey message), .ok row⟩]) row :=
  latestRow_of_answers rfl

theorem latestRow_transaction {h : WorkerHistory} {t : StatusTransition} {r : TransitionResult}
    {row : OutboxMessage} (hr : r.outboxMessage = some row) :
    LatestRow (h ++ [⟨.db (.transaction t), .ok r⟩]) row :=
  latestRow_of_answers hr

theorem latestRow_find {h : WorkerHistory} {filter : OutboxFilter} {take : Option Nat}
    {rows : List OutboxMessage} {row : OutboxMessage} (hmem : row ∈ rows) :
    LatestRow (h ++ [⟨.db (.findOutbox filter take), .ok rows⟩]) row :=
  latestRow_of_answers hmem

/-! ## Updates -/

/-- What a dispatch of the snapshot `row` records, after its publish found
room or did not. -/
inductive RecordsDispatch (h : WorkerHistory) (row : OutboxMessage) : OutboxUpdate → Prop
  | published (now publishedAt : Int) :
      ⟨.publish (outboxPublication row now), .ok true⟩ ∈ h →
      RecordsDispatch h row (.published publishedAt)
  | failure (lastError : String) :
      RecordsDispatch h row (.publishFailure (row.attempts + 1) lastError
        (if outboxMaxPublishAttempts ≤ row.attempts + 1 then .failed else row.status))

/-- What a thread that stores events of the execution `x` may do with the
outbox after `h`. -/
def OutboxOp (x : String) (h : WorkerHistory) : WorkerOp → Prop
  | .db (.upsertOutbox _ message) => message.EventOf x
  | .db (.transaction t) => t.message.EventOf x
  | .publish p => p.exchange = .events →
      ∃ row now, RowSeen h row ∧ row.status ≠ .published ∧ p = outboxPublication row now
  | .db (.updateOutbox id data) =>
      ∃ row, LatestRow h row ∧ row.id = id ∧ row.status ≠ .published ∧ RecordsDispatch h row data
  | _ => True

theorem OutboxOp.eventOf {x : String} {h : WorkerHistory} {op : WorkerOp}
    {message : WorkflowLifecycleMessage} (hop : OutboxOp x h op) (hstores : Stores op message) :
    message.EventOf x := by
  cases hstores with
  | upsert => exact hop
  | transaction => exact hop

/-! ## Dispatching -/

section

variable {x : String}

theorem markOutboxPublishFailure_safe {row : OutboxMessage} {h : WorkerHistory}
    (hlatest : LatestRow h row) (hstatus : row.status ≠ .published) (error : JsError) :
    SafeFrom (OutboxOp x) h (markOutboxPublishFailure row error) :=
  wp_perform ⟨row, hlatest, rfl, hstatus, .failure error.message⟩ (fun _ _ => trivial)
    (fun _ _ => trivial) (fun _ _ => trivial)

theorem markOutboxPublishFailure_answersNoRow {row : OutboxMessage} (error : JsError) :
    Issues AnswersNoRow (markOutboxPublishFailure row error) :=
  issues_perform fun _ _ h => h

theorem dispatchOutboxEvent_safe {row : OutboxMessage} {h : WorkerHistory}
    (hlatest : LatestRow h row) : SafeFrom (OutboxOp x) h (dispatchOutboxEvent row) := by
  unfold dispatchOutboxEvent
  split
  · trivial
  · rename_i hstatus
    refine safeFrom_perform_bind trivial fun now => ?_
    have hlatest₁ : LatestRow (h ++ [⟨.newDate, .ok now⟩]) row :=
      hlatest.append_singleton fun _ _ h => h
    have hpublished : ∀ reply, LatestRow
        (h ++ [⟨.newDate, .ok now⟩] ++ [⟨.publish (outboxPublication row now), reply⟩]) row :=
      fun reply => hlatest₁.append_singleton fun _ _ h => h
    have hfails : ∀ reply error, SafeFrom (OutboxOp x)
        (h ++ [⟨.newDate, .ok now⟩] ++ [⟨.publish (outboxPublication row now), reply⟩])
        (markOutboxPublishFailure row error) := fun reply error =>
      markOutboxPublishFailure_safe (hpublished reply) hstatus error
    refine wp_bind (wp_tryCatch
      (wp_perform (fun _ => ⟨row, now, hlatest₁.seen, hstatus, rfl⟩) ?_ ?_ ?_))
    · intro accepted _
      cases accepted with
      | true =>
          refine safeFrom_perform_bind trivial fun publishedAt => ?_
          refine wp_perform ⟨row, (hpublished _).append_singleton fun _ _ h => h, rfl, hstatus,
            .published now publishedAt ?_⟩ (fun _ _ => trivial) (fun _ _ => trivial)
            (fun _ _ => trivial)
          simp
      | false => exact (hfails _ _).bind fun _ h' _ => safe_throw _ h'
    · exact fun e _ => wp_bind (wp_mono (fun _ _ _ => trivial) (fun _ _ h => h)
        (hfails (.lost e) e))
    · exact fun e _ => wp_bind (wp_mono (fun _ _ _ => trivial) (fun _ _ h => h)
        (hfails (.failed e) e))

theorem dispatchOutboxEvent_answersNoRow (row : OutboxMessage) :
    Issues AnswersNoRow (dispatchOutboxEvent row) := by
  unfold dispatchOutboxEvent
  split
  · exact issues_pure ()
  · refine issues_bind (issues_perform fun _ _ h => h) fun now => issues_bind ?_ fun published => ?_
    · exact issues_tryCatch (issues_perform fun _ _ h => h) fun error =>
        issues_bind (markOutboxPublishFailure_answersNoRow error) fun _ => issues_throw error
    · split
      · exact issues_bind (issues_perform fun _ _ h => h) fun _ => issues_perform fun _ _ h => h
      · exact issues_bind (markOutboxPublishFailure_answersNoRow _) fun _ => issues_throw _

theorem dispatchEach_safe : ∀ {rows : List OutboxMessage} {h : WorkerHistory},
    (∀ row ∈ rows, LatestRow h row) → SafeFrom (OutboxOp x) h (dispatchEach rows)
  | [], _, _ => trivial
  | row :: _, _, hlatest =>
      (dispatchOutboxEvent_safe (hlatest row List.mem_cons_self)).bind_issues
        (dispatchOutboxEvent_answersNoRow row) fun _ _ hevents =>
          dispatchEach_safe fun row' hrow' =>
            (hlatest row' (List.mem_cons_of_mem _ hrow')).append hevents

theorem dispatchBatch_safe : ∀ {rows : List OutboxMessage} {result : DispatchResult}
    {h : WorkerHistory}, (∀ row ∈ rows, LatestRow h row) →
    SafeFrom (OutboxOp x) h (dispatchBatch rows result)
  | [], _, _, _ => trivial
  | row :: _, _, _, hlatest =>
      SafeFrom.bind_issues
        (SafeFrom.tryCatch
          ((dispatchOutboxEvent_safe (hlatest row List.mem_cons_self)).bind fun _ h' _ =>
            safe_pure _ h')
          fun _ h' _ => safe_pure _ h')
        (issues_tryCatch
          (issues_bind (dispatchOutboxEvent_answersNoRow row) fun _ => issues_pure _)
          fun _ => issues_pure _)
        fun _ _ hevents => dispatchBatch_safe fun row' hrow' =>
          (hlatest row' (List.mem_cons_of_mem _ hrow')).append hevents

theorem dispatchPending_safe (executionId : String) :
    Safe (OutboxOp x) (dispatchPendingWorkflowExecutionOutboxMessages executionId) := fun _ =>
  safeFrom_perform_bind trivial fun _ => dispatchEach_safe fun _ hrow => latestRow_find hrow

theorem outboxDispatcherCycle_safe : Safe (OutboxOp x) outboxDispatcherCycle := fun _ =>
  SafeFrom.tryCatch
    (SafeFrom.bind
      (safeFrom_perform_bind trivial fun _ => dispatchBatch_safe fun _ hrow => latestRow_find hrow)
      fun _ h' _ => safe_pure _ h')
    fun _ h' _ => safe_pure _ h'

/-- An event is stored and dispatched. -/
theorem publishEvent_safe {routingKey : FlowPilotRoutingKey}
    {message : String → WorkflowLifecycleMessage}
    (hmessage : ∀ eventId, (message eventId).EventOf x) :
    Safe (OutboxOp x) (do
      let eventId ← randomUUID
      let outboxMessage ← persistOutboxEvent routingKey (message eventId)
      dispatchOutboxEvent outboxMessage) := fun _ =>
  safeFrom_perform_bind trivial fun eventId => safeFrom_perform_bind (hmessage eventId) fun row =>
    dispatchOutboxEvent_safe (latestRow_upsert row)

/-- A guarded transaction, what happens when it changed nothing, and the
dispatch of its event. -/
theorem transition_safe {α : Type} {t : StatusTransition} {unchanged missing : Worker α}
    {f : OutboxMessage → Worker α} (ht : t.message.EventOf x)
    (hunchanged : Safe (OutboxOp x) unchanged) (hmissing : Safe (OutboxOp x) missing)
    (hf : ∀ row h, LatestRow h row → SafeFrom (OutboxOp x) h (f row)) :
    Safe (OutboxOp x) (do
      let transition : TransitionResult ← db (.transaction t)
      if transition.count = 0 then unchanged
      else
        match transition.outboxMessage with
        | none => missing
        | some outboxMessage => f outboxMessage) :=
    fun _ => by
  refine safeFrom_perform_bind ht fun r => ?_
  split
  · exact hunchanged _
  · split
    · exact hmissing _
    · rename_i row hrow
      exact hf row _ (latestRow_transaction hrow)

end

/-! ## The nodes -/

section

variable (m : WorkflowExecutionRequestedMessage) (node : WorkflowNode) (nodeExecutionId : String)
  (input : Record) (startedAt : Int)

theorem publishNodeStartedEvent_safe : Safe (OutboxOp m.executionId)
    (publishNodeStartedEvent m node nodeExecutionId input startedAt) :=
  publishEvent_safe fun _ => ⟨⟨rfl, rfl⟩, rfl⟩

theorem publishNodeCompletedEvent_safe (output : Record) (completedAt : Int) :
    Safe (OutboxOp m.executionId)
      (publishNodeCompletedEvent m node nodeExecutionId output startedAt completedAt) :=
  publishEvent_safe fun _ => ⟨⟨rfl, rfl⟩, rfl⟩

theorem publishNodeFailedEvent_safe (failure : WorkerFailure) (failedAt : Int) :
    Safe (OutboxOp m.executionId)
      (publishNodeFailedEvent m node nodeExecutionId failure failedAt) :=
  publishEvent_safe fun _ => ⟨⟨rfl, rfl⟩, rfl⟩

theorem publishAiTraceCreatedEvent_safe {trace : WorkflowAiTrace}
    (htrace : trace.workflowExecutionId = m.executionId) :
    Safe (OutboxOp m.executionId) (publishAiTraceCreatedEvent m trace) :=
  publishEvent_safe fun _ => ⟨⟨rfl, rfl⟩, htrace⟩

theorem recordAiTrace_safe {data : WorkflowAiTraceCreateData}
    (hdata : data.workflowExecutionId = m.executionId) :
    Safe (OutboxOp m.executionId) (recordAiTrace m data) :=
  Safe.tryCatch
    ((safe_perform fun _ => trivial).bind fun _ => publishAiTraceCreatedEvent_safe m hdata)
    fun _ => safe_pure _

variable [Runtime]

theorem nodeSuccessPath_safe : Safe (OutboxOp m.executionId)
    (nodeSuccessPath m node nodeExecutionId input startedAt) := by
  have htrace : ∀ output completedAt, Safe (OutboxOp m.executionId)
      (recordAiTraceForSuccessfulNode m node nodeExecutionId input output startedAt
        completedAt) := by
    intro output completedAt
    unfold recordAiTraceForSuccessfulNode
    split
    · exact recordAiTrace_safe m rfl
    · exact safe_pure _
  exact (safe_perform fun _ => trivial).bind fun output =>
    (safe_perform fun _ => trivial).bind fun completedAt =>
      (safe_perform fun _ => trivial).bind fun _ =>
        (htrace output completedAt).bind fun _ =>
          (publishNodeCompletedEvent_safe m node nodeExecutionId startedAt output
            completedAt).bind fun _ => safe_pure output

theorem nodeFailurePath_safe (error : JsError) : Safe (OutboxOp m.executionId)
    (nodeFailurePath m node nodeExecutionId input startedAt error) := by
  have htrace : ∀ failure failedAt, Safe (OutboxOp m.executionId)
      (recordAiTraceForFailedNode m node nodeExecutionId input failure startedAt failedAt) := by
    intro failure failedAt
    unfold recordAiTraceForFailedNode
    split
    · exact recordAiTrace_safe m rfl
    · exact safe_pure _
  exact (safe_perform fun _ => trivial).bind fun failedAt =>
    (safe_perform fun _ => trivial).bind fun _ =>
      (htrace _ failedAt).bind fun _ =>
        (publishNodeFailedEvent_safe m node nodeExecutionId _ failedAt).bind fun _ =>
          safe_throw error

theorem runNode_safe : Safe (OutboxOp m.executionId) (runNode m node input) :=
  (safe_perform fun _ => trivial).bind fun startedAt =>
    (safe_perform fun _ => trivial).bind fun row =>
      (publishNodeStartedEvent_safe m node row.id input startedAt).bind fun _ =>
        (nodeSuccessPath_safe m node row.id input startedAt).tryCatch fun error =>
          nodeFailurePath_safe m node row.id input startedAt error

end

section

variable (m : WorkflowExecutionRequestedMessage)

theorem executeNodes_safe [Runtime] (definition : WorkflowDefinition) :
    ∀ (nodes : List WorkflowNode) (nodeOutputs : JsMap Record) (currentInput : Record),
      Safe (OutboxOp m.executionId) (executeNodes m definition nodes nodeOutputs currentInput)
  | [], _, currentInput => safe_pure currentInput
  | node :: nodes, _, _ =>
      (runNode_safe m node _).bind fun _ => executeNodes_safe definition nodes _ _

theorem ofExcept_safe {α : Type} {P : WorkerHistory → WorkerOp → Prop}
    (result : Except JsError α) : Safe P (ofExcept result) := fun h => by
  cases result <;> trivial

theorem executeWorkflowNodes_safe [Runtime] (execution : WorkflowExecution) :
    Safe (OutboxOp m.executionId) (executeWorkflowNodes m execution) :=
  (ofExcept_safe _).bind fun _ => (ofExcept_safe _).bind fun definition =>
    (ofExcept_safe _).bind fun nodes =>
      (executeNodes_safe m definition nodes _ _).bind fun _ => safe_pure _

/-! ## The handler -/

/-- The row decides: the lifecycle events of an ended execution are
dispatched. -/
theorem ended_safe {x : String} {execution? : Option WorkflowExecution} {conflict : Worker Unit}
    {id : WorkflowExecution → String} (hconflict : Safe (OutboxOp x) conflict) :
    Safe (OutboxOp x) (match execution? with
      | some execution =>
          if isTerminalExecutionStatus execution.status then
            dispatchPendingWorkflowExecutionOutboxMessages (id execution)
          else conflict
      | none => conflict) := by
  split
  · split
    · exact dispatchPending_safe _
    · exact hconflict
  · exact hconflict

theorem enterRunning_safe (existingExecution : WorkflowExecution) (effectiveStartedAt : Int) :
    Safe (OutboxOp m.executionId) (enterRunning m existingExecution effectiveStartedAt) := by
  unfold enterRunning
  split
  · refine (safe_perform fun _ => trivial).bind fun eventId => transition_safe
      ⟨⟨rfl, rfl⟩, rfl⟩ ?_ (safe_throw _)
      fun row h hlatest => (dispatchOutboxEvent_safe hlatest).bind fun _ h' _ => safe_pure _ h'
    refine (safe_perform fun _ => trivial).bind fun currentExecution? => ?_
    split
    · exact (dispatchPending_safe _).bind fun _ => safe_pure _
    · split
      · exact (dispatchPending_safe _).bind fun _ => safe_pure _
      · exact safe_pure _
  · exact (safe_perform fun _ => trivial).bind fun eventId => fun _ =>
      safeFrom_perform_bind ⟨⟨rfl, rfl⟩, rfl⟩ fun row =>
        (dispatchOutboxEvent_safe (latestRow_upsert row)).bind fun _ h' _ => safe_pure _ h'

theorem completeWorkflowExecution_safe (execution : WorkflowExecution) (output : Record)
    (effectiveStartedAt : Int) : Safe (OutboxOp m.executionId)
      (completeWorkflowExecution m execution output effectiveStartedAt) :=
  (safe_perform fun _ => trivial).bind fun _ =>
    (safe_perform fun _ => trivial).bind fun _ => transition_safe ⟨⟨rfl, rfl⟩, rfl⟩
      ((safe_perform fun _ => trivial).bind fun _ => ended_safe (safe_throw _)) (safe_throw _)
      fun _ _ hlatest => dispatchOutboxEvent_safe hlatest

theorem failWorkflowExecution_safe (failure : FlowPilotExecutionError) :
    Safe (OutboxOp m.executionId) (failWorkflowExecution m failure) :=
  (safe_perform fun _ => trivial).bind fun _ =>
    (safe_perform fun _ => trivial).bind fun _ => transition_safe ⟨⟨rfl, rfl⟩, rfl⟩
      ((safe_perform fun _ => trivial).bind fun _ => ended_safe (safe_throw _)) (safe_throw _)
      fun _ _ hlatest => dispatchOutboxEvent_safe hlatest

/-- A publish to another exchange. -/
theorem publish_safe {x : String} {p : Publication} (hp : p.exchange ≠ .events) :
    Safe (OutboxOp x) (do
      let _ ← publish p
      pure ()) :=
  (safe_perform fun _ h => absurd h hp).bind fun _ => safe_pure _

variable [Runtime]

theorem processWorkflowExecution_safe :
    Safe (OutboxOp m.executionId) (processWorkflowExecution m) := by
  refine (safe_perform fun _ => trivial).bind fun startedAt =>
    (safe_perform fun _ => trivial).bind fun existingExecution? => ?_
  split
  · exact safe_throw _
  · split
    · exact dispatchPending_safe _
    · refine (enterRunning_safe m _ _).bind fun execution? => ?_
      split
      · exact safe_pure _
      · exact (executeWorkflowNodes_safe m _).bind fun output =>
          completeWorkflowExecution_safe m _ output _

theorem handleFailure_safe (message : ConsumeMessage) (error : JsError) :
    Safe (OutboxOp m.executionId) (handleFailure message m error) := by
  have hack : Safe (OutboxOp m.executionId) (ack message) := safe_perform fun _ => trivial
  simp only [handleFailure]
  split
  · refine Safe.bind ?_ fun _ => hack
    unfold publishRetryCommand
    split
    · exact safe_throw _
    · exact publish_safe (by simp [retryPublication, commandPublication])
  · exact Safe.tryCatch
      ((failWorkflowExecution_safe m _).bind fun _ =>
        (publish_safe (by simp [deadLetterPublication, commandPublication])).bind fun _ => hack)
      fun _ => safe_perform fun _ => trivial

/-- The execution of the command a message carries. -/
def messageExecutionId (message : ConsumeMessage) : String :=
  match parseWorkflowExecutionRequestedMessage message with
  | none => ""
  | some m => m.executionId

theorem handleDelivery_safe (message : ConsumeMessage) :
    Safe (OutboxOp (messageExecutionId message)) (handleDelivery message) := by
  have hack : ∀ x, Safe (OutboxOp x) (ack message) := fun _ => safe_perform fun _ => trivial
  unfold handleDelivery messageExecutionId
  cases parseWorkflowExecutionRequestedMessage message with
  | none =>
      have hraw : ∀ now, Safe (OutboxOp "") (do
          let _ ← publish (rawDeadLetterPublication message "invalid_payload" now)
          pure ()) := fun _ => publish_safe (by simp [rawDeadLetterPublication])
      exact ((safe_perform fun _ => trivial).bind hraw).bind fun _ => hack _
  | some m =>
      exact ((processWorkflowExecution_safe m).bind fun _ => hack _).tryCatch
        (handleFailure_safe m message)

end

end FlowPilot
