import FlowPilot.Worker.Provenance
import FlowPilot.Worker.StartedFirst

/-!
# The idempotency keys of events

The key of an event is the name of the event and the ids the event is about,
joined by colons. Ids of nodes may hold colons themselves, but an id of a
node stands last in its key, so the key is read back from the left
(`idempotencyKey_inj`).

The key of a trace event holds the id of the trace alone. A delivery stores
such an event only for a trace that its own call has created (`TraceOp`).
-/

namespace FlowPilot

open Prog hiding pure throw bind tryCatch

/-! ## Reading a key -/

/-- A text is split at its first separator in one way. -/
theorem append_sep_inj {c : Char} : ∀ {a b x y : List Char}, c ∉ a → c ∉ b →
    a ++ c :: x = b ++ c :: y → a = b ∧ x = y
  | [], [], _, _, _, _, h => ⟨rfl, (List.cons.inj h).2⟩
  | [], d :: _, _, _, _, hb, h => absurd ((List.cons.inj h).1 ▸ List.mem_cons_self) hb
  | d :: _, [], _, _, ha, _, h => absurd ((List.cons.inj h).1 ▸ List.mem_cons_self) ha
  | d :: a, e :: b, _, _, ha, hb, h => by
      obtain ⟨rfl, hrest⟩ := List.cons.inj h
      obtain ⟨rfl, rfl⟩ := append_sep_inj (fun hc => ha (List.mem_cons_of_mem _ hc))
        (fun hc => hb (List.mem_cons_of_mem _ hc)) hrest
      exact ⟨rfl, rfl⟩

theorem append_colon_inj {a b x y : String} (ha : ':' ∉ a.toList) (hb : ':' ∉ b.toList)
    (h : a ++ ":" ++ x = b ++ ":" ++ y) : a = b ∧ x = y := by
  have htext := congrArg String.toList h
  simp only [String.toList_append, List.append_assoc] at htext
  obtain ⟨hab, hxy⟩ := append_sep_inj ha hb htext
  exact ⟨String.toList_inj.mp hab, String.toList_inj.mp hxy⟩

theorem FlowPilotRoutingKey.literal_colon (name : FlowPilotRoutingKey) :
    ':' ∉ name.literal.toList := by
  cases name <;> decide

/-! ## What an event is about -/

namespace LifecyclePayload

/-- The node the event is about. -/
def nodeId : LifecyclePayload → Option String
  | started _ _ => none
  | completed _ _ _ _ => none
  | failed _ _ _ => none
  | nodeStarted _ _ _ nodeId _ _ => some nodeId
  | nodeCompleted _ _ _ nodeId _ _ _ => some nodeId
  | nodeFailed _ _ _ nodeId _ _ => some nodeId
  | aiTraceCreated trace => some trace.nodeId

/-- The trace the event is about. -/
def traceId : LifecyclePayload → Option String
  | aiTraceCreated trace => some trace.traceId
  | _ => none

/-- The ids in the key of the event. -/
def keyIds : LifecyclePayload → List String
  | started _ executionId => [executionId]
  | completed _ executionId _ _ => [executionId]
  | failed _ executionId _ => [executionId]
  | nodeStarted _ executionId _ nodeId _ _ => [executionId, nodeId]
  | nodeCompleted _ executionId _ nodeId _ _ _ => [executionId, nodeId]
  | nodeFailed _ executionId _ nodeId _ _ => [executionId, nodeId]
  | aiTraceCreated trace => [trace.traceId]

/-- The ids of the execution and of the trace hold no colon. -/
structure ColonFree (payload : LifecyclePayload) : Prop where
  executionId : ':' ∉ payload.executionId.toList
  traceId : ∀ traceId ∈ payload.traceId, ':' ∉ traceId.toList

instance (payload : LifecyclePayload) : Decidable payload.ColonFree :=
  decidable_of_iff
    (':' ∉ payload.executionId.toList ∧ ∀ traceId ∈ payload.traceId, ':' ∉ traceId.toList)
    ⟨fun h => ⟨h.1, h.2⟩, fun h => ⟨h.executionId, h.traceId⟩⟩

theorem idempotencyKey_eq (payload : LifecyclePayload) :
    payload.idempotencyKey
      = payload.eventName.literal ++ ":" ++ ":".intercalate payload.keyIds := by
  have hnode : ∀ name executionId nodeId : String,
      name ++ executionId ++ ":" ++ nodeId = name ++ (executionId ++ ":" ++ nodeId) :=
    fun _ _ _ => by simp only [String.append_assoc]
  cases payload with
  | nodeStarted _ executionId _ nodeId _ _ => exact hnode _ executionId nodeId
  | nodeCompleted _ executionId _ nodeId _ _ _ => exact hnode _ executionId nodeId
  | nodeFailed _ executionId _ nodeId _ _ => exact hnode _ executionId nodeId
  | _ => rfl

/-- Of two events of one name, the ids are read back from what follows the
name. -/
theorem keyIds_inj {payload payload' : LifecyclePayload}
    (hname : payload.eventName = payload'.eventName) (hfree : payload.ColonFree)
    (hfree' : payload'.ColonFree)
    (h : ":".intercalate payload.keyIds = ":".intercalate payload'.keyIds) :
    payload.keyIds = payload'.keyIds := by
  have hone : ∀ {x y : String}, x = y → [x] = [y] := congrArg fun x => [x]
  have hpair : ∀ {x y n k : String}, ':' ∉ x.toList → ':' ∉ y.toList →
      x ++ ":" ++ n = y ++ ":" ++ k → [x, n] = [y, k] := by
    intro x y n k hx hy heq
    obtain ⟨rfl, rfl⟩ := append_colon_inj hx hy heq
    rfl
  have hx := hfree.executionId
  have hy := hfree'.executionId
  cases payload <;> cases payload' <;>
    first
      | (cases hname; done)
      | exact hone h
      | exact hpair hx hy h

/-- Keys are equal only for events of one name about the same ids. -/
theorem idempotencyKey_inj {payload payload' : LifecyclePayload} (hfree : payload.ColonFree)
    (hfree' : payload'.ColonFree) (h : payload.idempotencyKey = payload'.idempotencyKey) :
    payload.eventName = payload'.eventName ∧ payload.keyIds = payload'.keyIds := by
  rw [idempotencyKey_eq, idempotencyKey_eq] at h
  obtain ⟨hname, hids⟩ := append_colon_inj (FlowPilotRoutingKey.literal_colon _)
    (FlowPilotRoutingKey.literal_colon _) h
  have hname := FlowPilotRoutingKey.literal_inj.mp hname
  exact ⟨hname, keyIds_inj hname hfree hfree' hids⟩

/-- The ids in the key are all the ids of an event, but for a trace event. -/
theorem ids_of_keyIds {payload payload' : LifecyclePayload}
    (hname : payload.eventName = payload'.eventName) (hids : payload.keyIds = payload'.keyIds) :
    payload.traceId = payload'.traceId
    ∧ (payload.traceId = none →
      payload.executionId = payload'.executionId ∧ payload.nodeId = payload'.nodeId) := by
  cases payload <;> cases payload' <;>
    first
      | (cases hname; done)
      | (cases hids; exact ⟨rfl, fun _ => ⟨rfl, rfl⟩⟩)
      | exact ⟨congrArg some (List.cons.inj hids).1, nofun⟩

theorem exists_of_traceId {payload : LifecyclePayload} {traceId : String}
    (h : payload.traceId = some traceId) :
    ∃ trace, payload = aiTraceCreated trace ∧ trace.traceId = traceId := by
  cases payload with
  | aiTraceCreated trace => exact ⟨trace, rfl, Option.some.inj h⟩
  | _ => cases h

end LifecyclePayload

/-- Every constructor names and keys its message by the payload. -/
theorem CreatedFor.keyed {m : WorkflowExecutionRequestedMessage}
    {message : WorkflowLifecycleMessage} (h : CreatedFor m message) : message.Keyed := by
  cases h <;> exact ⟨rfl, rfl⟩

/-! ## Trace events and their traces -/

/-- The call that answered with the trace of the event. -/
structure CreatedTrace (h : WorkerHistory) (trace : AiTraceCreatedPayload)
    (data : WorkflowAiTraceCreateData) (row : WorkflowAiTrace) : Prop where
  answered : ⟨.db (.createAiTrace data), .ok row⟩ ∈ h
  traceId : trace.traceId = row.id
  executionId : trace.executionId = data.workflowExecutionId
  nodeId : trace.nodeId = data.nodeId

/-- A trace event is stored after its trace. -/
def TraceOp (h : WorkerHistory) (op : WorkerOp) : Prop :=
  ∀ message trace, Stores op message → message.payload = .aiTraceCreated trace →
    ∃ data row, CreatedTrace h trace data row

/-- The call stores no trace event. -/
def StoresNoTrace (op : WorkerOp) : Prop :=
  ∀ message, Stores op message → message.payload.traceId = none

theorem StoresNoTrace.traceOp {op : WorkerOp} (hop : StoresNoTrace op) (h : WorkerHistory) :
    TraceOp h op := by
  intro message trace hstores hpayload
  have hnone := hop message hstores
  rw [hpayload] at hnone
  cases hnone

theorem StoresNothing.storesNoTrace {op : WorkerOp} (hop : StoresNothing op) :
    StoresNoTrace op := by
  intro message hstores
  cases hstores <;> exact hop.elim

theorem MakesNothing.storesNoTrace {op : WorkerOp} (hop : MakesNothing op) : StoresNoTrace op := by
  intro message hstores
  cases hstores <;> exact hop.elim

theorem storesNoTrace_upsert {routingKey : FlowPilotRoutingKey}
    {message : WorkflowLifecycleMessage} (h : message.payload.traceId = none) :
    StoresNoTrace (.db (.upsertOutbox routingKey message)) := by
  intro _ hstores
  cases hstores
  exact h

theorem storesNoTrace_transaction {t : StatusTransition} (h : t.message.payload.traceId = none) :
    StoresNoTrace (.db (.transaction t)) := by
  intro _ hstores
  cases hstores
  exact h

theorem LifecycleOp.storesNoTrace {m : WorkflowExecutionRequestedMessage} {op : WorkerOp}
    (hop : LifecycleOp m op) : StoresNoTrace op := by
  cases hop with
  | nothing hop => exact hop.storesNoTrace
  | started eventId startedAt => exact storesNoTrace_upsert rfl
  | start eventId startedAt => exact storesNoTrace_transaction rfl
  | complete executionId eventId output startedAt completedAt =>
      exact storesNoTrace_transaction rfl
  | fail eventId failureRecord failedAt => exact storesNoTrace_transaction rfl

section

variable {α : Type} {h : WorkerHistory}

theorem traced_of_makesNothing {p : Worker α} (hp : Issues MakesNothing p) : Safe TraceOp p :=
  safe_of_spec hp fun h _ hop => hop.storesNoTrace.traceOp h

theorem traced_of_lifecycle {m : WorkflowExecutionRequestedMessage} {p : Worker α}
    (hp : Issues (LifecycleOp m) p) : Safe TraceOp p :=
  safe_of_spec hp fun h _ hop => hop.storesNoTrace.traceOp h

theorem traceOp_of_storesNothing {op : WorkerOp} (hop : StoresNothing op) : TraceOp h op :=
  hop.storesNoTrace.traceOp h

/-- A call that stores no event, and what follows it. -/
theorem traced_call_bind {op : WorkerOp} {f : op.Result → Worker α} (hop : StoresNothing op)
    (hf : ∀ r, Safe TraceOp (f r)) : Safe TraceOp (call op >>= f) := fun _ =>
  safeFrom_perform_bind (traceOp_of_storesNothing hop) fun r => hf r _

theorem ofExcept_traced (result : Except JsError α) : Safe TraceOp (ofExcept result) := by
  cases result <;> exact fun _ => trivial

/-- An event that is stored and dispatched, and its trace if it has one. -/
theorem publishEvent_traced {routingKey : FlowPilotRoutingKey}
    {message : String → WorkflowLifecycleMessage}
    (hmessage : ∀ eventId trace, (message eventId).payload = .aiTraceCreated trace →
      ∃ data row, CreatedTrace h trace data row) :
    SafeFrom TraceOp h (do
      let eventId ← randomUUID
      let outboxMessage ← persistOutboxEvent routingKey (message eventId)
      dispatchOutboxEvent outboxMessage) := by
  refine safeFrom_perform_bind (traceOp_of_storesNothing trivial) fun eventId => ?_
  refine safeFrom_perform_bind ?_ fun row =>
    traced_of_makesNothing (dispatchOutboxEvent_makesNothing row) _
  intro _ trace hstores hpayload
  cases hstores
  obtain ⟨data, row, hcreated⟩ := hmessage eventId trace hpayload
  exact ⟨data, row, { hcreated with answered := List.mem_append_left _ hcreated.answered }⟩

/-- An event that is no trace event. -/
theorem publishEvent_untraced {routingKey : FlowPilotRoutingKey}
    {message : String → WorkflowLifecycleMessage}
    (hmessage : ∀ eventId, (message eventId).payload.traceId = none) :
    Safe TraceOp (do
      let eventId ← randomUUID
      let outboxMessage ← persistOutboxEvent routingKey (message eventId)
      dispatchOutboxEvent outboxMessage) := fun _ =>
  publishEvent_traced fun eventId _ hpayload => by
    have hnone := hmessage eventId
    rw [hpayload] at hnone
    cases hnone

end

section

variable (m : WorkflowExecutionRequestedMessage)

theorem recordAiTrace_traced (data : WorkflowAiTraceCreateData) :
    Safe TraceOp (recordAiTrace m data) := fun h => by
  refine SafeFrom.tryCatch ?_ fun _ h' _ => safe_pure _ h'
  refine safeFrom_perform_bind (traceOp_of_storesNothing trivial) fun row => ?_
  refine publishEvent_traced fun eventId trace hpayload => ⟨data, row, ?_⟩
  obtain rfl := LifecyclePayload.aiTraceCreated.inj hpayload
  exact ⟨List.mem_append_right _ (List.mem_singleton_self _), rfl, rfl, rfl⟩

variable [Runtime]

section

variable (node : WorkflowNode) (nodeExecutionId : String) (input : Record) (startedAt : Int)

theorem nodeSuccessPath_traced :
    Safe TraceOp (nodeSuccessPath m node nodeExecutionId input startedAt) := by
  have htrace : ∀ output completedAt, Safe TraceOp
      (recordAiTraceForSuccessfulNode m node nodeExecutionId input output startedAt
        completedAt) := by
    intro output completedAt
    unfold recordAiTraceForSuccessfulNode
    split
    · exact recordAiTrace_traced m _
    · exact safe_pure _
  exact traced_call_bind trivial fun output =>
    traced_call_bind trivial fun completedAt =>
      traced_call_bind trivial fun _ =>
        (htrace output completedAt).bind fun _ =>
          (publishEvent_untraced fun _ => rfl).bind fun _ => safe_pure output

theorem nodeFailurePath_traced (error : JsError) :
    Safe TraceOp (nodeFailurePath m node nodeExecutionId input startedAt error) := by
  have htrace : ∀ failure failedAt, Safe TraceOp
      (recordAiTraceForFailedNode m node nodeExecutionId input failure startedAt failedAt) := by
    intro failure failedAt
    unfold recordAiTraceForFailedNode
    split
    · exact recordAiTrace_traced m _
    · exact safe_pure _
  exact traced_call_bind trivial fun failedAt =>
    traced_call_bind trivial fun _ =>
      (htrace _ failedAt).bind fun _ =>
        (publishEvent_untraced fun _ => rfl).bind fun _ => safe_throw error

theorem runNode_traced : Safe TraceOp (runNode m node input) :=
  traced_call_bind trivial fun startedAt =>
    traced_call_bind trivial fun row =>
      (publishEvent_untraced fun _ => rfl).bind fun _ =>
        (nodeSuccessPath_traced m node row.id input startedAt).tryCatch fun error =>
          nodeFailurePath_traced m node row.id input startedAt error

end

theorem executeNodes_traced (definition : WorkflowDefinition) :
    ∀ (nodes : List WorkflowNode) (nodeOutputs : JsMap Record) (currentInput : Record),
      Safe TraceOp (executeNodes m definition nodes nodeOutputs currentInput)
  | [], _, currentInput => safe_pure currentInput
  | node :: nodes, _, _ =>
      (runNode_traced m node _).bind fun _ => executeNodes_traced definition nodes _ _

theorem executeWorkflowNodes_traced (execution : WorkflowExecution) :
    Safe TraceOp (executeWorkflowNodes m execution) :=
  (ofExcept_traced _).bind fun _ => (ofExcept_traced _).bind fun definition =>
    (ofExcept_traced _).bind fun nodes =>
      (executeNodes_traced m definition nodes _ _).bind fun _ => safe_pure _

theorem processWorkflowExecution_traced : Safe TraceOp (processWorkflowExecution m) := by
  refine traced_call_bind trivial fun startedAt =>
    traced_call_bind trivial fun existingExecution? => ?_
  split
  · exact safe_throw _
  · split
    · exact traced_of_lifecycle (dispatchPending_lifecycle m _)
    · refine (traced_of_lifecycle (enterRunning_lifecycle m _ _)).bind fun execution? => ?_
      split
      · exact safe_pure _
      · exact (executeWorkflowNodes_traced m _).bind fun output =>
          traced_of_lifecycle (completeWorkflowExecution_lifecycle m _ output _)

theorem handleDelivery_traced (message : ConsumeMessage) :
    Safe TraceOp (handleDelivery message) := by
  have hack : Safe TraceOp (ack message) := safe_perform fun _ => traceOp_of_storesNothing trivial
  unfold handleDelivery
  cases parseWorkflowExecutionRequestedMessage message with
  | none =>
      exact Safe.bind (traced_call_bind trivial fun _ =>
        traced_call_bind trivial fun _ => safe_pure _) fun _ => hack
  | some m =>
      exact ((processWorkflowExecution_traced m).bind fun _ => hack).tryCatch fun error =>
        traced_of_lifecycle (handleFailure_lifecycle m message error)

end

end FlowPilot
