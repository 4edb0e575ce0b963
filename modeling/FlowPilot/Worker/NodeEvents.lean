import FlowPilot.Worker.NodeProgress
import FlowPilot.Worker.Provenance
import FlowPilot.Worker.StartedFirst

/-!
# What the events of a node tell

A delivery stores the event that a node has ended right after it has ended
the row of the node, and the event tells the result that was written
(`TellsResult`). `lastUpdate` follows the last update of a row along the
calls of a delivery.
-/

namespace FlowPilot

open Prog hiding pure throw bind tryCatch

/-! ## Results -/

/-- How a node ended: its output, or the code, message and `retryable` of its
error. -/
inductive NodeResult where
  | completed (output : Record)
  | failed (error : FlowPilotExecutionError)

def NodeExecutionUpdate.result : NodeExecutionUpdate → NodeResult
  | .succeeded output _ => .completed output
  | .failed failure _ => .failed failure.toFlowPilotExecutionError

/-- The node that has ended according to the event, and how. -/
def LifecyclePayload.nodeResult : LifecyclePayload → Option (String × NodeResult)
  | .nodeCompleted _ _ _ nodeId _ output _ => some (nodeId, .completed output)
  | .nodeFailed _ _ _ nodeId _ error => some (nodeId, .failed error.toFlowPilotExecutionError)
  | _ => none

/-! ## The last update -/

/-- The calls between the update of a row and the event about it. -/
def LeavesUpdate : WorkerOp → Prop
  | .db (.upsertRunningNode _ _ _ _) => False
  | .db (.updateNode _ _) => False
  | .db (.transaction _) => False
  | .ack _ => False
  | .nack _ _ _ => False
  | _ => True

def lastUpdateStep (last : Option (String × NodeExecutionUpdate)) :
    WorkerEvent → Option (String × NodeExecutionUpdate)
  | ⟨.db (.updateNode id data), .ok _⟩ => some (id, data)
  | ⟨.db (.updateNode _ _), _⟩ => none
  | ⟨.db (.upsertRunningNode _ _ _ _), _⟩ => none
  | ⟨.db (.transaction _), _⟩ => none
  | ⟨.ack _, _⟩ => none
  | ⟨.nack _ _ _, _⟩ => none
  | _ => last

/-- The row that the delivery updated last, and how, if that was answered and
it has only made calls of `LeavesUpdate` since. -/
def lastUpdate (h : WorkerHistory) : Option (String × NodeExecutionUpdate) :=
  h.foldl lastUpdateStep none

theorem lastUpdate_append_singleton (h : WorkerHistory) (ev : WorkerEvent) :
    lastUpdate (h ++ [ev]) = lastUpdateStep (lastUpdate h) ev := by
  simp [lastUpdate]

theorem lastUpdateStep_leaves {last : Option (String × NodeExecutionUpdate)} {ev : WorkerEvent}
    (hev : LeavesUpdate ev.op) : lastUpdateStep last ev = last := by
  obtain ⟨op, reply⟩ := ev
  cases op with
  | db c =>
      cases c with
      | upsertRunningNode _ _ _ _ => exact hev.elim
      | updateNode _ _ => exact hev.elim
      | transaction _ => exact hev.elim
      | _ => rfl
  | ack _ => exact hev.elim
  | nack _ _ _ => exact hev.elim
  | _ => rfl

/-- The last update was made before, or by the last call. -/
theorem lastUpdate_cases {h : WorkerHistory} {ev : WorkerEvent} {id : String}
    {data : NodeExecutionUpdate} (hlast : lastUpdate (h ++ [ev]) = some (id, data)) :
    (LeavesUpdate ev.op ∧ lastUpdate h = some (id, data))
      ∨ ∃ r, ev = ⟨.db (.updateNode id data), .ok r⟩ := by
  rw [lastUpdate_append_singleton] at hlast
  by_cases hleaves : LeavesUpdate ev.op
  · rw [lastUpdateStep_leaves hleaves] at hlast
    exact Or.inl ⟨hleaves, hlast⟩
  · obtain ⟨op, reply⟩ := ev
    cases op with
    | db c =>
        cases c with
        | updateNode id' data' =>
            cases reply with
            | ok r =>
                cases hlast
                exact Or.inr ⟨r, rfl⟩
            | lost e => cases hlast
            | failed e => cases hlast
        | upsertRunningNode _ _ _ _ => cases hlast
        | transaction _ => cases hlast
        | _ => exact absurd trivial hleaves
    | ack _ => cases hlast
    | nack _ _ _ => cases hlast
    | _ => exact absurd trivial hleaves

theorem LeavesUpdate.not_writes {op : WorkerOp} (hop : LeavesUpdate op) : ¬ WritesNode op := by
  cases op with
  | db c =>
      cases c with
      | upsertRunningNode _ _ _ _ => exact hop.elim
      | updateNode _ _ => exact hop.elim
      | _ => exact id
  | _ => exact id

theorem LeavesUpdate.not_finishes {op : WorkerOp} (hop : LeavesUpdate op) : ¬ Finishes op := by
  cases op with
  | db c =>
      cases c with
      | transaction _ => exact hop.elim
      | _ => exact id
  | ack _ => exact hop.elim
  | nack _ _ _ => exact hop.elim
  | _ => exact id

/-- A delivery that has just updated a row runs the nodes. -/
theorem runsNodes_of_lastUpdate [Runtime] {message : ConsumeMessage} {h : WorkerHistory}
    {id : String} {data : NodeExecutionUpdate}
    (hrows : Along (fun h ev => NodeRowOp message h ev.op) [] h)
    (hlast : lastUpdate h = some (id, data)) :
    ∃ m, parseWorkflowExecutionRequestedMessage message = some m ∧ RunsNodes m h := by
  induction h using List.reverseRecOn with
  | nil => cases hlast
  | append_singleton h ev ih =>
      obtain ⟨hrows, hop, -⟩ := along_append.mp hrows
      rw [List.nil_append] at hop
      rcases lastUpdate_cases hlast with ⟨hleaves, hlast⟩ | ⟨r, rfl⟩
      · obtain ⟨m, hm, hruns⟩ := ih hrows hlast
        exact ⟨m, hm, hruns.append_singleton hleaves.not_finishes⟩
      · obtain ⟨m, hm, hruns, -⟩ := hop
        exact ⟨m, hm, hruns.append_singleton fun h => h⟩

/-! ## What an event tells -/

/-- The result that an event tells is the last one that was written, to the
row of its node. -/
def TellsResult (h : WorkerHistory) (op : WorkerOp) : Prop :=
  ∀ message, Stores op message → ∀ nodeId result,
    message.payload.nodeResult = some (nodeId, result) →
      ∃ id data, lastUpdate h = some (id, data) ∧ data.result = result
        ∧ (progress h).current = some (nodeId, id)

/-- The call stores no event that a node has ended. -/
def TellsNothing (op : WorkerOp) : Prop :=
  ∀ message, Stores op message → message.payload.nodeResult = none

theorem TellsNothing.tellsResult {op : WorkerOp} (hop : TellsNothing op) (h : WorkerHistory) :
    TellsResult h op := by
  intro message hstores nodeId result hresult
  cases (hop message hstores).symm.trans hresult

theorem StoresNothing.tellsNothing {op : WorkerOp} (hop : StoresNothing op) : TellsNothing op := by
  intro message hstores
  cases hstores <;> exact hop.elim

theorem tellsResult_of_storesNothing {h : WorkerHistory} {op : WorkerOp} (hop : StoresNothing op) :
    TellsResult h op :=
  hop.tellsNothing.tellsResult h

theorem MakesNothing.tellsNothing {op : WorkerOp} (hop : MakesNothing op) : TellsNothing op := by
  intro message hstores
  cases hstores <;> exact hop.elim

theorem tellsNothing_upsert {routingKey : FlowPilotRoutingKey} {message : WorkflowLifecycleMessage}
    (h : message.payload.nodeResult = none) :
    TellsNothing (.db (.upsertOutbox routingKey message)) := by
  intro _ hstores
  cases hstores
  exact h

theorem tellsNothing_transaction {t : StatusTransition}
    (h : t.message.payload.nodeResult = none) : TellsNothing (.db (.transaction t)) := by
  intro _ hstores
  cases hstores
  exact h

/-- Both: the call is made between the update of a row and the event about
it, and is not that event. -/
structure Quiet (op : WorkerOp) : Prop where
  leaves : LeavesUpdate op
  tells : TellsNothing op

theorem DispatchOp.quiet {op : WorkerOp} (hop : DispatchOp op) : Quiet op := by
  refine ⟨?_, hop.storesNothing.tellsNothing⟩
  cases op with
  | db c =>
      cases c with
      | updateOutbox _ _ => trivial
      | _ => exact hop.elim
  | ack _ => exact hop.elim
  | nack _ _ _ => exact hop.elim
  | _ => trivial

section

variable {α : Type} {h : WorkerHistory}

theorem issues_quiet_call {op : WorkerOp} (hleaves : LeavesUpdate op) (hstores : StoresNothing op) :
    Issues Quiet (call op) :=
  issues_perform ⟨hleaves, hstores.tellsNothing⟩

theorem dispatchOutboxEvent_quiet (row : OutboxMessage) : Issues Quiet (dispatchOutboxEvent row) :=
  (dispatchOutboxEvent_exact row).issues fun _ hop => hop.quiet

/-- An event that tells no result is stored and dispatched. -/
theorem publishEvent_quiet {routingKey : FlowPilotRoutingKey}
    {message : String → WorkflowLifecycleMessage}
    (hmessage : ∀ eventId, (message eventId).payload.nodeResult = none) :
    Issues Quiet (do
      let eventId ← randomUUID
      let outboxMessage ← persistOutboxEvent routingKey (message eventId)
      dispatchOutboxEvent outboxMessage) :=
  issues_bind (issues_quiet_call trivial trivial) fun eventId =>
    issues_bind (issues_perform ⟨trivial, tellsNothing_upsert (hmessage eventId)⟩) fun row =>
      dispatchOutboxEvent_quiet row

theorem recordAiTrace_quiet (m : WorkflowExecutionRequestedMessage)
    (data : WorkflowAiTraceCreateData) : Issues Quiet (recordAiTrace m data) :=
  issues_tryCatch
    (issues_bind (issues_quiet_call trivial trivial) fun _ => publishEvent_quiet fun _ => rfl)
    fun _ => issues_pure ()

/-- The delivery is at the row `id`, which it set running for `nodeId`. -/
def AtNode (nodeId id : String) (h : WorkerHistory) : Prop :=
  (progress h).current = some (nodeId, id)

/-- And its last update was `data`, of that row. -/
structure Wrote (nodeId id : String) (data : NodeExecutionUpdate) (h : WorkerHistory) : Prop where
  current : AtNode nodeId id h
  last : lastUpdate h = some (id, data)

variable {nodeId id : String} {data : NodeExecutionUpdate}

theorem AtNode.append {events : WorkerHistory} (ha : AtNode nodeId id h)
    (hall : ∀ ev ∈ events, LeavesUpdate ev.op) : AtNode nodeId id (h ++ events) := by
  rw [AtNode, progress_append fun ev hev => (hall ev hev).not_writes]
  exact ha

theorem Wrote.append {events : WorkerHistory} (hw : Wrote nodeId id data h)
    (hall : ∀ ev ∈ events, LeavesUpdate ev.op) : Wrote nodeId id data (h ++ events) := by
  refine ⟨hw.current.append hall, ?_⟩
  induction events using List.reverseRecOn with
  | nil => rw [List.append_nil, hw.last]
  | append_singleton events ev ih =>
      rw [← List.append_assoc, lastUpdate_append_singleton,
        lastUpdateStep_leaves (hall ev (by simp)),
        ih fun ev' hev' => hall ev' (List.mem_append_left _ hev')]

theorem AtNode.update (ha : AtNode nodeId id h)
    (reply : Reply JsError (WorkerOp.db (.updateNode id data)).Result) :
    AtNode nodeId id (h ++ [⟨.db (.updateNode id data), reply⟩]) := by
  rw [AtNode, progress_append_singleton, NodeProgress.step]
  split
  · rw [((progress h).update_keeps _ _).1]
    exact ha
  · exact ha

theorem AtNode.wrote (ha : AtNode nodeId id h) (r : Unit) :
    Wrote nodeId id data (h ++ [⟨.db (.updateNode id data), .ok r⟩]) :=
  ⟨ha.update _, lastUpdate_append_singleton ..⟩

/-- A part of a delivery, run after `h`, whose events tell what was
written. -/
abbrev Tells (p : Worker α) (h : WorkerHistory) (Q : α → WorkerHistory → Prop)
    (E : JsError → WorkerHistory → Prop) : Prop :=
  wp (fun _ _ => True) TellsResult p h Q E

/-- A quiet part. -/
theorem tells_quiet {p : Worker α} (hp : Issues Quiet p) :
    Tells p h (fun _ h' => ∃ events, h' = h ++ events ∧ ∀ ev ∈ events, LeavesUpdate ev.op)
      (fun _ h' => ∃ events, h' = h ++ events ∧ ∀ ev ∈ events, LeavesUpdate ev.op) := by
  refine wp_mono ?_ ?_ (wp_of_spec hp fun _ _ _ hop => hop.tells.tellsResult _)
  · rintro a h' ⟨events, rfl, hall, -⟩
    exact ⟨events, rfl, fun ev hev => (hall ev hev).leaves⟩
  · rintro e h' ⟨events, rfl, hall, -⟩
    exact ⟨events, rfl, fun ev hev => (hall ev hev).leaves⟩

theorem AtNode.quiet {p : Worker α} (ha : AtNode nodeId id h) (hp : Issues Quiet p) :
    Tells p h (fun _ => AtNode nodeId id) (fun _ => AtNode nodeId id) :=
  wp_mono (fun _ _ ⟨_, heq, hall⟩ => heq ▸ ha.append hall)
    (fun _ _ ⟨_, heq, hall⟩ => heq ▸ ha.append hall) (tells_quiet hp)

theorem Wrote.quiet {p : Worker α} (hw : Wrote nodeId id data h) (hp : Issues Quiet p) :
    Tells p h (fun _ => Wrote nodeId id data) (fun _ => AtNode nodeId id) :=
  wp_mono (fun _ _ ⟨_, heq, hall⟩ => heq ▸ hw.append hall)
    (fun _ _ ⟨_, heq, hall⟩ => heq ▸ hw.current.append hall) (tells_quiet hp)

/-- The event about the update of a row. -/
theorem Wrote.publishEvent {routingKey : FlowPilotRoutingKey}
    {message : String → WorkflowLifecycleMessage} (hw : Wrote nodeId id data h)
    (hmessage : ∀ eventId, (message eventId).payload.nodeResult = some (nodeId, data.result)) :
    Tells (do
        let eventId ← randomUUID
        let outboxMessage ← persistOutboxEvent routingKey (message eventId)
        dispatchOutboxEvent outboxMessage) h
      (fun _ => AtNode nodeId id) (fun _ => AtNode nodeId id) := by
  refine wp_bind (wp_mono (fun eventId h₁ hw₁ => ?_) (fun _ _ h => h)
    (hw.quiet (issues_quiet_call trivial trivial)))
  have hstays : ∀ {ev : WorkerEvent}, ev.op = .db (.upsertOutbox routingKey (message eventId)) →
      AtNode nodeId id (h₁ ++ [ev]) := fun hev =>
    hw₁.current.append fun _ hmem => by
      rw [List.mem_singleton.mp hmem, hev]
      trivial
  refine wp_bind (wp_perform ?_ (fun row _ => ?_) (fun _ _ => hstays rfl) (fun _ _ => hstays rfl))
  · intro _ hstores nodeId' result hresult
    cases hstores
    obtain ⟨rfl, rfl⟩ := Prod.mk.inj (Option.some.inj ((hmessage eventId).symm.trans hresult))
    exact ⟨id, data, hw₁.last, rfl, hw₁.current⟩
  · exact (hstays rfl).quiet (dispatchOutboxEvent_quiet row)

end

/-! ## One node -/

section

variable [Runtime] (m : WorkflowExecutionRequestedMessage) (node : WorkflowNode)
  (id : String) (input : Record) (startedAt : Int) {h : WorkerHistory}

theorem nodeSuccessPath_tells (ha : AtNode node.id id h) :
    Tells (nodeSuccessPath m node id input startedAt) h (fun _ _ => True)
      (fun _ => AtNode node.id id) := by
  refine wp_bind (wp_mono (fun output h₁ ha₁ => ?_) (fun _ _ h => h)
    (ha.quiet (issues_quiet_call trivial trivial)))
  refine wp_bind (wp_mono (fun completedAt h₂ ha₂ => ?_) (fun _ _ h => h)
    (ha₁.quiet (issues_quiet_call trivial trivial)))
  refine wp_bind (wp_perform (tellsResult_of_storesNothing trivial)
    (fun r _ => ?_) (fun _ _ => ha₂.update _) (fun _ _ => ha₂.update _))
  have htrace : Issues Quiet
      (recordAiTraceForSuccessfulNode m node id input output startedAt completedAt) := by
    unfold recordAiTraceForSuccessfulNode
    split
    · exact recordAiTrace_quiet m _
    · exact issues_pure ()
  refine wp_bind (wp_mono (fun _ h₃ hw => ?_) (fun _ _ h => h) ((ha₂.wrote r).quiet htrace))
  exact wp_bind (wp_mono (fun _ _ _ => trivial) (fun _ _ h => h)
    (hw.publishEvent fun _ => rfl))

theorem nodeFailurePath_tells {error : JsError} (ha : AtNode node.id id h) :
    SafeFrom TellsResult h (nodeFailurePath m node id input startedAt error) := by
  refine wp_bind (wp_mono (fun failedAt h₁ ha₁ => ?_) (fun _ _ _ => trivial)
    (ha.quiet (issues_quiet_call trivial trivial)))
  refine wp_bind (wp_perform (tellsResult_of_storesNothing trivial)
    (fun r _ => ?_) (fun _ _ => trivial) (fun _ _ => trivial))
  have htrace : Issues Quiet (recordAiTraceForFailedNode m node id input
      (normalizeWorkerFailure error) startedAt failedAt) := by
    unfold recordAiTraceForFailedNode
    split
    · exact recordAiTrace_quiet m _
    · exact issues_pure ()
  refine wp_bind (wp_mono (fun _ h₂ hw => ?_) (fun _ _ _ => trivial)
    ((ha₁.wrote r).quiet htrace))
  exact wp_bind (wp_mono (fun _ _ _ => trivial) (fun _ _ _ => trivial)
    (hw.publishEvent fun _ => rfl))

theorem runNode_tells : Safe TellsResult (runNode m node input) := fun h => by
  refine safeFrom_perform_bind (tellsResult_of_storesNothing trivial)
    fun startedAt => ?_
  refine safeFrom_perform_bind (tellsResult_of_storesNothing trivial) fun row => ?_
  have ha : AtNode node.id (WorkflowNodeExecution.id row)
      (h ++ [⟨.newDate, .ok startedAt⟩]
        ++ [⟨.db (.upsertRunningNode m node input startedAt), .ok row⟩]) := by
    rw [AtNode, progress_append_singleton]
    rfl
  refine wp_bind (wp_mono (fun _ h₂ ha₂ => ?_) (fun _ _ _ => trivial)
    (ha.quiet (publishEvent_quiet fun _ => rfl)))
  exact wp_tryCatch (wp_mono (fun _ _ _ => trivial)
    (fun error _ ha₃ => nodeFailurePath_tells m node _ input startedAt ha₃)
    (nodeSuccessPath_tells m node _ input startedAt ha₂))

end

/-! ## The handler -/

/-- Outside the nodes no result is told. -/
theorem LifecycleOp.tellsNothing {m : WorkflowExecutionRequestedMessage} {op : WorkerOp}
    (hop : LifecycleOp m op) : TellsNothing op := by
  cases hop with
  | nothing hop => exact hop.tellsNothing
  | started eventId startedAt => exact tellsNothing_upsert rfl
  | start eventId startedAt => exact tellsNothing_transaction rfl
  | complete executionId eventId output startedAt completedAt =>
      exact tellsNothing_transaction rfl
  | fail eventId failureRecord failedAt => exact tellsNothing_transaction rfl

section

variable {α : Type}

theorem safe_of_lifecycle {m : WorkflowExecutionRequestedMessage} {p : Worker α}
    (hp : Issues (LifecycleOp m) p) : Safe TellsResult p :=
  safe_of_spec hp fun h _ hop => hop.tellsNothing.tellsResult h

theorem safe_of_makesNothing {p : Worker α} (hp : Issues MakesNothing p) : Safe TellsResult p :=
  safe_of_spec hp fun h _ hop => hop.tellsNothing.tellsResult h

theorem ofExcept_tells (result : Except JsError α) : Safe TellsResult (ofExcept result) := by
  cases result <;> exact fun _ => trivial

variable [Runtime] (m : WorkflowExecutionRequestedMessage)

theorem executeNodes_tells (definition : WorkflowDefinition) :
    ∀ (nodes : List WorkflowNode) (nodeOutputs : JsMap Record) (currentInput : Record),
      Safe TellsResult (executeNodes m definition nodes nodeOutputs currentInput)
  | [], _, currentInput => safe_pure currentInput
  | node :: nodes, _, _ =>
      (runNode_tells m node _).bind fun _ => executeNodes_tells definition nodes _ _

theorem executeWorkflowNodes_tells (execution : WorkflowExecution) :
    Safe TellsResult (executeWorkflowNodes m execution) :=
  (ofExcept_tells _).bind fun _ => (ofExcept_tells _).bind fun definition =>
    (ofExcept_tells _).bind fun nodes =>
      (executeNodes_tells m definition nodes _ _).bind fun _ => safe_pure _

theorem processWorkflowExecution_tells : Safe TellsResult (processWorkflowExecution m) := by
  refine Safe.bind (safe_of_makesNothing (issues_perform trivial)) fun startedAt =>
    Safe.bind (safe_of_makesNothing (issues_perform trivial)) fun existingExecution? => ?_
  split
  · exact safe_throw _
  · split
    · exact safe_of_lifecycle (dispatchPending_lifecycle m _)
    · refine (safe_of_lifecycle (enterRunning_lifecycle m _ _)).bind fun execution? => ?_
      split
      · exact safe_pure _
      · exact (executeWorkflowNodes_tells m _).bind fun output =>
          safe_of_lifecycle (completeWorkflowExecution_lifecycle m _ output _)

/-- The events that a delivery stores tell what it wrote. -/
theorem handleDelivery_tells (message : ConsumeMessage) :
    Safe TellsResult (handleDelivery message) := by
  unfold handleDelivery
  cases parseWorkflowExecutionRequestedMessage message with
  | none =>
      exact safe_of_makesNothing (issues_bind
        (issues_bind (issues_perform trivial) fun _ =>
          issues_bind (issues_perform trivial) fun _ => issues_pure ())
        fun _ => issues_perform trivial)
  | some m =>
      have hack : Safe TellsResult (ack message) := safe_of_makesNothing (issues_perform trivial)
      exact ((processWorkflowExecution_tells m).bind fun _ => hack).tryCatch fun error =>
        safe_of_lifecycle (handleFailure_lifecycle m message error)

end

end FlowPilot
