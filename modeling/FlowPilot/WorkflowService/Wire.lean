import FlowPilot.System.TenantConsistency
import FlowPilot.WorkflowService.Persistence

/-!
# From the worker to the timeline

A lifecycle message leaves the worker as the text `JSON.stringify` makes of
it and is read by a parser that was written for it separately. Whatever
record, failure or cause the message embeds, the parser accepts the text as
it was sent, and the row that is stored for it has the ids and the name of
the message (`created_survives`).

The cause of a failure can be any value; what `JSON.stringify` makes of it,
if anything, is a parameter.
-/

namespace FlowPilot

/-! ## The text of a message -/

section

variable (causeJson : JsError → Option Json)

/-- A failure, as `JSON.stringify` leaves it; a cause without JSON is
dropped. -/
def WorkerFailure.stringified (failure : WorkerFailure) : Json :=
  .obj ([("code", .str failure.code), ("message", .str failure.message),
      ("retryable", .bool failure.retryable)]
    ++ ((failure.cause.bind causeJson).map fun cause => ("cause", cause)).toList)

/-- Only the payload of a failed node embeds a cause. -/
def LifecyclePayload.stringified : LifecyclePayload → Json
  | .nodeFailed workflowId executionId nodeExecutionId nodeId nodeType error =>
      .obj [("workflowId", .str workflowId), ("executionId", .str executionId),
        ("nodeExecutionId", .str nodeExecutionId), ("nodeId", .str nodeId),
        ("nodeType", .str nodeType), ("error", error.stringified causeJson)]
  | payload => payload.toJson

/-- `JSON.parse(JSON.stringify(message))`. -/
def WorkflowLifecycleMessage.stringified (m : WorkflowLifecycleMessage) : Json :=
  .obj [("eventName", .str m.eventName.literal), ("eventId", .str m.eventId),
    ("schemaVersion", .num m.schemaVersion), ("occurredAt", .str m.occurredAt),
    ("workspaceId", .str m.workspaceId), ("correlationId", .str m.correlationId),
    ("causationId", .str m.causationId), ("producer", .str m.producer),
    ("actor", .obj [("type", .str m.actorType), ("id", .str m.actorId)]),
    ("idempotencyKey", .str m.idempotencyKey), ("payload", m.payload.stringified causeJson)]

end

/-- With the worker's own errors as causes it is the text the model works
with elsewhere. -/
theorem WorkflowLifecycleMessage.stringified_toJson (m : WorkflowLifecycleMessage) :
    m.stringified (fun cause => some cause.toJson) = m.toJson := by
  have hcause : ∀ cause : Option JsError,
      (cause.bind fun cause => some cause.toJson) = cause.map JsError.toJson := by
    intro cause
    cases cause <;> rfl
  have hpayload : m.payload.stringified (fun cause => some cause.toJson) = m.payload.toJson := by
    cases m.payload with
    | nodeFailed _ _ _ _ _ error =>
        simp [LifecyclePayload.stringified, LifecyclePayload.toJson, WorkerFailure.stringified,
          WorkerFailure.toJson, hcause, Option.map_map, Function.comp_def]
    | _ => rfl
  rw [stringified, toJson, hpayload]

namespace WorkflowService

/-! ## The parser -/

/-- The six messages of the worker pass the parser's guard. -/
theorem stringified_accepted {m : WorkflowExecutionRequestedMessage}
    {message : WorkflowLifecycleMessage} (h : CreatedFor m message)
    (hname : message.eventName ≠ .aiTraceCreated) (causeJson : JsError → Option Json) :
    isWorkflowExecutionLifecycleMessage (message.stringified causeJson) = true := by
  cases h with
  | executionStarted eventId startedAt => rfl
  | executionCompleted eventId output startedAt completedAt => rfl
  | executionFailed eventId error occurredAt => rfl
  | nodeStarted eventId node nodeExecutionId input startedAt => rfl
  | nodeCompleted eventId node nodeExecutionId output startedAt completedAt => rfl
  | nodeFailed eventId node nodeExecutionId failure failedAt => rfl
  | aiTraceCreated eventId trace _ => exact absurd rfl hname

/-- What the consumer stores names the message and its ids. -/
structure StoresIdsOf (message : WorkflowLifecycleMessage)
    (data : WorkflowExecutionEventCreateData) : Prop where
  workspaceId : data.workspaceId = message.workspaceId
  workflowId : data.workflowId = message.payload.workflowId
  executionId : data.executionId = message.payload.executionId
  eventName : data.eventName = message.eventName.literal
  eventId : data.eventId = message.eventId

/-- The ids of a payload are found in its text. -/
theorem lookup_stringified (payload : LifecyclePayload) (causeJson : JsError → Option Json) :
    Json.asString ((Json.asRecord (some (payload.stringified causeJson))).lookup "workflowId")
        = payload.workflowId
      ∧ Json.asString ((Json.asRecord (some (payload.stringified causeJson))).lookup "executionId")
        = payload.executionId := by
  cases payload <;> exact ⟨rfl, rfl⟩

theorem createData_storesIds [Runtime] {message : WorkflowLifecycleMessage}
    {causeJson : JsError → Option Json} {accepted : WorkflowExecutionLifecycleMessage}
    (hvalue : accepted.value = message.stringified causeJson) :
    StoresIdsOf message (createData accepted) := by
  obtain ⟨hworkflowId, hexecutionId⟩ := lookup_stringified message.payload causeJson
  obtain ⟨value, haccepted⟩ := accepted
  obtain rfl := hvalue
  exact ⟨rfl, hworkflowId, hexecutionId, rfl, rfl⟩

/-! ## The row -/

/-- Persisting an event changes no row and adds none but its own; where it
succeeds and the event is new, its own is there. -/
theorem delivered_rows [Runtime] {accepted : WorkflowExecutionLifecycleMessage}
    {db db' : TimelineDatabase} {events : ServiceHistory} {out : Except PersistenceError Unit}
    (h : Delivered (persistWorkflowExecutionEvent accepted) db events out db') :
    (∀ row ∈ db'.events, row ∈ db.events ∨ row.createdFrom = createData accepted)
      ∧ (out = .ok () → (∀ row ∈ db.events, row.eventId ≠ accepted.eventId) →
        ∃ row ∈ db'.events, row.createdFrom = createData accepted) := by
  obtain ⟨reply, -, hreplied, hout⟩ := delivered_persist h
  have hadded : ∀ {ctx : DbContext} {row : WorkflowExecutionEvent}
      {rows : List WorkflowExecutionEvent},
      upsertEvent db.executions ctx (createData accepted) db.events = some (row, rows) →
      (∀ row ∈ rows, row ∈ db.events ∨ row.createdFrom = createData accepted)
        ∧ ((∀ row ∈ db.events, row.eventId ≠ accepted.eventId) →
          ∃ row ∈ rows, row.createdFrom = createData accepted) := by
    intro ctx row rows hupsert
    rcases upsertEvent_cases hupsert with ⟨rfl, hmem, hid⟩ | ⟨rfl, -, hdata⟩
    · exact ⟨fun row hrow => Or.inl hrow, fun hnew => absurd hid (hnew row hmem)⟩
    · refine ⟨fun row' hrow' => ?_, fun _ => ⟨row, by simp, hdata⟩⟩
      rcases List.mem_append.mp hrow' with hrow' | hrow'
      · exact Or.inl hrow'
      · exact Or.inr (List.mem_singleton.mp hrow' ▸ hdata)
  cases hreplied with
  | stored _ _ hupsert => exact ⟨(hadded hupsert).1, fun _ => (hadded hupsert).2⟩
  | lost _ _ hupsert => exact ⟨(hadded hupsert).1, fun _ => (hadded hupsert).2⟩
  | rejected _ _ =>
      refine ⟨fun row hrow => Or.inl hrow, fun hok => ?_⟩
      rcases hout with ⟨row, hreply, -⟩ | ⟨e, -, herror⟩
      · cases hreply
      · cases hok.symm.trans herror
  | unavailable _ _ =>
      refine ⟨fun row hrow => Or.inl hrow, fun hok => ?_⟩
      rcases hout with ⟨row, hreply, -⟩ | ⟨e, -, herror⟩
      · cases hreply
      · cases hok.symm.trans herror

/-- Every message the worker builds for a command arrives: its text is
accepted as it was sent, and what is stored for it names its event and its
ids. -/
theorem created_survives [Runtime] (m : WorkflowExecutionRequestedMessage)
    (message : WorkflowLifecycleMessage) (h : CreatedFor m message)
    (hname : message.eventName ≠ .aiTraceCreated) (causeJson : JsError → Option Json)
    (delivery : ConsumeMessage)
    (hcontent : delivery.content = .json (message.stringified causeJson)) :
    ∃ accepted, parseWorkflowExecutionLifecycleMessage delivery = some accepted
      ∧ accepted.value = message.stringified causeJson
      ∧ StoresIdsOf message (createData accepted)
      ∧ ∀ db events out db',
        Delivered (persistWorkflowExecutionEvent accepted) db events out db' →
        (∀ row ∈ db'.events, row ∈ db.events ∨ StoresIdsOf message row.createdFrom)
        ∧ (out = .ok () → (∀ row ∈ db.events, row.eventId ≠ message.eventId) →
          ∃ row ∈ db'.events, StoresIdsOf message row.createdFrom) := by
  have haccepted := stringified_accepted h hname causeJson
  let accepted : WorkflowExecutionLifecycleMessage := ⟨_, haccepted⟩
  have hids : StoresIdsOf message (createData accepted) := createData_storesIds rfl
  refine ⟨accepted, ?_, rfl, hids, fun db events out db' hrun => ?_⟩
  · simp [parseWorkflowExecutionLifecycleMessage, hcontent, haccepted, accepted]
  · obtain ⟨hrows, hstored⟩ := delivered_rows hrun
    refine ⟨fun row hrow => (hrows row hrow).imp_right fun hdata => ?_, fun hok hnew => ?_⟩
    · rwa [hdata]
    · obtain ⟨row, hrow, hdata⟩ := hstored hok fun row hrow heq =>
        hnew row hrow (heq.trans hids.eventId)
      exact ⟨row, hrow, by rwa [hdata]⟩

/-- A cause that is not an error of the worker, as JSON. -/
def rejectionCause : Json :=
  .obj [("name", .str "FetchError"), ("detail", .obj [("status", .num 502),
    ("attempts", .arr [.num 1, .null, .obj [("causationId", .bool false)]])])]

def requestFailure : WorkerFailure where
  code := "http_request_failed"
  message := "fetch failed"
  retryable := true
  cause := some (.error "fetch failed")

/-- The theorem at the event of a node that failed, with that cause: the cause
is part of what was accepted, and the event is stored. -/
theorem created_survives_nodeFailed :
    ∃ (_ : Runtime) (accepted : WorkflowExecutionLifecycleMessage) (events : ServiceHistory)
      (db : TimelineDatabase),
      let message := createNodeExecutionFailedMessage (newCommand .null) "event" diamondLeft
        "node-execution" requestFailure 0
      parseWorkflowExecutionLifecycleMessage
          ⟨.json (message.stringified fun _ => some rejectionCause),
            "workflow.node.execution.failed", ⟨none, none, none, none⟩⟩ = some accepted
      ∧ (accepted.payload.lookup "error").bind (·.get? "cause") = some rejectionCause
      ∧ Delivered (persistWorkflowExecutionEvent accepted) (.holding .null) events (.ok ()) db
      ∧ ∃ row ∈ db.events, StoresIdsOf message row.createdFrom := by
  let _ : Runtime := .sample false
  obtain ⟨accepted, hparse, hvalue, -, hstored⟩ := created_survives (newCommand .null) _
    (.nodeFailed "event" diamondLeft "node-execution" requestFailure 0) (by decide)
    (fun _ => some rejectionCause) ⟨_, "workflow.node.execution.failed", ⟨none, none, none, none⟩⟩
    rfl
  obtain ⟨value, haccepted⟩ := accepted
  obtain rfl := hvalue
  have hdate : (Runtime.dateParse (toISOString 0)).isSome = true := by decide
  obtain ⟨events, database, hdelivered⟩ := exists_delivered (m := ⟨_, haccepted⟩) hdate
    (show (TimelineDatabase.holding .null).available = true from rfl) rfl
  obtain ⟨row, hrow, hids⟩ := (hstored _ events _ database hdelivered).2 rfl (by
    simp [TimelineDatabase.holding])
  exact ⟨_, _, events, database, hparse, rfl, hdelivered, row, hrow, hids⟩

end WorkflowService

end FlowPilot
