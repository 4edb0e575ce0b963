import FlowPilot.Api.RequestExecution
import FlowPilot.Lib.Run
import FlowPilot.WorkflowService.Delivery
import Mathlib.Data.Fintype.EquivFin

/-!
# Poison events

One delivery against a database that rejects an upsert for its reasons only:
a date that is none, a foreign key that is missing, or because it is not
available. The second comes with the code the handler looks for. The first
does not, and the parser lets it through, so the delivery is given back to
the queue although it can never succeed.
-/

namespace FlowPilot.WorkflowService

open Prog hiding pure throw bind tryCatch

/-! ## The database layer -/

structure TimelineDatabase where
  available : Bool
  executions : String → Option WorkflowExecutionRow
  events : List WorkflowExecutionEvent

/-- The error with which a database that is available rejects the upsert.
Prisma's client refuses an invalid date with an error without a code. -/
def rejection (db : TimelineDatabase) (data : WorkflowExecutionEventCreateData) :
    Option PersistenceError :=
  if data.occurredAt.isNone then some ⟨none⟩
  else if db.events.any (·.eventId = data.eventId) || (db.executions data.executionId).isSome then
    none
  else some ⟨some "P2003"⟩

/-- The reply to a call. The id of a new row is fresh; a database that is
not available fails with another code, before or after the row is written. -/
inductive Replied (db : TimelineDatabase) : (op : ServiceOp) →
    Reply PersistenceError op.Result → TimelineDatabase → Prop
  | stored {data : WorkflowExecutionEventCreateData} {ctx : DbContext}
      {row : WorkflowExecutionEvent} {events : List WorkflowExecutionEvent} :
      db.available = true → (∀ event ∈ db.events, event.id ≠ ctx.uuid) →
      WorkflowService.upsertEvent db.executions ctx data db.events = some (row, events) →
      Replied db (.upsertEvent data) (.ok row) { db with events }
  | rejected {data : WorkflowExecutionEventCreateData} {error : PersistenceError} :
      db.available = true → rejection db data = some error →
      Replied db (.upsertEvent data) (.failed error) db
  | unavailable {data : WorkflowExecutionEventCreateData} {error : PersistenceError} :
      db.available = false → error.code ≠ some "P2003" →
      Replied db (.upsertEvent data) (.failed error) db
  | lost {data : WorkflowExecutionEventCreateData} {ctx : DbContext} {error : PersistenceError}
      {row : WorkflowExecutionEvent} {events : List WorkflowExecutionEvent} :
      db.available = false → error.code ≠ some "P2003" →
      WorkflowService.upsertEvent db.executions ctx data db.events = some (row, events) →
      Replied db (.upsertEvent data) (.lost error) { db with events }
  | ack {message : ConsumeMessage} : Replied db (.ack message) (.ok ()) db
  | nack {message : ConsumeMessage} {allUpTo requeue : Bool} :
      Replied db (.nack message allUpTo requeue) (.ok ()) db

def replies (op : ServiceOp) (db : TimelineDatabase) (reply : Reply PersistenceError op.Result)
    (db' : TimelineDatabase) : Prop := Replied db op reply db'

/-- There is an id that no row has. -/
theorem exists_fresh_id (events : List WorkflowExecutionEvent) :
    ∃ uuid, ∀ event ∈ events, event.id ≠ uuid := by
  have hinfinite : Infinite String :=
    Infinite.of_injective (fun n => String.ofList (List.replicate n 'u')) fun n n' h => by
      simpa using congrArg (fun s => s.toList.length) h
  obtain ⟨uuid, huuid⟩ := Infinite.exists_notMem_finset (events.map (·.id)).toFinset
  refine ⟨uuid, fun event hevent heq => huuid ?_⟩
  exact List.mem_toFinset.mpr (List.mem_map.mpr ⟨event, hevent, heq⟩)

/-- The rejections are the upserts that have no result. -/
theorem rejection_eq_none_iff {db : TimelineDatabase} {ctx : DbContext}
    {data : WorkflowExecutionEventCreateData} (hfresh : ∀ event ∈ db.events, event.id ≠ ctx.uuid) :
    rejection db data = none
      ↔ ∃ row events,
        WorkflowService.upsertEvent db.executions ctx data db.events = some (row, events) := by
  have hnew : db.events.any (fun event => decide (event.id = ctx.uuid)) = false :=
    List.any_eq_false.mpr fun event hevent => by simpa using hfresh event hevent
  unfold rejection WorkflowService.upsertEvent
  cases data.occurredAt with
  | none => simp
  | some occurredAt =>
      cases hfind : db.events.find? (·.eventId = data.eventId) with
      | some row =>
          have hany : db.events.any (fun event => decide (event.eventId = data.eventId)) = true :=
            List.any_eq_true.mpr
              ⟨row, List.mem_of_find?_eq_some hfind, by simpa using List.find?_some hfind⟩
          simp [hany]
      | none =>
          have hany : db.events.any (fun event => decide (event.eventId = data.eventId)) = false :=
            List.any_eq_false.mpr (List.find?_eq_none.mp hfind)
          cases hrow : db.executions data.executionId with
          | none => simp [hany]
          | some row => simp [hany, hnew]

/-! ## Deliveries -/

section

variable [Runtime]

/-- A run of the service, from one state of the database to another. -/
structure Delivered {α : Type} (p : Service α) (db : TimelineDatabase) (events : ServiceHistory)
    (out : Except PersistenceError α) (db' : TimelineDatabase) : Prop where
  trace : Trace p events out
  replays : Replays replies db events db'

/-- The delivery goes back to the queue. -/
def Requeued (message : ConsumeMessage) (events : ServiceHistory) : Prop :=
  ∃ ev ∈ events, ∃ allUpTo, ev.op = .nack message allUpTo true

/-- The event is no poison: with the database available and the execution
there it is stored, and its delivery is given back for want of the database
only, so never forever. -/
structure NoPoison (m : WorkflowExecutionLifecycleMessage) : Prop where
  persisted : ∀ db, db.available = true → (db.executions m.executionId).isSome →
    (∃ events db', Delivered (persistWorkflowExecutionEvent m) db events (.ok ()) db')
    ∧ ∀ events out db', Delivered (persistWorkflowExecutionEvent m) db events out db' →
      out = .ok ()
  requeued : ∀ message, parseWorkflowExecutionLifecycleMessage message = some m →
    ∀ db events out db', Delivered (handleDelivery message) db events out db' →
      Requeued message events → db.available = false

/-- A run of `persistWorkflowExecutionEvent` is one call. -/
theorem delivered_persist {m : WorkflowExecutionLifecycleMessage} {db db' : TimelineDatabase}
    {events : ServiceHistory} {out : Except PersistenceError Unit}
    (h : Delivered (persistWorkflowExecutionEvent m) db events out db') :
    ∃ reply, events = [⟨.upsertEvent (createData m), reply⟩]
      ∧ Replied db (.upsertEvent (createData m)) reply db'
      ∧ ((∃ row, reply = .ok row ∧ out = .ok ())
        ∨ ∃ e, (reply = .lost e ∨ reply = .failed e) ∧ out = .error e) := by
  obtain ⟨htrace, hreplays⟩ := h
  obtain ⟨reply, rest, rfl, hreply⟩ := trace_perform_bind htrace
  obtain ⟨db₁, hreplied, hrest⟩ := hreplays
  rcases hreply with ⟨row, rfl, hafter⟩ | ⟨e, hthrew, rfl, rfl⟩
  · cases hafter
    obtain rfl : db₁ = db' := hrest
    exact ⟨_, rfl, hreplied, Or.inl ⟨row, rfl, rfl⟩⟩
  · obtain rfl : db₁ = db' := hrest
    exact ⟨_, rfl, hreplied, Or.inr ⟨e, hthrew, rfl⟩⟩

/-- What an available database rejects, when the date is one. -/
theorem rejection_of_date {db : TimelineDatabase} {m : WorkflowExecutionLifecycleMessage}
    (hdate : (Runtime.dateParse m.occurredAt).isSome = true) {error : PersistenceError}
    (h : rejection db (createData m) = some error) :
    error.code = some "P2003" ∧ db.executions m.executionId = none := by
  have hvalid : (createData m).occurredAt.isNone = false := by
    rw [Option.isNone_eq_false_iff]
    exact hdate
  simp only [rejection, hvalid, Bool.false_eq_true, if_false] at h
  split at h
  · cases h
  · rename_i hmissing
    cases h
    simp only [Bool.or_eq_true, not_or, Bool.not_eq_true, Option.isSome_eq_false_iff,
      Option.isNone_iff_eq_none] at hmissing
    exact ⟨rfl, hmissing.2⟩

omit [Runtime] in
/-- Giving the delivery back, or not. -/
theorem requeued_nack {message : ConsumeMessage} {requeue : Bool} {db db' : TimelineDatabase}
    {data : WorkflowExecutionEventCreateData}
    {reply : Reply PersistenceError WorkflowExecutionEvent} {events : ServiceHistory}
    {out : Except PersistenceError Unit}
    (h : Delivered (nack message false requeue) db events out db') :
    db' = db ∧ (Requeued message (⟨.upsertEvent data, reply⟩ :: events) ↔ requeue = true) := by
  obtain ⟨htrace, hreplays⟩ := h
  cases htrace with
  | call reply htrace =>
      obtain ⟨db₁, hreplied, hrest⟩ := hreplays
      cases hreplied with
      | nack =>
          cases htrace with
          | pure => exact ⟨hrest.symm, by simp [Requeued]⟩

/-- A delivery is one upsert; it is given back if that failed with an error
the handler takes for transient. -/
theorem delivered_cases {message : ConsumeMessage} {m : WorkflowExecutionLifecycleMessage}
    (hm : parseWorkflowExecutionLifecycleMessage message = some m) {db db' : TimelineDatabase}
    {events : ServiceHistory} {out : Except PersistenceError Unit}
    (h : Delivered (handleDelivery message) db events out db') :
    ∃ reply, Replied db (.upsertEvent (createData m)) reply db'
      ∧ (Requeued message events ↔ ∃ e, (reply = .lost e ∨ reply = .failed e)
        ∧ isNonRetryablePersistenceError e = false) := by
  obtain ⟨htrace, hreplays⟩ := h
  simp only [handleDelivery, hm] at htrace
  cases htrace with
  | call reply htrace =>
      obtain ⟨db₁, hreplied, hrest⟩ := hreplays
      cases reply with
      | ok row =>
          cases htrace with
          | call reply htrace =>
              obtain ⟨db₂, hacked, hdone⟩ := hrest
              cases hacked with
              | ack =>
                  cases htrace with
                  | pure =>
                      obtain rfl : db₁ = db' := hdone
                      exact ⟨_, hreplied, by simp [Requeued]⟩
      | lost e =>
          obtain ⟨rfl, hiff⟩ := requeued_nack ⟨htrace, hrest⟩
          exact ⟨_, hreplied, by simpa using hiff⟩
      | failed e =>
          obtain ⟨rfl, hiff⟩ := requeued_nack ⟨htrace, hrest⟩
          exact ⟨_, hreplied, by simpa using hiff⟩

/-- A database that holds every execution, for a definition. -/
def TimelineDatabase.holding (definition : Json) : TimelineDatabase :=
  ⟨true, fun _ => some (newRow definition), []⟩

/-- An event without a date is rejected by every database that is there. -/
theorem delivered_invalid_date {m : WorkflowExecutionLifecycleMessage}
    (hdate : Runtime.dateParse m.occurredAt = none) {db : TimelineDatabase}
    (havailable : db.available = true) :
    Delivered (persistWorkflowExecutionEvent m) db
      [⟨.upsertEvent (createData m), .failed ⟨none⟩⟩] (.error ⟨none⟩) db where
  trace := trace_bind_error (trace_perform _)
  replays := ⟨db, .rejected havailable (by simp [rejection, createData, hdate]), rfl⟩

/-- An event with a date is stored, where its execution is. -/
theorem exists_delivered {m : WorkflowExecutionLifecycleMessage}
    (hdate : (Runtime.dateParse m.occurredAt).isSome = true) {db : TimelineDatabase}
    (havailable : db.available = true) (hrow : (db.executions m.executionId).isSome) :
    ∃ events db', Delivered (persistWorkflowExecutionEvent m) db events (.ok ()) db' := by
  obtain ⟨uuid, hfresh⟩ := exists_fresh_id db.events
  have hnone : rejection db (createData m) = none := by
    cases hrejection : rejection db (createData m) with
    | none => rfl
    | some error =>
        rw [(rejection_of_date hdate hrejection).2] at hrow
        cases hrow
  obtain ⟨row, events, hupsert⟩ :=
    (@rejection_eq_none_iff db ⟨0, uuid, fun _ => 0⟩ _ hfresh).mp hnone
  exact ⟨_, _, trace_perform_seq (.pure ()), _, .stored havailable hfresh hupsert, rfl⟩

/-- **No poison.** An accepted event is no poison if and only if its
`occurredAt` is a date. -/
theorem noPoison_iff (m : WorkflowExecutionLifecycleMessage) :
    NoPoison m ↔ (Runtime.dateParse m.occurredAt).isSome = true := by
  constructor
  · intro h
    by_contra hdate
    have hnone : Runtime.dateParse m.occurredAt = none := by simpa using hdate
    have hrejected := @delivered_invalid_date _ _ hnone (.holding .null) rfl
    cases (h.persisted _ rfl rfl).2 _ _ _ hrejected
  · intro hdate
    refine ⟨fun db havailable hrow => ⟨exists_delivered hdate havailable hrow,
      fun events out db' hrun => ?_⟩, fun message hm db events out db' hrun hrequeued => ?_⟩
    · obtain ⟨reply, -, hreplied, hout⟩ := delivered_persist hrun
      rcases hout with ⟨row, rfl, rfl⟩ | ⟨e, rfl | rfl, rfl⟩
      · rfl
      · cases hreplied with
        | lost hdown _ _ => cases havailable.symm.trans hdown
      · cases hreplied with
        | rejected _ hrejected =>
            rw [(rejection_of_date hdate hrejected).2] at hrow
            cases hrow
        | unavailable hdown _ => cases havailable.symm.trans hdown
    · obtain ⟨reply, hreplied, hiff⟩ := delivered_cases hm hrun
      obtain ⟨e, he, htransient⟩ := hiff.mp hrequeued
      rcases he with rfl | rfl
      · cases hreplied with
        | lost hdown _ _ => exact hdown
      · cases hreplied with
        | rejected _ hrejected =>
            simp [isNonRetryablePersistenceError, (rejection_of_date hdate hrejected).1]
              at htransient
        | unavailable hdown _ => exact hdown

end

/-! ## An event without a date -/

/-- A started event of a foreign producer. -/
def undatedEvent : Json :=
  .obj [("eventName", .str FlowPilotRoutingKey.workflowExecutionStarted.literal),
    ("eventId", .str "event"), ("schemaVersion", .num messageSchemaVersion),
    ("occurredAt", .str "yesterday"), ("workspaceId", .str "workspace"),
    ("correlationId", .str "workflow-execution:execution"),
    ("producer", .str producerExecutionWorker),
    ("payload", .obj [("workflowId", .str "workflow"), ("executionId", .str "execution")])]

def undatedMessage : ConsumeMessage :=
  ⟨.json undatedEvent, FlowPilotRoutingKey.workflowExecutionStarted.literal,
    ⟨none, none, none, none⟩⟩

/-- The parser accepts it, and every delivery of it to a database that has
its execution is given back, with nothing changed. -/
theorem undated_event_requeued :
    ∃ (_ : Runtime) (m : WorkflowExecutionLifecycleMessage) (db : TimelineDatabase),
      parseWorkflowExecutionLifecycleMessage undatedMessage = some m ∧ db.available = true
      ∧ (db.executions m.executionId).isSome
      ∧ (∃ events e db', Delivered (persistWorkflowExecutionEvent m) db events (.error e) db')
      ∧ (∃ events out db', Delivered (handleDelivery undatedMessage) db events out db')
      ∧ ∀ events out db', Delivered (handleDelivery undatedMessage) db events out db' →
        Requeued undatedMessage events ∧ db' = db := by
  let : Runtime := .sample false
  let m : WorkflowExecutionLifecycleMessage := ⟨undatedEvent, by decide +kernel⟩
  let db : TimelineDatabase := .holding .null
  have hm : parseWorkflowExecutionLifecycleMessage undatedMessage = some m :=
    rfl
  have hdate : Runtime.dateParse m.occurredAt = none := by decide +kernel
  have hrejected : rejection db (createData m) = some ⟨none⟩ := by
    simp [rejection, createData, hdate]
  refine ⟨_, m, db, hm, rfl, rfl, ⟨_, _, _, delivered_invalid_date hdate rfl⟩, ?_, ?_⟩
  · refine ⟨[⟨.upsertEvent (createData m), .failed ⟨none⟩⟩,
        ⟨.nack undatedMessage false true, .ok ()⟩], .ok (), db, ?_, db, .rejected rfl hrejected,
      db, .nack, rfl⟩
    simp only [handleDelivery, hm]
    have hthrows := (@delivered_invalid_date _ m hdate db rfl).trace
    have hnack : Trace (nack undatedMessage false true)
        [⟨.nack undatedMessage false true, .ok ()⟩] (.ok ()) := trace_perform _
    exact (trace_tryCatch_error (trace_bind_error hthrows)).mpr hnack
  · intro events out db' hrun
    obtain ⟨reply, hreplied, hiff⟩ := delivered_cases hm hrun
    cases hreplied with
    | stored _ _ hupsert =>
        simp only [WorkflowService.upsertEvent, createData, hdate] at hupsert
        cases hupsert
    | rejected _ hrejection =>
        obtain rfl := Option.some.inj (hrejected.symm.trans hrejection)
        exact ⟨hiff.mpr ⟨_, Or.inr rfl, rfl⟩, rfl⟩
    | unavailable hdown _ => cases hdown
    | lost hdown _ _ => cases hdown

end FlowPilot.WorkflowService
