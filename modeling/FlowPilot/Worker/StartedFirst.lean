import FlowPilot.Worker.Discipline
import FlowPilot.Worker.OutboxDiscipline

/-!
# What a delivery knows before it runs the nodes

A delivery stores node events and the completed event only after one of the
three branches of `enterRunning` has returned an execution. In two of them
the started event was dispatched; in the third the delivery has lost the
race for the start and found the execution running (`ResumedAfterLoss`).
`StartedOut` says what the history shows in each, and the traversal ends
where it holds: from there on every call is allowed.
-/

namespace FlowPilot

open Prog hiding pure throw bind tryCatch

/-- The events of the nodes and of the completion. -/
def FlowPilotRoutingKey.AfterStart : FlowPilotRoutingKey → Prop
  | workflowExecutionCompleted => True
  | nodeExecutionStarted => True
  | nodeExecutionCompleted => True
  | nodeExecutionFailed => True
  | _ => False

/-- The message was stored, and `row` is the row it is in. -/
def StoredAs (h : WorkerHistory) (message : WorkflowLifecycleMessage) (row : OutboxMessage) :
    Prop :=
  ∃ ev ∈ h, Stores ev.op message ∧ AnswersRow ev row

/-- Another delivery had started the execution first. -/
def LostStart (x : String) (h : WorkerHistory) : Prop :=
  ∃ (t : StatusTransition) (r : TransitionResult), Saw h (.transaction t) r ∧ t.id = x
    ∧ (∃ startedAt, t.data = .running startedAt) ∧ r.count = 0

/-- After that, the execution was found and had not ended. -/
def ResumedAfterLoss (x : String) (h : WorkerHistory) : Prop :=
  ∃ (before : WorkerHistory) (row : WorkflowExecution) (rest : WorkerHistory),
    h = before ++ ⟨.db (.findExecution x), .ok (some row)⟩ :: rest ∧ LostStart x before
    ∧ isTerminalExecutionStatus row.status = false

/-- What a delivery knows of the started event when it runs the nodes. -/
inductive StartedOut (x : String) (h : WorkerHistory) : Prop
  | dispatched {message : WorkflowLifecycleMessage} {row : OutboxMessage} {now : Int} :
      StoredAs h message row → message.idempotencyKey = startedKey x →
      ⟨.publish (outboxPublication row now), .ok true⟩ ∈ h → StartedOut x h
  | published {message : WorkflowLifecycleMessage} {row : OutboxMessage} :
      StoredAs h message row → message.idempotencyKey = startedKey x → row.status = .published →
      StartedOut x h
  | resumed : ResumedAfterLoss x h → StartedOut x h

theorem StoredAs.mono {h h' : WorkerHistory} {message : WorkflowLifecycleMessage}
    {row : OutboxMessage} (hs : StoredAs h message row) (hle : h <+: h') :
    StoredAs h' message row := by
  obtain ⟨ev, hev, hstores, hrow⟩ := hs
  exact ⟨ev, hle.subset hev, hstores, hrow⟩

theorem LostStart.mono {x : String} {h h' : WorkerHistory} (hl : LostStart x h) (hle : h <+: h') :
    LostStart x h' := by
  obtain ⟨t, r, hsaw, ht⟩ := hl
  exact ⟨t, r, hsaw.mono hle, ht⟩

theorem StartedOut.append {x : String} {h : WorkerHistory} (hs : StartedOut x h)
    (ev : WorkerEvent) : StartedOut x (h ++ [ev]) := by
  have hle : h <+: h ++ [ev] := List.prefix_append h [ev]
  cases hs with
  | dispatched hstored hkey hpublish =>
      exact .dispatched (hstored.mono hle) hkey (hle.subset hpublish)
  | published hstored hkey hstatus => exact .published (hstored.mono hle) hkey hstatus
  | resumed hresumed =>
      obtain ⟨before, row, rest, rfl, hlost, hstatus⟩ := hresumed
      exact .resumed ⟨before, row, rest ++ [ev], by simp, hlost, hstatus⟩

/-! ## The traversal -/

/-- Events that come after the start are stored once the started event is
known to be out. -/
def StartedFirstOp (x : String) (h : WorkerHistory) (op : WorkerOp) : Prop :=
  ∀ message, Stores op message → message.eventName.AfterStart → StartedOut x h

section

variable {x : String}

theorem startedFirstOp_of_started {h : WorkerHistory} (hs : StartedOut x h) (op : WorkerOp) :
    StartedFirstOp x h op := fun _ _ _ => hs

/-- Once the started event is out, every call is allowed. -/
theorem safe_of_started {α : Type} {p : Worker α} {h : WorkerHistory} (hs : StartedOut x h) :
    SafeFrom (StartedFirstOp x) h p :=
  safeFrom_of_stable (fun _ ev hs => hs.append ev) (fun _ op hs => startedFirstOp_of_started hs op)
    hs

/-- The call stores no event. -/
def StoresNothing : WorkerOp → Prop
  | .db (.upsertOutbox _ _) => False
  | .db (.transaction _) => False
  | _ => True

theorem startedFirstOp_of_storesNothing {h : WorkerHistory} {op : WorkerOp}
    (hop : StoresNothing op) : StartedFirstOp x h op := by
  intro message hstores _
  cases hstores <;> exact hop.elim

/-- Storing an event that does not come after the start. -/
theorem startedFirstOp_transaction {h : WorkerHistory} {t : StatusTransition}
    (ht : ¬ t.message.eventName.AfterStart) : StartedFirstOp x h (.db (.transaction t)) := by
  intro message hstores hlate
  cases hstores
  exact absurd hlate ht

theorem DispatchOp.storesNothing {op : WorkerOp} (hop : DispatchOp op) : StoresNothing op := by
  cases op with
  | db c =>
      cases c with
      | updateOutbox _ _ => trivial
      | _ => exact hop.elim
  | _ => trivial

theorem dispatchOutboxEvent_startedFirst (row : OutboxMessage) :
    Safe (StartedFirstOp x) (dispatchOutboxEvent row) :=
  safe_of_spec (dispatchOutboxEvent_exact row) fun _ _ hop =>
    startedFirstOp_of_storesNothing hop.storesNothing

theorem dispatchPending_startedFirst (executionId : String) :
    Safe (StartedFirstOp x) (dispatchPendingWorkflowExecutionOutboxMessages executionId) := by
  have heach : ∀ rows : List OutboxMessage, Safe (StartedFirstOp x) (dispatchEach rows) := by
    intro rows
    induction rows with
    | nil => exact safe_pure ()
    | cons row rows ih => exact (dispatchOutboxEvent_startedFirst row).bind fun _ => ih
  refine Safe.bind (safe_perform fun _ => ?_) heach
  exact startedFirstOp_of_storesNothing trivial

theorem outboxDispatcherCycle_startedFirst : Safe (StartedFirstOp x) outboxDispatcherCycle := by
  have hbatch : ∀ (rows : List OutboxMessage) (result : DispatchResult),
      Safe (StartedFirstOp x) (dispatchBatch rows result) := by
    intro rows
    induction rows with
    | nil => exact fun result => safe_pure result
    | cons row rows ih =>
        exact fun result => Safe.bind
          (Safe.tryCatch ((dispatchOutboxEvent_startedFirst row).bind fun _ => safe_pure _)
            fun _ => safe_pure _)
          ih
  refine Safe.tryCatch (Safe.bind (Safe.bind (safe_perform fun _ => ?_) fun rows => hbatch rows _)
    fun _ => safe_pure _) fun _ => safe_pure _
  exact startedFirstOp_of_storesNothing trivial

/-- A part of the handler that keeps to the order and, where it returns,
ends in `Q`. -/
abbrev EndsIn {α : Type} (x : String) (p : Worker α) (h : WorkerHistory)
    (Q : α → WorkerHistory → Prop) : Prop :=
  wp (fun _ _ => True) (StartedFirstOp x) p h Q (fun _ _ => True)

theorem endsIn_call_bind {β : Type} {op : WorkerOp} {f : op.Result → Worker β}
    {h : WorkerHistory} {Q : β → WorkerHistory → Prop} (hop : StartedFirstOp x h op)
    (hf : ∀ r, EndsIn x (f r) (h ++ [⟨op, .ok r⟩]) Q) : EndsIn x (call op >>= f) h Q :=
  wp_bind (wp_perform hop (fun r _ => hf r) (fun _ _ => trivial) (fun _ _ => trivial))

theorem endsIn_bind {α β : Type} {p : Worker α} {f : α → Worker β} {h : WorkerHistory}
    {R : α → WorkerHistory → Prop} {Q : β → WorkerHistory → Prop} (hp : EndsIn x p h R)
    (hf : ∀ a h', R a h' → EndsIn x (f a) h' Q) : EndsIn x (p >>= f) h Q :=
  wp_bind (wp_mono hf (fun _ _ h => h) hp)

/-- A started event that was stored is out when its dispatch returns. -/
theorem dispatchOutboxEvent_started {message : WorkflowLifecycleMessage} {row : OutboxMessage}
    {h : WorkerHistory} (hstored : StoredAs h message row)
    (hkey : message.idempotencyKey = startedKey x) :
    EndsIn x (dispatchOutboxEvent row) h fun _ h' => StartedOut x h' := by
  unfold dispatchOutboxEvent
  split
  · rename_i hstatus
    exact .published hstored hkey hstatus
  · have hfails : ∀ (error : JsError) {Q : Bool → WorkerHistory → Prop} {h : WorkerHistory},
        EndsIn x (do markOutboxPublishFailure row error; throw error) h Q := fun error _ _ =>
      endsIn_call_bind (startedFirstOp_of_storesNothing trivial) fun _ => trivial
    refine endsIn_call_bind (startedFirstOp_of_storesNothing trivial) fun now => ?_
    refine wp_bind (wp_tryCatch (wp_perform (startedFirstOp_of_storesNothing trivial) ?_
      (fun e _ => hfails e) (fun e _ => hfails e)))
    intro accepted _
    cases accepted with
    | true =>
        have hpublished : ⟨.publish (outboxPublication row now), .ok true⟩
            ∈ h ++ [⟨.newDate, .ok now⟩] ++ [⟨.publish (outboxPublication row now), .ok true⟩] :=
          List.mem_append_right _ (List.mem_singleton_self _)
        have hout := StartedOut.dispatched (hstored.mono (by simp)) hkey hpublished
        refine endsIn_call_bind (startedFirstOp_of_storesNothing trivial) fun _ => ?_
        exact wp_perform (startedFirstOp_of_storesNothing trivial)
          (fun _ _ => (hout.append _).append _) (fun _ _ => trivial) (fun _ _ => trivial)
    | false => exact endsIn_call_bind (startedFirstOp_of_storesNothing trivial) fun _ => trivial

end

/-! ## The handler -/

section

variable (m : WorkflowExecutionRequestedMessage)

/-- Where an execution is returned, its started event is out. -/
abbrev EntersStarted (execution? : Option WorkflowExecution) (h : WorkerHistory) : Prop :=
  execution?.isSome → StartedOut m.executionId h

theorem dispatchPending_enters (id : String) (h : WorkerHistory) :
    EndsIn m.executionId (do dispatchPendingWorkflowExecutionOutboxMessages id; pure none) h
      (EntersStarted m) :=
  endsIn_bind (dispatchPending_startedFirst id h) fun _ _ _ hsome => Bool.noConfusion hsome

theorem enterRunning_started (existingExecution : WorkflowExecution) (effectiveStartedAt : Int)
    (h : WorkerHistory) :
    EndsIn m.executionId (enterRunning m existingExecution effectiveStartedAt) h
      (EntersStarted m) := by
  have hstart : ∀ eventId,
      ¬ (startTransition m eventId effectiveStartedAt).message.eventName.AfterStart := fun _ => id
  unfold enterRunning
  split
  · refine endsIn_call_bind (startedFirstOp_of_storesNothing trivial) fun eventId => ?_
    refine endsIn_call_bind (startedFirstOp_transaction (hstart eventId)) fun transition => ?_
    split
    · -- another delivery was faster: the row decides
      rename_i hcount
      refine endsIn_call_bind (startedFirstOp_of_storesNothing trivial) fun currentExecution? => ?_
      cases currentExecution? with
      | none => exact dispatchPending_enters m m.executionId _
      | some currentExecution =>
          dsimp only
          split
          · exact dispatchPending_enters m m.executionId _
          · rename_i hopen
            refine fun _ => .resumed ⟨_, currentExecution, [], rfl, ?_, by simpa using hopen⟩
            exact ⟨_, transition, saw_singleton _ _ _, rfl, ⟨effectiveStartedAt, rfl⟩, hcount⟩
    · split
      · trivial
      · rename_i row hrow
        refine endsIn_bind (dispatchOutboxEvent_started ⟨_, List.mem_append_right _
          (List.mem_singleton_self _), .transaction _, hrow⟩ rfl) fun _ _ hout _ => hout
  · refine endsIn_call_bind (startedFirstOp_of_storesNothing trivial) fun eventId => ?_
    refine endsIn_call_bind ?_ fun row => ?_
    · intro message hstores hlate
      cases hstores
      exact hlate.elim
    · exact endsIn_bind (dispatchOutboxEvent_started ⟨_, List.mem_append_right _
        (List.mem_singleton_self _), .upsert _ _, rfl⟩ rfl) fun _ _ hout _ => hout

variable [Runtime]

theorem processWorkflowExecution_startedFirst :
    Safe (StartedFirstOp m.executionId) (processWorkflowExecution m) := fun h => by
  refine endsIn_call_bind (startedFirstOp_of_storesNothing trivial) fun startedAt => ?_
  refine endsIn_call_bind (startedFirstOp_of_storesNothing trivial) fun existingExecution? => ?_
  split
  · trivial
  · split
    · exact dispatchPending_startedFirst _ _
    · refine endsIn_bind (enterRunning_started m _ _ _) fun execution? h' henters => ?_
      split
      · trivial
      · exact safe_of_started (henters rfl)

omit [Runtime] in
theorem failWorkflowExecution_startedFirst (failure : FlowPilotExecutionError) :
    Safe (StartedFirstOp m.executionId) (failWorkflowExecution m failure) := fun h => by
  refine endsIn_call_bind (startedFirstOp_of_storesNothing trivial) fun failedAt => ?_
  refine endsIn_call_bind (startedFirstOp_of_storesNothing trivial) fun eventId => ?_
  refine endsIn_call_bind (startedFirstOp_transaction fun hlate => hlate) fun update => ?_
  split
  · refine endsIn_call_bind (startedFirstOp_of_storesNothing trivial) fun execution? => ?_
    split
    · split
      · exact dispatchPending_startedFirst _ _
      · trivial
    · trivial
  · split
    · trivial
    · exact dispatchOutboxEvent_startedFirst _ _

omit [Runtime] in
theorem publish_startedFirst {x : String} (p : Publication) :
    Safe (StartedFirstOp x) (do
      let _ ← publish p
      pure ()) := fun _ =>
  endsIn_call_bind (startedFirstOp_of_storesNothing trivial) fun _ => trivial

theorem handleFailure_startedFirst (message : ConsumeMessage) (error : JsError) :
    Safe (StartedFirstOp m.executionId) (handleFailure message m error) := by
  have hack : Safe (StartedFirstOp m.executionId) (ack message) :=
    safe_perform fun _ => startedFirstOp_of_storesNothing trivial
  simp only [handleFailure]
  split
  · refine Safe.bind ?_ fun _ => hack
    unfold publishRetryCommand
    split
    · exact safe_throw _
    · exact publish_startedFirst _
  · exact Safe.tryCatch
      ((failWorkflowExecution_startedFirst m _).bind fun _ =>
        (publish_startedFirst _).bind fun _ => hack)
      fun _ => safe_perform fun _ => startedFirstOp_of_storesNothing trivial

theorem handleDelivery_startedFirst (message : ConsumeMessage) :
    Safe (StartedFirstOp (messageExecutionId message)) (handleDelivery message) := by
  have hack : ∀ x, Safe (StartedFirstOp x) (ack message) := fun _ =>
    safe_perform fun _ => startedFirstOp_of_storesNothing trivial
  unfold handleDelivery messageExecutionId
  cases parseWorkflowExecutionRequestedMessage message with
  | none =>
      refine Safe.bind (fun h => ?_) fun _ => hack ""
      exact endsIn_call_bind (startedFirstOp_of_storesNothing trivial) fun _ =>
        publish_startedFirst _ _
  | some m =>
      exact ((processWorkflowExecution_startedFirst m).bind fun _ => hack _).tryCatch
        (handleFailure_startedFirst m message)

end

end FlowPilot
