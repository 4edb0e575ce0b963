import FlowPilot.System.OutboxAgreement
import FlowPilot.System.OutboxRows
import FlowPilot.WorkflowService.Delivery

/-!
# The timeline of an execution, end to end

The running system together with the workflow service. Between them stands
the broker, which delivers an event that was handed to it any number of
times. The chain is: the idempotency key determines the row of the outbox
(`UniqueRows`), the row its payload and with it the `eventId`, and the
`eventId` the row of the timeline. So for events of one kind it is enough
that their keys agree; that an execution is not both completed and failed is
the agreement of store and outbox.
-/

namespace FlowPilot.WorkflowService

/-! ## The system -/

structure TimelineWorld where
  /-- `workflowServiceExecutionEvents`. -/
  queue : List ConsumeMessage
  events : List WorkflowExecutionEvent

/-- Only the database call may fail. -/
def ServiceOp.Fallible : ServiceOp → Prop
  | upsertEvent _ => True
  | _ => False

/-- The effect of a call that is not refused, over the executions that are
there. -/
def ServiceOp.run (executions : String → Option WorkflowExecutionRow) :
    (op : ServiceOp) → DbContext → TimelineWorld → Option (op.Result × TimelineWorld)
  | upsertEvent data, ctx, w =>
      (WorkflowService.upsertEvent executions ctx data w.events).map fun (row, events) =>
        (row, { w with events })
  | ack _, _, w => some ((), w)
  | nack message _ requeue, _, w =>
      some ((), if requeue then { w with queue := w.queue ++ [message] } else w)

def exec (executions : String → Option WorkflowExecutionRow) (op : ServiceOp) (w : TimelineWorld)
    (reply : Reply PersistenceError op.Result) (w' : TimelineWorld) : Prop :=
  match reply with
  | .ok r => ∃ ctx, op.run executions ctx w = some (r, w')
  | .lost _ => op.Fallible ∧ ∃ ctx r, op.run executions ctx w = some (r, w')
  | .failed _ => op.Fallible ∧ w' = w

/-- A delivery takes its message from the queue. -/
inductive StartDelivery : ConsumeMessage → TimelineWorld → TimelineWorld → Prop
  | take {w : TimelineWorld} {before after : List ConsumeMessage} {message : ConsumeMessage} :
      w.queue = before ++ message :: after →
      StartDelivery message w { w with queue := before ++ after }

theorem StartDelivery.mem {message : ConsumeMessage} {w w' : TimelineWorld}
    (h : StartDelivery message w w') : message ∈ w.queue := by
  cases h with
  | take hqueue => simp [hqueue]

/-- A crash: a delivery that was not settled goes back to the queue. -/
inductive StopDelivery : ConsumeMessage → ServiceHistory → TimelineWorld → TimelineWorld → Prop
  | requeue {w : TimelineWorld} {message : ConsumeMessage} {h : ServiceHistory} :
      (∀ ev ∈ h, ev.op.Fallible) →
      StopDelivery message h w { w with queue := w.queue ++ [message] }
  | settled {w : TimelineWorld} {message : ConsumeMessage} {h : ServiceHistory} :
      (∃ ev ∈ h, ¬ ev.op.Fallible) → StopDelivery message h w w

/-- The workflow service over the executions that are there. -/
def timelineSystem [Runtime] (executions : String → Option WorkflowExecutionRow) :
    PoolSystem TimelineWorld ConsumeMessage ServiceOp ServiceOp.Result PersistenceError where
  exec := exec executions
  program := handleDelivery
  spawn := StartDelivery
  stop := StopDelivery
  env _ _ := False

abbrev TimelinePool :=
  Pool Nat TimelineWorld ConsumeMessage ServiceOp ServiceOp.Result PersistenceError

structure SystemState where
  worker : WorkerPool
  timeline : TimelinePool

def SystemState.empty : SystemState := ⟨⟨.empty, fun _ => none⟩, ⟨⟨[], []⟩, fun _ => none⟩⟩

/-- The steps of workers, API, broker and workflow service together. -/
inductive SystemStep [Runtime] (env : Environment) : SystemState → SystemState → Prop
  | worker {s s' : WorkerPool} {t : TimelinePool} {l : WorkerLabel} :
      Pool.Step (workerSystem env) s l s' → SystemStep env ⟨s, t⟩ ⟨s', t⟩
  | timeline {s : WorkerPool} {t t' : TimelinePool}
      {l : Pool.Label Nat ConsumeMessage ServiceOp ServiceOp.Result PersistenceError} :
      Pool.Step (timelineSystem s.world.store.executions) t l t' → SystemStep env ⟨s, t⟩ ⟨s, t'⟩
  /-- The broker delivers an event, for the first time or again. -/
  | deliver {s : WorkerPool} {t : TimelinePool} {p : Publication} :
      p ∈ s.world.events → isRouted p.routingKey = true →
      SystemStep env ⟨s, t⟩ ⟨s, ⟨{ t.world with queue := t.world.queue ++ [p.toMessage] },
        t.threads⟩⟩
  /-- The API publishes that a workflow was created. -/
  | workflowCreated {s : WorkerPool} {t : TimelinePool} {message : ConsumeMessage} {value : Json} :
      message.content = .json value →
      value.get? "eventName" = some (.str FlowPilotRoutingKey.workflowCreated.literal) →
      SystemStep env ⟨s, t⟩ ⟨s, ⟨{ t.world with queue := t.world.queue ++ [message] },
        t.threads⟩⟩

/-- The states of every run from an empty system. -/
inductive ReachableState [Runtime] (env : Environment) : SystemState → Prop
  | start : ReachableState env .empty
  | step {s s' : SystemState} :
      ReachableState env s → SystemStep env s s' → ReachableState env s'

/-! ## Rows of the timeline -/

/-- The row shows the message. -/
structure Shows (event : WorkflowExecutionEvent) (message : WorkflowLifecycleMessage) : Prop where
  eventId : event.eventId = message.eventId
  eventName : event.eventName = message.eventName.literal
  executionId : event.executionId = message.payload.executionId
  nodeId : event.payload.lookup "nodeId" = message.payload.toJson.get? "nodeId"

/-- The row that is created for a message on the wire shows the message. -/
theorem shows_of_createData [Runtime] {m : WorkflowExecutionLifecycleMessage}
    {message : WorkflowLifecycleMessage} (hm : m.value = message.toJson)
    {event : WorkflowExecutionEvent} (hid : event.eventId = (createData m).eventId)
    (hname : event.eventName = (createData m).eventName)
    (hexecution : event.executionId = (createData m).executionId)
    (hpayload : event.payload = (createData m).payload) : Shows event message := by
  have hrecord : m.payload = Json.asRecord (some message.payload.toJson) := by
    rw [WorkflowExecutionLifecycleMessage.payload, hm]
    rfl
  refine ⟨hid.trans ?_, hname.trans ?_, hexecution.trans ?_, ?_⟩
  · simp only [createData, WorkflowExecutionLifecycleMessage.eventId, hm]
    rfl
  · simp only [createData, WorkflowExecutionLifecycleMessage.eventName, hm]
    rfl
  · simp only [createData, WorkflowExecutionLifecycleMessage.executionId, hrecord]
    cases message.payload <;> rfl
  · rw [hpayload]
    simp only [createData, hrecord]
    cases message.payload <;> rfl

/-! ## What the timeline is made of -/

/-- The message is the payload of a row of the outbox. -/
def Stored (s : WorkerPool) (message : WorkflowLifecycleMessage) : Prop :=
  ∃ row ∈ s.world.store.outbox, row.payload = message

/-- Where the parser accepts it, the message is one that is stored. -/
def FromOutbox (s : WorkerPool) (message : ConsumeMessage) : Prop :=
  ∀ m, parseWorkflowExecutionLifecycleMessage message = some m →
    ∃ stored, Stored s stored ∧ m.value = stored.toJson

section

variable [Runtime] {env : Environment} {C : WorkerPool → WorkerLabel → Prop} {s s' : WorkerPool}
  {l : WorkerLabel}

theorem Stored.step {message : WorkflowLifecycleMessage} (h : Stored s message)
    (hs : Pool.Step (workerSystem env) s l s') : Stored s' message := by
  obtain ⟨row, hrow, rfl⟩ := h
  rcases outboxRow_of_step hs hrow with ⟨hkept, -⟩ | ⟨_, data, _, -, -, hmem⟩
  · exact ⟨row, hkept, rfl⟩
  · exact ⟨_, hmem, data.apply_payload row⟩

theorem FromOutbox.step {message : ConsumeMessage} (h : FromOutbox s message)
    (hs : Pool.Step (workerSystem env) s l s') : FromOutbox s' message := fun m hm => by
  obtain ⟨stored, hstored, hvalue⟩ := h m hm
  exact ⟨stored, hstored.step hs, hvalue⟩

/-- What was handed to the broker comes from the outbox. -/
theorem fromOutbox_of_handed (h : ReachableUnder env C s) {p : Publication}
    (hp : p ∈ s.world.events) : FromOutbox s p.toMessage := by
  obtain ⟨row, hrow, now, rfl⟩ := h.handed p hp
  intro m hm
  exact ⟨row.payload, ⟨row, hrow, rfl⟩, Buffer.json.inj (content_of_parsed hm).symm⟩

omit [Runtime] in
theorem fromOutbox_of_workflowCreated {message : ConsumeMessage} {value : Json}
    (hcontent : message.content = .json value)
    (hname : value.get? "eventName" = some (.str FlowPilotRoutingKey.workflowCreated.literal)) :
    FromOutbox s message := by
  intro m hm
  have hvalue : value = m.value := Buffer.json.inj (hcontent.symm.trans (content_of_parsed hm))
  have haccepted := m.accepted
  rw [← hvalue] at haccepted
  simp [isWorkflowExecutionLifecycleMessage, hname, workflowExecutionLifecycleEvents,
    FlowPilotRoutingKey.literal] at haccepted

/-- The rows of the timeline show messages of the outbox, and no two have
the same `eventId`; whatever is on its way comes from the outbox. -/
structure TimelineSound (s : WorkerPool) (t : TimelinePool) : Prop where
  rows : ∀ event ∈ t.world.events, ∃ message, Stored s message ∧ Shows event message
  unique : (t.world.events.map (·.eventId)).Nodup
  queue : ∀ message ∈ t.world.queue, FromOutbox s message
  threads : ∀ i th, t.threads i = some th → FromOutbox s th.info
  conform : t.Conform (.ofSafe DeliveryOp)

omit [Runtime] in
/-- A call of the service: it leaves everything alone, or creates a row of
the timeline, or gives its message back. -/
theorem exec_cases {executions : String → Option WorkflowExecutionRow} {op : ServiceOp}
    {w w' : TimelineWorld} {reply : Reply PersistenceError op.Result}
    (h : exec executions op w reply w') :
    w' = w
    ∨ (∃ data row, op = .upsertEvent data ∧ w' = { w with events := w.events ++ [row] }
      ∧ (∀ event ∈ w.events, event.eventId ≠ data.eventId) ∧ row.eventId = data.eventId
      ∧ row.eventName = data.eventName ∧ row.executionId = data.executionId
      ∧ row.payload = data.payload)
    ∨ ∃ message allUpTo requeue, op = .nack message allUpTo requeue
      ∧ w' = { w with queue := w.queue ++ [message] } := by
  have hrun : w' = w ∨ ∃ ctx r, op.run executions ctx w = some (r, w') := by
    cases reply with
    | ok r =>
        obtain ⟨ctx, hrun⟩ := h
        exact Or.inr ⟨ctx, r, hrun⟩
    | lost e => exact Or.inr h.2
    | failed e => exact Or.inl h.2
  rcases hrun with rfl | ⟨ctx, r, hrun⟩
  · exact Or.inl rfl
  cases op with
  | upsertEvent data =>
      obtain ⟨⟨row, events⟩, hupsert, heq⟩ := Option.map_eq_some_iff.mp hrun
      cases heq
      rcases upsertEvent_cases hupsert with ⟨rfl, -⟩ | ⟨rfl, hnew, hdata⟩
      · exact Or.inl rfl
      · refine Or.inr (Or.inl ⟨data, _, rfl, rfl, hnew, ?_⟩)
        rw [← hdata]
        exact ⟨rfl, rfl, rfl, rfl⟩
  | ack message =>
      cases hrun
      exact Or.inl rfl
  | nack message allUpTo requeue =>
      cases hrun
      cases requeue with
      | true => exact Or.inr (Or.inr ⟨message, allUpTo, true, rfl, rfl⟩)
      | false => exact Or.inl rfl

/-- A step of the service keeps the timeline sound. -/
theorem TimelineSound.step {executions : String → Option WorkflowExecutionRow}
    {t t' : TimelinePool} {l : Pool.Label Nat ConsumeMessage ServiceOp ServiceOp.Result
      PersistenceError} (h : TimelineSound s t)
    (hs : Pool.Step (timelineSystem executions) t l t') :
    TimelineSound s t' := by
  have hprog : ∀ message, (Pool.Discipline.ofSafe DeliveryOp).Keeps message
      ((timelineSystem executions).program message) [] :=
    fun message => handleDelivery_safe message []
  have hconform : t'.Conform (.ofSafe DeliveryOp) :=
    h.conform.step hprog hs fun _ _ _ _ _ _ _ _ _ => trivial
  have hthreads : ∀ i th, t'.threads i = some th → FromOutbox s th.info := by
    intro i th hth
    rcases hs.thread_cases hth with
      hold | ⟨message, -, hstart, rfl⟩ | ⟨message, _, _, _, _, -, hold, -, rfl⟩
    · exact h.threads i th hold
    · exact h.queue message hstart.mem
    · have hinfo := h.threads i _ hold
      exact hinfo
  suffices hworld : (∀ event ∈ t'.world.events, ∃ message, Stored s message ∧ Shows event message)
      ∧ (t'.world.events.map (·.eventId)).Nodup
      ∧ ∀ message ∈ t'.world.queue, FromOutbox s message from
    ⟨hworld.1, hworld.2.1, hworld.2.2, hthreads, hconform⟩
  cases hs with
  | @act w w' threads i message history op k reply hth hexec =>
      have hop : DeliveryOp message history op := h.conform.next hth
      rcases exec_cases hexec with
        rfl | ⟨data, row, rfl, rfl, hnew, hid, hname, hexecution, hpayload⟩
          | ⟨given, _, _, rfl, rfl⟩
      · exact ⟨h.rows, h.unique, h.queue⟩
      · -- a row is created, for the message of the delivery
        obtain ⟨m, hm, rfl⟩ := hop
        obtain ⟨stored, hstored, hvalue⟩ := h.threads i _ hth m hm
        refine ⟨fun event hevent => ?_, ?_, h.queue⟩
        · rcases List.mem_append.mp hevent with hevent | hevent
          · exact h.rows event hevent
          · rw [List.mem_singleton.mp hevent]
            exact ⟨stored, hstored, shows_of_createData hvalue hid hname hexecution hpayload⟩
        · exact Table.nodup_insert h.unique fun event hevent => hid ▸ hnew event hevent
      · have hgiven : given = message := hop
        refine ⟨h.rows, h.unique, List.forall_mem_append.mpr ⟨h.queue, ?_⟩⟩
        rw [List.forall_mem_singleton, hgiven]
        exact h.threads i _ hth
  | spawn _ hstart =>
      cases hstart with
      | take hqueue =>
          refine ⟨h.rows, h.unique, fun message' hmem => h.queue message' ?_⟩
          rw [hqueue]
          simp only [List.mem_append, List.mem_cons] at hmem ⊢
          tauto
  | @stop w w' threads i th hth hstop =>
      obtain ⟨message, history, p⟩ := th
      cases hstop with
      | requeue _ =>
          refine ⟨h.rows, h.unique, List.forall_mem_append.mpr ⟨h.queue, ?_⟩⟩
          rw [List.forall_mem_singleton]
          exact h.threads i _ hth
      | settled _ => exact ⟨h.rows, h.unique, h.queue⟩
  | env henv => exact henv.elim

/-- So does a message from the outbox that comes in. -/
theorem TimelineSound.arrive {t : TimelinePool} {message : ConsumeMessage}
    (h : TimelineSound s t) (hmessage : FromOutbox s message) :
    TimelineSound s ⟨{ t.world with queue := t.world.queue ++ [message] }, t.threads⟩ where
  rows := h.rows
  unique := h.unique
  queue := List.forall_mem_append.mpr ⟨h.queue, List.forall_mem_singleton.mpr hmessage⟩
  threads := h.threads
  conform := h.conform

/-- In every reachable state the workers are in a reachable state of theirs,
and the timeline is sound. -/
theorem ReachableState.sound {s : SystemState} (h : ReachableState env s) :
    ReachableSystem env s.worker ∧ TimelineSound s.worker s.timeline := by
  induction h with
  | start =>
      exact ⟨.start rfl, ⟨by simp [SystemState.empty], List.nodup_nil,
        by simp [SystemState.empty], by simp [SystemState.empty], Pool.conform_empty _ _⟩⟩
  | step _ hs ih =>
      obtain ⟨hreach, hsound⟩ := ih
      cases hs with
      | worker hs =>
          exact ⟨.step hreach trivial hs,
            { rows := fun event hevent => by
                obtain ⟨message, hstored, hshows⟩ := hsound.rows event hevent
                exact ⟨message, hstored.step hs, hshows⟩
              unique := hsound.unique
              queue := fun message hmem => (hsound.queue message hmem).step hs
              threads := fun i th hth => (hsound.threads i th hth).step hs
              conform := hsound.conform }⟩
      | timeline hs => exact ⟨hreach, hsound.step hs⟩
      | deliver hp _ => exact ⟨hreach, hsound.arrive (fromOutbox_of_handed hreach hp)⟩
      | workflowCreated hcontent hname =>
          exact ⟨hreach, hsound.arrive (fromOutbox_of_workflowCreated hcontent hname)⟩

end

/-! ## Kinds of events -/

/-- The idempotency key of an event, from what its row in the timeline
shows. -/
def eventKey (name : FlowPilotRoutingKey) (executionId : String) (nodeId : Option Json) : String :=
  match name with
  | .workflowExecutionStarted => startedKey executionId
  | .workflowExecutionCompleted => completedKey executionId
  | .workflowExecutionFailed => failedKey executionId
  | name => name.literal ++ ":" ++ executionId ++ ":" ++ Json.asString nodeId

theorem key_eq_eventKey {message : WorkflowLifecycleMessage} (hkeyed : message.Keyed)
    (hname : message.eventName ∈ workflowExecutionLifecycleEvents) :
    message.idempotencyKey = eventKey message.eventName message.payload.executionId
      (message.payload.toJson.get? "nodeId") := by
  rw [hkeyed.idempotencyKey]
  rw [hkeyed.eventName] at hname ⊢
  generalize message.payload = payload at hname ⊢
  cases payload with
  | aiTraceCreated trace =>
      simp [LifecyclePayload.eventName, workflowExecutionLifecycleEvents] at hname
  | _ => rfl

section

variable [Runtime] {env : Environment} {C : WorkerPool → WorkerLabel → Prop} {s : WorkerPool}
  {t : TimelinePool}

/-- Messages with the same key are one message: they are in one row. -/
theorem Stored.eq_of_key (h : ReachableUnder env C s) {message message' : WorkflowLifecycleMessage}
    (hm : Stored s message) (hm' : Stored s message')
    (hkey : message.idempotencyKey = message'.idempotencyKey) : message = message' := by
  obtain ⟨row, hrow, rfl⟩ := hm
  obtain ⟨row', hrow', rfl⟩ := hm'
  rw [← row.idempotencyKey_eq, ← row'.idempotencyKey_eq] at hkey
  rw [h.uniqueRows.eq_of_key hrow hrow' hkey]

/-- A row of the timeline with this event name shows a message under this
key. -/
theorem TimelineSound.message (hsound : TimelineSound s t) (h : ReachableUnder env C s)
    {event : WorkflowExecutionEvent} (hevent : event ∈ t.world.events)
    {name : FlowPilotRoutingKey} (hname : event.eventName = name.literal)
    (hlifecycle : name ∈ workflowExecutionLifecycleEvents) :
    ∃ message, Stored s message ∧ Shows event message
      ∧ message.idempotencyKey
        = eventKey name event.executionId (event.payload.lookup "nodeId") := by
  obtain ⟨message, hstored, hshows⟩ := hsound.rows event hevent
  obtain ⟨row, hrow, rfl⟩ := hstored
  obtain rfl := FlowPilotRoutingKey.literal_inj.mp (hname.symm.trans hshows.eventName)
  refine ⟨row.payload, ⟨row, hrow, rfl⟩, hshows, ?_⟩
  rw [key_eq_eventKey (h.keyed row hrow) hlifecycle, hshows.executionId, hshows.nodeId]

/-- Rows of the timeline whose events have the same key have the same
`eventId`. -/
theorem TimelineSound.eventId_eq (hsound : TimelineSound s t) (h : ReachableUnder env C s)
    {event event' : WorkflowExecutionEvent} (hevent : event ∈ t.world.events)
    (hevent' : event' ∈ t.world.events) {name : FlowPilotRoutingKey}
    (hname : event.eventName = name.literal) (hname' : event'.eventName = name.literal)
    (hlifecycle : name ∈ workflowExecutionLifecycleEvents)
    (hkey : eventKey name event.executionId (event.payload.lookup "nodeId")
      = eventKey name event'.executionId (event'.payload.lookup "nodeId")) :
    event.eventId = event'.eventId := by
  obtain ⟨message, hstored, hshows, hkey₁⟩ := hsound.message h hevent hname hlifecycle
  obtain ⟨message', hstored', hshows', hkey₂⟩ := hsound.message h hevent' hname' hlifecycle
  obtain rfl := hstored.eq_of_key h hstored' (hkey₁.trans (hkey.trans hkey₂.symm))
  rw [hshows.eventId, hshows'.eventId]

/-- No execution has both been completed and failed. -/
theorem not_completed_and_failed (h : ReachableUnder env C s) {x : String}
    {message message' : WorkflowLifecycleMessage} (hm : Stored s message) (hm' : Stored s message')
    (hcompleted : message.idempotencyKey = completedKey x)
    (hfailed : message'.idempotencyKey = failedKey x) : False := by
  have hevent : ∀ (kind : Lifecycle) {message : WorkflowLifecycleMessage}, Stored s message →
      message.idempotencyKey = kind.key x →
      (s.world.store.view x).event kind message.payload := by
    rintro kind message ⟨row, hrow, rfl⟩ hkey
    exact ⟨row, hrow, row.idempotencyKey_eq.trans hkey, rfl⟩
  have hc := hevent .completed hm hcompleted
  have hf := hevent .failed hm' hfailed
  have hagree := h.agreement x
  unfold Agreement at hagree
  split at hagree
  · exact hagree _ _ hc
  · exact ExecutionStatus.noConfusion
      ((hagree.completed_iff.mpr ⟨_, hc⟩).symm.trans (hagree.failed_iff.mpr ⟨_, hf⟩))

/-- Nor does a timeline show both of one execution. -/
theorem TimelineSound.not_both_ends (hsound : TimelineSound s t) (h : ReachableUnder env C s)
    {event event' : WorkflowExecutionEvent} (hevent : event ∈ t.world.events)
    (hevent' : event' ∈ t.world.events) (hsame : event.executionId = event'.executionId)
    (hname : event.eventName = FlowPilotRoutingKey.workflowExecutionCompleted.literal)
    (hname' : event'.eventName = FlowPilotRoutingKey.workflowExecutionFailed.literal) : False := by
  obtain ⟨m, hm, -, hkey⟩ := hsound.message h hevent hname (by decide)
  obtain ⟨m', hm', -, hkey'⟩ := hsound.message h hevent' hname' (by decide)
  rw [hsame] at hkey
  exact not_completed_and_failed h hm hm' hkey hkey'

end

/-- Two different elements would have different values. -/
theorem length_filter_le_one {α β : Type} {f : α → β} {p : α → Bool} {l : List α}
    (hnodup : (l.map f).Nodup) (h : ∀ a ∈ l, ∀ b ∈ l, p a = true → p b = true → f a = f b) :
    (l.filter p).length ≤ 1 := by
  have hfiltered : ((l.filter p).map f).Nodup := hnodup.sublist (List.filter_sublist.map f)
  have hmem : ∀ a ∈ l.filter p, a ∈ l ∧ p a = true := fun a ha => List.mem_filter.mp ha
  match hl : l.filter p with
  | [] => simp
  | [a] => simp
  | a :: b :: rest =>
      rw [hl] at hfiltered hmem
      obtain ⟨ha, hpa⟩ := hmem a (by simp)
      obtain ⟨hb, hpb⟩ := hmem b (by simp)
      simp only [List.map_cons, List.nodup_cons, List.mem_cons, not_or] at hfiltered
      exact absurd (h a ha b hb hpa hpb) hfiltered.1.1

/-! ## Deduplication -/

/-- The timeline of an execution. -/
def SystemState.timelineOf (s : SystemState) (executionId : String) :
    List WorkflowExecutionEvent :=
  s.timeline.world.events.filter (·.executionId = executionId)

theorem SystemState.mem_timelineOf {s : SystemState} {executionId : String}
    {event : WorkflowExecutionEvent} :
    event ∈ s.timelineOf executionId ↔
      event ∈ s.timeline.world.events ∧ event.executionId = executionId := by
  simp [SystemState.timelineOf]

/-- Whatever the workers, the API, the broker and the workflow service have
done, the timeline of an execution has at most one started row, at most one
row for its end, and for every node at most one row of each kind. -/
theorem timeline_deduplicated [Runtime] (env : Environment) (s : SystemState)
    (h : ReachableState env s) (executionId : String) :
    ((s.timelineOf executionId).filter fun event =>
      event.eventName = FlowPilotRoutingKey.workflowExecutionStarted.literal).length ≤ 1
    ∧ ((s.timelineOf executionId).filter fun event =>
      event.eventName = FlowPilotRoutingKey.workflowExecutionCompleted.literal
      ∨ event.eventName = FlowPilotRoutingKey.workflowExecutionFailed.literal).length ≤ 1
    ∧ ∀ nodeId, ∀ name ∈ [FlowPilotRoutingKey.nodeExecutionStarted, .nodeExecutionCompleted,
        .nodeExecutionFailed],
      ((s.timelineOf executionId).filter fun event => event.eventName = name.literal
        ∧ event.payload.lookup "nodeId" = some (.str nodeId)).length ≤ 1 := by
  obtain ⟨hreach, hsound⟩ := h.sound
  have hunique : ((s.timelineOf executionId).map (·.eventId)).Nodup :=
    hsound.unique.sublist (List.filter_sublist.map _)
  have hsame : ∀ {name : FlowPilotRoutingKey} {event event' : WorkflowExecutionEvent},
      name ∈ workflowExecutionLifecycleEvents →
      event ∈ s.timelineOf executionId → event' ∈ s.timelineOf executionId →
      event.eventName = name.literal → event'.eventName = name.literal →
      eventKey name executionId (event.payload.lookup "nodeId")
        = eventKey name executionId (event'.payload.lookup "nodeId") →
      event.eventId = event'.eventId := by
    intro name event event' hlifecycle hevent hevent' hname hname' hkey
    obtain ⟨hevent, hx⟩ := SystemState.mem_timelineOf.mp hevent
    obtain ⟨hevent', hx'⟩ := SystemState.mem_timelineOf.mp hevent'
    exact hsound.eventId_eq hreach hevent hevent' hname hname' hlifecycle (by rw [hx, hx', hkey])
  refine ⟨length_filter_le_one hunique ?_, length_filter_le_one hunique ?_,
    fun nodeId name hname => length_filter_le_one hunique ?_⟩
  · intro event hevent event' hevent' hp hp'
    exact hsame (by decide) hevent hevent' (of_decide_eq_true hp) (of_decide_eq_true hp') rfl
  · intro event hevent event' hevent' hp hp'
    have hboth : ∀ {event event' : WorkflowExecutionEvent}, event ∈ s.timelineOf executionId →
        event' ∈ s.timelineOf executionId →
        event.eventName = FlowPilotRoutingKey.workflowExecutionCompleted.literal →
        event'.eventName = FlowPilotRoutingKey.workflowExecutionFailed.literal → False := by
      intro event event' hevent hevent' hname hname'
      obtain ⟨hevent, hx⟩ := SystemState.mem_timelineOf.mp hevent
      obtain ⟨hevent', hx'⟩ := SystemState.mem_timelineOf.mp hevent'
      exact hsound.not_both_ends hreach hevent hevent' (hx.trans hx'.symm) hname hname'
    rcases of_decide_eq_true hp with hname | hname
    · rcases of_decide_eq_true hp' with hname' | hname'
      · exact hsame (by decide) hevent hevent' hname hname' rfl
      · exact (hboth hevent hevent' hname hname').elim
    · rcases of_decide_eq_true hp' with hname' | hname'
      · exact (hboth hevent' hevent hname' hname).elim
      · exact hsame (by decide) hevent hevent' hname hname' rfl
  · intro event hevent event' hevent' hp hp'
    obtain ⟨hname₁, hnode⟩ := of_decide_eq_true hp
    obtain ⟨hname₂, hnode'⟩ := of_decide_eq_true hp'
    have hlifecycle : ∀ name ∈ [FlowPilotRoutingKey.nodeExecutionStarted, .nodeExecutionCompleted,
        .nodeExecutionFailed], name ∈ workflowExecutionLifecycleEvents := by decide
    exact hsame (hlifecycle name hname) hevent hevent' hname₁ hname₂ (by rw [hnode, hnode'])

/-! ## A recorded event -/

/-- An event that was handed to the broker for an execution that exists, and
whose date is valid, can be recorded. -/
theorem exists_recorded [Runtime] {env : Environment} {s : WorkerPool} {p : Publication}
    {m : WorkflowExecutionLifecycleMessage} (h : ReachableSystem env s) (hp : p ∈ s.world.events)
    (hrouted : isRouted p.routingKey = true)
    (hm : parseWorkflowExecutionLifecycleMessage p.toMessage = some m)
    (hdate : (Runtime.dateParse m.occurredAt).isSome)
    (hexists : (s.world.store.executions m.executionId).isSome) :
    ∃ t, ReachableState env ⟨s, t⟩ ∧ ∃ event ∈ t.world.events,
      event.executionId = m.executionId ∧ event.eventName = m.eventName := by
  obtain ⟨occurredAt, hdate⟩ := Option.isSome_iff_exists.mp hdate
  have hworker : ReachableState env ⟨s, SystemState.empty.timeline⟩ := by
    clear hp hexists
    induction h with
    | start hw =>
        subst hw
        exact .start
    | step _ _ hs ih => exact .step ih (.worker hs)
  have hdelivered := ReachableState.step hworker (.deliver hp hrouted)
  obtain ⟨k, hprogram⟩ : ∃ k, handleDelivery p.toMessage
      = .call (.upsertEvent (createData m)) k := by
    unfold handleDelivery
    rw [hm]
    exact ⟨_, rfl⟩
  let row : WorkflowExecutionEvent :=
    { id := "event", workspaceId := m.workspaceId, workflowId := m.workflowId
      executionId := m.executionId, eventName := m.eventName, eventId := m.eventId, occurredAt
      producer := m.producer, payload := m.payload, createdAt := 0 }
  have hupsert : upsertEvent s.world.store.executions ⟨0, "event", fun _ => 0⟩ (createData m) []
      = some (row, [row]) := by
    have hrow : (s.world.store.executions m.executionId).isNone = false := by
      simp [Option.isNone_eq_false_iff, hexists]
    simp [upsertEvent, createData, hdate, hrow, row]
  let threads : Nat → Option (Thread ConsumeMessage ServiceOp ServiceOp.Result PersistenceError) :=
    Function.update (fun _ => none) 0 (some ⟨p.toMessage, [], handleDelivery p.toMessage⟩)
  have hspawned : ReachableState env ⟨s, ⟨⟨[], []⟩, threads⟩⟩ :=
    .step hdelivered (.timeline (l := .spawn 0 p.toMessage)
      (.spawn rfl (@StartDelivery.take ⟨[p.toMessage], []⟩ [] [] _ rfl)))
  have hexec : exec s.world.store.executions (.upsertEvent (createData m)) ⟨[], []⟩ (.ok row)
      ⟨[], [row]⟩ := ⟨⟨0, "event", fun _ => 0⟩, by simp [ServiceOp.run, hupsert]⟩
  have hthread : threads 0 = some ⟨p.toMessage, [], .call (.upsertEvent (createData m)) k⟩ := by
    simp [threads, hprogram]
  have hact := @Pool.Step.act _ _ _ _ _ _ _ (timelineSystem s.world.store.executions) ⟨[], []⟩
    ⟨[], [row]⟩ threads 0 p.toMessage [] (.upsertEvent (createData m)) k (.ok row) hthread hexec
  exact ⟨_, .step hspawned (.timeline hact), row, by simp, rfl, rfl⟩

/-- The theorem for an execution whose started event is recorded. -/
theorem timeline_deduplicated_started :
    ∃ (_ : Runtime) (env : Environment) (s : SystemState), ReachableState env s
      ∧ (∃ event ∈ s.timelineOf "execution",
        event.eventName = FlowPilotRoutingKey.workflowExecutionStarted.literal)
      ∧ ((s.timelineOf "execution").filter fun event =>
        event.eventName = FlowPilotRoutingKey.workflowExecutionStarted.literal).length ≤ 1 := by
  let _ : Runtime := .sample false
  obtain ⟨s, -, -, hs, -, hP⟩ := exists_run_of_turns defaultWorkflowDefinition twoDispatchers []
    (fun _ => true) (C := fun _ _ => True) (fun _ => trivial) (fun _ _ _ => trivial)
    (P := fun _ s _ => s.world.events.any fun p => isRouted p.routingKey
      && (parseWorkflowExecutionLifecycleMessage p.toMessage).any fun m =>
        (Runtime.dateParse m.occurredAt).isSome
          && (s.world.store.executions m.executionId).isSome && decide (m.executionId = "execution")
          && decide (m.eventName = FlowPilotRoutingKey.workflowExecutionStarted.literal))
    (by decide +kernel)
  obtain ⟨p, hp, hcheck⟩ := List.any_eq_true.mp hP
  obtain ⟨hrouted, hcheck⟩ := (Bool.and_eq_true _ _).mp hcheck
  obtain ⟨m, hm, hcheck⟩ := (Option.any_eq_true _ _).mp hcheck
  simp only [Bool.and_eq_true, decide_eq_true_eq] at hcheck
  obtain ⟨⟨⟨hdate, hexists⟩, hid⟩, hname⟩ := hcheck
  obtain ⟨t, hreach, event, hevent, hexecution, heventName⟩ :=
    exists_recorded hs hp hrouted hm hdate hexists
  refine ⟨_, _, _, hreach, ⟨event, ?_, heventName.trans hname⟩,
    (timeline_deduplicated _ _ hreach "execution").1⟩
  exact SystemState.mem_timelineOf.mpr ⟨hevent, hexecution.trans hid⟩

end FlowPilot.WorkflowService
