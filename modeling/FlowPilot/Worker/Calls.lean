import FlowPilot.Worker.Process

/-!
# Which calls a function makes

The specifications of everything below the handling of a delivery, over the
function's own events. Two classes of calls cover it: `RecordingOp`, the
writes and publishes that report progress, and `NodeOp`, those and the
executors. Neither class touches an execution row, a lifecycle row of an
execution, the command, or the delivery.

A function of this layer throws only when one of its calls did not succeed
(`SomeCallFailed`).
-/

namespace FlowPilot

open Prog hiding pure throw bind tryCatch

/-! ## Lifecycle keys -/

/-- Two texts that differ within the first `n` characters of their fixed
parts differ. -/
theorem append_ne_append {p q x y : String} (n : Nat) (hp : n ≤ p.toList.length)
    (hq : n ≤ q.toList.length) (h : p.toList.take n ≠ q.toList.take n) : p ++ x ≠ q ++ y := by
  intro he
  have htake := congrArg (fun s => s.toList.take n) he
  simp only [String.toList_append] at htake
  rw [List.take_append_of_le_length hp, List.take_append_of_le_length hq] at htake
  exact h htake

/-- The key of a started, completed or failed event of some execution. -/
def IsLifecycleKey (key : String) : Prop :=
  ∃ executionId, key = startedKey executionId ∨ key = completedKey executionId
    ∨ key = failedKey executionId

/-- A key that does not begin with `workflow.e` is no lifecycle key. -/
theorem not_isLifecycleKey {p x : String} (hp : 10 ≤ p.toList.length)
    (h : p.toList.take 10 ≠ "workflow.e".toList) : ¬ IsLifecycleKey (p ++ x) := by
  rintro ⟨executionId, he | he | he⟩
  · exact append_ne_append 10 hp (by decide) (fun ht => h (ht.trans (by decide))) he
  · exact append_ne_append 10 hp (by decide) (fun ht => h (ht.trans (by decide))) he
  · exact append_ne_append 10 hp (by decide) (fun ht => h (ht.trans (by decide))) he

theorem startedKey_inj {a b : String} : startedKey a = startedKey b ↔ a = b :=
  String.append_right_inj _

theorem completedKey_inj {a b : String} : completedKey a = completedKey b ↔ a = b :=
  String.append_right_inj _

theorem failedKey_inj {a b : String} : failedKey a = failedKey b ↔ a = b :=
  String.append_right_inj _

theorem startedKey_ne_completedKey (a b : String) : startedKey a ≠ completedKey b :=
  append_ne_append 20 (by decide) (by decide) (by decide)

theorem startedKey_ne_failedKey (a b : String) : startedKey a ≠ failedKey b :=
  append_ne_append 20 (by decide) (by decide) (by decide)

theorem completedKey_ne_failedKey (a b : String) : completedKey a ≠ failedKey b :=
  append_ne_append 20 (by decide) (by decide) (by decide)

/-! ## Classes of calls -/

/-- The writes and publishes that report progress. -/
def RecordingOp : WorkerOp → Prop
  | .newDate => True
  | .randomUUID => True
  | .db (.upsertOutbox _ message) => ¬ IsLifecycleKey message.idempotencyKey
  | .db (.updateOutbox _ _) => True
  | .db (.findOutbox _ _) => True
  | .db (.upsertRunningNode _ _ _ _) => True
  | .db (.updateNode _ _) => True
  | .db (.createAiTrace _) => True
  | .publish p => p.exchange = .events
  | _ => False

/-- The calls of `dispatchOutboxEvent`. -/
def DispatchOp : WorkerOp → Prop
  | .newDate => True
  | .db (.updateOutbox _ _) => True
  | .publish p => p.exchange = .events
  | _ => False

/-- The calls that store and dispatch an event under `routingKey`. -/
def EventOp (routingKey : FlowPilotRoutingKey) : WorkerOp → Prop
  | .randomUUID => True
  | .db (.upsertOutbox key message) =>
      key = routingKey ∧ ¬ IsLifecycleKey message.idempotencyKey
  | op => DispatchOp op

theorem DispatchOp.event {op : WorkerOp} (routingKey : FlowPilotRoutingKey) (h : DispatchOp op) :
    EventOp routingKey op := by
  cases op with
  | db c =>
      cases c with
      | updateOutbox _ _ => exact h
      | _ => exact h.elim
  | randomUUID => trivial
  | _ => exact h

theorem DispatchOp.recording {op : WorkerOp} (h : DispatchOp op) : RecordingOp op := by
  cases op with
  | db c =>
      cases c with
      | updateOutbox _ _ => exact h
      | _ => exact h.elim
  | randomUUID => trivial
  | _ => exact h

theorem EventOp.recording {routingKey : FlowPilotRoutingKey} {op : WorkerOp}
    (h : EventOp routingKey op) : RecordingOp op := by
  cases op with
  | db c =>
      cases c with
      | upsertOutbox _ _ => exact h.2
      | updateOutbox _ _ => exact h
      | _ => exact h.elim
  | _ => exact h

/-- The calls of `executeWorkflowNodes`. -/
def NodeOp (op : WorkerOp) : Prop :=
  RecordingOp op ∨ ∃ node context, op = .executeWorkflowNode node context

/-- The call returned and, when it published an event, the broker had room.
(The worker ignores that answer for commands.) -/
def CallSucceeded : WorkerEvent → Prop
  | ⟨.publish p, .ok accepted⟩ => p.exchange = .events → accepted = true
  | ⟨_, .ok _⟩ => True
  | ⟨_, .lost _⟩ => False
  | ⟨_, .failed _⟩ => False

def SomeCallFailed (events : List WorkerEvent) : Prop := ∃ ev ∈ events, ¬ CallSucceeded ev

theorem not_callSucceeded_lost {op : WorkerOp} {e : JsError} :
    ¬ CallSucceeded ⟨op, .lost e⟩ := by
  cases op <;> exact fun h => h

theorem not_callSucceeded_failed {op : WorkerOp} {e : JsError} :
    ¬ CallSucceeded ⟨op, .failed e⟩ := by
  cases op <;> exact fun h => h

theorem someCallFailed_of_lost {op : WorkerOp} {e : JsError} :
    SomeCallFailed [⟨op, .lost e⟩] :=
  ⟨_, List.mem_singleton_self _, not_callSucceeded_lost⟩

theorem someCallFailed_of_failed {op : WorkerOp} {e : JsError} :
    SomeCallFailed [⟨op, .failed e⟩] :=
  ⟨_, List.mem_singleton_self _, not_callSucceeded_failed⟩

theorem SomeCallFailed.append_left {events rest : List WorkerEvent} (h : SomeCallFailed events) :
    SomeCallFailed (events ++ rest) := by
  obtain ⟨ev, hmem, hfailed⟩ := h
  exact ⟨ev, List.mem_append_left _ hmem, hfailed⟩

theorem SomeCallFailed.append_right {events rest : List WorkerEvent} (h : SomeCallFailed rest) :
    SomeCallFailed (events ++ rest) := by
  obtain ⟨ev, hmem, hfailed⟩ := h
  exact ⟨ev, List.mem_append_right _ hmem, hfailed⟩

theorem not_someCallFailed_append {events rest : List WorkerEvent}
    (h : ¬ SomeCallFailed events) (hrest : ¬ SomeCallFailed rest) :
    ¬ SomeCallFailed (events ++ rest) := by
  rintro ⟨ev, hmem, hfailed⟩
  rcases List.mem_append.mp hmem with hmem | hmem
  · exact h ⟨ev, hmem, hfailed⟩
  · exact hrest ⟨ev, hmem, hfailed⟩

/-! ## Functions that only record -/

/-- The function makes only calls of `I`, returns a value of `R`, and throws
only when a call failed. -/
def Returns {α : Type} (I : WorkerOp → Prop) (p : Worker α) (R : α → Prop) : Prop :=
  Spec I p (fun a _ => R a) (fun _ events => SomeCallFailed events)

/-- The same, whatever it returns. -/
abbrev ThrowsOnFailure {α : Type} (I : WorkerOp → Prop) (p : Worker α) : Prop :=
  Returns I p fun _ => True

section Returns

variable {α β : Type} {I : WorkerOp → Prop}

theorem throwsOnFailure_call {op : WorkerOp} (h : I op) : ThrowsOnFailure I (call op) :=
  spec_perform h (fun _ => trivial) (fun _ => someCallFailed_of_lost)
    (fun _ => someCallFailed_of_failed)

theorem returns_pure {R : α → Prop} {a : α} (h : R a) : Returns I (pure a) R := h

theorem throwsOnFailure_pure (a : α) : ThrowsOnFailure I (pure a) := trivial

theorem Returns.bind {p : Worker α} {f : α → Worker β} {R₀ : α → Prop} {R : β → Prop}
    (hp : Returns I p R₀) (hf : ∀ a, Returns I (f a) R) : Returns I (p >>= f) R := by
  refine spec_bind (spec_conseq hp (fun a events _ => ?_) (fun _ _ h => h))
  exact spec_conseq (hf a) (fun _ _ h => h) (fun _ _ h => h.append_right)

/-- A handler that swallows what it catches. -/
theorem Returns.tryCatch_pure {p : Worker α} {a : JsError → α} {R : α → Prop}
    (hp : Returns I p R) : ThrowsOnFailure I (p.tryCatch fun e => pure (a e)) :=
  spec_tryCatch (spec_conseq hp (fun _ _ _ => trivial) (fun _ _ _ => trivial))

end Returns

/-- The function makes only calls of `I`, and returns if and only if they
all succeed. -/
def Exact {α : Type} (I : WorkerOp → Prop) (p : Worker α) : Prop :=
  Spec I p (fun _ events => ¬ SomeCallFailed events) (fun _ events => SomeCallFailed events)

section Exact

variable {α β : Type} {I J : WorkerOp → Prop}

theorem exact_call {op : WorkerOp} (h : I op) (hop : ∀ p, op ≠ .publish p) :
    Exact I (call op) := by
  refine spec_perform h (fun r => ?_) (fun _ => someCallFailed_of_lost)
    (fun _ => someCallFailed_of_failed)
  rintro ⟨ev, hmem, hfailed⟩
  rw [List.mem_singleton.mp hmem] at hfailed
  cases op with
  | publish p => exact hop p rfl
  | _ => exact hfailed trivial

theorem exact_pure (a : α) : Exact I (pure a) := fun ⟨_, hmem, _⟩ => List.not_mem_nil hmem

theorem Exact.bind {p : Worker α} {f : α → Worker β} (hp : Exact I p)
    (hf : ∀ a, Exact I (f a)) : Exact I (p >>= f) := by
  refine spec_bind (spec_conseq hp (fun a events h => ?_) (fun _ _ h => h))
  exact spec_conseq (hf a) (fun _ _ hrest => not_someCallFailed_append h hrest)
    (fun _ _ hrest => hrest.append_right)

theorem Exact.mono {p : Worker α} (hp : Exact I p) (hIJ : ∀ op, I op → J op) : Exact J p :=
  spec_mono hIJ hp (fun _ _ h => h) (fun _ _ h => h)

theorem Exact.throwsOnFailure {p : Worker α} (hp : Exact I p) (hIJ : ∀ op, I op → J op) :
    ThrowsOnFailure J p :=
  spec_mono hIJ hp (fun _ _ _ => trivial) (fun _ _ h => h)

end Exact

theorem markOutboxPublishFailure_spec (row : OutboxMessage) (error : JsError) :
    ThrowsOnFailure DispatchOp (markOutboxPublishFailure row error) :=
  throwsOnFailure_call trivial

/-- A row is handed to the broker; it throws when that or its bookkeeping
failed. -/
theorem dispatchOutboxEvent_exact (row : OutboxMessage) :
    Exact DispatchOp (dispatchOutboxEvent row) := by
  unfold dispatchOutboxEvent
  split
  · exact exact_pure ()
  · refine (exact_call trivial (by simp)).bind fun now => ?_
    have hpublish : DispatchOp (.publish (outboxPublication row now)) := row.exchange_eq
    have hmark : ∀ error, Spec DispatchOp
        (do markOutboxPublishFailure row error; throw error : Worker Bool)
        (fun _ _ => False) (fun _ _ => True) := fun error =>
      spec_bind (spec_conseq (markOutboxPublishFailure_spec row error)
        (fun _ _ _ => trivial) (fun _ _ _ => trivial))
    refine spec_bind (spec_tryCatch (spec_perform hpublish ?_ ?_ ?_))
    · intro accepted
      cases accepted with
      | true =>
          have hroom : ¬ SomeCallFailed [⟨.publish (outboxPublication row now), .ok true⟩] := by
            rintro ⟨ev, hmem, hfailed⟩
            exact hfailed (List.mem_singleton.mp hmem ▸ fun _ => rfl)
          have hmarked : Exact DispatchOp (do
              let publishedAt ← newDate
              db (.updateOutbox row.id (.published publishedAt))) :=
            (exact_call trivial (by simp)).bind fun _ => exact_call trivial (by simp)
          exact spec_conseq hmarked (fun _ _ h => not_someCallFailed_append hroom h)
            (fun _ _ h => h.append_right)
      | false =>
          have hfull : SomeCallFailed [⟨.publish (outboxPublication row now), .ok false⟩] :=
            ⟨_, List.mem_singleton_self _, fun h => Bool.noConfusion (h row.exchange_eq)⟩
          refine spec_bind (spec_conseq (markOutboxPublishFailure_spec row backpressureError)
            (fun _ _ _ => ?_) (fun _ _ _ => hfull.append_left))
          exact hfull.append_left
    · intro e
      exact spec_conseq (hmark e) (fun _ _ h => h.elim)
        (fun _ _ _ => someCallFailed_of_lost.append_left)
    · intro e
      exact spec_conseq (hmark e) (fun _ _ h => h.elim)
        (fun _ _ _ => someCallFailed_of_failed.append_left)

theorem dispatchOutboxEvent_spec (row : OutboxMessage) :
    ThrowsOnFailure RecordingOp (dispatchOutboxEvent row) :=
  (dispatchOutboxEvent_exact row).throwsOnFailure fun _ h => h.recording

theorem dispatchEach_spec : ∀ rows : List OutboxMessage,
    ThrowsOnFailure RecordingOp (dispatchEach rows)
  | [] => trivial
  | row :: rows => (dispatchOutboxEvent_spec row).bind fun _ => dispatchEach_spec rows

theorem dispatchPending_spec (executionId : String) :
    ThrowsOnFailure RecordingOp (dispatchPendingWorkflowExecutionOutboxMessages executionId) :=
  (throwsOnFailure_call trivial).bind fun rows => dispatchEach_spec rows

theorem dispatchBatch_spec : ∀ (rows : List OutboxMessage) (result : DispatchResult),
    ThrowsOnFailure RecordingOp (dispatchBatch rows result)
  | [], _ => trivial
  | row :: rows, _ =>
      (((dispatchOutboxEvent_spec row).bind fun _ => throwsOnFailure_pure _).tryCatch_pure).bind
        fun result => dispatchBatch_spec rows result

/-- A cycle of the dispatcher only records, and throws nothing. -/
theorem outboxDispatcherCycle_spec : ThrowsOnFailure RecordingOp outboxDispatcherCycle :=
  (((throwsOnFailure_call trivial).bind fun _ => dispatchBatch_spec _ _).bind
    fun _ => throwsOnFailure_pure _).tryCatch_pure

/-! ## Rows and events of a node -/

section

variable (m : WorkflowExecutionRequestedMessage) (node : WorkflowNode) (nodeExecutionId : String)

/-- A message is stored under a key that is no lifecycle key, and
dispatched. -/
theorem publishEvent_exact {routingKey : FlowPilotRoutingKey}
    {message : String → WorkflowLifecycleMessage}
    (h : ∀ eventId, ¬ IsLifecycleKey (message eventId).idempotencyKey) :
    Exact (EventOp routingKey) (do
      let eventId ← randomUUID
      let outboxMessage ← persistOutboxEvent routingKey (message eventId)
      dispatchOutboxEvent outboxMessage) :=
  (exact_call trivial (by simp)).bind fun eventId =>
    (exact_call ⟨rfl, h eventId⟩ (by simp)).bind fun row =>
      (dispatchOutboxEvent_exact row).mono fun _ hop => hop.event routingKey

theorem publishNodeStartedEvent_exact (input : Record) (startedAt : Int) :
    Exact (EventOp .nodeExecutionStarted)
      (publishNodeStartedEvent m node nodeExecutionId input startedAt) :=
  publishEvent_exact fun _ => by
    simp only [createNodeExecutionStartedMessage, createLifecycleMessage, String.append_assoc]
    exact not_isLifecycleKey (by decide) (by decide)

theorem publishNodeCompletedEvent_exact (output : Record) (startedAt completedAt : Int) :
    Exact (EventOp .nodeExecutionCompleted)
      (publishNodeCompletedEvent m node nodeExecutionId output startedAt completedAt) :=
  publishEvent_exact fun _ => by
    simp only [createNodeExecutionCompletedMessage, createLifecycleMessage, String.append_assoc]
    exact not_isLifecycleKey (by decide) (by decide)

theorem publishNodeFailedEvent_exact (failure : WorkerFailure) (failedAt : Int) :
    Exact (EventOp .nodeExecutionFailed)
      (publishNodeFailedEvent m node nodeExecutionId failure failedAt) :=
  publishEvent_exact fun _ => by
    simp only [createNodeExecutionFailedMessage, createLifecycleMessage, String.append_assoc]
    exact not_isLifecycleKey (by decide) (by decide)

theorem publishAiTraceCreatedEvent_exact (trace : WorkflowAiTrace) :
    Exact (EventOp .aiTraceCreated) (publishAiTraceCreatedEvent m trace) :=
  publishEvent_exact fun _ => by
    simp only [createAiTraceCreatedMessage, createLifecycleMessage]
    exact not_isLifecycleKey (by decide) (by decide)

/-- Recording a trace throws nothing. -/
theorem recordAiTrace_spec (data : WorkflowAiTraceCreateData) :
    ThrowsOnFailure RecordingOp (recordAiTrace m data) :=
  ((throwsOnFailure_call trivial).bind fun _ =>
    (publishAiTraceCreatedEvent_exact m _).throwsOnFailure fun _ h => h.recording).tryCatch_pure

variable [Runtime] (input : Record)

theorem recordAiTraceForSuccessfulNode_spec (output : Record) (startedAt completedAt : Int) :
    ThrowsOnFailure RecordingOp (recordAiTraceForSuccessfulNode m node nodeExecutionId input
      output startedAt completedAt) := by
  unfold recordAiTraceForSuccessfulNode
  split
  · exact recordAiTrace_spec m _
  · trivial

theorem recordAiTraceForFailedNode_spec (failure : WorkerFailure) (startedAt failedAt : Int) :
    ThrowsOnFailure RecordingOp (recordAiTraceForFailedNode m node nodeExecutionId input
      failure startedAt failedAt) := by
  unfold recordAiTraceForFailedNode
  split
  · exact recordAiTrace_spec m _
  · trivial

end

/-! ## Executor calls -/

/-- The nodes whose executor was called, each with its input. -/
def executorCalls (events : List WorkerEvent) : List (WorkflowNode × Record) :=
  events.filterMap fun ev =>
    match ev.op with
    | .executeWorkflowNode node context => some (node, context.input)
    | _ => none

@[simp] theorem executorCalls_append (events rest : List WorkerEvent) :
    executorCalls (events ++ rest) = executorCalls events ++ executorCalls rest := by
  simp [executorCalls]

theorem executorCalls_recording {events : List WorkerEvent}
    (h : ∀ ev ∈ events, RecordingOp ev.op) : executorCalls events = [] := by
  refine List.filterMap_eq_nil_iff.mpr fun ev hev => ?_
  have := h ev hev
  revert this
  cases ev.op <;> simp [RecordingOp]

/-- The executor of `node` returned `output` on `input`. -/
def ExecutorReturned (events : List WorkerEvent) (node : WorkflowNode) (input output : Record) :
    Prop :=
  ∃ context : WorkflowNodeExecutionContext, context.input = input
    ∧ ⟨.executeWorkflowNode node context, .ok output⟩ ∈ events

/-- A recording function, seen as a part of running the nodes. -/
theorem Returns.inNode {α : Type} {p : Worker α} {R : α → Prop} (hp : Returns RecordingOp p R) :
    Spec NodeOp p (fun a events => R a ∧ executorCalls events = [])
      (fun _ events => SomeCallFailed events) :=
  spec_mono (fun _ h => Or.inl h) (spec_ops hp)
    (fun _ _ h => ⟨h.1, executorCalls_recording h.2⟩) (fun _ _ h => h.1)

section

variable [Runtime] (m : WorkflowExecutionRequestedMessage) (node : WorkflowNode)
  (nodeExecutionId : String) (input : Record) (startedAt : Int)

/-- The success path after the executor. -/
theorem nodeSuccessPath_rest_spec (output : Record) :
    Returns RecordingOp (do
      let completedAt ← newDate
      completeNodeExecution nodeExecutionId output completedAt
      recordAiTraceForSuccessfulNode m node nodeExecutionId input output startedAt completedAt
      publishNodeCompletedEvent m node nodeExecutionId output startedAt completedAt
      pure output) (· = output) :=
  (throwsOnFailure_call trivial).bind fun completedAt =>
    (throwsOnFailure_call trivial).bind fun _ =>
      (recordAiTraceForSuccessfulNode_spec m node nodeExecutionId input output startedAt
        completedAt).bind fun _ =>
        ((publishNodeCompletedEvent_exact m node nodeExecutionId output startedAt
          completedAt).throwsOnFailure fun _ h => h.recording).bind fun _ => returns_pure rfl

theorem nodeSuccessPath_spec :
    Spec NodeOp (nodeSuccessPath m node nodeExecutionId input startedAt)
      (fun output events => executorCalls events = [(node, input)]
        ∧ ExecutorReturned events node input output)
      (fun _ events => SomeCallFailed events) := by
  have hop : NodeOp (.executeWorkflowNode node ⟨input, m, nodeExecutionId⟩) :=
    Or.inr ⟨_, _, rfl⟩
  refine spec_bind (spec_perform hop (fun output => ?_) (fun _ => someCallFailed_of_lost)
    (fun _ => someCallFailed_of_failed))
  have hrecord := nodeSuccessPath_rest_spec m node nodeExecutionId input startedAt output
  refine spec_conseq hrecord.inNode (fun result events h => ?_) (fun _ _ h => h.append_right)
  obtain ⟨rfl, hcalls⟩ := h
  exact ⟨by rw [executorCalls_append, hcalls]; rfl, _, rfl, List.mem_cons_self⟩

theorem nodeFailurePath_spec (error : JsError) :
    Spec NodeOp (nodeFailurePath m node nodeExecutionId input startedAt error)
      (fun _ _ => False) (fun _ _ => True) := by
  refine spec_bind (spec_conseq (throwsOnFailure_call trivial).inNode
    (fun failedAt _ _ => ?_) (fun _ _ _ => trivial))
  refine spec_bind (spec_conseq (throwsOnFailure_call trivial).inNode
    (fun _ _ _ => ?_) (fun _ _ _ => trivial))
  refine spec_bind (spec_conseq (recordAiTraceForFailedNode_spec m node nodeExecutionId input
    _ startedAt failedAt).inNode (fun _ _ _ => ?_) (fun _ _ _ => trivial))
  have hpublish := (publishNodeFailedEvent_exact m node nodeExecutionId
    (normalizeWorkerFailure error) failedAt).throwsOnFailure fun _ h => h.recording
  exact spec_bind (spec_conseq hpublish.inNode (fun _ _ _ => trivial) (fun _ _ _ => trivial))

end

/-- One iteration calls the executor of its node once, returns what that
returned, and throws only when a call failed. -/
theorem runNode_spec [Runtime] (m : WorkflowExecutionRequestedMessage) (node : WorkflowNode)
    (input : Record) :
    Spec NodeOp (runNode m node input)
      (fun output events => executorCalls events = [(node, input)]
        ∧ ExecutorReturned events node input output)
      (fun _ events => SomeCallFailed events) := by
  refine spec_bind (spec_conseq (throwsOnFailure_call trivial).inNode
    (fun startedAt _ h₁ => ?_) (fun _ _ h => h))
  refine spec_bind (spec_conseq (throwsOnFailure_call trivial).inNode
    (fun row _ h₂ => ?_) (fun _ _ h => h.append_right))
  have hpublish := (publishNodeStartedEvent_exact m node row.id input startedAt).throwsOnFailure
    fun _ h => h.recording
  refine spec_bind (spec_conseq hpublish.inNode
    (fun _ _ h₃ => ?_) (fun _ _ h => h.append_right.append_right))
  refine spec_tryCatch (spec_conseq (nodeSuccessPath_spec m node row.id input startedAt)
    (fun output events h => ?_) (fun error _ h => ?_))
  · obtain ⟨hcalls, context, hinput, hmem⟩ := h
    refine ⟨by simp only [executorCalls_append, h₁.2, h₂.2, h₃.2, hcalls, List.nil_append],
      context, hinput, ?_⟩
    simp only [List.mem_append, hmem, or_true]
  · exact spec_conseq (nodeFailurePath_spec m node row.id input startedAt error)
      (fun _ _ hf => hf.elim) (fun _ _ _ => h.append_left.append_right.append_right.append_right)

end FlowPilot
