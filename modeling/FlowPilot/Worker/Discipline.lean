import FlowPilot.Worker.DataFlow

/-!
# The discipline of a delivery

What a handled delivery does, call by call, in terms of what it has seen and
done before (`DeliveryOp`): when it may touch the execution, what it may
publish, when it acknowledges, and when it gives the delivery back. The only
facts it relies on are about replies (`ReplyOK`), and each is a property of
the store or of the broker's client.

`handleDelivery_keeps` proves it once for the whole handler; every statement
about the running system is derived from it.
-/

namespace FlowPilot

open Prog hiding pure throw bind tryCatch

/-! ## What a history shows -/

/-- A database call was answered with `r`. -/
def Saw (h : WorkerHistory) (c : DbCall) (r : c.Result) : Prop := ⟨.db c, .ok r⟩ ∈ h

/-- The update ends an execution. -/
def ExecutionUpdate.Ends : ExecutionUpdate → Prop
  | .running _ => False
  | .succeeded _ _ => True
  | .failed _ _ => True

/-- The update fails an execution. -/
def ExecutionUpdate.Fails : ExecutionUpdate → Prop
  | .failed _ _ => True
  | _ => False

/-- A terminal status was read, or written by this delivery. -/
def TerminalSeen (executionId : String) (h : WorkerHistory) : Prop :=
  (∃ row, Saw h (.findExecution executionId) (some row)
    ∧ isTerminalExecutionStatus row.status = true)
  ∨ ∃ (t : StatusTransition) (r : TransitionResult), Saw h (.transaction t) r
    ∧ t.id = executionId ∧ t.data.Ends ∧ r.count ≠ 0

/-- A status other than `PENDING` was read. -/
def StartedSeen (executionId : String) (h : WorkerHistory) : Prop :=
  ∃ row, Saw h (.findExecution executionId) (some row) ∧ row.status ≠ .pending

/-- A publish to `exchange` took effect. -/
def Published (exchange : FlowPilotExchange) (h : WorkerHistory) : Prop :=
  ∃ ev ∈ h, ev.reply.applied = true ∧ ∃ p, ev.op = .publish p ∧ p.exchange = exchange

/-- The delivery has been acknowledged or given back. -/
def Settled (h : WorkerHistory) : Prop := ∃ ev ∈ h, ev.op.Settles

/-- The transaction that fails the execution reported that it did. -/
def FailCommitted (ev : WorkerEvent) : Prop :=
  ∃ (t : StatusTransition) (r : TransitionResult),
    ev = ⟨.db (.transaction t), .ok r⟩ ∧ t.data.Fails ∧ r.count ≠ 0

/-- The execution was failed by this delivery, and every call since then
succeeded. -/
def FailedCleanly (h : WorkerHistory) : Prop :=
  h.foldl (fun p ev => FailCommitted ev ∨ (p ∧ CallSucceeded ev)) False

/-- The output is the data flow's on a row that was read. -/
def OutputComputed [Runtime] (m : WorkflowExecutionRequestedMessage) (h : WorkerHistory)
    (output : Record) : Prop :=
  ∃ row, Saw h (.findExecution m.executionId) (some row)
    ∧ ∀ exec, AgreesWith exec h →
      ∃ calls, executionFlow exec m.input row.workflowVersion.definition = .ok (calls, output)

/-! ## Growing histories -/

theorem Saw.mono {h h' : WorkerHistory} {c : DbCall} {r : c.Result} (hs : Saw h c r)
    (hle : h <+: h') : Saw h' c r :=
  hle.subset hs

theorem saw_singleton (h : WorkerHistory) (c : DbCall) (r : c.Result) :
    Saw (h ++ [⟨.db c, .ok r⟩]) c r :=
  List.mem_append_right _ (List.mem_singleton_self _)

theorem TerminalSeen.mono {x : String} {h h' : WorkerHistory} (hs : TerminalSeen x h)
    (hle : h <+: h') : TerminalSeen x h' := by
  rcases hs with ⟨row, hsaw, hrow⟩ | ⟨t, r, hsaw, ht⟩
  · exact Or.inl ⟨row, hsaw.mono hle, hrow⟩
  · exact Or.inr ⟨t, r, hsaw.mono hle, ht⟩

theorem AgreesWith.mono {exec : WorkflowNode → Record → Record} {h h' : WorkerHistory}
    (ha : AgreesWith exec h') (hle : h <+: h') : AgreesWith exec h := by
  obtain ⟨events, rfl⟩ := hle
  exact ha.left

theorem OutputComputed.mono [Runtime] {m : WorkflowExecutionRequestedMessage}
    {h h' : WorkerHistory} {output : Record} (hc : OutputComputed m h output) (hle : h <+: h') :
    OutputComputed m h' output := by
  obtain ⟨row, hsaw, hflow⟩ := hc
  exact ⟨row, hsaw.mono hle, fun exec hagree => hflow exec (hagree.mono hle)⟩

theorem published_singleton {h : WorkerHistory} {p : Publication} (accepted : Bool) :
    Published p.exchange (h ++ [⟨.publish p, .ok accepted⟩]) :=
  ⟨_, List.mem_append_right _ (List.mem_singleton_self _), rfl, p, rfl, rfl⟩

theorem settled_singleton {h : WorkerHistory} {ev : WorkerEvent} (hs : ev.op.Settles) :
    Settled (h ++ [ev]) :=
  ⟨ev, List.mem_append_right _ (List.mem_singleton_self _), hs⟩

theorem settled_append {h events : WorkerHistory} :
    Settled (h ++ events) ↔ Settled h ∨ Settled events := by
  simp only [Settled, List.mem_append, or_and_right, exists_or]

theorem failedCleanly_append_singleton {h : WorkerHistory} {ev : WorkerEvent} :
    FailedCleanly (h ++ [ev]) ↔ FailCommitted ev ∨ (FailedCleanly h ∧ CallSucceeded ev) := by
  simp [FailedCleanly, List.foldl_append]

/-- Events that fail no execution leave a clean failure only as long as they
succeed. -/
theorem failedCleanly_append {events : WorkerHistory}
    (hnone : ∀ ev ∈ events, ¬ FailCommitted ev) {h : WorkerHistory} :
    FailedCleanly (h ++ events) ↔ FailedCleanly h ∧ ¬ SomeCallFailed events := by
  induction events using List.reverseRecOn with
  | nil => simp [SomeCallFailed]
  | append_singleton events ev ih =>
      rw [← List.append_assoc, failedCleanly_append_singleton,
        ih fun e he => hnone e (List.mem_append_left _ he)]
      have hev := hnone ev (List.mem_append_right _ (List.mem_singleton_self ev))
      have hsplit : SomeCallFailed (events ++ [ev])
          ↔ SomeCallFailed events ∨ ¬ CallSucceeded ev := by
        simp only [SomeCallFailed, List.mem_append, List.mem_singleton, or_and_right, exists_or,
          exists_eq_left]
      rw [hsplit]
      tauto

/-- Only a transaction that reported its effect fails an execution. -/
theorem not_failCommitted_lost {op : WorkerOp} {e : JsError} : ¬ FailCommitted ⟨op, .lost e⟩ := by
  rintro ⟨t, r, he, -⟩
  cases he

theorem not_failCommitted_failed {op : WorkerOp} {e : JsError} :
    ¬ FailCommitted ⟨op, .failed e⟩ := by
  rintro ⟨t, r, he, -⟩
  cases he

theorem not_failCommitted_of_count {t : StatusTransition} {r : TransitionResult}
    (hcount : r.count = 0) : ¬ FailCommitted ⟨.db (.transaction t), .ok r⟩ := by
  rintro ⟨t', r', he, -, hr⟩
  cases he
  exact hr hcount

/-! ## Histories before the handler fails or settles -/

/-- The delivery has been neither settled nor failed. -/
structure Open (h : WorkerHistory) : Prop where
  unsettled : ¬ Settled h
  unfailed : ¬ FailedCleanly h

theorem Open.nil : Open [] := ⟨by simp [Settled], by simp [FailedCleanly]⟩

theorem nodeOp_not_settles {op : WorkerOp} (h : NodeOp op) : ¬ op.Settles := by
  rcases h with h | ⟨node, context, rfl⟩
  · cases op with
    | ack _ => exact h.elim
    | nack _ _ _ => exact h.elim
    | _ => exact fun hs => hs
  · exact fun hs => hs

theorem nodeOp_not_failCommitted {ev : WorkerEvent} (h : NodeOp ev.op) : ¬ FailCommitted ev := by
  rintro ⟨t, r, rfl, -⟩
  rcases h with h | ⟨node, context, he⟩
  · exact h
  · cases he

/-- Calls of the nodes settle nothing. -/
theorem unsettled_append {h events : WorkerHistory} (hs : ¬ Settled h)
    (hall : ∀ ev ∈ events, NodeOp ev.op) : ¬ Settled (h ++ events) := by
  rw [settled_append]
  rintro (hs' | ⟨ev, hmem, hsettles⟩)
  · exact hs hs'
  · exact nodeOp_not_settles (hall ev hmem) hsettles

theorem unsettled_append_singleton {h : WorkerHistory} {ev : WorkerEvent} (hs : ¬ Settled h)
    (hev : ¬ ev.op.Settles) : ¬ Settled (h ++ [ev]) := by
  rw [settled_append]
  rintro (h' | ⟨e, he, hsettles⟩)
  · exact hs h'
  · exact hev (List.mem_singleton.mp he ▸ hsettles)

theorem Open.append {h events : WorkerHistory} (ho : Open h)
    (hall : ∀ ev ∈ events, NodeOp ev.op) : Open (h ++ events) where
  unsettled := unsettled_append ho.unsettled hall
  unfailed := by
    rw [failedCleanly_append fun ev hev => nodeOp_not_failCommitted (hall ev hev)]
    exact fun hf => ho.unfailed hf.1

theorem Open.append_singleton {h : WorkerHistory} {ev : WorkerEvent} (ho : Open h)
    (hs : ¬ ev.op.Settles) (hf : ¬ FailCommitted ev) : Open (h ++ [ev]) where
  unsettled := unsettled_append_singleton ho.unsettled hs
  unfailed := by
    rw [failedCleanly_append_singleton]
    rintro (h' | h')
    · exact hf h'
    · exact ho.unfailed h'.1

/-- After a call that threw, nothing has failed cleanly. -/
theorem Open.of_lost {h : WorkerHistory} {op : WorkerOp} {e : JsError} (hs : ¬ Settled h)
    (hop : ¬ op.Settles) : Open (h ++ [⟨op, .lost e⟩]) where
  unsettled := unsettled_append_singleton hs hop
  unfailed := by
    rw [failedCleanly_append_singleton]
    rintro (hf | ⟨-, hf⟩)
    · exact not_failCommitted_lost hf
    · exact not_callSucceeded_lost hf

theorem Open.of_failed {h : WorkerHistory} {op : WorkerOp} {e : JsError} (hs : ¬ Settled h)
    (hop : ¬ op.Settles) : Open (h ++ [⟨op, .failed e⟩]) where
  unsettled := unsettled_append_singleton hs hop
  unfailed := by
    rw [failedCleanly_append_singleton]
    rintro (hf | ⟨-, hf⟩)
    · exact not_failCommitted_failed hf
    · exact not_callSucceeded_failed hf

/-! ## Assumptions and obligations -/

/-- What a delivery may rely on: infallible calls return, a query answers
with the row it was asked for and finds what it found before, and a
transaction that moved an execution returns its outbox row. -/
structure ReplyOK (h : WorkerHistory) (ev : WorkerEvent) : Prop where
  infallible : ev.op.Infallible → ∃ r, ev.reply = .ok r
  found_id : ∀ id (row : WorkflowExecution),
    ev = ⟨.db (.findExecution id), .ok (some row)⟩ → row.id = id
  found_again : ∀ id, ev = ⟨.db (.findExecution id), .ok none⟩ →
    ∀ row, ¬ Saw h (.findExecution id) (some row)
  outbox_row : ∀ (t : StatusTransition) (r : TransitionResult),
    ev = ⟨.db (.transaction t), .ok r⟩ → r.count ≠ 0 → r.outboxMessage.isSome

/-- The three transactions of the worker on the execution of its command. -/
inductive TransitionOK [Runtime] (m : WorkflowExecutionRequestedMessage) (h : WorkerHistory) :
    StatusTransition → Prop
  | start (eventId : String) (startedAt : Int) :
      TransitionOK m h (startTransition m eventId startedAt)
  | complete (eventId : String) (output : Record) (startedAt completedAt : Int) :
      OutputComputed m h output →
      TransitionOK m h
        (completeTransition m m.executionId eventId output startedAt completedAt)
  | fail (eventId : String) (failureRecord : FlowPilotExecutionError) (failedAt : Int) :
      TransitionOK m h (failTransition m eventId failureRecord failedAt)

/-- What a delivery of `message` may call after `h`. -/
inductive DeliveryOp [Runtime] (message : ConsumeMessage) (h : WorkerHistory) : WorkerOp → Prop
  | node {op : WorkerOp} : NodeOp op → DeliveryOp message h op
  | find (id : String) : DeliveryOp message h (.db (.findExecution id))
  | transition {m : WorkflowExecutionRequestedMessage} {t : StatusTransition} :
      parseWorkflowExecutionRequestedMessage message = some m → ¬ Settled h →
      TransitionOK m h t → DeliveryOp message h (.db (.transaction t))
  /-- The started event of an execution that was found running. -/
  | resume {m : WorkflowExecutionRequestedMessage} {started : WorkflowLifecycleMessage} :
      parseWorkflowExecutionRequestedMessage message = some m →
      started.idempotencyKey = startedKey m.executionId →
      started.payload = .started m.workflowId m.executionId → StartedSeen m.executionId h →
      DeliveryOp message h (.db (.upsertOutbox .workflowExecutionStarted started))
  | retry {m : WorkflowExecutionRequestedMessage} {p : Publication} :
      parseWorkflowExecutionRequestedMessage message = some m → p.exchange = .retry →
      p.content = .json m.value → DeliveryOp message h (.publish p)
  /-- A command is dead-lettered once its execution is known to have ended. -/
  | deadLetter {m : WorkflowExecutionRequestedMessage} {p : Publication} :
      parseWorkflowExecutionRequestedMessage message = some m → p.exchange = .dlx →
      p.content = .json m.value → TerminalSeen m.executionId h →
      DeliveryOp message h (.publish p)
  | rawDeadLetter {p : Publication} :
      parseWorkflowExecutionRequestedMessage message = none → p.exchange = .dlx →
      p.content = message.content → DeliveryOp message h (.publish p)
  /-- A command is acknowledged once its execution is known to have ended or
  a retry copy is out, and not between failing and dead-lettering it. -/
  | ack : ¬ Settled h →
      (∀ m, parseWorkflowExecutionRequestedMessage message = some m →
        (TerminalSeen m.executionId h ∨ Published .retry h)
        ∧ (FailedCleanly h → Published .dlx h)) →
      DeliveryOp message h (.ack message)
  | nack : ¬ Settled h → ¬ FailedCleanly h → DeliveryOp message h (.nack message false true)

/-! ## The parts of the handler -/

section Handler

variable [Runtime] {message : ConsumeMessage} {α β : Type}

/-- A part of the handler, run after `h`: it keeps to the discipline and
ends in `Q` or `E`. -/
abbrev Handles (message : ConsumeMessage) (p : Worker α) (h : WorkerHistory)
    (Q : α → WorkerHistory → Prop) (E : JsError → WorkerHistory → Prop) : Prop :=
  wp ReplyOK (DeliveryOp message) p h Q E

/-- What is thrown before the execution is failed leaves the delivery open. -/
abbrev LeavesOpen : JsError → WorkerHistory → Prop := fun _ h => Open h

omit [Runtime] in
theorem not_failCommitted {op : WorkerOp} {reply : Reply JsError op.Result}
    (h : ∀ t, op = .db (.transaction t) → ¬ t.data.Fails) : ¬ FailCommitted ⟨op, reply⟩ := by
  rintro ⟨t, r, he, hfails, -⟩
  exact h t (congrArg Event.op he) hfails

/-- One call that neither settles nor fails anything. -/
theorem Open.calls {op : WorkerOp} {h : WorkerHistory} {Q : op.Result → WorkerHistory → Prop}
    (ho : Open h) (hop : DeliveryOp message h op) (hs : ¬ op.Settles)
    (hf : ∀ t, op = .db (.transaction t) → ¬ t.data.Fails)
    (hQ : ∀ r h', h <+: h' → ⟨op, .ok r⟩ ∈ h' → ReplyOK h ⟨op, .ok r⟩ → Open h' → Q r h') :
    Handles message (call op) h Q LeavesOpen := by
  refine wp_perform hop (fun r hA => ?_) (fun _ _ => ?_) (fun _ _ => ?_)
  · exact hQ r _ (List.prefix_append _ _) (List.mem_append_right _ (List.mem_singleton_self _)) hA
      (ho.append_singleton hs (not_failCommitted hf))
  · exact ho.append_singleton hs (not_failCommitted hf)
  · exact ho.append_singleton hs (not_failCommitted hf)

/-- A call that only records. -/
theorem Open.record {op : WorkerOp} {h : WorkerHistory} {Q : op.Result → WorkerHistory → Prop}
    (ho : Open h) (hop : RecordingOp op) (hQ : ∀ r h', h <+: h' → Open h' → Q r h') :
    Handles message (call op) h Q LeavesOpen :=
  ho.calls (.node (Or.inl hop)) (nodeOp_not_settles (Or.inl hop))
    (fun t ht => by subst ht; exact hop.elim) fun r h' hle _ _ ho' => hQ r h' hle ho'

theorem Open.newDate {h : WorkerHistory} {Q : Int → WorkerHistory → Prop} (ho : Open h)
    (hQ : ∀ now h', h <+: h' → Open h' → Q now h') :
    Handles message newDate h Q LeavesOpen :=
  ho.record trivial hQ

theorem Open.randomUUID {h : WorkerHistory} {Q : String → WorkerHistory → Prop} (ho : Open h)
    (hQ : ∀ uuid h', h <+: h' → Open h' → Q uuid h') :
    Handles message randomUUID h Q LeavesOpen :=
  ho.record trivial hQ

/-- A query for an execution. What was found before is found again. -/
theorem Open.find {x : String} {h : WorkerHistory}
    {Q : Option WorkflowExecution → WorkerHistory → Prop} (ho : Open h)
    (hnone : (∀ row, ¬ Saw h (.findExecution x) (some row)) →
      ∀ h', Open h' → Q none h')
    (hsome : ∀ row : WorkflowExecution, row.id = x → ∀ h', h <+: h' → Open h' →
      Saw h' (.findExecution x) (some row) → Q (some row) h') :
    Handles message (findWorkflowExecutionForProcessing x) h Q LeavesOpen := by
  refine ho.calls (.find x) id (fun _ h => by cases h) fun row? h' hle hmem hA ho' => ?_
  cases row? with
  | none => exact hnone (hA.found_again x rfl) h' ho'
  | some row => exact hsome row (hA.found_id x row rfl) h' hle ho' hmem

/-- A part that makes only calls of the nodes. -/
theorem Open.node {p : Worker α} {h : WorkerHistory} {R : α → List WorkerEvent → Prop}
    {E : JsError → List WorkerEvent → Prop} {Q : α → WorkerHistory → Prop}
    (ho : Open h) (hp : Spec NodeOp p R E)
    (hQ : ∀ a events, Open (h ++ events) → R a events → Q a (h ++ events)) :
    Handles message p h Q LeavesOpen := by
  refine wp_mono ?_ ?_ (wp_of_spec hp fun _ _ _ hop => .node hop)
  · rintro a h' ⟨events, rfl, hall, hR⟩
    exact hQ a events (ho.append hall) hR
  · rintro e h' ⟨events, rfl, hall, -⟩
    exact ho.append hall

/-- A part that only records. -/
theorem Open.records {p : Worker α} {h : WorkerHistory} {Q : α → WorkerHistory → Prop}
    (ho : Open h) (hp : ThrowsOnFailure RecordingOp p)
    (hQ : ∀ a h', h <+: h' → Open h' → Q a h') : Handles message p h Q LeavesOpen :=
  ho.node hp.inNode fun a _ ho' _ => hQ a _ (List.prefix_append _ _) ho'

variable {m : WorkflowExecutionRequestedMessage}
  (hm : parseWorkflowExecutionRequestedMessage message = some m)

/-- Once the execution is known to have ended, its lifecycle rows are
dispatched. -/
theorem Open.dispatchEnded {p : Worker Unit} {x : String} {h : WorkerHistory} (ho : Open h)
    (hseen : TerminalSeen x h) (hp : ThrowsOnFailure RecordingOp p) :
    Handles message p h (fun _ h' => Open h' ∧ TerminalSeen x h') LeavesOpen :=
  ho.records hp fun _ _ hle ho' => ⟨ho', hseen.mono hle⟩

/-- The execution the nodes are run for: the one of the command, with the
definition of a row that was read. -/
def ExecutionRead (m : WorkflowExecutionRequestedMessage) (h : WorkerHistory)
    (execution : WorkflowExecution) : Prop :=
  execution.id = m.executionId ∧ ∃ row, Saw h (.findExecution m.executionId) (some row)
    ∧ row.workflowVersion = execution.workflowVersion

include hm in
theorem enterRunning_handles {existingExecution : WorkflowExecution} {effectiveStartedAt : Int}
    {h : WorkerHistory} (ho : Open h) (hid : existingExecution.id = m.executionId)
    (hsaw : Saw h (.findExecution m.executionId) (some existingExecution)) :
    Handles message (enterRunning m existingExecution effectiveStartedAt) h
      (fun execution? h' => Open h' ∧ match execution? with
        | none => TerminalSeen m.executionId h'
        | some execution => ExecutionRead m h' execution) LeavesOpen := by
  unfold enterRunning
  split
  · refine wp_bind (ho.randomUUID fun eventId h₁ hle₁ ho₁ => ?_)
    refine wp_bind (ho₁.calls (.transition hm ho₁.unsettled (.start eventId effectiveStartedAt)) id
      (fun t ht => by cases ht; exact id) fun transition h₂ hle₂ _ _ ho₂ => ?_)
    have hsaw₂ := hsaw.mono (hle₁.trans hle₂)
    split
    · -- another delivery was faster: the row decides
      refine wp_bind (ho₂.find (fun hnever => absurd hsaw₂ (hnever existingExecution)) ?_)
      intro currentExecution hid' h₃ _ ho₃ hread
      dsimp only
      split
      · rename_i hterminal
        exact wp_bind (ho₃.dispatchEnded (Or.inl ⟨currentExecution, hread, hterminal⟩)
          (dispatchPending_spec _))
      · exact ⟨ho₃, hid', currentExecution, hread, rfl⟩
    · split
      · exact ho₂
      · exact wp_bind (ho₂.records (dispatchOutboxEvent_spec _) fun _ h₃ hle₃ ho₃ =>
          ⟨ho₃, hid, existingExecution, hsaw₂.mono hle₃, rfl⟩)
  · rename_i hstarted
    refine wp_bind (ho.randomUUID fun eventId h₁ hle₁ ho₁ => ?_)
    have hseen : StartedSeen m.executionId h₁ := ⟨existingExecution, hsaw.mono hle₁, hstarted⟩
    refine wp_bind (ho₁.calls (.resume hm rfl rfl hseen) id (fun _ h => by cases h)
      fun row h₂ hle₂ _ _ ho₂ => ?_)
    exact wp_bind (ho₂.records (dispatchOutboxEvent_spec row) fun _ h₃ hle₃ ho₃ =>
      ⟨ho₃, hid, existingExecution, hsaw.mono (hle₁.trans (hle₂.trans hle₃)), rfl⟩)

include hm in
theorem completeWorkflowExecution_handles {execution : WorkflowExecution} {output : Record}
    {effectiveStartedAt : Int} {h : WorkerHistory} (ho : Open h)
    (hid : execution.id = m.executionId) (hcomputed : OutputComputed m h output) :
    Handles message (completeWorkflowExecution m execution output effectiveStartedAt) h
      (fun _ h' => Open h' ∧ TerminalSeen m.executionId h') LeavesOpen := by
  unfold completeWorkflowExecution
  rw [hid]
  refine wp_bind (ho.newDate fun completedAt h₁ hle₁ ho₁ => ?_)
  refine wp_bind (ho₁.randomUUID fun eventId h₂ hle₂ ho₂ => ?_)
  have hop := TransitionOK.complete eventId output effectiveStartedAt completedAt
    (hcomputed.mono (hle₁.trans hle₂))
  refine wp_bind (ho₂.calls (.transition hm ho₂.unsettled hop) id
    (fun t ht => by cases ht; exact id) fun completion h₃ _ hmem _ ho₃ => ?_)
  split
  · refine wp_bind (ho₃.find (fun _ _ ho₄ => ho₄) ?_)
    intro currentExecution _ h₄ _ ho₄ hread
    dsimp only
    split
    · rename_i hterminal
      exact ho₄.dispatchEnded (Or.inl ⟨currentExecution, hread, hterminal⟩)
        (dispatchPending_spec _)
    · exact ho₄
  · rename_i hcount
    split
    · exact ho₃
    · exact ho₃.dispatchEnded (Or.inr ⟨_, completion, hmem, rfl, trivial, hcount⟩)
        (dispatchOutboxEvent_spec _)

include hm in
/-- Processing a command: if it returns, the execution is known to have
ended. -/
theorem processWorkflowExecution_handles {h : WorkerHistory} (ho : Open h) :
    Handles message (processWorkflowExecution m) h
      (fun _ h' => Open h' ∧ TerminalSeen m.executionId h') LeavesOpen := by
  refine wp_bind (ho.newDate fun startedAt h₁ _ ho₁ => ?_)
  refine wp_bind (ho₁.find (fun _ _ ho₂ => ho₂) ?_)
  intro existingExecution hid h₂ _ ho₂ hsaw
  dsimp only
  split
  · rename_i hterminal
    exact ho₂.dispatchEnded (Or.inl ⟨existingExecution, hsaw, hterminal⟩)
      (dispatchPending_spec _)
  · refine wp_bind (wp_mono ?_ (fun _ _ h => h) (enterRunning_handles hm ho₂ hid hsaw))
    rintro execution? h₃ ⟨ho₃, hrun⟩
    cases execution? with
    | none => exact ⟨ho₃, hrun⟩
    | some execution =>
        obtain ⟨hid', row, hread, hversion⟩ := hrun
        refine wp_bind (ho₃.node (executeWorkflowNodes_spec m execution)
          fun output events ho₄ hflow => ?_)
        have hcomputed : OutputComputed m (h₃ ++ events) output := by
          refine ⟨row, hread.mono (List.prefix_append _ _), fun exec hagree => ?_⟩
          rw [hversion]
          exact ⟨_, hflow exec hagree.right⟩
        exact completeWorkflowExecution_handles hm ho₄ hid' hcomputed

/-- A part that only records, between failing the execution and settling:
what it throws is the failure of one of its calls. -/
theorem failed_records {p : Worker Unit} {x : String} {h : WorkerHistory} (hs : ¬ Settled h)
    (hseen : TerminalSeen x h) (hp : ThrowsOnFailure RecordingOp p) :
    Handles message p h (fun _ h' => ¬ Settled h' ∧ TerminalSeen x h') LeavesOpen := by
  refine wp_mono ?_ ?_ (wp_of_spec hp.inNode fun _ _ _ hop => .node hop)
  · rintro _ h' ⟨events, rfl, hall, -⟩
    exact ⟨unsettled_append hs hall, hseen.mono (List.prefix_append _ _)⟩
  · rintro e h' ⟨events, rfl, hall, hfailed⟩
    refine ⟨unsettled_append hs hall, fun hclean => ?_⟩
    rw [failedCleanly_append fun ev hev => nodeOp_not_failCommitted (hall ev hev)] at hclean
    exact hclean.2 hfailed

include hm in
/-- Failing an execution: if it returns, the execution is known to have
ended; if it throws, the failure was not clean. -/
theorem failWorkflowExecution_handles {failure : FlowPilotExecutionError} {h : WorkerHistory}
    (ho : Open h) :
    Handles message (failWorkflowExecution m failure) h
      (fun _ h' => ¬ Settled h' ∧ TerminalSeen m.executionId h') LeavesOpen := by
  refine wp_bind (ho.newDate fun failedAt h₁ _ ho₁ => ?_)
  refine wp_bind (ho₁.randomUUID fun eventId h₂ _ ho₂ => ?_)
  refine wp_bind (wp_perform (.transition hm ho₂.unsettled (.fail eventId _ failedAt))
    (fun update hA => ?_) (fun e _ => ?_) (fun e _ => ?_))
  · split
    · -- nothing was failed: the row decides
      rename_i hcount
      refine wp_bind ((ho₂.append_singleton id (not_failCommitted_of_count hcount)).find
        (fun _ _ ho₄ => ho₄) ?_)
      intro execution _ h₄ _ ho₄ hread
      dsimp only
      split
      · rename_i hterminal
        exact failed_records ho₄.unsettled (Or.inl ⟨execution, hread, hterminal⟩)
          (dispatchPending_spec _)
      · exact ho₄
    · rename_i hcount
      have hrow := hA.outbox_row _ _ rfl hcount
      split
      · rename_i hnone
        rw [hnone] at hrow
        cases hrow
      · exact failed_records (unsettled_append_singleton ho₂.unsettled id)
          (Or.inr ⟨_, update, saw_singleton _ _ _, rfl, trivial, hcount⟩)
          (dispatchOutboxEvent_spec _)
  · exact ho₂.append_singleton id not_failCommitted_lost
  · exact ho₂.append_singleton id not_failCommitted_failed

/-- A delivery is acknowledged. -/
theorem ack_handles {h : WorkerHistory} (hs : ¬ Settled h)
    (hack : ∀ m, parseWorkflowExecutionRequestedMessage message = some m →
      (TerminalSeen m.executionId h ∨ Published .retry h)
      ∧ (FailedCleanly h → Published .dlx h)) {E : JsError → WorkerHistory → Prop} :
    Handles message (ack message) h (fun _ h' => Settled h') E := by
  refine wp_perform (.ack hs hack) (fun _ _ => settled_singleton trivial)
    (fun e hA => ?_) (fun e hA => ?_)
  · obtain ⟨r, hr⟩ := hA.infallible trivial
    cases hr
  · obtain ⟨r, hr⟩ := hA.infallible trivial
    cases hr

/-- A delivery is given back. -/
theorem nack_handles {h : WorkerHistory} (ho : Open h) {E : JsError → WorkerHistory → Prop} :
    Handles message (nack message false true) h (fun _ h' => Settled h') E := by
  refine wp_perform (.nack ho.unsettled ho.unfailed) (fun _ _ => settled_singleton trivial)
    (fun e hA => ?_) (fun e hA => ?_)
  · obtain ⟨r, hr⟩ := hA.infallible trivial
    cases hr
  · obtain ⟨r, hr⟩ := hA.infallible trivial
    cases hr

include hm in
theorem processAndAck_handles {h : WorkerHistory} (ho : Open h) :
    Handles message (processAndAck message m) h (fun _ h' => Settled h') LeavesOpen := by
  refine wp_bind (wp_mono ?_ (fun _ _ h => h) (processWorkflowExecution_handles hm ho))
  rintro _ h₁ ⟨ho₁, hseen⟩
  refine ack_handles ho₁.unsettled fun m' hm' => ?_
  obtain rfl := Option.some.inj (hm.symm.trans hm')
  exact ⟨Or.inl hseen, fun hclean => absurd hclean ho₁.unfailed⟩

include hm in
theorem failAndDeadLetter_handles {failure : WorkerFailure} {currentRetryAttempt : Nat}
    {h : WorkerHistory} (ho : Open h) :
    Handles message (failAndDeadLetter message m failure currentRetryAttempt) h
      (fun _ h' => Settled h') LeavesOpen := by
  refine wp_tryCatch (wp_mono (fun _ _ h => h) (E := LeavesOpen) ?_ ?_)
  · exact fun e h' ho' => nack_handles ho'
  refine wp_bind (wp_mono ?_ (fun _ _ h => h) (failWorkflowExecution_handles hm ho))
  rintro _ h₁ ⟨hs₁, hseen⟩
  refine wp_bind (wp_bind (wp_perform (.deadLetter hm rfl rfl hseen) (fun accepted _ => ?_)
    (fun e _ => .of_lost hs₁ id) (fun e _ => .of_failed hs₁ id)))
  refine ack_handles (unsettled_append_singleton hs₁ id) fun m' hm' => ?_
  obtain rfl := Option.some.inj (hm.symm.trans hm')
  exact ⟨Or.inl (hseen.mono (List.prefix_append _ _)), fun _ => published_singleton accepted⟩

include hm in
theorem handleFailure_handles {error : JsError} {h : WorkerHistory} (ho : Open h) :
    Handles message (handleFailure message m error) h (fun _ h' => Settled h') LeavesOpen := by
  unfold handleFailure
  dsimp only
  split
  · unfold publishRetryCommand
    split
    · exact ho
    · refine wp_bind (wp_bind (wp_perform (.retry hm rfl rfl) (fun accepted _ => ?_)
        (fun e _ => .of_lost ho.unsettled id) (fun e _ => .of_failed ho.unsettled id)))
      have ho₁ : Open (h ++ [⟨.publish (retryPublication m _ _), .ok accepted⟩]) :=
        ho.append_singleton id (by rintro ⟨_, _, he, -⟩; cases he)
      refine ack_handles ho₁.unsettled fun m' _ => ?_
      exact ⟨Or.inr (published_singleton accepted), fun hclean => absurd hclean ho₁.unfailed⟩
  · exact failAndDeadLetter_handles hm ho

/-- The handler keeps to its discipline: it settles its delivery, unless the
publish of a retry copy or of an unreadable message throws. -/
theorem handleDelivery_keeps :
    Handles message (handleDelivery message) [] (fun _ h => Settled h) LeavesOpen := by
  unfold handleDelivery
  split
  · rename_i hnone
    refine wp_bind (wp_bind (Open.nil.newDate fun now h₁ _ ho₁ => ?_))
    refine wp_bind (wp_perform (.rawDeadLetter hnone rfl rfl) (fun accepted _ => ?_)
      (fun e _ => .of_lost ho₁.unsettled id) (fun e _ => .of_failed ho₁.unsettled id))
    refine ack_handles (unsettled_append_singleton ho₁.unsettled id) fun m hm => ?_
    rw [hnone] at hm
    cases hm
  · rename_i m hm
    exact wp_tryCatch (wp_mono (fun _ _ h => h) (fun _ _ ho => handleFailure_handles hm ho)
      (processAndAck_handles hm .nil))

end Handler

end FlowPilot
