import FlowPilot.System.FailureHandling

/-!
# The retry decision

When a node fails, the `catch` block of its iteration reports the failure
and throws the node's error again; `handleDelivery` then decides, from the
error it catches, whether the command is retried. The block makes calls that
can throw themselves, and what they throw takes the place of the node's
error. All of it counts as retryable, so a failure that is not to be retried
is, unless the block went through (`FailureRecorded`).
-/

namespace FlowPilot

open Prog hiding pure throw bind tryCatch

/-! ## Events -/

/-- A copy of the command is published to the retry exchange. -/
def RetriesCommand (events : WorkerHistory) : Prop :=
  ∃ ev ∈ events, ∃ p, ev.op = .publish p ∧ p.exchange = .retry

/-- The executor of a node threw. -/
def ExecutorThrew (ev : WorkerEvent) : Prop :=
  (∃ node context, ev.op = .executeWorkflowNode node context) ∧ ∃ e, ev.reply.result = .error e

/-- The calls threw what they may throw: executors whatever they like, the
client libraries errors of their own. -/
def ThrowsAllowed (events : WorkerHistory) : Prop :=
  ∀ ev ∈ events, ∀ e, ev.reply.result = .error e → ev.op.Throws e

/-- A call of something other than an executor. -/
def NoExecutor (op : WorkerOp) : Prop := ∀ node context, op ≠ .executeWorkflowNode node context

theorem NoExecutor.not_threw {ev : WorkerEvent} (h : NoExecutor ev.op) : ¬ ExecutorThrew ev :=
  fun ⟨⟨node, context, hop⟩, _⟩ => h node context hop

theorem StoreOp.noExecutor {op : WorkerOp} (h : StoreOp op) : NoExecutor op := by
  rintro node context rfl
  rcases h with h | ⟨c, hc⟩
  · exact h
  · cases hc

theorem StoreOp.not_retries {op : WorkerOp} (h : StoreOp op) {p : Publication}
    (hop : op = .publish p) : p.exchange ≠ .retry := by
  rw [h.quiet.2 p hop]
  decide

/-! ## What the catch block throws -/

/-- If its calls throw what they may, the function throws a plain error. -/
def ThrowsPlain {α : Type} (p : Worker α) : Prop :=
  Spec (fun _ => True) p (fun _ _ => True)
    (fun e events => ThrowsAllowed events → ∃ message, e = .error message)

section ThrowsPlain

variable {α β : Type}

theorem throwsPlain_call {op : WorkerOp} (h : ∀ e, op.Throws e → ∃ message, e = .error message) :
    ThrowsPlain (call op) :=
  spec_perform trivial (fun _ => trivial)
    (fun e hallowed => h e (hallowed _ (List.mem_singleton_self _) e rfl))
    (fun e hallowed => h e (hallowed _ (List.mem_singleton_self _) e rfl))

theorem throwsPlain_db (c : DbCall) : ThrowsPlain (db c) := throwsPlain_call fun _ h => h.2

theorem throwsPlain_newDate : ThrowsPlain newDate := throwsPlain_call fun _ h => h.2

theorem throwsPlain_randomUUID : ThrowsPlain randomUUID := throwsPlain_call fun _ h => h.2

theorem ThrowsPlain.bind {p : Worker α} {f : α → Worker β} (hp : ThrowsPlain p)
    (hf : ∀ a, ThrowsPlain (f a)) : ThrowsPlain (p >>= f) := by
  refine spec_bind (spec_conseq hp (fun a events _ => ?_) (fun _ _ h => h))
  exact spec_conseq (hf a) (fun _ _ _ => trivial)
    (fun _ _ h hallowed => h fun ev hev => hallowed ev (List.mem_append_right _ hev))

theorem dispatchOutboxEvent_throwsPlain (row : OutboxMessage) :
    ThrowsPlain (dispatchOutboxEvent row) := by
  unfold dispatchOutboxEvent
  split
  · trivial
  · refine throwsPlain_newDate.bind fun now => ?_
    -- what the publish threw is thrown again, unless marking the row throws
    have hcaught : ∀ (error : JsError) (reply : Reply JsError Bool), reply.result = .error error →
        Spec (fun _ => True) (do markOutboxPublishFailure row error; throw error : Worker Bool)
          (fun _ _ => True)
          (fun e rest => ThrowsAllowed ([⟨.publish (outboxPublication row now), reply⟩] ++ rest) →
            ∃ message, e = .error message) := by
      intro error reply hreply
      refine spec_bind (spec_conseq (throwsPlain_db _) (fun _ _ _ => ?_) (fun e rest h hallowed =>
        h fun ev hev => hallowed ev (List.mem_append_right _ hev)))
      exact fun hallowed => (hallowed _ (List.mem_cons_self ..) error hreply).2
    have hpublish : ThrowsPlain ((publish (outboxPublication row now)).tryCatch fun error => do
        markOutboxPublishFailure row error
        throw error) :=
      spec_tryCatch (spec_perform trivial (fun _ => trivial) (fun e => hcaught e (.lost e) rfl)
        (fun e => hcaught e (.failed e) rfl))
    refine hpublish.bind fun published => ?_
    split
    · exact throwsPlain_newDate.bind fun _ => throwsPlain_db _
    · exact (throwsPlain_db _).bind fun _ _ => ⟨_, rfl⟩

end ThrowsPlain

section

variable [Runtime] {m : WorkflowExecutionRequestedMessage} {node : WorkflowNode}
  {nodeExecutionId : String} {input : Record} {startedAt : Int} {error : JsError}

omit [Runtime] in
theorem publishNodeFailedEvent_throwsPlain (failure : WorkerFailure) (failedAt : Int) :
    ThrowsPlain (publishNodeFailedEvent m node nodeExecutionId failure failedAt) :=
  throwsPlain_randomUUID.bind fun _ => (throwsPlain_db _).bind fun row =>
    dispatchOutboxEvent_throwsPlain row

/-- The `catch` block went through: the row was set to `FAILED`, and every
call that publishes the failed event succeeded. (Recording the trace may
fail.) -/
def FailureRecorded (m : WorkflowExecutionRequestedMessage) (node : WorkflowNode)
    (nodeExecutionId : String) (input : Record) (startedAt : Int) (error : JsError)
    (failing : WorkerHistory) : Prop :=
  ∃ failedAt trace published,
    failing = ⟨.newDate, .ok failedAt⟩
      :: ⟨.db (.updateNode nodeExecutionId (.failed (normalizeWorkerFailure error) failedAt)),
        .ok ()⟩
      :: (trace ++ published)
    ∧ Trace (recordAiTraceForFailedNode m node nodeExecutionId input (normalizeWorkerFailure error)
      startedAt failedAt) trace (.ok ())
    ∧ Trace (publishNodeFailedEvent m node nodeExecutionId (normalizeWorkerFailure error) failedAt)
      published (.ok ())
    ∧ ∀ ev ∈ published, CallSucceeded ev

/-- Then it throws the node's error. -/
theorem FailureRecorded.trace {failing : WorkerHistory}
    (h : FailureRecorded m node nodeExecutionId input startedAt error failing) :
    Trace (nodeFailurePath m node nodeExecutionId input startedAt error) failing
      (.error error) := by
  obtain ⟨failedAt, trace, published, rfl, htrace, hpublished, -⟩ := h
  have hthrow : Trace (throw error : Worker Record) [] (.error error) := .throw error
  have hrest := trace_seq (f := fun _ => throw error) hthrow hpublished
  rw [List.append_nil] at hrest
  refine trace_perform_seq (trace_perform_seq (trace_seq (a := ()) ?_ htrace))
  exact hrest

/-- Recording a trace throws nothing. -/
theorem recordAiTraceForFailedNode_returns {failure : WorkerFailure} {failedAt : Int} {e : JsError}
    {events : WorkerHistory} : ¬ Trace (recordAiTraceForFailedNode m node nodeExecutionId input
      failure startedAt failedAt) events (.error e) := by
  intro h
  unfold recordAiTraceForFailedNode at h
  split at h
  · rcases trace_tryCatch h with ⟨_, -, he⟩ | ⟨_, _, _, -, hpure, -⟩
    · cases he
    · cases hpure
  · cases h

/-- Otherwise it throws a plain error. -/
theorem nodeFailurePath_throws {failing : WorkerHistory} {e : JsError}
    (h : Trace (nodeFailurePath m node nodeExecutionId input startedAt error) failing (.error e))
    (hallowed : ThrowsAllowed failing) :
    FailureRecorded m node nodeExecutionId input startedAt error failing
      ∨ ∃ message, e = .error message := by
  obtain ⟨clock, rest₁, rfl, h₁⟩ := trace_perform_bind h
  obtain ⟨hclock, hallowed₁⟩ := List.forall_mem_cons.mp hallowed
  rcases h₁ with ⟨failedAt, rfl, h₁⟩ | ⟨e', hreply, -⟩
  · obtain ⟨update, rest₂, rfl, h₂⟩ := trace_perform_bind h₁
    obtain ⟨hupdate, hallowed₂⟩ := List.forall_mem_cons.mp hallowed₁
    rcases h₂ with ⟨u, rfl, h₂⟩ | ⟨e', hreply, -, he⟩
    · rcases trace_bind h₂ with ⟨e', htrace, -⟩ | ⟨u', trace, rest₃, htrace, h₃, rfl⟩
      · exact absurd htrace recordAiTraceForFailedNode_returns
      · rcases trace_bind h₃ with ⟨e', hpublish, he⟩ | ⟨u'', published, last, hpublish, h₄, rfl⟩
        · refine Or.inr ?_
          cases he
          refine (spec_trace (publishNodeFailedEvent_throwsPlain _ failedAt) hpublish).2 ?_
          exact fun ev hev => hallowed₂ ev (List.mem_append_right _ hev)
        · cases h₄
          refine Or.inl
            ⟨failedAt, trace, published, by rw [List.append_nil]; rfl, htrace, hpublish, ?_⟩
          have hall := (spec_trace (publishNodeFailedEvent_exact m node nodeExecutionId _ failedAt)
            hpublish).2
          exact fun ev hev => by_contra fun hfailed => hall ⟨ev, hev, hfailed⟩
    · refine Or.inr ?_
      cases he
      have hthrows : (WorkerOp.db (.updateNode nodeExecutionId
          (.failed (normalizeWorkerFailure error) failedAt))).Throws e := by
        rcases hreply with rfl | rfl
        · exact hupdate e rfl
        · exact hupdate e rfl
      exact hthrows.2
  · -- the clock does not throw
    have hthrows : WorkerOp.newDate.Throws e' := by
      rcases hreply with rfl | rfl
      · exact hclock e' rfl
      · exact hclock e' rfl
    exact absurd trivial hthrows.1

end

/-! ## Where an executor threw -/

/-- The events end with a node whose executor threw and the calls of the
`catch` block, which throws `e`. -/
def ThrownAt [Runtime] (m : WorkflowExecutionRequestedMessage) (e : JsError)
    (events : WorkerHistory) : Prop :=
  ∃ before node context reply error startedAt failing,
    events = before ++ ⟨.executeWorkflowNode node context, reply⟩ :: failing
    ∧ (∀ ev ∈ before ++ failing, ¬ ExecutorThrew ev) ∧ reply.result = .error error
    ∧ Trace (nodeFailurePath m node context.nodeExecutionId context.input startedAt error)
      failing (.error e)

/-- The part of the handler ends where an executor throws. -/
def EndsWhereThrown [Runtime] {α : Type} (m : WorkflowExecutionRequestedMessage) (p : Worker α) :
    Prop :=
  Spec (fun _ => True) p (fun _ events => ∀ ev ∈ events, ¬ ExecutorThrew ev)
    (fun e events => (∀ ev ∈ events, ¬ ExecutorThrew ev) ∨ ThrownAt m e events)

section

variable [Runtime] {m : WorkflowExecutionRequestedMessage} {α β : Type}

theorem ThrownAt.append_left {e : JsError} {first events : WorkerHistory}
    (hfirst : ∀ ev ∈ first, ¬ ExecutorThrew ev) (h : ThrownAt m e events) :
    ThrownAt m e (first ++ events) := by
  obtain ⟨before, node, context, reply, error, startedAt, failing, rfl, hquiet, hreply, htrace⟩ := h
  refine ⟨first ++ before, node, context, reply, error, startedAt, failing, by simp, ?_, hreply,
    htrace⟩
  rw [List.append_assoc]
  exact List.forall_mem_append.mpr ⟨hfirst, hquiet⟩

theorem EndsWhereThrown.bind {p : Worker α} {f : α → Worker β} (hp : EndsWhereThrown m p)
    (hf : ∀ a, EndsWhereThrown m (f a)) : EndsWhereThrown m (p >>= f) := by
  refine spec_bind (spec_conseq hp (fun a events hfirst => ?_) (fun _ _ h => h))
  refine spec_conseq (hf a) (fun _ rest hrest => List.forall_mem_append.mpr ⟨hfirst, hrest⟩) ?_
  rintro e rest (hrest | hthrown)
  · exact Or.inl (List.forall_mem_append.mpr ⟨hfirst, hrest⟩)
  · exact Or.inr (hthrown.append_left hfirst)

theorem endsWhereThrown_of_issues {p : Worker α} (hp : Issues NoExecutor p) :
    EndsWhereThrown m p :=
  spec_mono (fun _ _ => trivial) (spec_ops hp) (fun _ _ h ev hev => (h.2 ev hev).not_threw)
    (fun _ _ h => Or.inl fun ev hev => (h.2 ev hev).not_threw)

theorem endsWhereThrown_of_stores {p : Worker α} (hp : Issues StoreOp p) : EndsWhereThrown m p :=
  endsWhereThrown_of_issues (issues_mono (fun _ h => h.noExecutor) hp)

theorem endsWhereThrown_ofExcept {r : Except JsError α} : EndsWhereThrown m (ofExcept r) := by
  cases r with
  | ok a => exact fun _ hev => nomatch hev
  | error e => exact Or.inl fun _ hev => nomatch hev

theorem nodeFailurePath_stores {node : WorkflowNode} {nodeExecutionId : String} {input : Record}
    {startedAt : Int} {error : JsError} :
    Issues StoreOp (nodeFailurePath m node nodeExecutionId input startedAt error) :=
  issues_bind issues_newDate fun failedAt => issues_bind (issues_db _) fun _ =>
    issues_bind (recordAiTraceForFailedNode_spec m node nodeExecutionId input _ startedAt
      failedAt).stores fun _ =>
      issues_bind ((publishNodeFailedEvent_exact m node nodeExecutionId _ failedAt).throwsOnFailure
        fun _ h => h.recording).stores fun _ => issues_throw _

theorem runNode_endsWhereThrown (node : WorkflowNode) (input : Record) :
    EndsWhereThrown m (runNode m node input) := by
  refine (endsWhereThrown_of_stores issues_newDate).bind fun startedAt =>
    (endsWhereThrown_of_stores (issues_db _)).bind fun row => ?_
  refine (endsWhereThrown_of_stores ((publishNodeStartedEvent_exact m node row.id input
    startedAt).throwsOnFailure fun _ h => h.recording).stores).bind fun _ => ?_
  have hfailing : ∀ error, Spec (fun _ => True)
      (nodeFailurePath m node row.id input startedAt error) (fun _ _ => False) fun e failing =>
        (∀ ev ∈ failing, ¬ ExecutorThrew ev)
        ∧ Trace (nodeFailurePath m node row.id input startedAt error) failing (.error e) :=
    fun error => spec_of_traces
      (fun _ _ h => (spec_trace (nodeFailurePath_spec m node row.id input startedAt error) h).2)
      fun e failing h =>
        ⟨fun ev hev => ((spec_trace nodeFailurePath_stores h).1 ev hev).noExecutor.not_threw, h⟩
  -- the executor is the first call of the `try` block
  refine spec_tryCatch (spec_bind (spec_perform trivial (fun output => ?_) (fun error => ?_)
    (fun error => ?_)))
  · have hreturned : ∀ {rest : WorkerHistory}, (∀ ev ∈ rest, ¬ ExecutorThrew ev) →
        ∀ ev ∈ [⟨.executeWorkflowNode node ⟨input, m, row.id⟩, .ok output⟩] ++ rest,
          ¬ ExecutorThrew ev := by
      refine fun hrest => List.forall_mem_append.mpr ⟨fun ev hev => ?_, hrest⟩
      rw [List.mem_singleton.mp hev]
      rintro ⟨-, e, he⟩
      cases he
    have hrest := spec_ops (nodeSuccessPath_rest_spec m node row.id input startedAt output)
    refine spec_mono (fun _ _ => trivial) hrest
      (fun _ rest h => hreturned fun ev hev => (StoreOp.noExecutor (Or.inl (h.2 ev hev))).not_threw)
      fun error rest h => ?_
    refine spec_conseq (hfailing error) (fun _ _ h' => h'.elim) fun e failing h' => Or.inl ?_
    rw [List.append_assoc]
    exact hreturned (List.forall_mem_append.mpr
      ⟨fun ev hev => (StoreOp.noExecutor (Or.inl (h.2 ev hev))).not_threw, h'.1⟩)
  · refine spec_conseq (hfailing error) (fun _ _ h => h.elim) fun e failing h => Or.inr ?_
    exact ⟨[], node, ⟨input, m, row.id⟩, .lost error, error, startedAt, failing, rfl, h.1, rfl, h.2⟩
  · refine spec_conseq (hfailing error) (fun _ _ h => h.elim) fun e failing h => Or.inr ?_
    exact ⟨[], node, ⟨input, m, row.id⟩, .failed error, error, startedAt, failing, rfl, h.1, rfl,
      h.2⟩

theorem executeNodes_endsWhereThrown (definition : WorkflowDefinition) :
    ∀ (nodes : List WorkflowNode) (nodeOutputs : JsMap Record) (currentInput : Record),
      EndsWhereThrown m (executeNodes m definition nodes nodeOutputs currentInput)
  | [], _, _ => endsWhereThrown_of_stores (issues_pure _)
  | node :: nodes, _, _ => (runNode_endsWhereThrown node _).bind fun _ =>
      executeNodes_endsWhereThrown definition nodes _ _

theorem processWorkflowExecution_endsWhereThrown :
    EndsWhereThrown m (processWorkflowExecution m) := by
  have hstores : ∀ {α : Type} {p : Worker α}, Issues StoreOp p → EndsWhereThrown m p :=
    endsWhereThrown_of_stores
  refine (hstores issues_newDate).bind fun startedAt =>
    (hstores (issues_db _)).bind fun existing => ?_
  split
  · exact hstores (issues_throw _)
  · split
    · exact hstores (dispatchPending_spec _).stores
    · refine (hstores (enterRunning_stores m _ _)).bind fun execution? => ?_
      split
      · exact hstores (issues_pure _)
      · refine EndsWhereThrown.bind ?_ fun output =>
          hstores (completeWorkflowExecution_stores m _ output _)
        refine endsWhereThrown_ofExcept.bind fun _ =>
          endsWhereThrown_ofExcept.bind fun definition =>
            endsWhereThrown_ofExcept.bind fun orderedNodes => ?_
        exact (executeNodes_endsWhereThrown definition orderedNodes _ _).bind fun _ =>
          hstores (issues_pure _)

end

/-! ## The decision -/

theorem retriesCommand_append {first rest : WorkerHistory} :
    RetriesCommand (first ++ rest) ↔ RetriesCommand first ∨ RetriesCommand rest := by
  simp only [RetriesCommand, List.mem_append, or_and_right, exists_or]

/-- A call of no executor, which publishes no copy of the command to retry. -/
def AfterwardsOp (op : WorkerOp) : Prop :=
  NoExecutor op ∧ ∀ p, op = .publish p → p.exchange ≠ .retry

section

variable [Runtime] {message : ConsumeMessage} {m : WorkflowExecutionRequestedMessage}

theorem failAndDeadLetter_afterwards (failure : WorkerFailure) (attempt : Nat) :
    Issues AfterwardsOp (failAndDeadLetter message m failure attempt) := by
  have hfail : Issues AfterwardsOp (failWorkflowExecution m failure.toFlowPilotExecutionError) :=
    issues_mono (fun _ h => ⟨h.noExecutor, fun _ => h.not_retries⟩)
      (failWorkflowExecution_stores m _)
  refine issues_tryCatch (issues_bind hfail fun _ => issues_bind (issues_bind (issues_perform ?_)
    fun _ => issues_pure _) fun _ => issues_perform ?_) fun _ => issues_perform ?_
  · refine ⟨by simp [NoExecutor], fun p hp => ?_⟩
    cases hp
    exact fun h => nomatch h
  · simp [AfterwardsOp, NoExecutor]
  · simp [AfterwardsOp, NoExecutor]

omit [Runtime] in
/-- There is a retry queue for every attempt that is left. -/
theorem retryQueueFor_isSome {attempt : Nat} (h : attempt < maxRetryAttempts) :
    ∃ retryConfig, retryQueueFor (attempt + 1) = some retryConfig :=
  ⟨retryQueueConfig.get ⟨attempt, h⟩, List.getElem?_eq_getElem h⟩

/-- The handler of a failure retries the command as long as the failure is
retryable and attempts are left. -/
theorem handleFailure_retries_iff {error : JsError} {events : WorkerHistory}
    {out : Except JsError Unit} (h : Trace (handleFailure message m error) events out) :
    RetriesCommand events ↔ (normalizeWorkerFailure error).retryable = true
      ∧ getWorkflowExecutionRetryAttempt message < maxRetryAttempts := by
  simp only [handleFailure] at h
  split at h
  · rename_i hretries
    refine iff_of_true ?_ hretries
    obtain ⟨retryConfig, hconfig⟩ := retryQueueFor_isSome hretries.2
    have hcopy : ∀ {events : WorkerHistory} {out : Except JsError Unit},
        Trace (publishRetryCommand m (getWorkflowExecutionRetryAttempt message + 1)) events out →
        RetriesCommand events := by
      intro events out htrace
      simp only [publishRetryCommand, hconfig] at htrace
      obtain ⟨reply, rest, rfl, -⟩ := trace_perform_bind htrace
      exact ⟨_, List.mem_cons_self, _, rfl, rfl⟩
    rcases trace_bind h with ⟨_, hpublish, -⟩ | ⟨_, _, _, hpublish, -, rfl⟩
    · exact hcopy hpublish
    · exact retriesCommand_append.mpr (Or.inl (hcopy hpublish))
  · rename_i hfails
    refine iff_of_false ?_ hfails
    rintro ⟨ev, hev, p, hop, hp⟩
    exact ((spec_trace (failAndDeadLetter_afterwards _ _) h).1 ev hev).2 p hop hp

/-- The handler of a failure runs no executor. -/
theorem handleFailure_noExecutor (error : JsError) :
    Issues NoExecutor (handleFailure message m error) := by
  have hcall : ∀ {op : WorkerOp}, NoExecutor op → Issues NoExecutor (call op) := issues_perform
  simp only [handleFailure]
  split
  · refine issues_bind ?_ fun _ => hcall (by simp [NoExecutor])
    unfold publishRetryCommand
    split
    · exact issues_throw _
    · exact issues_bind (hcall (by simp [NoExecutor])) fun _ => issues_pure _
  · exact issues_mono (fun _ h => h.1) (failAndDeadLetter_afterwards _ _)

theorem processAndAck_endsWhereThrown : EndsWhereThrown m (processAndAck message m) :=
  processWorkflowExecution_endsWhereThrown.bind fun _ =>
    endsWhereThrown_of_issues (issues_perform (by simp [NoExecutor]))

theorem processAndAck_not_retries {events : WorkerHistory} {out : Except JsError Unit}
    (h : Trace (processAndAck message m) events out) : ¬ RetriesCommand events := by
  have hspec : Issues (fun op => ∀ p, op = .publish p → p.exchange = .events)
      (processAndAck message m) :=
    issues_bind (issues_mono (fun _ h => h.2) (processWorkflowExecution_quiet m)) fun _ =>
      issues_perform (by simp)
  rintro ⟨ev, hev, p, hop, hp⟩
  cases hp.symm.trans ((spec_trace hspec h).1 ev hev p hop)

/-- After a failure that is not to be retried, what the path of the node throws
is to be retried unless the failure has been recorded. -/
theorem nodeFailurePath_retryable_iff {node : WorkflowNode} {nodeExecutionId : String}
    {input : Record} {startedAt : Int} {error e : JsError} {failing : WorkerHistory}
    (h : Trace (nodeFailurePath m node nodeExecutionId input startedAt error) failing (.error e))
    (hallowed : ThrowsAllowed failing)
    (hretryable : (normalizeWorkerFailure error).retryable = false) :
    (normalizeWorkerFailure e).retryable = true ↔
      ¬ FailureRecorded m node nodeExecutionId input startedAt error failing := by
  have hsame : FailureRecorded m node nodeExecutionId input startedAt error failing →
      e = error := fun hrecorded => Except.error.inj (h.out_unique hrecorded.trace)
  rcases nodeFailurePath_throws h hallowed with hrecorded | ⟨text, rfl⟩
  · obtain rfl := hsame hrecorded
    simp [hretryable, hrecorded]
  · refine iff_of_true rfl fun hrecorded => ?_
    rw [← hsame hrecorded] at hretryable
    cases hretryable

/-- A delivery in which the executor of a node throws what is not to be
retried: after the executor comes the `catch` block of the node, and the
delivery publishes no copy of the command to the retry exchange if and only
if no attempts are left, or the row was set to `FAILED` and the failed event
was published - whatever became of the trace. -/
theorem handleDelivery_retries_iff (message : ConsumeMessage) (events : WorkerHistory)
    (out : Except JsError Unit) (htrace : Trace (handleDelivery message) events out)
    (hallowed : ThrowsAllowed events) (node : WorkflowNode)
    (context : WorkflowNodeExecutionContext) (reply : Reply JsError Record) (error : JsError)
    (hmem : ⟨.executeWorkflowNode node context, reply⟩ ∈ events)
    (hreply : reply.result = .error error)
    (hretryable : (normalizeWorkerFailure error).retryable = false) :
    ∃ m before startedAt failing rest e, parseWorkflowExecutionRequestedMessage message = some m
      ∧ events = before ++ ⟨.executeWorkflowNode node context, reply⟩ :: failing ++ rest
      ∧ Trace (nodeFailurePath m node context.nodeExecutionId context.input startedAt error)
        failing (.error e)
      ∧ (¬ RetriesCommand events
        ↔ maxRetryAttempts ≤ getWorkflowExecutionRetryAttempt message
          ∨ FailureRecorded m node context.nodeExecutionId context.input startedAt error
            failing) := by
  have hthrew : ExecutorThrew ⟨.executeWorkflowNode node context, reply⟩ :=
    ⟨⟨node, context, rfl⟩, error, hreply⟩
  cases hm : parseWorkflowExecutionRequestedMessage message with
  | none =>
      simp only [handleDelivery, hm] at htrace
      have hspec : Issues NoExecutor (do
          publishRawDeadLetter message "invalid_payload"
          ack message) :=
        issues_bind (issues_bind (issues_perform (by simp [NoExecutor])) fun _ =>
          issues_bind (issues_perform (by simp [NoExecutor])) fun _ => issues_pure _) fun _ =>
            issues_perform (by simp [NoExecutor])
      exact absurd hthrew ((spec_trace hspec htrace).1 _ hmem).not_threw
  | some m =>
      simp only [handleDelivery, hm] at htrace
      rcases trace_tryCatch htrace with ⟨u, hbody, rfl⟩ | ⟨e, first, rest, hbody, hhandler, rfl⟩
      · exact absurd hthrew ((spec_trace processAndAck_endsWhereThrown hbody).2 _ hmem)
      · have hrest : ∀ ev ∈ rest, ¬ ExecutorThrew ev := fun ev hev =>
          ((spec_trace (handleFailure_noExecutor e) hhandler).1 ev hev).not_threw
        have hfirst := (List.mem_append.mp hmem).resolve_right fun h => hrest _ h hthrew
        rcases (spec_trace processAndAck_endsWhereThrown hbody).2 with hnone | hthrown
        · exact absurd hthrew (hnone _ hfirst)
        obtain ⟨before, node', context', reply', error', startedAt, failing, rfl, hquiet, hreply',
          hfailing⟩ := hthrown
        -- only one executor threw
        have hsame : (⟨.executeWorkflowNode node context, reply⟩ : WorkerEvent)
            = ⟨.executeWorkflowNode node' context', reply'⟩ := by
          rcases List.mem_append.mp hfirst with hmem | hmem
          · exact absurd hthrew (hquiet _ (List.mem_append_left _ hmem))
          · rcases List.mem_cons.mp hmem with heq | hmem
            · exact heq
            · exact absurd hthrew (hquiet _ (List.mem_append_right _ hmem))
        cases hsame
        obtain rfl := Except.error.inj (hreply.symm.trans hreply')
        refine ⟨m, before, startedAt, failing, rest, e, rfl, rfl, hfailing, ?_⟩
        rw [retriesCommand_append, handleFailure_retries_iff hhandler,
          or_iff_right (processAndAck_not_retries hbody)]
        have hallowed' : ThrowsAllowed failing := fun ev hev => hallowed ev (by simp [hev])
        rw [nodeFailurePath_retryable_iff hfailing hallowed' hretryable]
        simp only [not_and, not_lt, imp_iff_or_not, not_not]

end

/-! ## A rejected prompt -/

/-- A trigger, and a prompt for a provider that does not exist. -/
def promptWorkflowDefinition : Json :=
  .obj [("nodes", .arr [
      .obj [("id", .str "trigger"), ("type", .str WorkflowNodeType.manualTrigger.literal),
        ("name", .str "Trigger"), ("config", .obj [])],
      .obj [("id", .str "prompt"), ("type", .str WorkflowNodeType.aiPromptAction.literal),
        ("name", .str "Prompt"),
        ("config", .obj [("prompt", .str "Hello"), ("provider", .str "unknown")])]]),
    ("edges", .arr [.obj [("id", .str "edge"), ("sourceNodeId", .str "trigger"),
      ("targetNodeId", .str "prompt")]])]

/-- What the executor of the prompt throws. -/
def promptRejected : JsError :=
  .aiOrchestratorClientError "unknown_ai_provider" "Unknown AI provider: unknown" false (some 422)
    (some (.obj [("detail", .obj [("code", .str "unknown_ai_provider"),
      ("message", .str "Unknown AI provider: unknown"), ("provider", .str "unknown")])]))

/-- A script in which the prompt is rejected. -/
def rejecting (accepted : Nat → Bool) (i : Nat) (op : WorkerOp) (w : World) :
    Option (Reply JsError op.Result × World) :=
  match op with
  | .executeWorkflowNode node context =>
      if node.type = .manualTrigger then
        scripted accepted i (.executeWorkflowNode node context) w
      else some (.failed promptRejected, w)
  | op => scripted accepted i op w

theorem rejecting_throws {accepted : Nat → Bool} {i : Nat} {op : WorkerOp} {w w' : World}
    {reply : Reply JsError op.Result} (h : rejecting accepted i op w = some (reply, w')) :
    ∀ e, reply.result = .error e → op.Throws e := by
  have hok : ∀ {op : WorkerOp} {reply : Reply JsError op.Result},
      scripted accepted i op w = some (reply, w') → ∀ e, reply.result = .error e → op.Throws e := by
    intro op reply h e he
    obtain ⟨_, -, heq⟩ := Option.map_eq_some_iff.mp h
    cases heq
    cases he
  cases op with
  | executeWorkflowNode node context => exact fun _ _ => trivial
  | _ => exact hok h

/-- Whether the event is the rejection of a prompt. -/
def isRejection : WorkerEvent → Bool
  | ⟨.executeWorkflowNode _ _, .failed e⟩ => !(normalizeWorkerFailure e).retryable
  | _ => false

/-- Whether the event publishes a copy of the command to retry. -/
def isRetry (ev : WorkerEvent) : Bool :=
  match ev.op with
  | .publish p => p.exchange = .retry
  | _ => false

theorem retriesCommand_iff {events : WorkerHistory} :
    RetriesCommand events ↔ events.any isRetry = true := by
  rw [List.any_eq_true]
  refine exists_congr fun ev => and_congr_right fun _ => ?_
  unfold isRetry
  split
  · rename_i p hop
    constructor
    · rintro ⟨p', hop', hp'⟩
      cases hop.symm.trans hop'
      exact decide_eq_true hp'
    · exact fun h => ⟨p, hop, of_decide_eq_true h⟩
  · rename_i hother
    exact iff_of_false (fun ⟨p, hop, _⟩ => hother p hop) Bool.false_ne_true

/-- What was checked of a script is true of a delivery in which a prompt is
rejected. -/
theorem exists_rejection_of_script [Runtime] (accepted : Nat → Bool) (retries : Bool)
    (h : (runCalls (rejecting accepted) 100 0
      (handleDelivery (newMessage promptWorkflowDefinition))
      (.requesting promptWorkflowDefinition)).any (fun (events, q, _) =>
        q.ended?.isSome && (events.any isRejection && events.any isRetry == retries)) = true) :
    ∃ events out node context error,
      Trace (handleDelivery (newMessage promptWorkflowDefinition)) events out
      ∧ ThrowsAllowed events ∧ ⟨.executeWorkflowNode node context, .failed error⟩ ∈ events
      ∧ (normalizeWorkerFailure error).retryable = false
      ∧ (RetriesCommand events ↔ retries = true) := by
  obtain ⟨⟨events, q, w'⟩, hscript, hcheck⟩ := (Option.any_eq_true _ _).mp h
  simp only [Bool.and_eq_true, beq_iff_eq] at hcheck
  obtain ⟨hended, hrejection, hretries⟩ := hcheck
  obtain ⟨out, hq⟩ := Option.isSome_iff_exists.mp hended
  have hrun : After _ events q ∧ Replays
      (fun op w reply w' => ∃ i, rejecting accepted i op w = some (reply, w')) _ events w' :=
    runCalls_sound (fun i _ _ _ _ h => ⟨i, h⟩) hscript
  obtain ⟨hafter, hreplays⟩ := hrun
  have hallowed : ThrowsAllowed events :=
    replays_events (fun _ _ _ _ ⟨_, h⟩ => rejecting_throws h) hreplays
  obtain ⟨ev, hmem, hev⟩ := List.any_eq_true.mp hrejection
  unfold isRejection at hev
  split at hev
  · rename_i node context error
    exact ⟨events, out, node, context, error, trace_of_after hafter (trace_of_ended? hq), hallowed,
      hmem, by simpa using hev, by rw [retriesCommand_iff, hretries]⟩
  · cases hev

/-- The theorem when the failure is recorded, on a first delivery: no copy of
the command is published. -/
theorem handleDelivery_retries_recorded :
    ∃ (_ : Runtime) (message : ConsumeMessage) (events : WorkerHistory)
      (out : Except JsError Unit) (m : WorkflowExecutionRequestedMessage) (node : WorkflowNode)
      (context : WorkflowNodeExecutionContext) (error e : JsError) (startedAt : Int)
      (before failing rest : WorkerHistory), Trace (handleDelivery message) events out
      ∧ getWorkflowExecutionRetryAttempt message < maxRetryAttempts
      ∧ parseWorkflowExecutionRequestedMessage message = some m
      ∧ events = before ++ ⟨.executeWorkflowNode node context, .failed error⟩ :: failing ++ rest
      ∧ (normalizeWorkerFailure error).retryable = false
      ∧ Trace (nodeFailurePath m node context.nodeExecutionId context.input startedAt error)
        failing (.error e)
      ∧ FailureRecorded m node context.nodeExecutionId context.input startedAt error failing
      ∧ ¬ RetriesCommand events := by
  let _ : Runtime := .sample false
  obtain ⟨events, out, node, context, error, htrace, hallowed, hmem, hretryable, hretries⟩ :=
    exists_rejection_of_script (fun _ => true) false (by decide +kernel)
  obtain ⟨m, before, startedAt, failing, rest, e, hm, hevents, hfailing, hiff⟩ :=
    handleDelivery_retries_iff _ events out htrace hallowed node context _ error hmem rfl hretryable
  have hnone : ¬ RetriesCommand events := by simp [hretries]
  have hattempts : ¬ maxRetryAttempts
      ≤ getWorkflowExecutionRetryAttempt (newMessage promptWorkflowDefinition) := by decide
  exact ⟨_, _, events, out, m, node, context, error, e, startedAt, before, failing, rest, htrace,
    not_le.mp hattempts, hm, hevents, hretryable, hfailing, (hiff.mp hnone).resolve_left hattempts,
    hnone⟩

/-- When the broker's buffer is full as the failed event is published, the
command with the rejected prompt is retried. -/
theorem handleDelivery_retries_rejected :
    ∃ (_ : Runtime) (message : ConsumeMessage) (events : WorkerHistory)
      (out : Except JsError Unit) (node : WorkflowNode) (context : WorkflowNodeExecutionContext)
      (error : JsError), Trace (handleDelivery message) events out ∧ ThrowsAllowed events
      ∧ ⟨.executeWorkflowNode node context, .failed error⟩ ∈ events
      ∧ (normalizeWorkerFailure error).retryable = false ∧ RetriesCommand events := by
  let _ : Runtime := .sample false
  obtain ⟨events, out, node, context, error, htrace, hallowed, hmem, hretryable, hretries⟩ :=
    exists_rejection_of_script (· ≠ 46) true (by decide +kernel)
  exact ⟨_, _, events, out, node, context, error, htrace, hallowed, hmem, hretryable,
    hretries.mpr rfl⟩

end FlowPilot
