import FlowPilot.System.FailureHandling

/-!
# Where the failure of an execution comes from

An execution is failed by a delivery whose attempt has failed, and with the
failure of that attempt: the handler builds the transaction from what its
`try` block threw (`FailOp`). So an observer who notes the failure of every
attempt (`CommandRun`) has noted the failure that a failed execution shows
(`failedWith_of_commandRun`). It need not be the last: an attempt that fails
later leaves no trace.
-/

namespace FlowPilot

open Prog hiding pure throw bind tryCatch

/-! ## What the handler fails with -/

/-- If the call fails an execution, then that of the command, with this
error. -/
def FailsWith (m : WorkflowExecutionRequestedMessage) (error : FlowPilotExecutionError)
    (op : WorkerOp) : Prop :=
  ∀ t error' failedAt, op = .db (.transaction t) → t.data = .failed error' failedAt →
    t.id = m.executionId ∧ error' = error

/-- The call fails no execution. -/
def FailsNothing (op : WorkerOp) : Prop :=
  ∀ t error failedAt, op = .db (.transaction t) → t.data ≠ .failed error failedAt

theorem FailsNothing.failsWith {m : WorkflowExecutionRequestedMessage}
    {error : FlowPilotExecutionError} {op : WorkerOp} (h : FailsNothing op) :
    FailsWith m error op :=
  fun t error' failedAt hop hdata => absurd hdata (h t error' failedAt hop)

theorem failsNothing_of_ne {op : WorkerOp} (h : ∀ t, op ≠ .db (.transaction t)) :
    FailsNothing op :=
  fun t _ _ hop => absurd hop (h t)

theorem RecordingOp.failsNothing {op : WorkerOp} (h : RecordingOp op) : FailsNothing op := by
  refine failsNothing_of_ne ?_
  rintro t rfl
  exact h

theorem NodeOp.failsNothing {op : WorkerOp} (h : NodeOp op) : FailsNothing op := by
  rcases h with h | ⟨node, context, rfl⟩
  · exact h.failsNothing
  · exact failsNothing_of_ne (by simp)

theorem Returns.failsNothing {α : Type} {p : Worker α} {R : α → Prop}
    (hp : Returns RecordingOp p R) : Issues FailsNothing p :=
  spec_mono (fun _ h => h.failsNothing) hp (fun _ _ _ => trivial) (fun _ _ _ => trivial)

theorem issues_failsNothing {op : WorkerOp} (h : ∀ t, op ≠ .db (.transaction t)) :
    Issues FailsNothing (call op) :=
  issues_perform (failsNothing_of_ne h)

/-- A transaction that does not fail its execution. -/
theorem issues_transaction {t : StatusTransition}
    (h : ∀ error failedAt, t.data ≠ .failed error failedAt) :
    Issues FailsNothing (db (.transaction t)) :=
  issues_perform fun t' error failedAt hop => by
    cases hop
    exact h error failedAt

section

variable (m : WorkflowExecutionRequestedMessage)

theorem enterRunning_failsNothing (existingExecution : WorkflowExecution)
    (effectiveStartedAt : Int) :
    Issues FailsNothing (enterRunning m existingExecution effectiveStartedAt) := by
  have huuid : Issues FailsNothing randomUUID := issues_failsNothing (by simp)
  unfold enterRunning
  split
  · refine issues_bind huuid fun eventId =>
      issues_bind (issues_transaction (by simp [startTransition])) fun transition => ?_
    split
    · refine issues_bind (issues_failsNothing (by simp)) fun current => ?_
      split
      · exact issues_bind (dispatchPending_spec _).failsNothing fun _ => issues_pure _
      · split
        · exact issues_bind (dispatchPending_spec _).failsNothing fun _ => issues_pure _
        · exact issues_pure _
    · split
      · exact issues_throw _
      · exact issues_bind (dispatchOutboxEvent_spec _).failsNothing fun _ => issues_pure _
  · exact issues_bind huuid fun eventId => issues_bind (issues_failsNothing (by simp)) fun row =>
      issues_bind (dispatchOutboxEvent_spec _).failsNothing fun _ => issues_pure _

theorem completeWorkflowExecution_failsNothing (execution : WorkflowExecution) (output : Record)
    (effectiveStartedAt : Int) :
    Issues FailsNothing (completeWorkflowExecution m execution output effectiveStartedAt) := by
  refine issues_bind (issues_failsNothing (by simp)) fun completedAt =>
    issues_bind (issues_failsNothing (by simp)) fun eventId =>
      issues_bind (issues_transaction (by simp [completeTransition])) fun completion => ?_
  split
  · refine issues_bind (issues_failsNothing (by simp)) fun current => ?_
    split
    · split
      · exact (dispatchPending_spec _).failsNothing
      · exact issues_throw _
    · exact issues_throw _
  · split
    · exact issues_throw _
    · exact (dispatchOutboxEvent_spec _).failsNothing

theorem processAndAck_failsNothing [Runtime] (message : ConsumeMessage) :
    Issues FailsNothing (processAndAck message m) := by
  refine issues_bind ?_ fun _ => issues_failsNothing (by simp)
  refine issues_bind (issues_failsNothing (by simp)) fun startedAt =>
    issues_bind (issues_failsNothing (by simp)) fun existing => ?_
  split
  · exact issues_throw _
  · split
    · exact (dispatchPending_spec _).failsNothing
    · refine issues_bind (enterRunning_failsNothing m _ _) fun execution? => ?_
      split
      · exact issues_pure _
      · exact issues_bind (spec_mono (fun _ h => h.failsNothing) (executeWorkflowNodes_spec m _)
          (fun _ _ _ => trivial) (fun _ _ _ => trivial)) fun output =>
            completeWorkflowExecution_failsNothing m _ output _

theorem failWorkflowExecution_failsWith (failure : FlowPilotExecutionError) :
    Issues (FailsWith m failure) (failWorkflowExecution m failure) := by
  have hother : ∀ {α : Type} {p : Worker α}, Issues FailsNothing p →
      Issues (FailsWith m failure) p := issues_mono fun _ h => h.failsWith
  refine issues_bind (hother (issues_failsNothing (by simp))) fun failedAt =>
    issues_bind (hother (issues_failsNothing (by simp))) fun eventId =>
      issues_bind (issues_perform fun t error' failedAt' hop hdata => ?_) fun update => ?_
  · cases hop
    cases hdata
    exact ⟨rfl, rfl⟩
  · split
    · refine issues_bind (hother (issues_failsNothing (by simp))) fun current => ?_
      split
      · split
        · exact hother (dispatchPending_spec _).failsNothing
        · exact issues_throw _
      · exact issues_throw _
    · split
      · exact issues_throw _
      · exact hother (dispatchOutboxEvent_spec _).failsNothing

/-- The handler fails an execution with the failure of its attempt. -/
theorem handleFailure_failsWith [Runtime] (message : ConsumeMessage) (error : JsError) :
    Issues (FailsWith m (normalizeWorkerFailure error).toFlowPilotExecutionError)
      (handleFailure message m error) := by
  have hcall : ∀ {op : WorkerOp}, (∀ t, op ≠ .db (.transaction t)) →
      Issues (FailsWith m (normalizeWorkerFailure error).toFlowPilotExecutionError) (call op) :=
    fun h => issues_perform (failsNothing_of_ne h).failsWith
  simp only [handleFailure]
  split
  · refine issues_bind ?_ fun _ => hcall (by simp)
    unfold publishRetryCommand
    split
    · exact issues_throw _
    · exact issues_bind (hcall (by simp)) fun _ => issues_pure _
  · refine issues_tryCatch (issues_bind (failWorkflowExecution_failsWith m _) fun _ =>
      issues_bind (issues_bind (hcall (by simp)) fun _ => issues_pure _) fun _ => hcall (by simp))
      fun _ => hcall (by simp)

end

/-- If the call fails an execution, the attempt of the delivery has failed
before, and the error is its failure. -/
def FailOp [Runtime] (message : ConsumeMessage) (h : WorkerHistory) (op : WorkerOp) : Prop :=
  ∀ t error failedAt, op = .db (.transaction t) → t.data = .failed error failedAt →
    ∃ m first rest e, parseWorkflowExecutionRequestedMessage message = some m
      ∧ t.id = m.executionId ∧ h = first ++ rest
      ∧ Trace (processAndAck message m) first (.error e)
      ∧ error = (normalizeWorkerFailure e).toFlowPilotExecutionError

theorem handleDelivery_failOp [Runtime] (message : ConsumeMessage) :
    SafeFrom (FailOp message) [] (handleDelivery message) := by
  unfold handleDelivery
  split
  · refine safe_of_spec (I := FailsNothing) (issues_bind (issues_bind
      (issues_failsNothing (by simp)) fun _ => issues_bind (issues_failsNothing (by simp)) fun _ =>
        issues_pure _) fun _ => issues_failsNothing (by simp)) (fun h op hop => ?_) []
    exact fun t error failedAt heq hdata => absurd hdata (hop t error failedAt heq)
  · rename_i m hm
    have hprocess : SafeFrom (FailOp message) [] (processAndAck message m) :=
      safe_of_spec (processAndAck_failsNothing m message)
        (fun h op hop t error failedAt heq hdata => absurd hdata (hop t error failedAt heq)) []
    refine wp_tryCatch (wp_mono (fun _ _ _ => trivial) ?_ (wp_traces hprocess))
    rintro e first ⟨_, rfl, htrace, -⟩
    refine wp_mono (fun _ _ _ => trivial) (fun _ _ _ => trivial)
      (wp_of_spec (handleFailure_failsWith m message e) fun rest op _ hop => ?_)
    intro t error failedAt heq hdata
    obtain ⟨hid, herror⟩ := hop t error failedAt heq hdata
    exact ⟨m, first, rest, e, hm, hid, rfl, htrace, herror⟩

theorem outboxDispatcherCycle_failsNothing : Issues FailsNothing outboxDispatcherCycle :=
  issues_tryCatch (issues_bind (issues_bind (issues_failsNothing (by simp)) fun rows =>
    (dispatchBatch_spec rows _).failsNothing) fun _ => issues_pure _) fun _ => issues_pure _

/-- The same of every job. -/
def Job.FailOp [Runtime] : Job → WorkerHistory → WorkerOp → Prop
  | .delivery message, h, op => FlowPilot.FailOp message h op
  | .outboxDispatcher, _, op => FailsNothing op

theorem Job.program_failOp [Runtime] : ∀ job : Job, SafeFrom job.FailOp [] job.program
  | .delivery message => handleDelivery_failOp message
  | .outboxDispatcher =>
      safe_of_spec outboxDispatcherCycle_failsNothing (fun _ _ hop => hop) []

section

variable [Runtime] {env : Environment} {C : WorkerPool → WorkerLabel → Prop} {s s' : WorkerPool}
  {l : WorkerLabel} {labels : List WorkerLabel} {x : String} {failures : List WorkerFailure}

/-! ## Failed executions -/

/-- The step fails the execution with this error. -/
def FailsExecution (x : String) (error : FlowPilotExecutionError) (s : WorkerPool)
    (l : WorkerLabel) (s' : WorkerPool) : Prop :=
  ∃ t tr reply completedAt row, l = .act t ⟨.db (.transaction tr), reply⟩ ∧ tr.id = x
    ∧ tr.data = .failed error completedAt ∧ s.world.store.executions x = some row
    ∧ isTerminalExecutionStatus row.status = false
    ∧ s'.world.store.executions x = some (tr.data.apply row)

/-- A step of the run fails the execution with this error. -/
def FailedWith (env : Environment) (x : String) (error : FlowPilotExecutionError)
    (labels : List WorkerLabel) (s : WorkerPool) : Prop :=
  ∃ first l rest s₁ s₂, labels = first ++ l :: rest
    ∧ Pool.Run (workerSystem env) (fun _ _ => True) ⟨.empty, fun _ => none⟩ first s₁
    ∧ Pool.Step (workerSystem env) s₁ l s₂ ∧ FailsExecution x error s₁ l s₂
    ∧ Pool.Run (workerSystem env) (fun _ _ => True) s₂ rest s

theorem FailedWith.step {error : FlowPilotExecutionError} (h : FailedWith env x error labels s)
    (hs : Pool.Step (workerSystem env) s l s') : FailedWith env x error (labels ++ [l]) s' := by
  obtain ⟨first, l', rest, s₁, s₂, rfl, hfirst, hstep, hfails, hrest⟩ := h
  exact ⟨first, l', rest ++ [l], s₁, s₂, by simp, hfirst, hstep, hfails, .step hrest trivial hs⟩

/-- A step leaves the row of a failed execution, or fails it. -/
theorem ReachableUnder.failed_of_step (h : ReachableUnder env C s)
    (hs : Pool.Step (workerSystem env) s l s') {row : WorkflowExecutionRow}
    (hrow : s'.world.store.executions x = some row) (hstatus : row.status = .failed) :
    s.world.store.executions x = some row
      ∨ ∃ error, row.error = some error ∧ FailsExecution x error s l s' := by
  rcases (ReachableUnder.reached h).rows hs with hsame | ⟨id, row', -, hnew, -, hexecutions⟩
      | ⟨i, message, history, ev, p, p', t, row', rfl, -, -, hmoved⟩
  · exact Or.inl (hsame ▸ hrow)
  · rw [hexecutions] at hrow
    by_cases hid : x = id
    · subst hid
      obtain rfl : row' = row := by simpa using hrow
      cases hnew.1.symm.trans hstatus
    · rw [Function.update_of_ne hid] at hrow
      exact Or.inl hrow
  · by_cases hid : x = t.id
    · subst hid
      have hmovedRow := hrow
      rw [hmoved.executions, Function.update_self] at hmovedRow
      obtain rfl := Option.some.inj hmovedRow
      obtain ⟨error, completedAt, hdata⟩ : ∃ error completedAt,
          t.data = .failed error completedAt := by
        cases hdata : t.data with
        | failed error completedAt => exact ⟨error, completedAt, rfl⟩
        | _ =>
            rw [hdata] at hstatus
            cases hstatus
      obtain ⟨reply, rfl⟩ : ∃ reply : Reply JsError TransitionResult,
          ev = ⟨.db (.transaction t), reply⟩ := by
        rcases hmoved.reply with ⟨r, hev, -⟩ | ⟨e, hev⟩
        · exact ⟨_, hev⟩
        · exact ⟨_, hev⟩
      exact Or.inr ⟨error, by rw [hdata]; rfl, i, t, reply, completedAt, row', rfl, rfl, hdata,
        hmoved.found, not_terminal_of_starts hmoved.starts, hrow⟩
    · rw [hmoved.executions, Function.update_of_ne hid] at hrow
      exact Or.inl hrow

/-! ## Failed attempts -/

/-- With the step an attempt at the command for `x` fails: what the handler
has done so far is a run of its `try` block that throws. -/
def AttemptFails (x : String) (_ : WorkerPool) (l : WorkerLabel) (s' : WorkerPool)
    (failure : WorkerFailure) : Prop :=
  ∃ t ev message m h p error, l = .act t ev ∧ s'.threads t = some ⟨.delivery message, h, p⟩
    ∧ parseWorkflowExecutionRequestedMessage message = some m ∧ m.executionId = x
    ∧ Trace (processAndAck message m) h (.error error) ∧ failure = normalizeWorkerFailure error

/-- A run from the empty system, with the failures of the attempts at the
command for `x`, in their order. -/
abbrev CommandRun (env : Environment) (x : String) (labels : List WorkerLabel) (s : WorkerPool)
    (failures : List WorkerFailure) : Prop :=
  Pool.Observed (workerSystem env) (fun _ _ => True) (AttemptFails x) ⟨.empty, fun _ => none⟩ s
    labels failures

/-- An attempt begins with a call. -/
theorem not_trace_nil {message : ConsumeMessage} {m : WorkflowExecutionRequestedMessage}
    {out : Except JsError Unit} : ¬ Trace (processAndAck message m) [] out := by
  intro htrace
  change Trace (.call _ _) [] out at htrace
  cases htrace

/-- The failures of the attempts at the command for `x` are among the noted
ones. -/
def AttemptsNoted (x : String) (s : WorkerPool) (failures : List WorkerFailure) : Prop :=
  ∀ t message history p m first rest e, s.threads t = some ⟨.delivery message, history, p⟩ →
    parseWorkflowExecutionRequestedMessage message = some m → m.executionId = x →
    history = first ++ rest → Trace (processAndAck message m) first (.error e) →
    normalizeWorkerFailure e ∈ failures

/-- What is noted of the step that completes an attempt is its failure. -/
theorem AttemptsNoted.step {log : List WorkerFailure} (h : AttemptsNoted x s failures)
    (hs : Pool.Step (workerSystem env) s l s') (hle : failures ⊆ log)
    (hnotes : ∀ failure, AttemptFails x s l s' failure → failure ∈ log) :
    AttemptsNoted x s' log := by
  intro t message history p m first rest e hth hm hx heq htrace
  rcases hs.thread_cases hth with
    hold | ⟨info, -, -, hnew⟩ | ⟨info, before, op, k, reply, rfl, hold, -, hnew⟩
  · exact hle (h t message history p m first rest e hold hm hx heq htrace)
  · cases hnew
    obtain ⟨rfl, -⟩ := List.append_eq_nil_iff.mp heq.symm
    exact absurd htrace not_trace_nil
  · cases hnew
    rcases List.eq_nil_or_concat' rest with rfl | ⟨rest, ev, rfl⟩
    · rw [List.append_nil] at heq
      exact hnotes _ ⟨t, _, message, m, _, _, e, rfl, hth, hm, hx, heq ▸ htrace, rfl⟩
    · rw [← List.append_assoc] at heq
      exact hle (h t message before _ m first rest e hold hm hx (List.append_inj' heq rfl).1 htrace)

omit [Runtime] in
/-- A step completes one attempt at most. -/
theorem AttemptFails.unique [Runtime] {failure failure' : WorkerFailure}
    (h : AttemptFails x s l s' failure) (h' : AttemptFails x s l s' failure') :
    failure = failure' := by
  obtain ⟨t, ev, message, m, history, p, e, rfl, hth, hm, -, htrace, rfl⟩ := h
  obtain ⟨_, _, message', m', history', p', e', hl, hth', hm', -, htrace', rfl⟩ := h'
  cases hl
  cases hth.symm.trans hth'
  cases hm.symm.trans hm'
  cases htrace.out_unique htrace'
  rfl

theorem CommandRun.attemptsNoted (h : CommandRun env x labels s failures) :
    AttemptsNoted x s failures := by
  induction h with
  | refl => exact fun t message history p m first rest e hth => by cases hth
  | noted _ _ hs hnoted ih =>
      exact ih.step hs (List.subset_append_left _ _) fun failure hfailure =>
        List.mem_append_right _ (List.mem_singleton.mpr (hfailure.unique hnoted))
  | silent _ _ hs hnone ih =>
      exact ih.step hs (List.Subset.refl _) fun failure hfailure => absurd hfailure (hnone failure)

/-- The failure of an execution is that of an attempt at its command. -/
theorem FailsExecution.attempt {error : FlowPilotExecutionError}
    (h : ReachableSystem env s) (hs : Pool.Step (workerSystem env) s l s')
    (hfails : FailsExecution x error s l s') (hnoted : AttemptsNoted x s failures) :
    ∃ failure ∈ failures, failure.toFlowPilotExecutionError = error := by
  obtain ⟨t, tr, reply, completedAt, row, rfl, hid, hdata, -⟩ := hfails
  obtain ⟨info, history, k, hth, -, -⟩ := hs.act_cases
  have hop := (Pool.Reachable.obeys Job.program_failOp h).next hth
  cases info with
  | outboxDispatcher => exact absurd hdata (hop tr error completedAt rfl)
  | delivery message =>
      obtain ⟨m, first, rest, e, hm, hcommand, heq, htrace, rfl⟩ :=
        hop tr error completedAt rfl hdata
      have hx : m.executionId = x := hcommand.symm.trans hid
      exact ⟨_, hnoted t message history _ m first rest e hth hm hx heq htrace, rfl⟩

/-- What a failed execution shows is the failure of an attempt at its command,
the one that failed it. -/
theorem failedWith_of_commandRun (h : CommandRun env x labels s failures)
    {row : WorkflowExecutionRow} (hrow : s.world.store.executions x = some row)
    (hstatus : row.status = .failed) :
    ∃ failure ∈ failures, row.error = some failure.toFlowPilotExecutionError
      ∧ FailedWith env x failure.toFlowPilotExecutionError labels s := by
  have hstep : ∀ {s s' : WorkerPool} {l : WorkerLabel} {labels : List WorkerLabel}
      {failures log : List WorkerFailure} {row : WorkflowExecutionRow},
      CommandRun env x labels s failures → Pool.Step (workerSystem env) s l s' →
      failures ⊆ log → s'.world.store.executions x = some row → row.status = .failed →
      (∀ {row : WorkflowExecutionRow}, s.world.store.executions x = some row →
        row.status = .failed → ∃ failure ∈ failures,
          row.error = some failure.toFlowPilotExecutionError
            ∧ FailedWith env x failure.toFlowPilotExecutionError labels s) →
      ∃ failure ∈ log, row.error = some failure.toFlowPilotExecutionError
        ∧ FailedWith env x failure.toFlowPilotExecutionError (labels ++ [l]) s' := by
    intro s s' l labels failures log row h hs hle hrow hstatus ih
    have hreach : ReachableSystem env s := h.run.reachable (.start rfl)
    rcases ReachableUnder.failed_of_step hreach hs hrow hstatus with
      hkept | ⟨error, herror, hfails⟩
    · obtain ⟨failure, hfailure, herror, hfailed⟩ := ih hkept hstatus
      exact ⟨failure, hle hfailure, herror, hfailed.step hs⟩
    · obtain ⟨failure, hfailure, rfl⟩ := hfails.attempt hreach hs h.attemptsNoted
      exact ⟨failure, hle hfailure, herror, labels, l, [], s, s', rfl, h.run, hs, hfails, .refl⟩
  induction h generalizing row with
  | refl => cases hrow
  | noted h _ hs _ ih => exact hstep h hs (List.subset_append_left _ _) hrow hstatus ih
  | silent h _ hs _ ih => exact hstep h hs (List.Subset.refl _) hrow hstatus ih

end

end FlowPilot
