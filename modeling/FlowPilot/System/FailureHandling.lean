import FlowPilot.System.Scripts

/-!
# Failures that are not retried

`handleDelivery` answers such a failure by failing the execution and
dead-lettering the command. Failing the execution can itself throw: when the
row does not exist there is nothing to fail, and
`workflow_execution_failure_conflict` sends the delivery back to the queue,
where the same will happen again. `handleDelivery_deadLetters_iff` says that
this is the only case.

The runs here are those of one delivery among others: between two of its
calls the execution may have been moved on (`Environment.execAmong`).
-/

namespace FlowPilot

open Prog hiding pure throw bind tryCatch

/-! ## Calls that settle nothing -/

/-- A call that neither settles the delivery nor publishes the command. -/
def QuietOp (op : WorkerOp) : Prop :=
  ¬ op.Settles ∧ ∀ p, op = .publish p → p.exchange = .events

theorem quietOp_db (c : DbCall) : QuietOp (.db c) := ⟨fun h => h, by simp⟩

theorem RecordingOp.quiet {op : WorkerOp} (h : RecordingOp op) : QuietOp op := by
  cases op with
  | publish p =>
      refine ⟨fun hsettles => hsettles, fun p' hp => ?_⟩
      cases hp
      exact h
  | ack _ => exact h.elim
  | nack _ _ _ => exact h.elim
  | _ => exact ⟨fun hsettles => hsettles, by simp⟩

theorem NodeOp.quiet {op : WorkerOp} (h : NodeOp op) : QuietOp op := by
  rcases h with h | ⟨node, context, rfl⟩
  · exact h.quiet
  · exact ⟨fun hsettles => hsettles, by simp⟩

/-- A call of the database, or one that only records. -/
def StoreOp (op : WorkerOp) : Prop := RecordingOp op ∨ ∃ c, op = .db c

theorem StoreOp.quiet {op : WorkerOp} : StoreOp op → QuietOp op
  | .inl h => h.quiet
  | .inr ⟨c, hc⟩ => hc ▸ quietOp_db c

theorem Returns.stores {α : Type} {p : Worker α} {R : α → Prop} (hp : Returns RecordingOp p R) :
    Issues StoreOp p :=
  spec_mono (fun _ h => Or.inl h) hp (fun _ _ _ => trivial) (fun _ _ _ => trivial)

theorem issues_db (c : DbCall) : Issues StoreOp (db c) := issues_perform (Or.inr ⟨c, rfl⟩)

theorem issues_newDate : Issues StoreOp newDate := issues_perform (Or.inl trivial)

theorem issues_randomUUID : Issues StoreOp randomUUID := issues_perform (Or.inl trivial)

theorem enterRunning_stores (m : WorkflowExecutionRequestedMessage)
    (existingExecution : WorkflowExecution) (effectiveStartedAt : Int) :
    Issues StoreOp (enterRunning m existingExecution effectiveStartedAt) := by
  unfold enterRunning
  split
  · refine issues_bind issues_randomUUID fun eventId =>
      issues_bind (issues_db _) fun transition => ?_
    split
    · refine issues_bind (issues_db _) fun current => ?_
      split
      · exact issues_bind (dispatchPending_spec _).stores fun _ => issues_pure _
      · split
        · exact issues_bind (dispatchPending_spec _).stores fun _ => issues_pure _
        · exact issues_pure _
    · split
      · exact issues_throw _
      · exact issues_bind (dispatchOutboxEvent_spec _).stores fun _ => issues_pure _
  · refine issues_bind issues_randomUUID fun eventId => issues_bind (issues_db _) fun row => ?_
    exact issues_bind (dispatchOutboxEvent_spec _).stores fun _ => issues_pure _

theorem completeWorkflowExecution_stores (m : WorkflowExecutionRequestedMessage)
    (execution : WorkflowExecution) (output : Record) (effectiveStartedAt : Int) :
    Issues StoreOp (completeWorkflowExecution m execution output effectiveStartedAt) := by
  refine issues_bind issues_newDate fun completedAt => issues_bind issues_randomUUID fun eventId =>
    issues_bind (issues_db _) fun completion => ?_
  split
  · refine issues_bind (issues_db _) fun current => ?_
    split
    · split
      · exact (dispatchPending_spec _).stores
      · exact issues_throw _
    · exact issues_throw _
  · split
    · exact issues_throw _
    · exact (dispatchOutboxEvent_spec _).stores

theorem failWorkflowExecution_stores (m : WorkflowExecutionRequestedMessage)
    (failure : FlowPilotExecutionError) : Issues StoreOp (failWorkflowExecution m failure) := by
  refine issues_bind issues_newDate fun failedAt => issues_bind issues_randomUUID fun eventId =>
    issues_bind (issues_db _) fun update => ?_
  split
  · refine issues_bind (issues_db _) fun current => ?_
    split
    · split
      · exact (dispatchPending_spec _).stores
      · exact issues_throw _
    · exact issues_throw _
  · split
    · exact issues_throw _
    · exact (dispatchOutboxEvent_spec _).stores

theorem quiet_of_stores {α : Type} {p : Worker α} (hp : Issues StoreOp p) : Issues QuietOp p :=
  issues_mono (fun _ h => h.quiet) hp

/-- Processing a command settles nothing and publishes no copy of it. -/
theorem processWorkflowExecution_quiet [Runtime] (m : WorkflowExecutionRequestedMessage) :
    Issues QuietOp (processWorkflowExecution m) := by
  refine issues_bind (quiet_of_stores issues_newDate) fun startedAt =>
    issues_bind (quiet_of_stores (issues_db _)) fun existing => ?_
  split
  · exact issues_throw _
  · split
    · exact quiet_of_stores (dispatchPending_spec _).stores
    · refine issues_bind (quiet_of_stores (enterRunning_stores m _ _)) fun execution? => ?_
      split
      · exact issues_pure _
      · refine issues_bind ?_ fun output =>
          quiet_of_stores (completeWorkflowExecution_stores m _ output _)
        exact spec_mono (fun _ h => h.quiet) (executeWorkflowNodes_spec m _)
          (fun _ _ _ => trivial) (fun _ _ _ => trivial)

/-! ## A delivery among others -/

/-- A call of a delivery, made while others run: in between they may have
moved the execution `x` on, but not created it. -/
def Environment.execAmong (env : Environment) (x : String) (op : WorkerOp) (w : World)
    (reply : Reply JsError op.Result) (w' : World) : Prop :=
  ∃ w₀, RowLe (w.store.executions x) (w₀.store.executions x)
    ∧ (w₀.store.executions x).isSome = (w.store.executions x).isSome ∧ env.exec op w₀ reply w'

/-- A delivery alone is one among others. -/
theorem Environment.exec_among {env : Environment} (x : String) {op : WorkerOp} {w w' : World}
    {reply : Reply JsError op.Result} (h : env.exec op w reply w') :
    env.execAmong x op w reply w' := ⟨w, .refl _, rfl, h⟩

/-- No call creates or deletes an execution. -/
theorem Environment.exec_isSome {env : Environment} {op : WorkerOp} {w w' : World}
    {reply : Reply JsError op.Result} (h : env.exec op w reply w') (x : String) :
    (w'.store.executions x).isSome = (w.store.executions x).isSome := by
  rcases Environment.exec_cases h with ⟨rfl, -⟩ | ⟨ctx, r, hrun, -⟩
  · rfl
  cases op with
  | db c =>
      obtain ⟨s, hrun', rfl⟩ := WorkerOp.run_db hrun
      show (s.executions x).isSome = _
      cases c with
      | transaction t =>
          rcases runTransaction_cases hrun' with ⟨-, rfl, -⟩ | ⟨row, outboxRow, hrow, -, -, hupsert⟩
          · rfl
          · rw [Store.upsertOutbox_executions hupsert]
            by_cases hx : x = t.id
            · subst hx
              simp [hrow]
            · simp [Function.update_of_ne hx]
      | upsertOutbox routingKey message => rw [Store.upsertOutbox_executions hrun']
      | updateOutbox id data => rw [DbCall.run_updateOutbox hrun']
      | _ => rw [(DbCall.run_frame hrun' fun hwrites => hwrites).1]
  | _ => rw [WorkerOp.run_store hrun (by simp)]

theorem replaysAmong_isSome {env : Environment} {x : String} :
    ∀ {events : WorkerHistory} {w w' : World}, Replays (env.execAmong x) w events w' →
      (w'.store.executions x).isSome = (w.store.executions x).isSome
  | [], _, _, h => by
      cases h
      rfl
  | _ :: _, _, _, ⟨_, ⟨_, _, hsome, hexec⟩, hrest⟩ =>
      (replaysAmong_isSome hrest).trans ((Environment.exec_isSome hexec x).trans hsome)

/-- The first call of a run without failing calls. -/
theorem succeeding_call {α : Type} {op : WorkerOp} {f : op.Result → Worker α}
    {exec : (op : WorkerOp) → World → Reply JsError op.Result → World → Prop} {w w' : World}
    {events : WorkerHistory} {out : Except JsError α} (h : Trace (call op >>= f) events out)
    (hreplays : Replays exec w events w') (hall : ∀ ev ∈ events, CallSucceeded ev) :
    ∃ r w₁ rest, events = ⟨op, .ok r⟩ :: rest ∧ exec op w (.ok r) w₁ ∧ Trace (f r) rest out
      ∧ Replays exec w₁ rest w' ∧ ∀ ev ∈ rest, CallSucceeded ev := by
  obtain ⟨reply, rest, rfl, hcases⟩ := trace_perform_bind h
  obtain ⟨w₁, hexec, hrest⟩ := hreplays
  obtain ⟨hfirst, hlater⟩ := List.forall_mem_cons.mp hall
  cases reply with
  | ok r =>
      obtain ⟨r', hr, hrun⟩ := hcases.resolve_right (by rintro ⟨e, he | he, -⟩ <;> cases he)
      cases hr
      exact ⟨r, w₁, rest, rfl, hexec, hrun, hrest, hlater⟩
  | lost e => exact absurd hfirst not_callSucceeded_lost
  | failed e => exact absurd hfirst not_callSucceeded_failed

/-- A function that throws only on failure returns when no call fails. -/
theorem Returns.returns {α : Type} {I : WorkerOp → Prop} {p : Worker α} {R : α → Prop}
    (hp : Returns I p R) {events : WorkerHistory} {out : Except JsError α}
    (h : Trace p events out) (hall : ∀ ev ∈ events, CallSucceeded ev) : ∃ a, out = .ok a := by
  cases out with
  | ok a => exact ⟨a, rfl⟩
  | error e =>
      obtain ⟨ev, hev, hfailed⟩ := (spec_trace hp h).2
      exact absurd (hall ev hev) hfailed

/-! ## Failing an execution -/

/-- A status from which an execution cannot be failed is an end. -/
theorem terminal_of_not_failable {status : ExecutionStatus}
    (h : status ∉ [ExecutionStatus.pending, .running]) :
    isTerminalExecutionStatus status = true := by
  cases status with
  | pending => simp at h
  | running => simp at h
  | _ => rfl

/-- If its calls succeed, failing an execution succeeds exactly when there
is one. -/
theorem failWorkflowExecution_returns_iff {env : Environment}
    {m : WorkflowExecutionRequestedMessage} {failure : FlowPilotExecutionError} {w w' : World}
    {events : WorkerHistory} {out : Except JsError Unit}
    (h : Trace (failWorkflowExecution m failure) events out)
    (hreplays : Replays (env.execAmong m.executionId) w events w')
    (hall : ∀ ev ∈ events, CallSucceeded ev) :
    (∃ u, out = .ok u) ↔ (w.store.executions m.executionId).isSome := by
  obtain ⟨failedAt, w₁, events₁, -, hexec₁, h₁, hreplays₁, hall₁⟩ := succeeding_call h hreplays hall
  obtain ⟨eventId, w₂, events₂, -, hexec₂, h₂, hreplays₂, hall₂⟩ :=
    succeeding_call h₁ hreplays₁ hall₁
  obtain ⟨update, w₃, events₃, -, hexec₃, h₃, hreplays₃, hall₃⟩ :=
    succeeding_call h₂ hreplays₂ hall₂
  have hsome : ∀ {op : WorkerOp} {w w' : World} {reply : Reply JsError op.Result},
      env.execAmong m.executionId op w reply w' →
      (w'.store.executions m.executionId).isSome = (w.store.executions m.executionId).isSome := by
    rintro op w w' reply ⟨w₀, -, hsome, hexec⟩
    rw [Environment.exec_isSome hexec, hsome]
  rw [← hsome hexec₁, ← hsome hexec₂]
  obtain ⟨v, -, hv, -, ctx, hrun⟩ := hexec₃
  obtain ⟨s, hrun', rfl⟩ := WorkerOp.run_db hrun
  rw [← hv]
  rcases runTransaction_cases hrun' with ⟨rfl, rfl, hstatus⟩ | ⟨row, outboxRow, hrow, -, rfl, -⟩
  · -- the guarded update changed no row
    simp only [if_true] at h₃
    obtain ⟨found, w₄, events₄, -, hexec₄, h₄, hreplays₄, hall₄⟩ :=
      succeeding_call h₃ hreplays₃ hall₃
    obtain ⟨u, hle, hu, -, ctx', hfind⟩ := hexec₄
    obtain ⟨s', hfind', rfl⟩ := WorkerOp.run_db hfind
    obtain ⟨rfl, -⟩ := Prod.mk.inj (Option.some.inj hfind')
    cases hrow : v.store.executions m.executionId with
    | none =>
        have hnone : u.store.executions m.executionId = none := by
          rw [← Option.not_isSome_iff_eq_none, hu]
          simp [hrow]
        simp only [Store.findExecution, hnone, Option.map_none] at h₄
        cases h₄
        simp
    | some row =>
        -- it has ended, so it is found as it is
        have hterminal := terminal_of_not_failable (hstatus row hrow)
        rw [hrow] at hle
        obtain ⟨later, hlater⟩ := hle.exists_later
        rw [hlater] at hle
        cases hle with
        | later _ _ _ hended =>
            obtain rfl := hended hterminal
            simp only [Store.findExecution, hlater, Option.map_some, hterminal, if_true] at h₄
            simpa using (dispatchPending_spec _).returns h₄ hall₄
  · simp only [Nat.one_ne_zero, if_false] at h₃
    have hfound : v.store.executions m.executionId = some row := hrow
    simpa [hfound] using (dispatchOutboxEvent_spec _).returns h₃ hall₃

/-! ## The outcome of a delivery -/

/-- The command was dead-lettered, and its delivery acknowledged and not
given back. -/
structure DeadLetteredAndAcked (message : ConsumeMessage) (m : WorkflowExecutionRequestedMessage)
    (events : WorkerHistory) : Prop where
  deadLettered : ∃ p accepted, ⟨.publish p, .ok accepted⟩ ∈ events ∧ p.exchange = .dlx
    ∧ p.content = .json m.value
  acked : ⟨.ack message, .ok ()⟩ ∈ events
  not_nacked : ∀ ev ∈ events, ∀ allUpTo requeue, ev.op ≠ .nack message allUpTo requeue

variable [Runtime] {env : Environment} {message : ConsumeMessage}
  {m : WorkflowExecutionRequestedMessage}

omit [Runtime] in
theorem not_someCallFailed {events : WorkerHistory} (hall : ∀ ev ∈ events, CallSucceeded ev) :
    ¬ SomeCallFailed events :=
  fun ⟨ev, hev, hfailed⟩ => hfailed (hall ev hev)

/-- The last two calls of the second stage. -/
theorem deadLetterAndAck_spec (message : ConsumeMessage) (m : WorkflowExecutionRequestedMessage)
    (failure : FlowPilotExecutionError) (currentRetryAttempt : Nat) :
    Spec (fun _ => True) (do
        publishCommandDeadLetter m failure currentRetryAttempt
        ack message)
      (fun _ events => ∃ accepted,
        events = [⟨.publish (deadLetterPublication m failure currentRetryAttempt), .ok accepted⟩,
          ⟨.ack message, .ok ()⟩])
      (fun _ events => SomeCallFailed events) := by
  have hack : Spec (fun _ => True) (ack message)
      (fun _ events => events = [⟨.ack message, .ok ()⟩]) (fun _ events => SomeCallFailed events) :=
    spec_perform trivial (fun _ => rfl) (fun _ => someCallFailed_of_lost)
      (fun _ => someCallFailed_of_failed)
  refine spec_bind (spec_bind (spec_perform trivial (fun accepted => spec_pure ?_)
    (fun _ => someCallFailed_of_lost) (fun _ => someCallFailed_of_failed)))
  exact spec_conseq hack (fun _ rest h => ⟨accepted, by rw [h]; rfl⟩) (fun _ _ h => h.append_right)

/-- The second stage: the execution is failed, dead-lettered and
acknowledged if it exists, and the delivery is given back if not. -/
theorem failAndDeadLetter_iff {failure : WorkerFailure} {currentRetryAttempt : Nat}
    {w w' : World} {events : WorkerHistory} {out : Except JsError Unit}
    (h : Trace (failAndDeadLetter message m failure currentRetryAttempt) events out)
    (hreplays : Replays (env.execAmong m.executionId) w events w')
    (hall : ∀ ev ∈ events, CallSucceeded ev) :
    DeadLetteredAndAcked message m events ↔ (w.store.executions m.executionId).isSome := by
  have hquiet := quiet_of_stores (failWorkflowExecution_stores m failure.toFlowPilotExecutionError)
  have hletter := deadLetterAndAck_spec message m failure.toFlowPilotExecutionError
    currentRetryAttempt
  rcases trace_tryCatch h with ⟨u, hbody, -⟩ | ⟨e, body, given, hbody, hnack, rfl⟩
  · -- nothing was thrown
    rcases trace_bind hbody with ⟨e, -, he⟩ | ⟨_, failing, rest, hfail, hrest, rfl⟩
    · cases he
    obtain ⟨w₁, hreplays₁, -⟩ := replays_append.mp hreplays
    have hexists := (failWorkflowExecution_returns_iff hfail hreplays₁
      (fun ev hev => hall ev (List.mem_append_left _ hev))).mp ⟨_, rfl⟩
    obtain ⟨accepted, rfl⟩ := (spec_trace hletter hrest).2
    refine iff_of_true ⟨⟨_, accepted, by simp, rfl, rfl⟩, by simp, ?_⟩ hexists
    intro ev hev allUpTo requeue hop
    simp only [List.mem_append, List.mem_cons, List.not_mem_nil, or_false] at hev
    rcases hev with hev | rfl | rfl
    · exact ((spec_trace hquiet hfail).1 ev hev).1 (hop ▸ trivial)
    · cases hop
    · cases hop
  · -- something was, so the delivery is given back
    have hgiven : ¬ DeadLetteredAndAcked message m (body ++ given) := by
      intro hdone
      cases hnack with
      | call reply _ =>
          exact hdone.not_nacked ⟨.nack message false true, reply⟩ (by simp) false true rfl
    refine iff_of_false hgiven fun hexists => ?_
    obtain ⟨w₁, hreplays₁, -⟩ := replays_append.mp hreplays
    rcases trace_bind hbody with ⟨e', hfail, -⟩ | ⟨_, failing, rest, hfail, hrest, rfl⟩
    · obtain ⟨u, hu⟩ := (failWorkflowExecution_returns_iff hfail hreplays₁
        (fun ev hev => hall ev (List.mem_append_left _ hev))).mpr hexists
      cases hu
    · refine not_someCallFailed (fun ev hev => hall ev ?_) (spec_trace hletter hrest).2
      exact List.mem_append_left _ (List.mem_append_right _ hev)

/-! ## When the command is dead-lettered -/

/-- A script of a delivery whose processing throws what is not retried, in
two parts. -/
theorem exists_failure_of_script (definition : Json) {w : World}
    {P : World → Prop} [DecidablePred P]
    (h : (script (fun _ => true) 40 0 (processWorkflowExecution (newCommand definition)) w).any
      (fun (_, q, w₁) => match q.ended? with
        | some (.error e) => !(normalizeWorkerFailure e).retryable
            && (script (fun _ => true) 40 40
              (handleFailure (newMessage definition) (newCommand definition) e) w₁).any
              (fun (_, q', w') => q'.ended?.isSome && decide (P w'))
        | _ => false) = true) :
    ∃ events₁ events₂ error out w',
      Trace (handleDelivery (newMessage definition)) (events₁ ++ events₂) out
      ∧ Trace (processWorkflowExecution (newCommand definition)) events₁ (.error error)
      ∧ Replays (scriptEnvironment (newRow definition)).exec w (events₁ ++ events₂) w'
      ∧ (normalizeWorkerFailure error).retryable = false
      ∧ (∀ ev ∈ events₂, CallSucceeded ev) ∧ P w' := by
  obtain ⟨⟨events₁, q, w₁⟩, hscript₁, hcheck⟩ := (Option.any_eq_true _ _).mp h
  dsimp only at hcheck
  split at hcheck
  · rename_i error hended
    simp only [Bool.and_eq_true, Bool.not_eq_true'] at hcheck
    obtain ⟨hretryable, hcheck⟩ := hcheck
    obtain ⟨⟨events₂, q', w'⟩, hscript₂, hcheck⟩ := (Option.any_eq_true _ _).mp hcheck
    simp only [Bool.and_eq_true, decide_eq_true_eq] at hcheck
    obtain ⟨out, hended'⟩ := Option.isSome_iff_exists.mp hcheck.1
    obtain ⟨hafter₁, hreplays₁⟩ := script_sound (newRow definition) hscript₁
    obtain ⟨hafter₂, hreplays₂⟩ := script_sound (newRow definition) hscript₂
    have hprocess := trace_of_after hafter₁ (trace_of_ended? hended)
    refine ⟨events₁, events₂, error, out, w', ?_, hprocess,
      replays_append.mpr ⟨w₁, hreplays₁, hreplays₂⟩, hretryable, script_succeeds hscript₂, hcheck.2⟩
    simp only [handleDelivery, newMessage_parses]
    exact (trace_tryCatch_error (trace_bind_error hprocess)).mpr
      (trace_of_after hafter₂ (trace_of_ended? hended'))
  · cases hcheck

/-- A delivery whose processing failed, not to be retried, and none of whose
later calls fails: the command is dead-lettered and acknowledged, and not
given back, if and only if its execution exists. -/
theorem handleDelivery_deadLetters_iff (env : Environment) (message : ConsumeMessage)
    (m : WorkflowExecutionRequestedMessage)
    (hm : parseWorkflowExecutionRequestedMessage message = some m) (w w' : World)
    (events₁ events₂ : WorkerHistory) (error : JsError) (out : Except JsError Unit)
    (htrace : Trace (handleDelivery message) (events₁ ++ events₂) out)
    (hprocess : Trace (processWorkflowExecution m) events₁ (.error error))
    (hreplays : Replays (env.execAmong m.executionId) w (events₁ ++ events₂) w')
    (hretryable : (normalizeWorkerFailure error).retryable = false)
    (hall : ∀ ev ∈ events₂, CallSucceeded ev) :
    DeadLetteredAndAcked message m (events₁ ++ events₂)
      ↔ (w.store.executions m.executionId).isSome := by
  obtain ⟨w₁, hreplays₁, hreplays₂⟩ := replays_append.mp hreplays
  simp only [handleDelivery, hm] at htrace
  have hhandle := (trace_tryCatch_error (trace_bind_error hprocess)).mp htrace
  simp only [handleFailure, hretryable, Bool.false_eq_true, false_and, if_false] at hhandle
  rw [← replaysAmong_isSome hreplays₁, ← failAndDeadLetter_iff hhandle hreplays₂ hall]
  -- processing itself neither publishes the command nor settles the delivery
  have hquiet := (spec_trace (processWorkflowExecution_quiet m) hprocess).1
  constructor
  · rintro ⟨⟨p, accepted, hp, hexchange, hcontent⟩, hacked, hnacked⟩
    refine ⟨⟨p, accepted, ?_, hexchange, hcontent⟩, ?_, fun ev hev => hnacked ev ?_⟩
    · refine (List.mem_append.mp hp).resolve_left fun hp => ?_
      cases hexchange.symm.trans ((hquiet _ hp).2 p rfl)
    · exact (List.mem_append.mp hacked).resolve_left fun hack => (hquiet _ hack).1 trivial
    · exact List.mem_append_right _ hev
  · rintro ⟨⟨p, accepted, hp, hexchange, hcontent⟩, hacked, hnacked⟩
    refine ⟨⟨p, accepted, List.mem_append_right _ hp, hexchange, hcontent⟩,
      List.mem_append_right _ hacked, fun ev hev allUpTo requeue hop => ?_⟩
    rcases List.mem_append.mp hev with hev | hev
    · exact (hquiet ev hev).1 (hop ▸ trivial)
    · exact hnacked ev hev allUpTo requeue hop

omit [Runtime] in
/-- The theorem at a command whose definition is invalid. -/
theorem handleDelivery_deadLetters_invalid :
    ∃ (_ : Runtime) (events : WorkerHistory) (out : Except JsError Unit),
      Trace (handleDelivery (newMessage .null)) events out
      ∧ DeadLetteredAndAcked (newMessage .null) (newCommand .null) events := by
  let _ : Runtime := .sample false
  obtain ⟨events₁, events₂, error, out, w', htrace, hprocess, hreplays, hretryable, hall, -⟩ :=
    exists_failure_of_script .null (w := .withExecution (newExecution .null))
      (P := fun _ => True) (by decide +kernel)
  have hiff := handleDelivery_deadLetters_iff _ _ _ (newMessage_parses .null) _ _ _ _ _ _ htrace
    hprocess (replays_mono (fun _ _ _ _ => Environment.exec_among _) hreplays) hretryable hall
  exact ⟨_, _, out, htrace, hiff.mpr rfl⟩

omit [Runtime] in
/-- A command whose execution does not exist: processing fails for good,
every later call succeeds, and the delivery is back in the queue. -/
theorem handleDelivery_redelivers_unknown :
    ∃ (_ : Runtime) (events₁ events₂ : WorkerHistory) (error : JsError)
      (out : Except JsError Unit) (w' : World),
      Trace (handleDelivery (newMessage defaultWorkflowDefinition)) (events₁ ++ events₂) out
      ∧ Trace (processWorkflowExecution (newCommand defaultWorkflowDefinition)) events₁
        (.error error)
      ∧ Replays (scriptEnvironment (newRow defaultWorkflowDefinition)).exec .empty
        (events₁ ++ events₂) w'
      ∧ (normalizeWorkerFailure error).retryable = false
      ∧ (∀ ev ∈ events₂, CallSucceeded ev)
      ∧ w'.deadLetters = [] ∧ w'.commands = [newMessage defaultWorkflowDefinition] := by
  let _ : Runtime := .sample false
  exact ⟨_, exists_failure_of_script _ (by decide +kernel)⟩

end FlowPilot
