import FlowPilot.System.Provenance
import FlowPilot.System.Turns
import FlowPilot.Worker.EventKeys

/-!
# No event is taken for another

`persistOutboxEvent` keeps the row it finds under the key of an event. In a
reachable state that row holds an event of the same name about the same
execution, node and trace (`outbox_keys_injective`), as long as the ids of
executions and traces hold no colon.

The key of a trace event says no more than the id of the trace. So the trace
itself is followed: the table of traces has unique ids and only grows, what
a delivery was answered with is still there, and so is the trace of every
stored event (`TracesKept`).
-/

namespace FlowPilot

open Prog hiding pure throw bind tryCatch

/-! ## Calls and the traces -/

/-- What a call does to the table of traces. -/
inductive TraceEffect (traces : List WorkflowAiTrace) : WorkerEvent → List WorkflowAiTrace → Prop
  | same {ev : WorkerEvent} :
      (∀ data row, ev ≠ ⟨.db (.createAiTrace data), .ok row⟩) → TraceEffect traces ev traces
  | created {data : WorkflowAiTraceCreateData} {reply : Reply JsError WorkflowAiTrace}
      {row : WorkflowAiTrace} : row.toWorkflowAiTraceCreateData = data →
      (∀ r ∈ traces, r.id ≠ row.id) → (∀ r, reply = .ok r → r = row) →
      TraceEffect traces ⟨.db (.createAiTrace data), reply⟩ (traces ++ [row])

theorem Store.upsertOutbox_aiTraces {s s' : Store} {ctx : DbContext}
    {routingKey : FlowPilotRoutingKey} {message : WorkflowLifecycleMessage} {row : OutboxMessage}
    (h : s.upsertOutbox ctx routingKey message = some (row, s')) : s'.aiTraces = s.aiTraces := by
  rcases upsertOutbox_cases h with ⟨rfl, -⟩ | ⟨rfl, -⟩ <;> rfl

/-- The other calls leave the traces as they were. -/
theorem run_aiTraces {c : DbCall} {ctx : DbContext} {s s' : Store} {r : c.Result}
    (h : c.run ctx s = some (r, s')) (hcreate : ∀ data, c ≠ .createAiTrace data) :
    s'.aiTraces = s.aiTraces := by
  cases c with
  | findExecution id =>
      cases h
      rfl
  | transaction t =>
      rcases runTransaction_cases h with ⟨-, rfl, -⟩ | ⟨row, outboxRow, -, -, -, hupsert⟩
      · rfl
      · have hkept := Store.upsertOutbox_aiTraces hupsert
        exact hkept
  | upsertOutbox routingKey message => exact Store.upsertOutbox_aiTraces h
  | updateOutbox id data => rw [DbCall.run_updateOutbox h]
  | findOutbox filter take =>
      cases h
      rfl
  | upsertRunningNode m node input startedAt =>
      simp only [DbCall.run, Store.upsertRunningNode] at h
      split at h
      · cases h
        rfl
      · split at h
        · cases h
        · cases h
          rfl
  | updateNode id data =>
      simp only [DbCall.run] at h
      split at h
      · cases h
        rfl
      · cases h
  | createAiTrace data => exact absurd rfl (hcreate data)

theorem dbCall_traceEffect {c : DbCall} {ctx : DbContext} {s s' : Store} {r : c.Result}
    {reply : Reply JsError c.Result} (h : c.run ctx s = some (r, s'))
    (hanswer : ∀ r', reply = .ok r' → r' = r) :
    TraceEffect s.aiTraces ⟨.db c, reply⟩ s'.aiTraces := by
  by_cases hcreate : ∃ data, c = .createAiTrace data
  · obtain ⟨data, rfl⟩ := hcreate
    simp only [DbCall.run] at h
    split at h
    · cases h
    · rename_i hfresh
      obtain ⟨rfl, rfl⟩ := Prod.mk.inj (Option.some.inj h)
      simp only [Bool.not_eq_true, List.any_eq_false, decide_eq_true_eq] at hfresh
      exact .created rfl hfresh hanswer
  · have hother : ∀ data, c ≠ .createAiTrace data := fun data hc => hcreate ⟨data, hc⟩
    rw [run_aiTraces h hother]
    refine .same fun data row heq => ?_
    cases heq
    exact hother data rfl

/-- Every call against the world has such an effect. -/
theorem exec_traceEffect {env : Environment} {op : WorkerOp} {w w' : World}
    {reply : Reply JsError op.Result} (h : env.exec op w reply w') :
    TraceEffect w.store.aiTraces ⟨op, reply⟩ w'.store.aiTraces := by
  have hrun : ∀ {ctx : CallContext} {r : op.Result} {reply : Reply JsError op.Result},
      op.run ctx w = some (r, w') → (∀ r', reply = .ok r' → r' = r) →
      TraceEffect w.store.aiTraces ⟨op, reply⟩ w'.store.aiTraces := by
    intro ctx r reply hrun hanswer
    cases op with
    | db c =>
        obtain ⟨s, hrun', rfl⟩ := WorkerOp.run_db hrun
        exact dbCall_traceEffect hrun' hanswer
    | _ =>
        rw [WorkerOp.run_store hrun (by simp)]
        exact .same fun data row heq => by cases heq
  rcases Environment.exec_cases h with ⟨rfl, e, rfl, -⟩ | ⟨ctx, r, hrun', ⟨rfl, -⟩ | ⟨e, rfl, -⟩⟩
  · exact .same fun data row heq => by cases heq
  · exact hrun hrun' fun r' h => (Reply.ok.inj h).symm
  · exact hrun hrun' fun r' h => by cases h

theorem TraceEffect.subset {traces traces' : List WorkflowAiTrace} {ev : WorkerEvent}
    (h : TraceEffect traces ev traces') : traces ⊆ traces' := by
  cases h with
  | same => exact List.Subset.refl _
  | created => exact List.subset_append_left _ _

theorem TraceEffect.nodup {traces traces' : List WorkflowAiTrace} {ev : WorkerEvent}
    (h : TraceEffect traces ev traces') (hids : (traces.map (·.id)).Nodup) :
    (traces'.map (·.id)).Nodup := by
  cases h with
  | same => exact hids
  | created _ hfresh _ => exact Table.nodup_insert hids hfresh

/-- What a call of `createAiTrace` is answered with is in the table. -/
theorem TraceEffect.answer {traces traces' : List WorkflowAiTrace}
    {data : WorkflowAiTraceCreateData} {row : WorkflowAiTrace}
    (h : TraceEffect traces ⟨.db (.createAiTrace data), .ok row⟩ traces') :
    row ∈ traces' ∧ row.toWorkflowAiTraceCreateData = data := by
  generalize hev : (⟨.db (.createAiTrace data), .ok row⟩ : WorkerEvent) = ev at h
  cases h with
  | same hother => exact absurd hev.symm (hother data row)
  | created hdata _ hanswer =>
      cases hev
      obtain rfl := hanswer row rfl
      exact ⟨List.mem_append_right _ (List.mem_singleton_self _), hdata⟩

/-! ## The traces of events -/

/-- The event tells of the trace. -/
structure AiTraceCreatedPayload.TellsOf (trace : AiTraceCreatedPayload) (row : WorkflowAiTrace) :
    Prop where
  traceId : trace.traceId = row.id
  executionId : trace.executionId = row.workflowExecutionId
  nodeId : trace.nodeId = row.nodeId

/-- Traces have unique ids; those that threads were answered with and those
that events tell of are in the table. -/
structure TracesKept (s : WorkerPool) : Prop where
  ids : (s.world.store.aiTraces.map (·.id)).Nodup
  answered : ∀ t th, s.threads t = some th → ∀ data row,
    ⟨.db (.createAiTrace data), .ok row⟩ ∈ th.history →
      row ∈ s.world.store.aiTraces ∧ row.toWorkflowAiTraceCreateData = data
  events : ∀ message ∈ s.world.store.outbox, ∀ trace,
    message.payload.payload = .aiTraceCreated trace →
      ∃ row ∈ s.world.store.aiTraces, trace.TellsOf row

section

variable [Runtime] {env : Environment} {C : WorkerPool → WorkerLabel → Prop} {s s' : WorkerPool}
  {l : WorkerLabel}

theorem Job.program_traced : ∀ job : Job, Safe TraceOp job.program
  | .delivery message => handleDelivery_traced message
  | .outboxDispatcher => traced_of_makesNothing outboxDispatcherCycle_makesNothing

theorem ReachableUnder.traceOp (h : ReachableUnder env C s) :
    s.Conform (.ofSafe fun _ => TraceOp) :=
  Pool.Reachable.obeys (fun job => job.program_traced []) h

/-- The trace of an event that a thread is about to store. -/
theorem TracesKept.row_of_call (hkept : TracesKept s) (h : ReachableUnder env C s) {t : Nat}
    {info : Job} {history : WorkerHistory} {op : WorkerOp}
    {k : Except JsError op.Result → Worker Unit}
    (hth : s.threads t = some ⟨info, history, .call op k⟩) {message : WorkflowLifecycleMessage}
    (hstores : Stores op message) {trace : AiTraceCreatedPayload}
    (hpayload : message.payload = .aiTraceCreated trace) :
    ∃ row ∈ s.world.store.aiTraces, trace.TellsOf row := by
  obtain ⟨data, row, hcreated⟩ :=
    (ReachableUnder.traceOp h).next hth message trace hstores hpayload
  obtain ⟨hrow, rfl⟩ := hkept.answered t _ hth data row hcreated.answered
  exact ⟨row, hrow, hcreated.traceId, hcreated.executionId, hcreated.nodeId⟩

/-- The table of traces after a step. -/
theorem aiTraces_of_step (hs : Pool.Step (workerSystem env) s l s') :
    s'.world.store.aiTraces = s.world.store.aiTraces
    ∨ ∃ ev, TraceEffect s.world.store.aiTraces ev s'.world.store.aiTraces := by
  rcases tables_of_step hs with ⟨t, op, reply, rfl, hexec⟩ | ⟨-, -, -, htraces⟩
  · exact Or.inr ⟨_, exec_traceEffect hexec⟩
  · exact Or.inl htraces

theorem aiTraces_subset_of_step (hs : Pool.Step (workerSystem env) s l s') :
    s.world.store.aiTraces ⊆ s'.world.store.aiTraces := by
  rcases aiTraces_of_step hs with heq | ⟨_, heffect⟩
  · rw [heq]
    exact List.Subset.refl _
  · exact heffect.subset

theorem TracesKept.step (hkept : TracesKept s) (h : ReachableUnder env C s)
    (hs : Pool.Step (workerSystem env) s l s') : TracesKept s' where
  ids := by
    rcases aiTraces_of_step hs with heq | ⟨_, heffect⟩
    · rw [heq]
      exact hkept.ids
    · exact heffect.nodup hkept.ids
  answered t th hth data row hmem := by
    have hold : ∀ th, s.threads t = some th →
        ⟨.db (.createAiTrace data), .ok row⟩ ∈ th.history →
        row ∈ s'.world.store.aiTraces ∧ row.toWorkflowAiTraceCreateData = data :=
      fun th hth hmem =>
        (hkept.answered t th hth data row hmem).imp_left fun hrow => aiTraces_subset_of_step hs hrow
    rcases hs.thread_cases hth with
      hsame | ⟨info, -, -, rfl⟩ | ⟨info, history, op, k, reply, -, hbefore, hexec, rfl⟩
    · exact hold th hsame hmem
    · cases hmem
    · rcases List.mem_append.mp hmem with hmem | hmem
      · exact hold _ hbefore hmem
      · have heffect := exec_traceEffect hexec
        cases List.mem_singleton.mp hmem
        exact heffect.answer
  events message hmessage trace hpayload := by
    have hold : ∀ message ∈ s.world.store.outbox,
        message.payload.payload = .aiTraceCreated trace →
        ∃ row ∈ s'.world.store.aiTraces, trace.TellsOf row := by
      intro message hmessage hpayload
      obtain ⟨row, hrow, htells⟩ := hkept.events message hmessage trace hpayload
      exact ⟨row, aiTraces_subset_of_step hs hrow, htells⟩
    rcases outboxEffect_of_step hs with ⟨heq, -⟩ | ⟨t, op, reply, rfl, heffect⟩
    · exact hold message (heq ▸ hmessage) hpayload
    · rcases heffect.origin hmessage with
        hsame | ⟨ctx, routingKey, stored, hstores, rfl⟩ | ⟨before, hbefore, data, -, -, rfl⟩
      · exact hold message hsame hpayload
      · obtain ⟨_, _, _, hth, -, -⟩ := hs.act_cases
        obtain ⟨row, hrow, htells⟩ := hkept.row_of_call h hth hstores hpayload
        exact ⟨row, aiTraces_subset_of_step hs hrow, htells⟩
      · rw [data.apply_payload] at hpayload
        exact hold before hbefore hpayload

theorem ReachableUnder.tracesKept (h : ReachableUnder env C s) : TracesKept s := by
  induction h with
  | start hw =>
      subst hw
      refine ⟨List.nodup_nil, fun t th hth => ?_, fun message hmessage => ?_⟩
      · cases hth
      · cases hmessage
  | step hreach _ hs ih => exact ih.step hreach hs

/-! ## The row under a key -/

/-- An event that is stored has ids of its execution and its trace without a
colon. -/
def StoresColonFree (_ : WorkerPool) (l : WorkerLabel) : Prop :=
  ∀ t op reply message, l = .act t ⟨op, reply⟩ → Stores op message → message.payload.ColonFree

theorem ReachableUnder.colonFree (h : ReachableUnder env StoresColonFree s) :
    ∀ row ∈ s.world.store.outbox, row.payload.payload.ColonFree := by
  induction h with
  | start hw =>
      subst hw
      exact fun row hrow => by cases hrow
  | step _ hc hs ih =>
      intro row' hrow'
      rcases outboxEffect_of_step hs with ⟨heq, -⟩ | ⟨t, op, reply, hl, heffect⟩
      · exact ih row' (heq ▸ hrow')
      · rcases heffect.origin hrow' with
          hrow | ⟨ctx, routingKey, message, hstores, rfl⟩ | ⟨row, hrow, data, -, -, rfl⟩
        · exact ih row' hrow
        · exact hc t op reply message hl hstores
        · rw [data.apply_payload]
          exact ih row hrow

omit [Runtime] in
/-- Two trace events of one trace are events of one node. -/
theorem AiTraceCreatedPayload.TellsOf.unique {traces : List WorkflowAiTrace}
    (hids : (traces.map (·.id)).Nodup) {trace trace' : AiTraceCreatedPayload}
    (h : ∃ row ∈ traces, trace.TellsOf row) (h' : ∃ row ∈ traces, trace'.TellsOf row)
    (hid : trace.traceId = trace'.traceId) :
    trace.executionId = trace'.executionId ∧ trace.nodeId = trace'.nodeId := by
  obtain ⟨row, hrow, htells⟩ := h
  obtain ⟨row', hrow', htells'⟩ := h'
  obtain rfl : row = row' := List.inj_on_of_nodup_map hids hrow hrow'
    (htells.traceId.symm.trans (hid.trans htells'.traceId))
  exact ⟨htells.executionId.trans htells'.executionId.symm,
    htells.nodeId.trans htells'.nodeId.symm⟩

omit [Runtime] in
/-- Two events of one name with the same ids in their keys, whose traces are
in the table. -/
theorem ids_of_keyIds_of_traces {traces : List WorkflowAiTrace}
    (hids : (traces.map (·.id)).Nodup) {payload payload' : LifecyclePayload}
    (htrace : ∀ trace, payload = .aiTraceCreated trace → ∃ row ∈ traces, trace.TellsOf row)
    (htrace' : ∀ trace, payload' = .aiTraceCreated trace → ∃ row ∈ traces, trace.TellsOf row)
    (hname : payload.eventName = payload'.eventName) (hkeyIds : payload.keyIds = payload'.keyIds) :
    payload.executionId = payload'.executionId ∧ payload.nodeId = payload'.nodeId
    ∧ payload.traceId = payload'.traceId := by
  obtain ⟨htraceId, hothers⟩ := LifecyclePayload.ids_of_keyIds hname hkeyIds
  cases hsome : payload.traceId with
  | none =>
      obtain ⟨hexecution, hnode⟩ := hothers hsome
      exact ⟨hexecution, hnode, hsome ▸ htraceId⟩
  | some traceId =>
      obtain ⟨trace, rfl, rfl⟩ := LifecyclePayload.exists_of_traceId hsome
      obtain ⟨trace', rfl, hid⟩ := LifecyclePayload.exists_of_traceId (htraceId.symm.trans hsome)
      obtain ⟨hexecution, hnode⟩ := AiTraceCreatedPayload.TellsOf.unique hids (htrace trace rfl)
        (htrace' trace' rfl) hid.symm
      exact ⟨hexecution, congrArg some hnode, hsome ▸ htraceId⟩

/-- **Keys tell events apart.** Two messages of the seven constructors have
one key only if they are events of one name about the same ids. So an event
that is about to be stored in a reachable state is stored, or the row under
its key holds an event of its name about the same execution, node and trace.
The upsert may be part of a transaction that has changed other tables. -/
theorem outbox_keys_injective (env : Environment) :
    (∀ m m' message message', CreatedFor m message → CreatedFor m' message' →
      message.payload.ColonFree → message'.payload.ColonFree →
      message.idempotencyKey = message'.idempotencyKey →
      message.eventName = message'.eventName
      ∧ message.payload.keyIds = message'.payload.keyIds)
    ∧ ∀ s, ReachableUnder env StoresColonFree s → ∀ t info history op k message,
      s.threads t = some ⟨info, history, .call op k⟩ → Stores op message →
      message.payload.ColonFree → ∀ ctx routingKey row store store',
      store.outbox = s.world.store.outbox →
      Store.upsertOutbox store ctx routingKey message = some (row, store') →
      row.payload = message
      ∨ row ∈ s.world.store.outbox ∧ row.eventName = message.eventName
        ∧ row.payload.payload.executionId = message.payload.executionId
        ∧ row.payload.payload.nodeId = message.payload.nodeId
        ∧ row.payload.payload.traceId = message.payload.traceId := by
  have hinj : ∀ {message message' : WorkflowLifecycleMessage}, message.Keyed → message'.Keyed →
      message.payload.ColonFree → message'.payload.ColonFree →
      message.idempotencyKey = message'.idempotencyKey →
      message.eventName = message'.eventName
      ∧ message.payload.keyIds = message'.payload.keyIds := by
    intro message message' hkeyed hkeyed' hfree hfree' hkey
    rw [hkeyed.idempotencyKey, hkeyed'.idempotencyKey] at hkey
    rw [hkeyed.eventName, hkeyed'.eventName]
    exact LifecyclePayload.idempotencyKey_inj hfree hfree' hkey
  refine ⟨fun m m' message message' hcreated hcreated' => hinj hcreated.keyed hcreated'.keyed, ?_⟩
  intro s hs t info history op k message hth hstores hfree ctx routingKey row store store' houtbox
    hupsert
  rcases Store.upsertOutbox_cases hupsert with ⟨-, hrow, hkey⟩ | ⟨-, rfl, -⟩
  · rw [houtbox] at hrow
    have hkeyed := ((ReachableUnder.outboxOp hs).next hth |>.eventOf hstores).toKeyed
    have hrowKeyed := ReachableUnder.keyed hs row hrow
    have hkept := ReachableUnder.tracesKept hs
    obtain ⟨hname, hkeyIds⟩ := hinj hrowKeyed hkeyed (ReachableUnder.colonFree hs row hrow) hfree
      (row.idempotencyKey_eq.symm.trans hkey)
    refine Or.inr ⟨hrow, row.eventName_eq.trans hname, ?_⟩
    exact ids_of_keyIds_of_traces hkept.ids (hkept.events row hrow)
      (fun trace hpayload => hkept.row_of_call hs hth hstores hpayload)
      (hrowKeyed.eventName.symm.trans (hname.trans hkeyed.eventName)) hkeyIds
  · exact Or.inl rfl

end

/-- The step stores no event with a colon in an id. -/
def storesColonFree : WorkerLabel → Bool
  | .act _ ⟨.db (.upsertOutbox _ message), _⟩ => message.payload.ColonFree
  | .act _ ⟨.db (.transaction t), _⟩ => t.message.payload.ColonFree
  | _ => true

theorem storesColonFree_sound (s : WorkerPool) (l : WorkerLabel) (h : storesColonFree l = true) :
    StoresColonFree s l := by
  rintro t op reply message rfl hstores
  cases hstores with
  | upsert => exact of_decide_eq_true h
  | transaction => exact of_decide_eq_true h

/-- Thread `t` is about to store an event that is stored. -/
def storesAgain (t : Nat) (s : WorkerPool) : Bool :=
  match s.threads t with
  | some ⟨_, _, .call (.db (.upsertOutbox _ message)) _⟩ =>
      message.payload.ColonFree
        && s.world.store.outbox.any (·.idempotencyKey = message.idempotencyKey)
  | _ => false

theorem exists_call_of_storesAgain {t : Nat} {s : WorkerPool} (h : storesAgain t s = true) :
    ∃ info history routingKey message k,
      s.threads t = some ⟨info, history, .call (.db (.upsertOutbox routingKey message)) k⟩
      ∧ message.payload.ColonFree
      ∧ ∃ row, ∀ ctx, s.world.store.upsertOutbox ctx routingKey message
        = some (row, s.world.store) := by
  unfold storesAgain at h
  split at h
  · rename_i info history routingKey message k hth
    obtain ⟨hfree, hany⟩ := (Bool.and_eq_true _ _).mp h
    refine ⟨info, history, routingKey, message, k, hth, of_decide_eq_true hfree, ?_⟩
    obtain ⟨row, hfind⟩ := Option.isSome_iff_exists.mp (List.find?_isSome.mpr
      (List.any_eq_true.mp hany))
    exact ⟨row, fun ctx => by rw [Store.upsertOutbox, hfind]⟩
  · cases h

/-- The theorem for a started event that is built twice, and for the second
delivery of a command, which finds its execution running and is about to
store that event again. -/
theorem outbox_keys_injective_resumed :
    ∃ (_ : Runtime) (s : WorkerPool) (message : WorkflowLifecycleMessage) (row : OutboxMessage),
      ReachableUnder (openEnvironment (newRow defaultWorkflowDefinition)) StoresColonFree s
      ∧ (∃ ctx routingKey,
        s.world.store.upsertOutbox ctx routingKey message = some (row, s.world.store))
      ∧ (row.payload = message ∨ row ∈ s.world.store.outbox ∧ row.eventName = message.eventName
        ∧ row.payload.payload.executionId = message.payload.executionId
        ∧ row.payload.payload.nodeId = message.payload.nodeId
        ∧ row.payload.payload.traceId = message.payload.traceId)
      ∧ (createWorkflowExecutionStartedMessage (newCommand .null) "a"
          (toISOString 0)).payload.keyIds
        = (createWorkflowExecutionStartedMessage (newCommand .null) "b"
          (toISOString 1)).payload.keyIds := by
  let _ : Runtime := .sample false
  obtain ⟨s, labels, s', hs, -, hP⟩ := exists_run_of_turns defaultWorkflowDefinition
    [.arrive (newMessage defaultWorkflowDefinition), .deliver 0, .run 0 4 0 fun _ => true,
      .deliver 1, .run 1 3 10 fun _ => true] [] storesColonFree
    (fun s => storesColonFree_sound s .env rfl) storesColonFree_sound
    (P := fun _ s _ => storesAgain 1 s) (by decide +kernel)
  obtain ⟨info, history, routingKey, message, k, hth, hfree, row, hupsert⟩ :=
    exists_call_of_storesAgain hP
  obtain ⟨hbuilt, hstored⟩ :=
    outbox_keys_injective (openEnvironment (newRow defaultWorkflowDefinition))
  have hsame := hstored s hs 1 info history _ k message hth (.upsert routingKey message) hfree
    (scriptContext (fun _ => true) 0).toDbContext routingKey row _ _ rfl (hupsert _)
  have hids := hbuilt (newCommand .null) (newCommand .null) _ _ (.executionStarted "a" 0)
    (.executionStarted "b" 1) (by decide) (by decide) rfl
  exact ⟨_, s, message, row, hs,
    ⟨(scriptContext (fun _ => true) 0).toDbContext, routingKey, hupsert _⟩, hsame, hids.2⟩

end FlowPilot
