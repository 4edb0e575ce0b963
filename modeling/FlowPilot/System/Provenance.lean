import FlowPilot.System.OutboxRows
import FlowPilot.Worker.Provenance

/-!
# Where the rows come from

What a delivery adds to the store is made from its command (`AddsFor`): one
call adds at most one row, rows that were there keep their ids, and so the
run of a delivery adds rows of its command only. In a reachable state every
row of the outbox was created for some command, under the name of its event.
-/

namespace FlowPilot

open Prog hiding pure throw bind tryCatch

/-! ## Rows of a command -/

namespace WorkflowNodeExecution

/-- The row carries the ids of the command. -/
structure RowOf (m : WorkflowExecutionRequestedMessage) (row : WorkflowNodeExecution) : Prop where
  workspaceId : row.workspaceId = m.workspaceId
  workflowId : row.workflowId = m.workflowId
  executionId : row.executionId = m.executionId

/-- The later row is the same row, with the same ids. -/
structure SameIds (row later : WorkflowNodeExecution) : Prop where
  id : later.id = row.id
  workspaceId : later.workspaceId = row.workspaceId
  workflowId : later.workflowId = row.workflowId
  executionId : later.executionId = row.executionId

theorem SameIds.refl (row : WorkflowNodeExecution) : row.SameIds row := ⟨rfl, rfl, rfl, rfl⟩

theorem SameIds.trans {row later latest : WorkflowNodeExecution} (h : row.SameIds later)
    (h' : later.SameIds latest) : row.SameIds latest :=
  ⟨h'.id.trans h.id, h'.workspaceId.trans h.workspaceId, h'.workflowId.trans h.workflowId,
    h'.executionId.trans h.executionId⟩

theorem SameIds.rowOf {m : WorkflowExecutionRequestedMessage} {row later : WorkflowNodeExecution}
    (h : row.SameIds later) (hrow : row.RowOf m) : later.RowOf m :=
  ⟨h.workspaceId.trans hrow.workspaceId, h.workflowId.trans hrow.workflowId,
    h.executionId.trans hrow.executionId⟩

theorem sameIds_apply (data : NodeExecutionUpdate) (row : WorkflowNodeExecution) :
    row.SameIds (data.apply row) := by
  cases data <;> exact ⟨rfl, rfl, rfl, rfl⟩

end WorkflowNodeExecution

theorem SameEvent.trans {row later latest : OutboxMessage} (h : SameEvent row later)
    (h' : SameEvent later latest) : SameEvent row latest := by
  unfold SameEvent at h h' ⊢
  rw [h', h]

/-- The event was built for the command and is stored under its name. -/
structure OutboxMessage.CreatedFor (m : WorkflowExecutionRequestedMessage) (row : OutboxMessage) :
    Prop where
  payload : FlowPilot.CreatedFor m row.payload
  routingKey : row.routingKey = row.payload.eventName

theorem OutboxMessage.CreatedFor.sameEvent {m : WorkflowExecutionRequestedMessage}
    {row later : OutboxMessage} (h : SameEvent row later) (hrow : row.CreatedFor m) :
    later.CreatedFor m := by
  rw [h]
  exact ⟨hrow.payload, hrow.routingKey⟩

/-! ## What is added -/

/-- Every row of the later store was there before, or is one of the
command. -/
structure Store.AddsFor (m : WorkflowExecutionRequestedMessage) (s s' : Store) : Prop where
  nodeExecutions : ∀ later ∈ s'.nodeExecutions,
    (∃ row ∈ s.nodeExecutions, row.SameIds later) ∨ later.RowOf m
  aiTraces : ∀ later ∈ s'.aiTraces,
    later ∈ s.aiTraces ∨ later.toWorkflowAiTraceCreateData.TraceOf m
  outbox : ∀ later ∈ s'.outbox, (∃ row ∈ s.outbox, SameEvent row later) ∨ later.CreatedFor m

namespace Store

variable {m : WorkflowExecutionRequestedMessage} {s s' s'' : Store} {ctx : DbContext}

/-- Tables that are the same. -/
theorem AddsFor.of_eq (hnodes : s'.nodeExecutions = s.nodeExecutions)
    (htraces : s'.aiTraces = s.aiTraces) (houtbox : s'.outbox = s.outbox) : s.AddsFor m s' where
  nodeExecutions later hlater := Or.inl ⟨later, hnodes ▸ hlater, .refl later⟩
  aiTraces _ hlater := Or.inl (htraces ▸ hlater)
  outbox later hlater := Or.inl ⟨later, houtbox ▸ hlater, .refl later⟩

theorem AddsFor.refl (m : WorkflowExecutionRequestedMessage) (s : Store) : s.AddsFor m s :=
  .of_eq rfl rfl rfl

theorem AddsFor.trans (h : s.AddsFor m s') (h' : s'.AddsFor m s'') : s.AddsFor m s'' where
  nodeExecutions latest hlatest := by
    rcases h'.nodeExecutions latest hlatest with ⟨later, hlater, hsame⟩ | hrow
    · rcases h.nodeExecutions later hlater with ⟨row, hmem, hrow⟩ | hrow
      · exact Or.inl ⟨row, hmem, hrow.trans hsame⟩
      · exact Or.inr (hsame.rowOf hrow)
    · exact Or.inr hrow
  aiTraces latest hlatest := (h'.aiTraces latest hlatest).elim (h.aiTraces latest) Or.inr
  outbox latest hlatest := by
    rcases h'.outbox latest hlatest with ⟨later, hlater, hsame⟩ | hrow
    · rcases h.outbox later hlater with ⟨row, hmem, hrow⟩ | hrow
      · exact Or.inl ⟨row, hmem, hrow.trans hsame⟩
      · exact Or.inr (hrow.sameEvent hsame)
    · exact Or.inr hrow

theorem upsertOutbox_addsFor {routingKey : FlowPilotRoutingKey}
    {message : WorkflowLifecycleMessage} {row : OutboxMessage}
    (hmessage : CreatedFor m message ∧ routingKey = message.eventName)
    (h : s.upsertOutbox ctx routingKey message = some (row, s')) : s.AddsFor m s' := by
  rcases upsertOutbox_cases h with ⟨rfl, -⟩ | ⟨rfl, rfl, -⟩
  · exact .refl m _
  · refine ⟨fun later hlater => Or.inl ⟨later, hlater, .refl later⟩,
      fun later hlater => Or.inl hlater, fun later hlater => ?_⟩
    rcases List.mem_append.mp hlater with hlater | hlater
    · exact Or.inl ⟨later, hlater, .refl later⟩
    · obtain rfl := List.mem_singleton.mp hlater
      exact Or.inr ⟨hmessage.1, hmessage.2⟩

theorem upsertRunningNode_addsFor {node : WorkflowNode} {input : Record} {startedAt : Int}
    {row : WorkflowNodeExecution}
    (h : s.upsertRunningNode ctx m node input startedAt = some (row, s')) : s.AddsFor m s' := by
  simp only [upsertRunningNode] at h
  split at h
  · cases h
    refine ⟨fun later hlater => ?_, fun later hlater => Or.inl hlater,
      fun later hlater => Or.inl ⟨later, hlater, .refl later⟩⟩
    obtain ⟨row, hrow, rfl⟩ := List.mem_map.mp hlater
    refine Or.inl ⟨row, hrow, ?_⟩
    split
    · exact ⟨rfl, rfl, rfl, rfl⟩
    · exact .refl row
  · split at h
    · cases h
    · cases h
      refine ⟨fun later hlater => ?_, fun later hlater => Or.inl hlater,
        fun later hlater => Or.inl ⟨later, hlater, .refl later⟩⟩
      rcases List.mem_append.mp hlater with hlater | hlater
      · exact Or.inl ⟨later, hlater, .refl later⟩
      · obtain rfl := List.mem_singleton.mp hlater
        exact Or.inr ⟨rfl, rfl, rfl⟩

end Store

/-! ## Calls -/

section

variable {m : WorkflowExecutionRequestedMessage}

theorem DbCall.addsFor {c : DbCall} {ctx : DbContext} {s s' : Store} {r : c.Result}
    (hc : MadeFor m (.db c)) (h : c.run ctx s = some (r, s')) : s.AddsFor m s' := by
  cases c with
  | findExecution id =>
      cases h
      exact .refl m _
  | transaction t =>
      rcases runTransaction_cases h with ⟨-, rfl, -⟩ | ⟨row, outboxRow, -, -, -, hupsert⟩
      · exact .refl m _
      · have hadds := Store.upsertOutbox_addsFor hc hupsert
        exact ⟨hadds.nodeExecutions, hadds.aiTraces, hadds.outbox⟩
  | upsertOutbox routingKey message => exact Store.upsertOutbox_addsFor hc h
  | updateOutbox id data =>
      rw [DbCall.run_updateOutbox h]
      refine ⟨fun later hlater => Or.inl ⟨later, hlater, .refl later⟩,
        fun later hlater => Or.inl hlater, fun later hlater => ?_⟩
      rcases Table.mem_update.mp hlater with ⟨hlater, -⟩ | ⟨row, hrow, -, rfl⟩
      · exact Or.inl ⟨later, hlater, .refl later⟩
      · exact Or.inl ⟨row, hrow, (SameEvent.refl row).apply data⟩
  | findOutbox filter take =>
      cases h
      exact .refl m _
  | upsertRunningNode m' node input startedAt =>
      obtain rfl : m' = m := hc
      exact Store.upsertRunningNode_addsFor h
  | updateNode id data =>
      simp only [DbCall.run] at h
      split at h
      · cases h
        refine ⟨fun later hlater => ?_, fun later hlater => Or.inl hlater,
          fun later hlater => Or.inl ⟨later, hlater, .refl later⟩⟩
        rcases Table.mem_update.mp hlater with ⟨hlater, -⟩ | ⟨row, hrow, -, rfl⟩
        · exact Or.inl ⟨later, hlater, .refl later⟩
        · exact Or.inl ⟨row, hrow, WorkflowNodeExecution.sameIds_apply data row⟩
      · cases h
  | createAiTrace data =>
      simp only [DbCall.run] at h
      split at h
      · cases h
      · cases h
        refine ⟨fun later hlater => Or.inl ⟨later, hlater, .refl later⟩, fun later hlater => ?_,
          fun later hlater => Or.inl ⟨later, hlater, .refl later⟩⟩
        rcases List.mem_append.mp hlater with hlater | hlater
        · exact Or.inl hlater
        · obtain rfl := List.mem_singleton.mp hlater
          exact Or.inr hc

theorem Environment.exec_addsFor {env : Environment} {op : WorkerOp} {w w' : World}
    {reply : Reply JsError op.Result} (hop : MadeFor m op) (h : env.exec op w reply w') :
    w.store.AddsFor m w'.store := by
  rcases Environment.exec_cases h with ⟨rfl, -⟩ | ⟨ctx, r, hrun, -⟩
  · exact .refl m _
  · by_cases hdb : ∃ c, op = .db c
    · obtain ⟨c, rfl⟩ := hdb
      obtain ⟨s, hcall, rfl⟩ := WorkerOp.run_db hrun
      exact DbCall.addsFor hop hcall
    · rw [WorkerOp.run_store hrun fun c hc => hdb ⟨c, hc⟩]
      exact .refl m _

/-- A run of calls that are made for the command. -/
theorem replays_addsFor {env : Environment} : ∀ {events : WorkerHistory} {w w' : World},
    (∀ ev ∈ events, MadeFor m ev.op) → Replays env.exec w events w' →
      w.store.AddsFor m w'.store
  | [], _, _, _, h => by
      rw [h]
      exact .refl m _
  | ev :: events, w, w', hops, ⟨w₁, hexec, hreplays⟩ => by
      obtain ⟨hop, hrest⟩ := List.forall_mem_cons.mp hops
      exact (Environment.exec_addsFor hop hexec).trans (replays_addsFor hrest hreplays)

end

/-! ## Reachable states -/

section

variable [Runtime] {env : Environment} {C : WorkerPool → WorkerLabel → Prop} {s s' : WorkerPool}
  {l : WorkerLabel}

/-- What a thread may make. -/
def Job.Makes : Job → WorkerOp → Prop
  | .delivery message => DeliveryMakes message
  | .outboxDispatcher => MakesNothing

theorem Job.program_makes : ∀ job : Job, Issues job.Makes job.program
  | .delivery message => handleDelivery_makes message
  | .outboxDispatcher => outboxDispatcherCycle_makesNothing

omit [Runtime] in
/-- Whatever a thread makes is made for some command. -/
theorem Job.Makes.exists_madeFor {job : Job} {op : WorkerOp} (h : job.Makes op) :
    ∃ m, MadeFor m op := by
  cases job with
  | delivery message =>
      simp only [Job.Makes, DeliveryMakes] at h
      split at h
      · exact ⟨_, h⟩
      · exact ⟨newCommand .null, h.madeFor _⟩
  | outboxDispatcher => exact ⟨newCommand .null, h.madeFor _⟩

theorem ReachableUnder.makes (h : ReachableUnder env C s) :
    s.Conform (.ofSafe fun job _ op => job.Makes op) :=
  Pool.Reachable.obeys (fun job => safe_of_spec job.program_makes (fun _ _ hop => hop) []) h

/-- Every event of the outbox was created for some command. -/
theorem ReachableUnder.created (h : ReachableUnder env C s) :
    ∀ row ∈ s.world.store.outbox, ∃ m, row.CreatedFor m := by
  induction h with
  | start hw =>
      subst hw
      exact fun row hrow => by cases hrow
  | @step s s' l hreach _ hs ih =>
      intro later hlater
      rcases workerStep_cases hs with
        ⟨t, info, h, op, k, reply, -, hth, hexec, -⟩ | ⟨rfl, -⟩ | ⟨-, commands, hworld⟩
      · obtain ⟨m, hm⟩ := ((ReachableUnder.makes hreach).next hth).exists_madeFor
        rcases (Environment.exec_addsFor hm hexec).outbox later hlater with
          ⟨row, hrow, hsame⟩ | hcreated
        · obtain ⟨m', hcreated⟩ := ih row hrow
          exact ⟨m', hcreated.sameEvent hsame⟩
        · exact ⟨m, hcreated⟩
      · rcases outboxEffect_of_step hs with ⟨heq, -⟩ | ⟨_, _, _, hl, -⟩
        · exact ih later (heq ▸ hlater)
        · cases hl
      · rw [hworld] at hlater
        exact ih later hlater

end

end FlowPilot
