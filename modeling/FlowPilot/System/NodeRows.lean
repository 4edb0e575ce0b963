import FlowPilot.Lib.Table
import FlowPilot.System.Commands
import FlowPilot.Worker.NodeProgress

/-!
# The rows of the nodes

What a call does to the table of node rows, and which thread makes it. Rows
are identified by their id and by execution and node; a call touches one row
at most, and a delivery touches only rows of the execution of its command.
-/

namespace FlowPilot

open Prog hiding pure throw bind tryCatch

/-! ## Calls and the rows of nodes -/

namespace WorkflowNodeExecution

/-- The row of a node of an execution. -/
abbrev IsOf (row : WorkflowNodeExecution) (executionId nodeId : String) : Prop :=
  row.executionId = executionId ∧ row.nodeId = nodeId

/-- The `update` of the upsert that sets a row running. -/
def restart (input : Record) (startedAt : Int) (row : WorkflowNodeExecution) :
    WorkflowNodeExecution :=
  { row with
    status := .running, input, output := none, error := none, startedAt
    completedAt := none }

/-- Both are the same row, perhaps at different times. -/
structure SameRow (row row' : WorkflowNodeExecution) : Prop where
  id : row'.id = row.id
  executionId : row'.executionId = row.executionId
  nodeId : row'.nodeId = row.nodeId

theorem SameRow.refl (row : WorkflowNodeExecution) : SameRow row row := ⟨rfl, rfl, rfl⟩

theorem sameRow_restart (input : Record) (startedAt : Int) (row : WorkflowNodeExecution) :
    SameRow row (row.restart input startedAt) := ⟨rfl, rfl, rfl⟩

theorem sameRow_apply (data : NodeExecutionUpdate) (row : WorkflowNodeExecution) :
    SameRow row (data.apply row) := by
  cases data <;> exact ⟨rfl, rfl, rfl⟩

end WorkflowNodeExecution

open WorkflowNodeExecution (SameRow restart sameRow_restart sameRow_apply)

/-- An update ends a row. -/
theorem NodeExecutionUpdate.apply_status (data : NodeExecutionUpdate)
    (row : WorkflowNodeExecution) :
    (data.apply row).status = if data.completes then .succeeded else .failed := by
  cases data <;> rfl

/-- What a call does to the rows of nodes. -/
inductive NodeEffect (rows : List WorkflowNodeExecution) :
    WorkerEvent → List WorkflowNodeExecution → Prop
  | same {ev : WorkerEvent} : (ev.reply.applied = true → ¬ WritesNode ev.op) →
      NodeEffect rows ev rows
  | created {m : WorkflowExecutionRequestedMessage} {node : WorkflowNode} {input : Record}
      {startedAt : Int} {reply : Reply JsError WorkflowNodeExecution}
      {row : WorkflowNodeExecution} : reply.applied = true → (∀ r, reply = .ok r → r = row) →
      row.IsOf m.executionId node.id → row.status = .running →
      (∀ r ∈ rows, ¬ r.IsOf m.executionId node.id) → (∀ r ∈ rows, r.id ≠ row.id) →
      NodeEffect rows ⟨.db (.upsertRunningNode m node input startedAt), reply⟩ (rows ++ [row])
  | restarted {m : WorkflowExecutionRequestedMessage} {node : WorkflowNode} {input : Record}
      {startedAt : Int} {reply : Reply JsError WorkflowNodeExecution}
      {row : WorkflowNodeExecution} : reply.applied = true →
      (∀ r, reply = .ok r → r = row.restart input startedAt) →
      row ∈ rows → row.IsOf m.executionId node.id →
      NodeEffect rows ⟨.db (.upsertRunningNode m node input startedAt), reply⟩
        (rows.map fun r => if r.IsOf m.executionId node.id then r.restart input startedAt else r)
  | updated {id : String} {data : NodeExecutionUpdate} {reply : Reply JsError Unit} :
      reply.applied = true →
      NodeEffect rows ⟨.db (.updateNode id data), reply⟩
        (rows.map fun r => if r.id = id then data.apply r else r)

theorem Store.upsertOutbox_nodeExecutions {s s' : Store} {ctx : DbContext}
    {routingKey : FlowPilotRoutingKey} {message : WorkflowLifecycleMessage} {row : OutboxMessage}
    (h : s.upsertOutbox ctx routingKey message = some (row, s')) :
    s'.nodeExecutions = s.nodeExecutions := by
  rcases upsertOutbox_cases h with ⟨rfl, -⟩ | ⟨rfl, -⟩ <;> rfl

/-- The other calls leave the rows of nodes as they were. -/
theorem run_nodeExecutions {c : DbCall} {ctx : DbContext} {s s' : Store} {r : c.Result}
    (h : c.run ctx s = some (r, s')) (hwrites : ¬ WritesNode (.db c)) :
    s'.nodeExecutions = s.nodeExecutions := by
  cases c with
  | findExecution id =>
      cases h
      rfl
  | transaction t =>
      rcases runTransaction_cases h with ⟨-, rfl, -⟩ | ⟨row, outboxRow, -, -, -, hupsert⟩
      · rfl
      · have hkept := Store.upsertOutbox_nodeExecutions hupsert
        exact hkept
  | upsertOutbox routingKey message => exact Store.upsertOutbox_nodeExecutions h
  | updateOutbox id data => rw [DbCall.run_updateOutbox h]
  | findOutbox filter take =>
      cases h
      rfl
  | upsertRunningNode m node input startedAt => exact absurd trivial hwrites
  | updateNode id data => exact absurd trivial hwrites
  | createAiTrace data =>
      simp only [DbCall.run] at h
      split at h
      · cases h
      · cases h
        rfl

theorem dbCall_nodeEffect {c : DbCall} {ctx : DbContext} {s s' : Store} {r : c.Result}
    {reply : Reply JsError c.Result} (h : c.run ctx s = some (r, s'))
    (happlied : reply.applied = true) (hanswer : ∀ r', reply = .ok r' → r' = r) :
    NodeEffect s.nodeExecutions ⟨.db c, reply⟩ s'.nodeExecutions := by
  cases c with
  | upsertRunningNode m node input startedAt =>
      simp only [DbCall.run, Store.upsertRunningNode] at h
      split at h
      · rename_i row hfound
        obtain ⟨rfl, rfl⟩ := Prod.mk.inj (Option.some.inj h)
        have hrow : row.IsOf m.executionId node.id := by simpa using List.find?_some hfound
        have heffect := NodeEffect.restarted happlied hanswer
          (List.mem_of_find?_eq_some hfound) hrow
        simpa [restart] using heffect
      · rename_i hnone
        split at h
        · cases h
        · rename_i hfresh
          obtain ⟨rfl, rfl⟩ := Prod.mk.inj (Option.some.inj h)
          refine .created happlied hanswer ⟨rfl, rfl⟩ rfl (fun r hr => ?_) fun r hr => ?_
          · simpa using List.find?_eq_none.mp hnone r hr
          · simp only [Bool.not_eq_true, List.any_eq_false, decide_eq_true_eq] at hfresh
            exact hfresh r hr
  | updateNode id data =>
      simp only [DbCall.run] at h
      split at h
      · cases h
        exact .updated happlied
      · cases h
  | _ =>
      rw [run_nodeExecutions h fun hwrites => hwrites]
      exact .same fun _ hwrites => hwrites

/-- Every call against the world has such an effect. -/
theorem exec_nodeEffect {env : Environment} {op : WorkerOp} {w w' : World}
    {reply : Reply JsError op.Result} (h : env.exec op w reply w') :
    NodeEffect w.store.nodeExecutions ⟨op, reply⟩ w'.store.nodeExecutions := by
  have hrun : ∀ {ctx : CallContext} {r : op.Result} {reply : Reply JsError op.Result},
      op.run ctx w = some (r, w') → reply.applied = true → (∀ r', reply = .ok r' → r' = r) →
      NodeEffect w.store.nodeExecutions ⟨op, reply⟩ w'.store.nodeExecutions := by
    intro ctx r reply hrun happlied hanswer
    cases op with
    | db c =>
        obtain ⟨s, hrun', rfl⟩ := WorkerOp.run_db hrun
        exact dbCall_nodeEffect hrun' happlied hanswer
    | _ =>
        rw [WorkerOp.run_store hrun (by simp)]
        exact .same fun _ h => h
  rcases Environment.exec_cases h with ⟨rfl, e, rfl, -⟩ | ⟨ctx, r, hrun', ⟨rfl, -⟩ | ⟨e, rfl, -⟩⟩
  · exact .same fun h => by cases h
  · exact hrun hrun' rfl fun r' h => (Reply.ok.inj h).symm
  · exact hrun hrun' rfl fun r' h => by cases h

/-! ## Identity of rows -/

/-- No two rows share their id, or their execution and node. -/
structure UniqueNodes (rows : List WorkflowNodeExecution) : Prop where
  ids : (rows.map (·.id)).Nodup
  keys : (rows.map fun r => (r.executionId, r.nodeId)).Nodup

/-- The call changes this row. -/
def Touches (ev : WorkerEvent) (row : WorkflowNodeExecution) : Prop :=
  ev.reply.applied = true ∧ match ev.op with
    | .db (.upsertRunningNode m node _ _) => row.IsOf m.executionId node.id
    | .db (.updateNode id _) => row.id = id
    | _ => False

section

variable {rows rows' : List WorkflowNodeExecution} {row row' : WorkflowNodeExecution}
  {ev : WorkerEvent}

theorem UniqueNodes.eq_of_id (h : UniqueNodes rows) (hrow : row ∈ rows) (hrow' : row' ∈ rows)
    (hid : row.id = row'.id) : row = row' :=
  List.inj_on_of_nodup_map h.ids hrow hrow' hid

theorem UniqueNodes.eq_of_isOf (h : UniqueNodes rows) (hrow : row ∈ rows) (hrow' : row' ∈ rows)
    {x nodeId : String} (hof : row.IsOf x nodeId) (hof' : row'.IsOf x nodeId) : row = row' :=
  List.inj_on_of_nodup_map h.keys hrow hrow'
    (Prod.ext (hof.1.trans hof'.1.symm) (hof.2.trans hof'.2.symm))

theorem Touches.writes (h : Touches ev row) : WritesNode ev.op := by
  obtain ⟨op, reply⟩ := ev
  cases op with
  | db c =>
      cases c with
      | upsertRunningNode _ _ _ _ => trivial
      | updateNode _ _ => trivial
      | _ => exact h.2.elim
  | _ => exact h.2.elim

theorem UniqueNodes.update (h : UniqueNodes rows) {p : WorkflowNodeExecution → Prop}
    [DecidablePred p] {f : WorkflowNodeExecution → WorkflowNodeExecution}
    (hsame : ∀ r, SameRow r (f r)) : UniqueNodes (rows.map fun r => if p r then f r else r) where
  ids := by
    rw [Table.map_update fun r => (hsame r).id]
    exact h.ids
  keys := by
    have hkey : ∀ r, ((f r).executionId, (f r).nodeId) = (r.executionId, r.nodeId) := fun r =>
      Prod.ext (hsame r).executionId (hsame r).nodeId
    rw [Table.map_update hkey]
    exact h.keys

theorem NodeEffect.unique (heffect : NodeEffect rows ev rows') (h : UniqueNodes rows) :
    UniqueNodes rows' := by
  cases heffect with
  | same => exact h
  | created _ _ hof _ hnew hid =>
      refine ⟨Table.nodup_insert h.ids hid, Table.nodup_insert h.keys fun r hr heq => hnew r hr ?_⟩
      exact ⟨(Prod.mk.inj heq).1.trans hof.1, (Prod.mk.inj heq).2.trans hof.2⟩
  | restarted _ _ _ _ => exact h.update (sameRow_restart _ _)
  | updated _ => exact h.update (sameRow_apply _)

/-- A row is there after a call, unchanged if the call did not touch it. -/
theorem NodeEffect.kept (heffect : NodeEffect rows ev rows') (hrow : row ∈ rows) :
    ∃ row' ∈ rows', SameRow row row' ∧ (¬ Touches ev row → row' = row) := by
  cases heffect with
  | same => exact ⟨row, hrow, .refl row, fun _ => rfl⟩
  | created _ _ _ _ _ _ => exact ⟨row, List.mem_append_left _ hrow, .refl row, fun _ => rfl⟩
  | @restarted m node input startedAt reply _ happlied _ _ _ =>
      by_cases hof : row.IsOf m.executionId node.id
      · exact ⟨_, Table.mem_update.mpr (Or.inr ⟨row, hrow, hof, rfl⟩), sameRow_restart _ _ _,
          fun h => absurd ⟨happlied, hof⟩ h⟩
      · exact ⟨row, Table.mem_update.mpr (Or.inl ⟨hrow, hof⟩), .refl row, fun _ => rfl⟩
  | @updated id data reply happlied =>
      by_cases hid : row.id = id
      · exact ⟨_, Table.mem_update.mpr (Or.inr ⟨row, hrow, hid, rfl⟩), sameRow_apply _ _,
          fun h => absurd ⟨happlied, hid⟩ h⟩
      · exact ⟨row, Table.mem_update.mpr (Or.inl ⟨hrow, hid⟩), .refl row, fun _ => rfl⟩

/-- Where a row after a call comes from. -/
theorem NodeEffect.origin (heffect : NodeEffect rows ev rows') (h : UniqueNodes rows)
    (hrow' : row' ∈ rows') :
    (row' ∈ rows ∧ ¬ Touches ev row')
    ∨ (∃ m node input startedAt reply, ev = ⟨.db (.upsertRunningNode m node input startedAt), reply⟩
      ∧ reply.applied = true ∧ (∀ r, reply = .ok r → r = row')
      ∧ row'.IsOf m.executionId node.id ∧ row'.status = .running)
    ∨ ∃ id data reply, ev = ⟨.db (.updateNode id data), reply⟩ ∧ reply.applied = true
      ∧ ∃ row ∈ rows, row.id = id ∧ row' = data.apply row := by
  cases heffect with
  | same hwrites => exact Or.inl ⟨hrow', fun ht => hwrites ht.1 ht.writes⟩
  | @created m node input startedAt reply row happlied hanswer hof hrunning hnew _ =>
      rcases List.mem_append.mp hrow' with hrow' | hrow'
      · exact Or.inl ⟨hrow', fun ht => hnew row' hrow' ht.2⟩
      · obtain rfl := List.mem_singleton.mp hrow'
        exact Or.inr (Or.inl ⟨m, node, input, startedAt, reply, rfl, happlied, hanswer, hof,
          hrunning⟩)
  | @restarted m node input startedAt reply row happlied hanswer hrow hof =>
      rcases Table.mem_update.mp hrow' with ⟨hrow', hother⟩ | ⟨r, hr, hof', rfl⟩
      · exact Or.inl ⟨hrow', fun ht => hother ht.2⟩
      · obtain rfl := h.eq_of_isOf hr hrow hof' hof
        exact Or.inr (Or.inl ⟨m, node, input, startedAt, reply, rfl, happlied, hanswer, hof', rfl⟩)
  | @updated id data reply happlied =>
      rcases Table.mem_update.mp hrow' with ⟨hrow', hother⟩ | ⟨r, hr, hid, rfl⟩
      · exact Or.inl ⟨hrow', fun ht => hother ht.2⟩
      · exact Or.inr (Or.inr ⟨id, data, reply, rfl, happlied, r, hr, hid, rfl⟩)

/-- A call that writes no row of an execution leaves them as they were. -/
theorem NodeEffect.frame {x : String} (heffect : NodeEffect rows ev rows')
    (hupsert : ∀ m node input startedAt,
      ev.op = .db (.upsertRunningNode m node input startedAt) → m.executionId ≠ x)
    (hupdate : ∀ id data, ev.op = .db (.updateNode id data) →
      ∀ r ∈ rows, r.id = id → r.executionId ≠ x) :
    rows'.filter (·.executionId = x) = rows.filter (·.executionId = x) := by
  cases heffect with
  | same => rfl
  | @created m node _ _ _ row _ _ hof _ _ _ =>
      have hne : row.executionId ≠ x := hof.1 ▸ hupsert m node _ _ rfl
      rw [List.filter_append, List.filter_cons_of_neg (by simpa using hne), List.filter_nil,
        List.append_nil]
  | @restarted m node input startedAt _ _ _ _ _ _ =>
      refine Table.filter_update fun r _ hof => ?_
      have hne : r.executionId ≠ x := hof.1 ▸ hupsert m node _ _ rfl
      exact ⟨decide_eq_false hne, decide_eq_false hne⟩
  | @updated id data _ _ =>
      refine Table.filter_update fun r hr hid => ?_
      have hne := hupdate id data rfl r hr hid
      exact ⟨decide_eq_false hne,
        decide_eq_false ((sameRow_apply data r).executionId.symm ▸ hne)⟩

end

/-! ## Threads and their rows -/

/-- What a thread keeps to when it writes the rows of nodes. -/
def Job.NodeRowOp [Runtime] : Job → WorkerHistory → WorkerOp → Prop
  | .delivery message => FlowPilot.NodeRowOp message
  | .outboxDispatcher => fun _ => LeavesNodes

/-- The thread is a delivery, and the row it set running last is one of its
execution. -/
def OwnsRow [Runtime] (rows : List WorkflowNodeExecution) (info : Job) (h : WorkerHistory) :
    Prop :=
  ∀ nodeId id, (progress h).current = some (nodeId, id) →
    ∃ message m, info = .delivery message
      ∧ parseWorkflowExecutionRequestedMessage message = some m
      ∧ ∃ row ∈ rows, row.id = id ∧ row.IsOf m.executionId nodeId

section

variable [Runtime] {env : Environment} {C : WorkerPool → WorkerLabel → Prop} {s s' : WorkerPool}
  {l : WorkerLabel}

theorem Job.program_rows : ∀ job : Job, SafeFrom job.NodeRowOp [] job.program
  | .delivery message => handleDelivery_rows message
  | .outboxDispatcher =>
      safe_of_spec (issues_preliminary_leaves outboxDispatcherCycle_preliminary)
        (fun _ _ hop => hop) []

theorem ReachableUnder.nodeRowOp (h : ReachableUnder env C s) :
    s.Conform (.ofSafe Job.NodeRowOp) :=
  Pool.Reachable.obeys Job.program_rows h

/-- Rows are set running by deliveries that run the nodes. -/
theorem ReachableUnder.upserts (h : ReachableUnder env C s) {t : Nat} {info : Job}
    {history : WorkerHistory} {m : WorkflowExecutionRequestedMessage} {node : WorkflowNode}
    {input : Record} {startedAt : Int} {k : Except JsError WorkflowNodeExecution → Worker Unit}
    (hth : s.threads t
      = some ⟨info, history, .call (.db (.upsertRunningNode m node input startedAt)) k⟩) :
    ∃ message, info = .delivery message
      ∧ parseWorkflowExecutionRequestedMessage message = some m ∧ RunsNodes m history
      ∧ NothingRunning history := by
  have hop := h.nodeRowOp.next hth
  cases info with
  | outboxDispatcher => exact hop.elim
  | delivery message => exact ⟨message, rfl, hop⟩

/-- Rows are updated by the deliveries that set them running. -/
theorem ReachableUnder.updates (h : ReachableUnder env C s) {t : Nat} {info : Job}
    {history : WorkerHistory} {id : String} {data : NodeExecutionUpdate}
    {k : Except JsError Unit → Worker Unit}
    (hth : s.threads t = some ⟨info, history, .call (.db (.updateNode id data)) k⟩) :
    ∃ message m, info = .delivery message
      ∧ parseWorkflowExecutionRequestedMessage message = some m ∧ RunsNodes m history
      ∧ ∃ nodeId, (progress history).current = some (nodeId, id) := by
  have hop := h.nodeRowOp.next hth
  cases info with
  | outboxDispatcher => exact hop.elim
  | delivery message =>
      obtain ⟨m, hm⟩ := hop
      exact ⟨message, m, rfl, hm⟩

omit [Runtime] in
/-- An answered upsert. -/
theorem NodeEffect.answered {rows rows' : List WorkflowNodeExecution}
    {m : WorkflowExecutionRequestedMessage} {node : WorkflowNode} {input : Record}
    {startedAt : Int} {row : WorkflowNodeExecution}
    (heffect : NodeEffect rows ⟨.db (.upsertRunningNode m node input startedAt), .ok row⟩ rows') :
    row ∈ rows' ∧ row.IsOf m.executionId node.id := by
  cases heffect with
  | same hwrites => exact absurd trivial (hwrites rfl)
  | created _ hanswer hof _ _ _ =>
      obtain rfl := hanswer row rfl
      exact ⟨List.mem_append_right _ (List.mem_singleton_self _), hof⟩
  | restarted _ hanswer hrow hof =>
      obtain rfl := hanswer row rfl
      exact ⟨Table.mem_update.mpr (Or.inr ⟨_, hrow, hof, rfl⟩), hof⟩

omit [Runtime] in
/-- An update that takes effect. -/
theorem NodeEffect.apply_mem {rows rows' : List WorkflowNodeExecution} {id : String}
    {data : NodeExecutionUpdate} {reply : Reply JsError Unit} {row : WorkflowNodeExecution}
    (heffect : NodeEffect rows ⟨.db (.updateNode id data), reply⟩ rows')
    (happlied : reply.applied = true) (hrow : row ∈ rows) (hid : row.id = id) :
    data.apply row ∈ rows' := by
  cases heffect with
  | same hwrites => exact absurd trivial (hwrites happlied)
  | updated _ => exact Table.mem_update.mpr (Or.inr ⟨row, hrow, hid, rfl⟩)

omit [Runtime] in
/-- A row that a call does not touch. -/
theorem NodeEffect.mem {rows rows' : List WorkflowNodeExecution} {ev : WorkerEvent}
    {row : WorkflowNodeExecution} (heffect : NodeEffect rows ev rows') (hrow : row ∈ rows)
    (htouch : ¬ Touches ev row) : row ∈ rows' := by
  obtain ⟨row', hrow', -, heq⟩ := heffect.kept hrow
  exact heq htouch ▸ hrow'

/-- The rows of nodes after a step. -/
theorem nodeEffect_of_step (hs : Pool.Step (workerSystem env) s l s') :
    (∃ t op reply, l = .act t ⟨op, reply⟩
      ∧ NodeEffect s.world.store.nodeExecutions ⟨op, reply⟩ s'.world.store.nodeExecutions)
    ∨ (∀ t ev, l ≠ .act t ev)
      ∧ s'.world.store.nodeExecutions = s.world.store.nodeExecutions := by
  rcases tables_of_step hs with ⟨t, op, reply, rfl, hexec⟩ | ⟨hl, -, hrows, -⟩
  · exact Or.inl ⟨t, op, reply, rfl, exec_nodeEffect hexec⟩
  · exact Or.inr ⟨hl, hrows⟩

theorem ReachableUnder.uniqueNodes (h : ReachableUnder env C s) :
    UniqueNodes s.world.store.nodeExecutions := by
  induction h with
  | start hw =>
      subst hw
      exact ⟨List.nodup_nil, List.nodup_nil⟩
  | step _ _ hs ih =>
      rcases nodeEffect_of_step hs with ⟨_, _, _, -, heffect⟩ | ⟨-, heq⟩
      · exact heffect.unique ih
      · rw [heq]
        exact ih

/-- Rows stay where they are. -/
theorem OwnsRow.mono {rows rows' : List WorkflowNodeExecution} {info : Job}
    {h h' : WorkerHistory} (ho : OwnsRow rows info h)
    (hcurrent : (progress h').current = (progress h).current)
    (hrows : ∀ row ∈ rows, ∃ row' ∈ rows', SameRow row row') : OwnsRow rows' info h' := by
  intro nodeId id hid
  obtain ⟨message, m, hmessage, hm, row, hrow, rfl, hof⟩ := ho nodeId id (hcurrent ▸ hid)
  obtain ⟨row', hrow', hsame⟩ := hrows row hrow
  exact ⟨message, m, hmessage, hm, row', hrow', hsame.id, hsame.executionId.trans hof.1,
    hsame.nodeId.trans hof.2⟩

/-- Every delivery is at a row of its execution. -/
theorem ReachableUnder.ownsRow (h : ReachableUnder env C s) :
    ∀ t th, s.threads t = some th →
      OwnsRow s.world.store.nodeExecutions th.info th.history := by
  induction h with
  | start _ => exact fun t th hth => by cases hth
  | @step s s' l hreach _ hs ih =>
      have hrows : ∀ row ∈ s.world.store.nodeExecutions,
          ∃ row' ∈ s'.world.store.nodeExecutions, SameRow row row' := by
        intro row hrow
        rcases nodeEffect_of_step hs with ⟨_, _, _, -, heffect⟩ | ⟨-, heq⟩
        · obtain ⟨row', hrow', hsame, -⟩ := heffect.kept hrow
          exact ⟨row', hrow', hsame⟩
        · exact ⟨row, heq ▸ hrow, .refl row⟩
      intro t th hth
      rcases hs.thread_cases hth with
        hold | ⟨info, -, -, rfl⟩ | ⟨info, history, op, k, reply, -, hold, hexec, rfl⟩
      · exact (ih t th hold).mono rfl hrows
      · exact fun _ _ hcurrent => by cases hcurrent
      · have hstays : (progress (history ++ [⟨op, reply⟩])).current = (progress history).current →
            OwnsRow s'.world.store.nodeExecutions info (history ++ [⟨op, reply⟩]) :=
          fun hcurrent => (ih t _ hold).mono hcurrent hrows
        have hexec : env.exec op s.world reply s'.world := hexec
        have heffect := exec_nodeEffect hexec
        rw [progress_append_singleton] at hstays
        rcases (progress history).step_cases ⟨op, reply⟩ with ⟨heq, -⟩
          | ⟨m, node, input, startedAt, row, hev, heq⟩ | ⟨m, node, input, startedAt, e, hev, heq⟩
          | ⟨id, data, reply', hev, -, heq⟩
        · exact hstays (by rw [heq])
        · cases hev
          obtain ⟨hrow, hof⟩ := heffect.answered
          obtain ⟨message, hinfo, hm, -⟩ := ReachableUnder.upserts hreach hold
          intro nodeId id hcurrent
          rw [progress_append_singleton, heq] at hcurrent
          cases hcurrent
          exact ⟨message, m, hinfo, hm, row, hrow, rfl, hof⟩
        · exact hstays (by rw [heq])
        · refine hstays ?_
          rw [heq]
          exact ((progress history).update_keeps _ _).1

/-- The row that a delivery updates is the one it is at, of a node it runs. -/
theorem ReachableUnder.updatesRow (h : ReachableUnder env C s) {t : Nat} {info : Job}
    {history : WorkerHistory} {id : String} {data : NodeExecutionUpdate}
    {k : Except JsError Unit → Worker Unit}
    (hth : s.threads t = some ⟨info, history, .call (.db (.updateNode id data)) k⟩) :
    ∃ message m, info = .delivery message
      ∧ parseWorkflowExecutionRequestedMessage message = some m ∧ RunsNodes m history
      ∧ ∃ nodeId, (progress history).current = some (nodeId, id)
        ∧ ∃ row ∈ s.world.store.nodeExecutions, row.id = id ∧ row.IsOf m.executionId nodeId := by
  obtain ⟨message, m, rfl, hm, hruns, nodeId, hcurrent⟩ := h.updates hth
  obtain ⟨message', m', hinfo, hm', row, hrow, hid, hof⟩ := h.ownsRow t _ hth _ _ hcurrent
  cases hinfo
  obtain rfl := Option.some.inj (hm.symm.trans hm')
  exact ⟨message, m, rfl, hm, hruns, nodeId, hcurrent, row, hrow, hid, hof⟩

end

end FlowPilot
