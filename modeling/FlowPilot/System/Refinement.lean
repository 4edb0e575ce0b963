import FlowPilot.System.World

/-!
# The store refines the life of its executions

Each execution of the store has a view (`Store.view`), and every call that
a worker may make, and every step of the API, is a lifecycle step of one
execution or changes no view at all (`Store.Advances`).

The facts a delivery has seen stay true while the store advances
(`EventTrue`); this is what lets the invariants use the obligations of
`DeliveryOp`, which speak about histories.
-/

namespace FlowPilot

/-! ## Views of the store -/

/-- The idempotency key of an event of an execution. -/
def Lifecycle.key : Lifecycle → String → String
  | .started => startedKey
  | .completed => completedKey
  | .failed => failedKey

theorem Lifecycle.key_inj {kind kind' : Lifecycle} {x y : String} :
    kind.key x = kind'.key y ↔ kind = kind' ∧ x = y := by
  cases kind <;> cases kind' <;>
    simp [key, startedKey_inj, completedKey_inj, failedKey_inj, startedKey_ne_completedKey,
      startedKey_ne_failedKey, completedKey_ne_failedKey, (startedKey_ne_completedKey _ _).symm,
      (startedKey_ne_failedKey _ _).symm, (completedKey_ne_failedKey _ _).symm]

theorem Lifecycle.isLifecycleKey (kind : Lifecycle) (id : String) :
    IsLifecycleKey (kind.key id) := by
  cases kind
  · exact ⟨id, Or.inl rfl⟩
  · exact ⟨id, Or.inr (Or.inl rfl)⟩
  · exact ⟨id, Or.inr (Or.inr rfl)⟩

namespace Store

/-- A row of the outbox with this key and payload. -/
def HasEvent (s : Store) (key : String) (payload : LifecyclePayload) : Prop :=
  ∃ row ∈ s.outbox, row.idempotencyKey = key ∧ row.payload.payload = payload

/-- One execution with its lifecycle events. -/
def view (s : Store) (id : String) : ExecutionView where
  row := s.executions id
  event kind payload := s.HasEvent (kind.key id) payload

/-- Every execution has stayed as it was or made one lifecycle step. -/
def Advances (s s' : Store) : Prop :=
  ∀ id, s'.view id = s.view id ∨ LifecycleStep (s.view id) (s'.view id)

theorem Advances.refl (s : Store) : Advances s s := fun _ => Or.inl rfl

theorem Advances.of_view_eq {s s' : Store} (h : ∀ id, s'.view id = s.view id) : Advances s s' :=
  fun id => Or.inl (h id)

theorem Advances.agreement {s s' : Store} (h : Advances s s')
    (ha : ∀ id, Agreement (s.view id)) (id : String) : Agreement (s'.view id) := by
  rcases h id with heq | hstep
  · rw [heq]
    exact ha id
  · exact (ha id).step hstep

theorem Advances.rowLe {s s' : Store} (h : Advances s s') (id : String) :
    RowLe (s.executions id) (s'.executions id) := by
  rcases h id with heq | hstep
  · have hrow : s'.executions id = s.executions id := congrArg ExecutionView.row heq
    rw [hrow]
    exact .refl _
  · exact hstep.rowLe

/-! ## Calls that leave every view as it was -/

theorem view_congr {s s' : Store} (hexecutions : s'.executions = s.executions)
    (hevents : ∀ key payload, IsLifecycleKey key →
      (s'.HasEvent key payload ↔ s.HasEvent key payload)) (id : String) :
    s'.view id = s.view id := by
  unfold view
  rw [hexecutions]
  congr 1
  funext kind payload
  exact propext (hevents _ _ (kind.isLifecycleKey id))

/-- An upsert returns the row that has the key, or adds one. -/
theorem upsertOutbox_cases {s s' : Store} {ctx : DbContext} {routingKey : FlowPilotRoutingKey}
    {message : WorkflowLifecycleMessage} {row : OutboxMessage}
    (h : s.upsertOutbox ctx routingKey message = some (row, s')) :
    (s' = s ∧ row ∈ s.outbox ∧ row.idempotencyKey = message.idempotencyKey)
    ∨ (s' = { s with outbox := s.outbox ++ [row] }
      ∧ row = newOutboxMessage ctx routingKey message
      ∧ (∀ row' ∈ s.outbox, row'.idempotencyKey ≠ message.idempotencyKey)
      ∧ ∀ row' ∈ s.outbox, row'.id ≠ ctx.uuid) := by
  unfold upsertOutbox at h
  split at h
  · rename_i found hfound
    cases h
    exact Or.inl ⟨rfl, List.mem_of_find?_eq_some hfound, by simpa using List.find?_some hfound⟩
  · rename_i hnone
    split at h
    · cases h
    · rename_i hfresh
      cases h
      simp only [Bool.not_eq_true, List.any_eq_false, decide_eq_true_eq, not_or] at hfresh
      refine Or.inr ⟨rfl, rfl, fun row' hrow' => ?_, fun row' hrow' => (hfresh row' hrow').1⟩
      simpa using List.find?_eq_none.mp hnone row' hrow'

theorem upsertOutbox_executions {s s' : Store} {ctx : DbContext}
    {routingKey : FlowPilotRoutingKey} {message : WorkflowLifecycleMessage} {row : OutboxMessage}
    (h : s.upsertOutbox ctx routingKey message = some (row, s')) :
    s'.executions = s.executions := by
  rcases upsertOutbox_cases h with ⟨rfl, -⟩ | ⟨rfl, -⟩ <;> rfl

/-- The events after an upsert. -/
theorem upsertOutbox_hasEvent {s s' : Store} {ctx : DbContext}
    {routingKey : FlowPilotRoutingKey} {message : WorkflowLifecycleMessage} {row : OutboxMessage}
    (h : s.upsertOutbox ctx routingKey message = some (row, s')) (key : String)
    (payload : LifecyclePayload) :
    s'.HasEvent key payload ↔ s.HasEvent key payload
      ∨ (key = message.idempotencyKey ∧ payload = message.payload
        ∧ ∀ q, ¬ s.HasEvent message.idempotencyKey q) := by
  rcases upsertOutbox_cases h with ⟨rfl, hmem, hkey⟩ | ⟨rfl, rfl, hnone, -⟩
  · refine ⟨Or.inl, ?_⟩
    rintro (he | ⟨-, -, hno⟩)
    · exact he
    · exact absurd ⟨row, hmem, hkey, rfl⟩ (hno row.payload.payload)
  · have hno : ∀ q, ¬ s.HasEvent message.idempotencyKey q := by
      rintro q ⟨row', hrow', hkey, -⟩
      exact hnone row' hrow' hkey
    constructor
    · rintro ⟨row', hrow', rfl, rfl⟩
      rcases List.mem_append.mp hrow' with hold | hnew
      · exact Or.inl ⟨row', hold, rfl, rfl⟩
      · obtain rfl := List.mem_singleton.mp hnew
        exact Or.inr ⟨rfl, rfl, hno⟩
    · rintro (⟨row', hrow', hrest⟩ | ⟨rfl, rfl, -⟩)
      · exact ⟨row', List.mem_append_left _ hrow', hrest⟩
      · exact ⟨_, List.mem_append_right _ (List.mem_singleton_self _), rfl, rfl⟩

/-- The view after a lifecycle event was stored. -/
theorem upsertOutbox_view {s s' : Store} {ctx : DbContext} {routingKey : FlowPilotRoutingKey}
    {message : WorkflowLifecycleMessage} {row : OutboxMessage} {kind : Lifecycle} {x : String}
    (h : s.upsertOutbox ctx routingKey message = some (row, s'))
    (hkey : message.idempotencyKey = kind.key x) (id : String) :
    s'.view id = if id = x then (s.view id).record kind message.payload else s.view id := by
  have hview : s'.view id = ⟨s.executions id, fun kind' p => s.HasEvent (kind'.key id) p
      ∨ (kind'.key id = message.idempotencyKey ∧ p = message.payload
        ∧ ∀ q, ¬ s.HasEvent message.idempotencyKey q)⟩ := by
    unfold view
    rw [upsertOutbox_executions h]
    congr 1
    funext kind' p
    exact propext (upsertOutbox_hasEvent h _ _)
  rw [hview]
  split
  · rename_i heq
    subst heq
    simp only [view, ExecutionView.record, hkey, Lifecycle.key_inj, and_true]
  · rename_i hne
    simp only [view, hkey, Lifecycle.key_inj, hne, and_false, false_and, or_false]

end Store

/-- The calls that write the executions or the outbox. -/
def DbCall.WritesEvents : DbCall → Prop
  | .transaction _ | .upsertOutbox _ _ | .updateOutbox _ _ => True
  | _ => False

/-- Every other call leaves the executions and the outbox as they were. -/
theorem DbCall.run_frame {c : DbCall} {ctx : DbContext} {s s' : Store} {r : c.Result}
    (h : c.run ctx s = some (r, s')) (hwrites : ¬ c.WritesEvents) :
    s'.executions = s.executions ∧ s'.outbox = s.outbox := by
  cases c with
  | findExecution id =>
      cases h
      exact ⟨rfl, rfl⟩
  | transaction t => exact absurd trivial hwrites
  | upsertOutbox routingKey message => exact absurd trivial hwrites
  | updateOutbox id data => exact absurd trivial hwrites
  | findOutbox filter take =>
      cases h
      exact ⟨rfl, rfl⟩
  | upsertRunningNode m node input startedAt =>
      simp only [run, Store.upsertRunningNode] at h
      split at h
      · cases h
        exact ⟨rfl, rfl⟩
      · split at h
        · cases h
        · cases h
          exact ⟨rfl, rfl⟩
  | updateNode id data =>
      simp only [run] at h
      split at h
      · cases h
        exact ⟨rfl, rfl⟩
      · cases h
  | createAiTrace data =>
      simp only [run] at h
      split at h
      · cases h
      · cases h
        exact ⟨rfl, rfl⟩

theorem DbCall.run_updateOutbox {id : String} {data : OutboxUpdate} {ctx : DbContext}
    {s s' : Store} {r : Unit} (h : (DbCall.updateOutbox id data).run ctx s = some (r, s')) :
    s' = { s with
      outbox := s.outbox.map fun row => if row.id = id then data.apply row else row } := by
  simp only [run] at h
  split at h
  · exact (Prod.mk.inj (Option.some.inj h)).2.symm
  · cases h

/-- The calls that record progress leave every view as it was. -/
theorem view_of_recording {c : DbCall} (hop : RecordingOp (.db c)) {ctx : DbContext}
    {s s' : Store} {r : c.Result} (h : c.run ctx s = some (r, s')) (id : String) :
    s'.view id = s.view id := by
  cases c with
  | findExecution _ => exact hop.elim
  | transaction _ => exact hop.elim
  | upsertOutbox routingKey message =>
      refine Store.view_congr (Store.upsertOutbox_executions h) (fun key payload hkey => ?_) id
      rw [Store.upsertOutbox_hasEvent h]
      refine or_iff_left ?_
      rintro ⟨rfl, -⟩
      exact hop hkey
  | updateOutbox rowId data =>
      rw [DbCall.run_updateOutbox h]
      refine Store.view_congr (by rfl) (fun key payload _ => ?_) id
      have hkeeps : ∀ row : OutboxMessage,
          (if row.id = rowId then data.apply row else row).idempotencyKey = row.idempotencyKey
          ∧ (if row.id = rowId then data.apply row else row).payload = row.payload := by
        intro row
        split <;> simp
      simp only [Store.HasEvent, List.mem_map, exists_exists_and_eq_and, hkeeps]
  | _ =>
      obtain ⟨hexecutions, houtbox⟩ := DbCall.run_frame h fun hwrites => hwrites
      exact Store.view_congr hexecutions (fun _ _ _ => by simp only [Store.HasEvent, houtbox]) id

/-! ## Transactions -/

/-- A transaction leaves the store as it was, or moves its execution and
stores the event. -/
theorem runTransaction_cases {t : StatusTransition} {ctx : DbContext} {s s' : Store}
    {r : TransitionResult} (h : DbCall.runTransaction t ctx s = some (r, s')) :
    (r = ⟨0, none⟩ ∧ s' = s ∧ ∀ row, s.executions t.id = some row → row.status ∉ t.fromStatuses)
    ∨ ∃ row outboxRow, s.executions t.id = some row ∧ row.status ∈ t.fromStatuses
      ∧ r = ⟨1, some outboxRow⟩
      ∧ ({ s with executions := Function.update s.executions t.id (some (t.data.apply row)) } :
          Store).upsertOutbox ctx t.routingKey t.message = some (outboxRow, s') := by
  unfold DbCall.runTransaction Store.updateManyExecution at h
  cases hrow : s.executions t.id with
  | none =>
      simp only [hrow] at h
      cases h
      exact Or.inl ⟨rfl, rfl, fun row h => by cases h⟩
  | some row =>
      simp only [hrow] at h
      by_cases hstatus : row.status ∈ t.fromStatuses
      · simp only [hstatus, if_true, Nat.one_ne_zero, if_false] at h
        obtain ⟨⟨outboxRow, s₂⟩, hupsert, heq⟩ := Option.map_eq_some_iff.mp h
        cases heq
        exact Or.inr ⟨row, outboxRow, rfl, hstatus, rfl, hupsert⟩
      · simp only [hstatus, if_false, if_true] at h
        cases h
        refine Or.inl ⟨rfl, rfl, fun row' h => ?_⟩
        cases h
        exact hstatus

/-- The transactions of the worker are lifecycle steps of the execution of
their command. -/
theorem TransitionOK.lifecycle [Runtime] {m : WorkflowExecutionRequestedMessage}
    {h : WorkerHistory} {t : StatusTransition} (ht : TransitionOK m h t) :
    t.id = m.executionId
    ∧ (∀ status, status ∈ t.fromStatuses → ExecutionView.Starts t.data status)
    ∧ ∃ kind : Lifecycle, t.message.idempotencyKey = kind.key t.id
      ∧ ExecutionView.Announces t.data kind t.message.payload := by
  cases ht with
  | start eventId startedAt =>
      exact ⟨rfl, fun _ h => List.mem_singleton.mp h, .started, rfl, .started _ _ _⟩
  | complete eventId output startedAt completedAt _ =>
      exact ⟨rfl, fun _ h => List.mem_singleton.mp h, .completed, rfl, .completed _ _ _ _ _⟩
  | fail eventId failureRecord failedAt =>
      exact ⟨rfl, fun _ h => by simpa [failTransition, ExecutionView.Starts] using h, .failed, rfl,
        .failed _ _ _ _⟩

theorem transaction_advances [Runtime] {m : WorkflowExecutionRequestedMessage}
    {h : WorkerHistory} {t : StatusTransition} (ht : TransitionOK m h t) {ctx : DbContext}
    {s s' : Store} {r : TransitionResult}
    (hrun : DbCall.runTransaction t ctx s = some (r, s')) : s.Advances s' := by
  rcases runTransaction_cases hrun with ⟨-, rfl, -⟩ | ⟨row, outboxRow, hrow, hstatus, -, hupsert⟩
  · exact .refl _
  · obtain ⟨-, hstarts, kind, hkey, hannounces⟩ := ht.lifecycle
    intro id
    rw [Store.upsertOutbox_view hupsert hkey]
    split
    · rename_i heq
      subst heq
      have hmove := LifecycleStep.move (v := s.view t.id) hrow (hstarts _ hstatus) hannounces
      refine Or.inr ?_
      convert hmove using 1
      simp [ExecutionView.move, ExecutionView.record, Store.view, Store.HasEvent]
    · rename_i hne
      refine Or.inl ?_
      simp [Store.view, Store.HasEvent, Function.update_of_ne hne]

/-! ## Calls against the world -/

section

variable {env : Environment} {op : WorkerOp} {w w' : World} {reply : Reply JsError op.Result}

/-- A call did nothing and threw, or took effect and answered or threw. -/
theorem Environment.exec_cases (h : env.exec op w reply w') :
    (w' = w ∧ ∃ e, reply = .failed e ∧ op.Throws e)
    ∨ ∃ ctx r, op.run ctx w = some (r, w')
      ∧ ((reply = .ok r ∧ env.Answers op r) ∨ ∃ e, reply = .lost e ∧ op.Throws e) := by
  cases reply with
  | ok r =>
      obtain ⟨hanswers, ctx, hrun⟩ := h
      exact Or.inr ⟨ctx, r, hrun, Or.inl ⟨rfl, hanswers⟩⟩
  | lost e =>
      obtain ⟨hthrows, ctx, r, hrun⟩ := h
      exact Or.inr ⟨ctx, r, hrun, Or.inr ⟨e, rfl, hthrows⟩⟩
  | failed e => exact Or.inl ⟨h.2, e, rfl, h.1⟩

/-- An infallible call answers. -/
theorem Environment.exec_infallible (h : env.exec op w reply w') (hop : op.Infallible) :
    ∃ r, reply = .ok r := by
  have hthrows : ∀ e, ¬ op.Throws e := by
    intro e ht
    cases op with
    | executeWorkflowNode _ _ => exact hop
    | _ => exact ht.1 hop
  rcases Environment.exec_cases h with ⟨-, e, -, ht⟩ | ⟨ctx, r, -, ⟨hr, -⟩ | ⟨e, -, ht⟩⟩
  · exact absurd ht (hthrows e)
  · exact ⟨r, hr⟩
  · exact absurd ht (hthrows e)

end

theorem WorkerOp.run_db {c : DbCall} {ctx : CallContext} {w w' : World} {r : c.Result}
    (h : (WorkerOp.db c).run ctx w = some (r, w')) :
    ∃ s, c.run ctx.toDbContext w.store = some (r, s) ∧ w' = { w with store := s } := by
  obtain ⟨⟨r', s⟩, hrun, heq⟩ := Option.map_eq_some_iff.mp h
  cases heq
  exact ⟨s, hrun, rfl⟩

@[simp] theorem World.take_store (w : World) (p : Publication) : (w.take p).store = w.store := by
  unfold World.take
  split <;> rfl

/-- Only database calls touch the store. -/
theorem WorkerOp.run_store {op : WorkerOp} {ctx : CallContext} {w w' : World} {r : op.Result}
    (h : op.run ctx w = some (r, w')) (hdb : ∀ c, op ≠ .db c) : w'.store = w.store := by
  cases op with
  | db c => exact absurd rfl (hdb c)
  | newDate => cases h; rfl
  | randomUUID => cases h; rfl
  | publish p =>
      cases h
      exact World.take_store w p
  | executeWorkflowNode node context => cases h; rfl
  | ack message => cases h; rfl
  | nack message allUpTo requeue =>
      cases h
      split <;> rfl

/-! ## What a history shows stays true -/

/-- The row that was read, or moved, is still there or has moved on. -/
structure EventTrue (s : Store) (ev : WorkerEvent) : Prop where
  found : ∀ id (row : WorkflowExecution), ev = ⟨.db (.findExecution id), .ok (some row)⟩ →
    RowLe (some row.toWorkflowExecutionRow) (s.executions id)
  moved : ∀ (t : StatusTransition) (r : TransitionResult),
    ev = ⟨.db (.transaction t), .ok r⟩ → r.count ≠ 0 →
    ∃ row, RowLe (some (t.data.apply row)) (s.executions t.id)

def HistoryTrue (s : Store) (h : WorkerHistory) : Prop := ∀ ev ∈ h, EventTrue s ev

theorem EventTrue.mono {s s' : Store} {ev : WorkerEvent} (h : EventTrue s ev)
    (hs : s.Advances s') : EventTrue s' ev where
  found id row he := (h.found id row he).trans (hs.rowLe id)
  moved t r he hcount := by
    obtain ⟨row, hrow⟩ := h.moved t r he hcount
    exact ⟨row, hrow.trans (hs.rowLe t.id)⟩

theorem HistoryTrue.mono {s s' : Store} {h : WorkerHistory} (ht : HistoryTrue s h)
    (hs : s.Advances s') : HistoryTrue s' h :=
  fun ev hev => (ht ev hev).mono hs

/-- A call is true of the store it leaves. -/
theorem Environment.exec_eventTrue {env : Environment} {op : WorkerOp} {w w' : World}
    {reply : Reply JsError op.Result} (h : env.exec op w reply w') :
    EventTrue w'.store ⟨op, reply⟩ where
  found id row he := by
    cases he
    obtain ⟨-, ctx, hrun⟩ := h
    obtain ⟨s, hfind, rfl⟩ := WorkerOp.run_db hrun
    obtain ⟨hrow, rfl⟩ := Prod.mk.inj (Option.some.inj hfind)
    obtain ⟨row', hrow', rfl⟩ := Option.map_eq_some_iff.mp hrow
    show RowLe (some row') (w.store.executions id)
    rw [hrow']
    exact .refl _
  moved t r he hcount := by
    cases he
    obtain ⟨-, ctx, hrun⟩ := h
    obtain ⟨s, hrun', rfl⟩ := WorkerOp.run_db hrun
    rcases runTransaction_cases hrun' with ⟨rfl, -⟩ | ⟨row, outboxRow, -, -, -, hupsert⟩
    · exact absurd rfl hcount
    · refine ⟨row, ?_⟩
      show RowLe _ (s.executions t.id)
      rw [Store.upsertOutbox_executions hupsert]
      simp only [Function.update_self]
      exact .refl _

/-- An execution that was seen ended has ended. -/
theorem HistoryTrue.ended {s : Store} {h : WorkerHistory} {x : String} (ht : HistoryTrue s h)
    (hseen : TerminalSeen x h) :
    ∃ row, s.executions x = some row ∧ isTerminalExecutionStatus row.status = true := by
  have hlater : ∀ row, isTerminalExecutionStatus row.status = true →
      RowLe (some row) (s.executions x) →
      ∃ row, s.executions x = some row ∧ isTerminalExecutionStatus row.status = true := by
    intro row hterminal hle
    obtain ⟨later, hlater⟩ := hle.exists_later
    rw [hlater] at hle
    cases hle with
    | later _ _ _ hended => exact ⟨later, hlater, hended hterminal ▸ hterminal⟩
  rcases hseen with ⟨row, hsaw, hterminal⟩ | ⟨t, r, hsaw, rfl, hends, hcount⟩
  · exact hlater _ hterminal ((ht _ hsaw).found x row rfl)
  · obtain ⟨row, hle⟩ := (ht _ hsaw).moved t r rfl hcount
    refine hlater _ ?_ hle
    cases hdata : t.data with
    | running startedAt =>
        rw [hdata] at hends
        exact hends.elim
    | succeeded output completedAt => rfl
    | failed error completedAt => rfl

/-- An execution that was seen started is not pending. -/
theorem HistoryTrue.started {s : Store} {h : WorkerHistory} {x : String} (ht : HistoryTrue s h)
    (hseen : StartedSeen x h) : ∃ row, s.executions x = some row ∧ row.status ≠ .pending := by
  obtain ⟨row, hsaw, hstatus⟩ := hseen
  have hle := (ht _ hsaw).found x row rfl
  obtain ⟨later, hlater⟩ := hle.exists_later
  rw [hlater] at hle
  cases hle with
  | later _ _ hstarted _ => exact ⟨later, hlater, hstarted hstatus⟩

/-! ## The simulation -/

theorem view_of_recordingOp {env : Environment} {op : WorkerOp} {w w' : World}
    {reply : Reply JsError op.Result} (hop : NodeOp op) (h : env.exec op w reply w')
    (id : String) : w'.store.view id = w.store.view id := by
  rcases Environment.exec_cases h with ⟨rfl, -⟩ | ⟨ctx, r, hrun, -⟩
  · rfl
  · by_cases hdb : ∃ c, op = .db c
    · obtain ⟨c, rfl⟩ := hdb
      obtain ⟨s, hrun', rfl⟩ := WorkerOp.run_db hrun
      rcases hop with hop | ⟨_, _, he⟩
      · exact view_of_recording hop hrun' id
      · cases he
    · rw [WorkerOp.run_store hrun (not_exists.mp hdb)]

/-- Every call of a delivery is a lifecycle step or changes no view. -/
theorem delivery_advances [Runtime] {env : Environment} {message : ConsumeMessage}
    {h : WorkerHistory} {op : WorkerOp} {w w' : World} {reply : Reply JsError op.Result}
    (hop : DeliveryOp message h op) (ht : HistoryTrue w.store h) (hexec : env.exec op w reply w') :
    w.store.Advances w'.store := by
  rcases Environment.exec_cases hexec with ⟨rfl, -⟩ | ⟨ctx, r, hrun, -⟩
  · exact .refl _
  cases hop with
  | node hop => exact .of_view_eq (view_of_recordingOp hop hexec)
  | find id =>
      obtain ⟨s, hfind, rfl⟩ := WorkerOp.run_db hrun
      obtain ⟨-, rfl⟩ := Prod.mk.inj (Option.some.inj hfind)
      exact .refl _
  | transition _ _ ht =>
      obtain ⟨s, hrun', rfl⟩ := WorkerOp.run_db hrun
      exact transaction_advances ht hrun'
  | @resume m started _ hkey hpayload hseen =>
      obtain ⟨s, hrun', rfl⟩ := WorkerOp.run_db hrun
      obtain ⟨row, hrow, hstatus⟩ := ht.started hseen
      intro id
      have hkey' : started.idempotencyKey = Lifecycle.started.key m.executionId := hkey
      rw [Store.upsertOutbox_view hrun' hkey']
      split
      · rename_i heq
        subst heq
        rw [hpayload]
        exact Or.inr (.resume _ _ hrow hstatus)
      · exact Or.inl rfl
  | retry _ _ _ => exact .of_view_eq fun id => by rw [WorkerOp.run_store hrun (by simp)]
  | deadLetter _ _ _ _ => exact .of_view_eq fun id => by rw [WorkerOp.run_store hrun (by simp)]
  | rawDeadLetter _ _ _ => exact .of_view_eq fun id => by rw [WorkerOp.run_store hrun (by simp)]
  | ack _ _ => exact .of_view_eq fun id => by rw [WorkerOp.run_store hrun (by simp)]
  | nack _ _ => exact .of_view_eq fun id => by rw [WorkerOp.run_store hrun (by simp)]

/-- The call is the transaction `t` of a delivery, and it moved the row of
the execution. -/
structure Moved [Runtime] (message : ConsumeMessage) (h : WorkerHistory) (ev : WorkerEvent)
    (s s' : Store) (t : StatusTransition) (row : WorkflowExecutionRow) : Prop where
  command : ∃ m, parseWorkflowExecutionRequestedMessage message = some m ∧ TransitionOK m h t
  unsettled : ¬ Settled h
  found : s.executions t.id = some row
  starts : ExecutionView.Starts t.data row.status
  executions : s'.executions = Function.update s.executions t.id (some (t.data.apply row))
  reply : (∃ r : TransitionResult, ev = ⟨.db (.transaction t), .ok r⟩ ∧ r.count ≠ 0)
    ∨ ∃ e, ev = ⟨.db (.transaction t), .lost e⟩

/-- The rows of the executions after a call of a delivery. -/
theorem delivery_rows [Runtime] {env : Environment} {message : ConsumeMessage}
    {h : WorkerHistory} {op : WorkerOp} {w w' : World} {reply : Reply JsError op.Result}
    (hop : DeliveryOp message h op) (hexec : env.exec op w reply w') :
    w'.store.executions = w.store.executions
    ∨ ∃ t row, Moved message h ⟨op, reply⟩ w.store w'.store t row := by
  rcases Environment.exec_cases hexec with ⟨rfl, -⟩ | ⟨ctx, r, hrun, hreply⟩
  · exact Or.inl rfl
  have hstore : (∀ c, op ≠ .db c) → w'.store.executions = w.store.executions :=
    fun hdb => by rw [WorkerOp.run_store hrun hdb]
  cases hop with
  | node hop =>
      exact Or.inl (funext fun id =>
        congrArg ExecutionView.row (view_of_recordingOp hop hexec id))
  | find id =>
      obtain ⟨s, hfind, rfl⟩ := WorkerOp.run_db hrun
      obtain ⟨-, rfl⟩ := Prod.mk.inj (Option.some.inj hfind)
      exact Or.inl rfl
  | @transition m t hm hunsettled ht =>
      obtain ⟨s, hrun', rfl⟩ := WorkerOp.run_db hrun
      rcases runTransaction_cases hrun' with
        ⟨-, rfl, -⟩ | ⟨row, outboxRow, hrow, hstatus, rfl, hupsert⟩
      · exact Or.inl rfl
      · refine Or.inr ⟨t, row, ⟨m, hm, ht⟩, hunsettled, hrow, ht.lifecycle.2.1 _ hstatus,
          Store.upsertOutbox_executions hupsert, ?_⟩
        rcases hreply with ⟨rfl, -⟩ | ⟨e, rfl, -⟩
        · exact Or.inl ⟨_, rfl, Nat.one_ne_zero⟩
        · exact Or.inr ⟨e, rfl⟩
  | resume _ _ _ _ =>
      obtain ⟨s, hrun', rfl⟩ := WorkerOp.run_db hrun
      exact Or.inl (Store.upsertOutbox_executions hrun')
  | retry _ _ _ => exact Or.inl (hstore fun _ h => by cases h)
  | deadLetter _ _ _ _ => exact Or.inl (hstore fun _ h => by cases h)
  | rawDeadLetter _ _ _ => exact Or.inl (hstore fun _ h => by cases h)
  | ack _ _ => exact Or.inl (hstore fun _ h => by cases h)
  | nack _ _ => exact Or.inl (hstore fun _ h => by cases h)

/-- Every step of the world itself is a lifecycle step or changes no view. -/
theorem envStep_advances [Runtime] {env : Environment} {w w' : World} (h : EnvStep env w w') :
    w.store.Advances w'.store := by
  cases h with
  | @createExecution id row hnone hnew _ =>
      intro id'
      by_cases hid : id' = id
      · subst hid
        refine Or.inr ?_
        convert LifecycleStep.create (v := w.store.view id') hnone hnew using 1
        simp [Store.view, Store.HasEvent]
      · refine Or.inl ?_
        simp [Store.view, Store.HasEvent, Function.update_of_ne hid]
  | requestExecution eventId occurredAt actorUserId _ _ =>
      rw [World.take_store]
      exact .refl _
  | arrive _ => exact .refl _
  | retryExpires _ => exact .refl _

end FlowPilot
