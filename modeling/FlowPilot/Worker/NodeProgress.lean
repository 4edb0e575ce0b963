import FlowPilot.Worker.Discipline
import FlowPilot.Worker.OutboxDiscipline

/-!
# The node rows of a delivery

A delivery sets the row of a node running, reports that, runs the node, and
updates the row; then it goes on to the next node. `progress` follows this
along its calls: which row was set running last, whether it still is, and
which nodes are done. `NodeRowOp` says when a delivery may write node rows,
complete its execution, and settle.

Between setting a row running and the `try` block of the iteration, and
again in the `catch` block before the row is updated, a call that throws
leaves the row running. `ClosesNodes` are the calls of runs in which that
does not happen.
-/

namespace FlowPilot

open Prog hiding pure throw bind tryCatch

/-! ## Progress -/

/-- The update completes a node. -/
def NodeExecutionUpdate.completes : NodeExecutionUpdate → Bool
  | .succeeded _ _ => true
  | .failed _ _ => false

/-- What a delivery has done to the rows of its nodes. -/
structure NodeProgress where
  /-- The node whose row was set running last, and the id of the row. -/
  current : Option (String × String)
  /-- That row was not updated since. -/
  running : Bool
  /-- The nodes whose rows were completed. -/
  done : List String

namespace NodeProgress

def start : NodeProgress := ⟨none, false, []⟩

/-- The row `id` was updated. -/
def update (p : NodeProgress) (id : String) (completed : Bool) : NodeProgress :=
  match p.current with
  | some (nodeId, id') =>
      if id' = id then
        { p with
          running := false
          done := if completed then nodeId :: p.done else p.done.filter (· ≠ nodeId) }
      else p
  | none => p

/-- What one call changes. A row that a call set running although it threw
is done no longer, but its id is not known. -/
def step (p : NodeProgress) : WorkerEvent → NodeProgress
  | ⟨.db (.upsertRunningNode _ node _ _), .ok row⟩ =>
      ⟨some (node.id, WorkflowNodeExecution.id row), true, p.done.filter (· ≠ node.id)⟩
  | ⟨.db (.upsertRunningNode _ node _ _), .lost _⟩ =>
      { p with done := p.done.filter (· ≠ node.id) }
  | ⟨.db (.updateNode id data), reply⟩ =>
      if reply.applied then p.update id (data.completes && reply.answered) else p
  | _ => p

end NodeProgress

def progress (h : WorkerHistory) : NodeProgress := h.foldl NodeProgress.step .start

/-- The calls that write node rows. -/
def WritesNode : WorkerOp → Prop
  | .db (.upsertRunningNode _ _ _ _) => True
  | .db (.updateNode _ _) => True
  | _ => False

@[simp] theorem progress_nil : progress [] = .start := rfl

theorem progress_append_singleton (h : WorkerHistory) (ev : WorkerEvent) :
    progress (h ++ [ev]) = (progress h).step ev := by
  simp [progress]

theorem NodeProgress.step_of_not_writes (p : NodeProgress) {ev : WorkerEvent}
    (hev : ¬ WritesNode ev.op) : p.step ev = p := by
  obtain ⟨op, reply⟩ := ev
  cases op with
  | db c =>
      cases c with
      | upsertRunningNode _ _ _ _ => exact absurd trivial hev
      | updateNode _ _ => exact absurd trivial hev
      | _ => rfl
  | _ => rfl

/-- What a call changes. -/
theorem NodeProgress.step_cases (p : NodeProgress) (ev : WorkerEvent) :
    (p.step ev = p ∧ (ev.reply.applied = true → ¬ WritesNode ev.op))
    ∨ (∃ m node input startedAt row,
      ev = ⟨.db (.upsertRunningNode m node input startedAt), .ok row⟩
      ∧ p.step ev = ⟨some (node.id, WorkflowNodeExecution.id row), true,
        p.done.filter (· ≠ node.id)⟩)
    ∨ (∃ m node input startedAt e,
      ev = ⟨.db (.upsertRunningNode m node input startedAt), .lost e⟩
      ∧ p.step ev = { p with done := p.done.filter (· ≠ node.id) })
    ∨ ∃ id data reply, ev = ⟨.db (.updateNode id data), reply⟩ ∧ reply.applied = true
      ∧ p.step ev = p.update id (data.completes && reply.answered) := by
  by_cases hwrites : WritesNode ev.op
  · obtain ⟨op, reply⟩ := ev
    cases op with
    | db c =>
        cases c with
        | upsertRunningNode m node input startedAt =>
            cases reply with
            | ok row => exact Or.inr (Or.inl ⟨m, node, input, startedAt, row, rfl, rfl⟩)
            | lost e => exact Or.inr (Or.inr (Or.inl ⟨m, node, input, startedAt, e, rfl, rfl⟩))
            | failed e => exact Or.inl ⟨rfl, fun h => by cases h⟩
        | updateNode id data =>
            cases happlied : reply.applied with
            | true =>
                exact Or.inr (Or.inr (Or.inr ⟨id, data, reply, rfl, happlied, if_pos happlied⟩))
            | false => exact Or.inl ⟨if_neg (by simp [happlied]), nofun⟩
        | _ => exact hwrites.elim
    | _ => exact hwrites.elim
  · exact Or.inl ⟨p.step_of_not_writes hwrites, fun _ => hwrites⟩

/-- An update keeps the current row. -/
theorem NodeProgress.update_keeps (p : NodeProgress) (id : String) (completed : Bool) :
    (p.update id completed).current = p.current
    ∧ (p.running = false → (p.update id completed).running = false) := by
  unfold update
  split
  · split
    · exact ⟨rfl, fun _ => rfl⟩
    · exact ⟨rfl, fun h => h⟩
  · exact ⟨rfl, fun h => h⟩

theorem progress_append {h events : WorkerHistory} (hevents : ∀ ev ∈ events, ¬ WritesNode ev.op) :
    progress (h ++ events) = progress h := by
  induction events using List.reverseRecOn with
  | nil => rw [List.append_nil]
  | append_singleton events ev ih =>
      rw [← List.append_assoc, progress_append_singleton,
        NodeProgress.step_of_not_writes _ (hevents ev (by simp)),
        ih fun ev' hev' => hevents ev' (List.mem_append_left _ hev')]

/-- An update of the current row. -/
theorem NodeProgress.update_current {p : NodeProgress} {nodeId id : String}
    (hcurrent : p.current = some (nodeId, id)) (completed : Bool) :
    p.update id completed = { p with
      running := false
      done := if completed then nodeId :: p.done else p.done.filter (· ≠ nodeId) } := by
  simp [update, hcurrent]

/-! ## Closing what was opened -/

/-- While a row is running every call succeeds, other than the executor and
the update that completes the node; the update that fails it takes effect.
No row is set running by a call that throws. -/
def ClosesNodes (h : WorkerHistory) (ev : WorkerEvent) : Prop :=
  match ev.op with
  | .db (.upsertRunningNode _ _ _ _) => ev.reply.applied = true → ev.reply.answered = true
  | .executeWorkflowNode _ _ => True
  | .db (.updateNode _ (.succeeded _ _)) => True
  | .db (.updateNode _ (.failed _ _)) => (progress h).running = true → ev.reply.applied = true
  | _ => (progress h).running = true → CallSucceeded ev

theorem closesNodes_of_succeeded {h : WorkerHistory} {ev : WorkerEvent}
    (hev : CallSucceeded ev) : ClosesNodes h ev := by
  obtain ⟨op, reply⟩ := ev
  cases reply with
  | ok r =>
      cases op with
      | db c =>
          cases c with
          | upsertRunningNode _ _ _ _ => exact fun _ => rfl
          | updateNode _ data =>
              cases data with
              | succeeded _ _ => trivial
              | failed _ _ => exact fun _ => rfl
          | _ => exact fun _ => hev
      | executeWorkflowNode _ _ => trivial
      | _ => exact fun _ => hev
  | lost e => exact absurd hev not_callSucceeded_lost
  | failed e => exact absurd hev not_callSucceeded_failed

/-- No row is running, if all calls closed what they had to. -/
def NothingRunning (h : WorkerHistory) : Prop :=
  Along ClosesNodes [] h → (progress h).running = false

theorem along_closes_append {h events : WorkerHistory} :
    Along ClosesNodes [] (h ++ events) ↔ Along ClosesNodes [] h ∧ Along ClosesNodes h events := by
  rw [along_append, List.nil_append]

theorem along_closes_singleton {h : WorkerHistory} {ev : WorkerEvent} :
    Along ClosesNodes [] (h ++ [ev]) ↔ Along ClosesNodes [] h ∧ ClosesNodes h ev := by
  simp [along_closes_append, Along]

theorem nothingRunning_nil : NothingRunning [] := fun _ => rfl

theorem NothingRunning.append {h events : WorkerHistory} (hn : NothingRunning h)
    (hevents : ∀ ev ∈ events, ¬ WritesNode ev.op) : NothingRunning (h ++ events) := by
  intro halong
  rw [progress_append hevents]
  exact hn (along_closes_append.mp halong).1

/-- The calls that may not fail while a row is running. -/
def MustSucceed (op : WorkerOp) : Prop :=
  ¬ WritesNode op ∧ ∀ node context, op ≠ .executeWorkflowNode node context

theorem ClosesNodes.succeeded {h : WorkerHistory} {ev : WorkerEvent} (hc : ClosesNodes h ev)
    (hop : MustSucceed ev.op) (hrunning : (progress h).running = true) : CallSucceeded ev := by
  obtain ⟨op, reply⟩ := ev
  cases op with
  | db c =>
      cases c with
      | upsertRunningNode _ _ _ _ => exact absurd trivial hop.1
      | updateNode _ _ => exact absurd trivial hop.1
      | _ => exact hc hrunning
  | executeWorkflowNode node context => exact absurd rfl (hop.2 node context)
  | _ => exact hc hrunning

/-- If one of them failed, nothing is running. -/
theorem nothingRunning_of_failed {h events : WorkerHistory}
    (hops : ∀ ev ∈ events, MustSucceed ev.op) (hfailed : SomeCallFailed events) :
    NothingRunning (h ++ events) := by
  intro halong
  rw [progress_append fun ev hev => (hops ev hev).1]
  obtain ⟨ev, hev, hfailed⟩ := hfailed
  obtain ⟨first, rest, rfl, hcloses⟩ := (along_closes_append.mp halong).2.mem hev
  cases hrunning : (progress h).running with
  | false => rfl
  | true =>
      refine absurd (hcloses.succeeded (hops ev hev) ?_) hfailed
      rw [progress_append fun ev' hev' => (hops ev' (List.mem_append_left _ hev')).1]
      exact hrunning

/-! ## When rows may be written -/

/-- The calls that end the work of a delivery on the nodes. -/
def Finishes : WorkerOp → Prop
  | .db (.transaction t) => t.data.Ends
  | op => op.Settles

theorem finishes_of_settles {op : WorkerOp} (h : op.Settles) : Finishes op := by
  cases op with
  | ack _ => exact h
  | nack _ _ _ => exact h
  | _ => exact h.elim

/-- The delivery runs the nodes: it has found its execution in a status that
is not terminal, and has neither ended it nor settled. -/
structure RunsNodes (m : WorkflowExecutionRequestedMessage) (h : WorkerHistory) : Prop where
  unfinished : ∀ ev ∈ h, ¬ Finishes ev.op
  found : ∃ row : WorkflowExecution, Saw h (.findExecution m.executionId) (some row)
    ∧ isTerminalExecutionStatus row.status = false

/-- Every node of the definition that was read is done. -/
def AllDone [Runtime] (x : String) (h : WorkerHistory) : Prop :=
  ∃ (row : WorkflowExecution) (definition : WorkflowDefinition),
    Saw h (.findExecution x) (some row)
    ∧ workflowDefinitionSchema (some row.workflowVersion.definition) = .ok definition
    ∧ ∀ node ∈ definition.nodes, node.id ∈ (progress h).done

/-- When a delivery of `message` may write node rows, complete its
execution, and settle. -/
def NodeRowOp [Runtime] (message : ConsumeMessage) (h : WorkerHistory) : WorkerOp → Prop
  | .db (.upsertRunningNode m _ _ _) =>
      parseWorkflowExecutionRequestedMessage message = some m ∧ RunsNodes m h ∧ NothingRunning h
  | .db (.updateNode id _) => ∃ m, parseWorkflowExecutionRequestedMessage message = some m
      ∧ RunsNodes m h ∧ ∃ nodeId, (progress h).current = some (nodeId, id)
  | .db (.transaction t) =>
      ∀ output completedAt, t.data = .succeeded output completedAt →
        AllDone (messageExecutionId message) h
  | .ack _ => NothingRunning h
  | .nack _ _ _ => NothingRunning h
  | _ => True

/-- A delivery that writes node rows runs the nodes. -/
theorem NodeRowOp.runsNodes [Runtime] {message : ConsumeMessage} {h : WorkerHistory}
    {op : WorkerOp} (hop : NodeRowOp message h op) (hwrites : WritesNode op) :
    ∃ m, parseWorkflowExecutionRequestedMessage message = some m ∧ RunsNodes m h := by
  cases op with
  | db c =>
    cases c with
    | upsertRunningNode m _ _ _ => exact ⟨m, hop.1, hop.2.1⟩
    | updateNode id _ =>
      obtain ⟨m, hm, hruns, -⟩ := hop
      exact ⟨m, hm, hruns⟩
    | _ => exact hwrites.elim
  | _ => exact hwrites.elim

/-- When a delivery has settled, nothing is running, if all its calls closed
what they had to. -/
theorem NodeRowOp.settled [Runtime] {message : ConsumeMessage} {h : WorkerHistory}
    (hrows : Along (fun h ev => NodeRowOp message h ev.op) [] h) (hcloses : Along ClosesNodes [] h)
    (hsettled : Settled h) : (progress h).running = false := by
  induction h using List.reverseRecOn with
  | nil => rfl
  | append_singleton h ev ih =>
      obtain ⟨hrows, hop, -⟩ := along_append.mp hrows
      obtain ⟨hbefore, -⟩ := along_closes_singleton.mp hcloses
      rw [List.nil_append] at hop
      by_cases hs : Settled h
      · have hstays := ih hrows hbefore hs
        rw [progress_append_singleton]
        rcases (progress h).step_cases ev with ⟨hsame, -⟩ | ⟨m, node, input, startedAt, row, rfl, -⟩
          | ⟨m, node, input, startedAt, e, rfl, heq⟩ | ⟨id, data, reply, rfl, -, heq⟩
        · rw [hsame]
          exact hstays
        · obtain ⟨ev', hev', hsettles⟩ := hs
          refine absurd ?_ (hop.2.1.unfinished ev' hev')
          exact finishes_of_settles hsettles
        · rw [heq]
          exact hstays
        · rw [heq]
          exact ((progress h).update_keeps _ _).2 hstays
      · have hlast : ev.op.Settles := by
          obtain ⟨ev', hev', hsettles⟩ := hsettled
          rcases List.mem_append.mp hev' with hev' | hev'
          · exact absurd ⟨ev', hev', hsettles⟩ hs
          · exact List.mem_singleton.mp hev' ▸ hsettles
        obtain ⟨op, reply⟩ := ev
        have hnothing : NothingRunning h := by
          cases op with
          | ack _ => exact hop
          | nack _ _ _ => exact hop
          | _ => exact hlast.elim
        rw [progress_append_singleton, NodeProgress.step_of_not_writes _ ?_]
        · exact hnothing hbefore
        · cases op with
          | ack _ => exact id
          | nack _ _ _ => exact id
          | _ => exact hlast.elim

/-- The calls that neither write node rows nor complete an execution. -/
def LeavesNodes : WorkerOp → Prop
  | .db (.upsertRunningNode _ _ _ _) => False
  | .db (.updateNode _ _) => False
  | .db (.transaction t) => ∀ output completedAt, t.data ≠ .succeeded output completedAt
  | _ => True

/-- The same, and the delivery goes on. -/
def Preliminary (op : WorkerOp) : Prop := LeavesNodes op ∧ ¬ Finishes op

theorem LeavesNodes.not_writes {op : WorkerOp} (hop : LeavesNodes op) : ¬ WritesNode op := by
  cases op with
  | db c =>
      cases c with
      | upsertRunningNode _ _ _ _ => exact hop.elim
      | updateNode _ _ => exact hop.elim
      | _ => exact id
  | _ => exact id

theorem EventOp.preliminary {routingKey : FlowPilotRoutingKey} {op : WorkerOp}
    (hop : EventOp routingKey op) : Preliminary op := by
  cases op with
  | db c =>
      cases c with
      | upsertOutbox _ _ => exact ⟨trivial, id⟩
      | updateOutbox _ _ => exact ⟨trivial, id⟩
      | _ => exact hop.elim
  | newDate => exact ⟨trivial, id⟩
  | randomUUID => exact ⟨trivial, id⟩
  | publish _ => exact ⟨trivial, id⟩
  | _ => exact hop.elim

theorem EventOp.mustSucceed {routingKey : FlowPilotRoutingKey} {op : WorkerOp}
    (hop : EventOp routingKey op) : MustSucceed op := by
  refine ⟨hop.preliminary.1.not_writes, ?_⟩
  rintro node context rfl
  exact hop

theorem preliminary_newDate : Preliminary .newDate := ⟨trivial, id⟩

theorem preliminary_randomUUID : Preliminary .randomUUID := ⟨trivial, id⟩

theorem preliminary_findExecution (x : String) : Preliminary (.db (.findExecution x)) :=
  ⟨trivial, id⟩

theorem preliminary_upsertOutbox (routingKey : FlowPilotRoutingKey)
    (message : WorkflowLifecycleMessage) : Preliminary (.db (.upsertOutbox routingKey message)) :=
  ⟨trivial, id⟩

theorem preliminary_start (m : WorkflowExecutionRequestedMessage) (eventId : String)
    (startedAt : Int) : Preliminary (.db (.transaction (startTransition m eventId startedAt))) :=
  ⟨fun _ _ => nofun, id⟩

theorem DispatchOp.preliminary {op : WorkerOp} (hop : DispatchOp op) : Preliminary op :=
  (hop.event .workflowExecutionStarted).preliminary

section

variable {h events : WorkerHistory} {m : WorkflowExecutionRequestedMessage}

theorem RunsNodes.append (hr : RunsNodes m h) (hevents : ∀ ev ∈ events, ¬ Finishes ev.op) :
    RunsNodes m (h ++ events) where
  unfinished := List.forall_mem_append.mpr ⟨hr.unfinished, hevents⟩
  found := by
    obtain ⟨row, hsaw, hstatus⟩ := hr.found
    exact ⟨row, hsaw.mono (List.prefix_append _ _), hstatus⟩

theorem RunsNodes.append_singleton (hr : RunsNodes m h) {ev : WorkerEvent}
    (hev : ¬ Finishes ev.op) : RunsNodes m (h ++ [ev]) :=
  hr.append fun _ hev' => List.mem_singleton.mp hev' ▸ hev

variable [Runtime] {message : ConsumeMessage} {α : Type}

theorem AllDone.append {x : String} (hd : AllDone x h)
    (hevents : ∀ ev ∈ events, Preliminary ev.op) : AllDone x (h ++ events) := by
  obtain ⟨row, definition, hsaw, haccept, hdone⟩ := hd
  refine ⟨row, definition, hsaw.mono (List.prefix_append _ _), haccept, ?_⟩
  rw [progress_append fun ev hev => (hevents ev hev).1.not_writes]
  exact hdone

/-- A call that leaves the nodes, and settles only when nothing is running. -/
theorem LeavesNodes.allowed {op : WorkerOp} (hop : LeavesNodes op)
    (hn : op.Settles → NothingRunning h) : NodeRowOp message h op := by
  cases op with
  | db c =>
      cases c with
      | upsertRunningNode _ _ _ _ => exact hop.elim
      | updateNode _ _ => exact hop.elim
      | transaction t => exact fun output completedAt ht => absurd ht (hop output completedAt)
      | _ => trivial
  | ack _ => exact hn trivial
  | nack _ _ _ => exact hn trivial
  | _ => trivial

theorem Preliminary.allowed {op : WorkerOp} (hop : Preliminary op) : NodeRowOp message h op :=
  hop.1.allowed fun hsettles => absurd (finishes_of_settles hsettles) hop.2

/-! ## The parts of the handler -/

/-- A part of the handler, run after `h`: it keeps to `NodeRowOp` and ends in
`Q` or `E`, whatever the replies. -/
abbrev WritesRows (message : ConsumeMessage) (p : Worker α) (h : WorkerHistory)
    (Q : α → WorkerHistory → Prop) (E : JsError → WorkerHistory → Prop) : Prop :=
  wp (fun _ _ => True) (NodeRowOp message) p h Q E

/-- A part that leaves the nodes, when nothing is running. -/
theorem NothingRunning.leaves {p : Worker α} (hn : NothingRunning h)
    (hp : Issues LeavesNodes p) :
    WritesRows message p h (fun _ => NothingRunning) (fun _ => NothingRunning) := by
  have hstays : ∀ {events : WorkerHistory}, (∀ ev ∈ events, LeavesNodes ev.op) →
      NothingRunning (h ++ events) := fun hall => hn.append fun ev hev => (hall ev hev).not_writes
  refine wp_mono ?_ ?_ (wp_of_spec hp fun events op hall hop => hop.allowed fun _ => hstays hall)
  · rintro a h' ⟨events, rfl, hall, -⟩
    exact hstays hall
  · rintro e h' ⟨events, rfl, hall, -⟩
    exact hstays hall

/-- A part that goes on, by what it does itself. -/
theorem preliminary_rows {p : Worker α} {R : α → List WorkerEvent → Prop}
    {S : JsError → List WorkerEvent → Prop} {Q : α → WorkerHistory → Prop}
    {E : JsError → WorkerHistory → Prop} (hp : Spec Preliminary p R S)
    (hQ : ∀ a events, (∀ ev ∈ events, Preliminary ev.op) → R a events → Q a (h ++ events))
    (hE : ∀ e events, (∀ ev ∈ events, Preliminary ev.op) → S e events → E e (h ++ events)) :
    WritesRows message p h Q E := by
  refine wp_mono ?_ ?_ (wp_of_spec hp fun _ _ _ hop => hop.allowed)
  · rintro a h' ⟨events, rfl, hall, hR⟩
    exact hQ a events hall hR
  · rintro e h' ⟨events, rfl, hall, hS⟩
    exact hE e events hall hS

end

/-! ## Parts that leave the nodes -/

section

variable {α : Type}

theorem issues_preliminary_leaves {p : Worker α} (hp : Issues Preliminary p) :
    Issues LeavesNodes p :=
  issues_mono (fun _ hop => hop.1) hp

theorem Exact.issues {I J : WorkerOp → Prop} {p : Worker α} (hp : Exact I p)
    (hIJ : ∀ op, I op → J op) : Issues J p :=
  spec_mono hIJ hp (fun _ _ _ => trivial) (fun _ _ _ => trivial)

theorem dispatchOutboxEvent_preliminary (row : OutboxMessage) :
    Issues Preliminary (dispatchOutboxEvent row) :=
  (dispatchOutboxEvent_exact row).issues fun _ hop => hop.preliminary

theorem dispatchPending_preliminary (executionId : String) :
    Issues Preliminary (dispatchPendingWorkflowExecutionOutboxMessages executionId) := by
  have heach : ∀ rows : List OutboxMessage, Issues Preliminary (dispatchEach rows) := by
    intro rows
    induction rows with
    | nil => exact issues_pure ()
    | cons row rows ih => exact issues_bind (dispatchOutboxEvent_preliminary row) fun _ => ih
  exact issues_bind (issues_perform ⟨trivial, id⟩) heach

theorem outboxDispatcherCycle_preliminary : Issues Preliminary outboxDispatcherCycle := by
  have hbatch : ∀ (rows : List OutboxMessage) (result : DispatchResult),
      Issues Preliminary (dispatchBatch rows result) := by
    intro rows
    induction rows with
    | nil => exact issues_pure
    | cons row rows ih =>
        exact fun result => issues_bind
          (issues_tryCatch (issues_bind (dispatchOutboxEvent_preliminary row)
            fun _ => issues_pure _) fun _ => issues_pure _) ih
  exact issues_tryCatch (issues_bind
    (issues_bind (issues_perform ⟨trivial, id⟩) fun rows => hbatch rows _)
    fun _ => issues_pure ()) fun _ => issues_pure ()

/-- What follows the transaction that ends an execution: its outbox row is
dispatched, or the execution was ended by another delivery. -/
theorem afterTransition_preliminary (result : TransitionResult) (executionId : String)
    (dispatched : WorkflowExecution → String) {conflict missing : Worker Unit}
    (hconflict : Issues Preliminary conflict) (hmissing : Issues Preliminary missing) :
    Issues Preliminary (if result.count = 0 then do
        let execution? ← findWorkflowExecutionForProcessing executionId
        match execution? with
        | some execution =>
            if isTerminalExecutionStatus execution.status then
              dispatchPendingWorkflowExecutionOutboxMessages (dispatched execution)
            else conflict
        | none => conflict
      else
        match result.outboxMessage with
        | none => missing
        | some outboxMessage => dispatchOutboxEvent outboxMessage) := by
  split
  · refine issues_bind (issues_perform (preliminary_findExecution _)) fun execution? => ?_
    split
    · split
      · exact dispatchPending_preliminary _
      · exact hconflict
    · exact hconflict
  · split
    · exact hmissing
    · exact dispatchOutboxEvent_preliminary _

variable (m : WorkflowExecutionRequestedMessage)

theorem recordAiTrace_preliminary (data : WorkflowAiTraceCreateData) :
    Issues Preliminary (recordAiTrace m data) := by
  refine issues_tryCatch (issues_bind (issues_perform ⟨trivial, id⟩) fun trace => ?_)
    fun _ => issues_pure ()
  exact (publishAiTraceCreatedEvent_exact m _).issues fun _ hop => hop.preliminary

section

variable [Runtime] (node : WorkflowNode) (nodeExecutionId : String) (input : Record)

theorem recordAiTraceForSuccessfulNode_preliminary (output : Record)
    (startedAt completedAt : Int) :
    Issues Preliminary (recordAiTraceForSuccessfulNode m node nodeExecutionId input output
      startedAt completedAt) := by
  unfold recordAiTraceForSuccessfulNode
  split
  · exact recordAiTrace_preliminary m _
  · exact issues_pure ()

theorem recordAiTraceForFailedNode_preliminary (failure : WorkerFailure)
    (startedAt failedAt : Int) :
    Issues Preliminary (recordAiTraceForFailedNode m node nodeExecutionId input failure
      startedAt failedAt) := by
  unfold recordAiTraceForFailedNode
  split
  · exact recordAiTrace_preliminary m _
  · exact issues_pure ()

end

/-- Failing an execution leaves its nodes. -/
theorem failWorkflowExecution_leaves (failure : FlowPilotExecutionError) :
    Issues LeavesNodes (failWorkflowExecution m failure) := by
  refine issues_bind (issues_perform trivial) fun failedAt => ?_
  refine issues_bind (issues_perform trivial) fun eventId => ?_
  refine issues_bind (issues_perform fun _ _ => nofun) fun update => ?_
  exact issues_preliminary_leaves (afterTransition_preliminary update m.executionId (·.id)
    (issues_throw _) (issues_throw _))

theorem publish_leaves (p : Publication) :
    Issues LeavesNodes (do
      let _ ← publish p
      pure ()) :=
  issues_bind (issues_perform trivial) fun _ => issues_pure ()

/-- So does the `catch` block of the handler. -/
theorem handleFailure_leaves [Runtime] (message : ConsumeMessage) (error : JsError) :
    Issues LeavesNodes (handleFailure message m error) := by
  have hack : Issues LeavesNodes (ack message) := issues_perform trivial
  simp only [handleFailure]
  split
  · refine issues_bind ?_ fun _ => hack
    unfold publishRetryCommand
    split
    · exact issues_throw _
    · exact publish_leaves _
  · exact issues_tryCatch
      (issues_bind (failWorkflowExecution_leaves m _) fun _ =>
        issues_bind (publish_leaves _) fun _ => hack)
      fun _ => issues_perform trivial

end

/-! ## One node -/

section

variable {m : WorkflowExecutionRequestedMessage} {h events : WorkerHistory}
  {nodeId id : String} {before : List String}

/-- The delivery is at the row `id`, which it set running for `nodeId`, and
had the nodes `before` done. -/
structure AtRow (m : WorkflowExecutionRequestedMessage) (nodeId id : String)
    (before : List String) (h : WorkerHistory) : Prop where
  runs : RunsNodes m h
  current : (progress h).current = some (nodeId, id)
  done : ∀ n ∈ before, n ≠ nodeId → n ∈ (progress h).done

/-- Between two nodes: nothing is running, and the nodes `before` are done. -/
structure Between (m : WorkflowExecutionRequestedMessage) (before : List String)
    (h : WorkerHistory) : Prop where
  runs : RunsNodes m h
  closed : NothingRunning h
  done : ∀ n ∈ before, n ∈ (progress h).done

theorem AtRow.append (ha : AtRow m nodeId id before h)
    (hevents : ∀ ev ∈ events, Preliminary ev.op) : AtRow m nodeId id before (h ++ events) := by
  have hprogress : progress (h ++ events) = progress h :=
    progress_append fun ev hev => (hevents ev hev).1.not_writes
  refine ⟨ha.runs.append fun ev hev => (hevents ev hev).2, ?_, ?_⟩
  · rw [hprogress]
    exact ha.current
  · rw [hprogress]
    exact ha.done

theorem AtRow.append_singleton (ha : AtRow m nodeId id before h) {ev : WorkerEvent}
    (hev : Preliminary ev.op) : AtRow m nodeId id before (h ++ [ev]) :=
  ha.append fun _ hev' => List.mem_singleton.mp hev' ▸ hev

theorem Between.append (hb : Between m before h) (hevents : ∀ ev ∈ events, Preliminary ev.op) :
    Between m before (h ++ events) where
  runs := hb.runs.append fun ev hev => (hevents ev hev).2
  closed := hb.closed.append fun ev hev => (hevents ev hev).1.not_writes
  done := by
    rw [progress_append fun ev hev => (hevents ev hev).1.not_writes]
    exact hb.done

theorem Between.mono {before' : List String} (hb : Between m before h)
    (hsub : ∀ n ∈ before', n ∈ before) : Between m before' h :=
  ⟨hb.runs, hb.closed, fun n hn => hb.done n (hsub n hn)⟩

/-- An update of the current row that takes effect. -/
theorem progress_update {data : NodeExecutionUpdate}
    {reply : Reply JsError (WorkerOp.db (.updateNode id data)).Result}
    (hcurrent : (progress h).current = some (nodeId, id)) (happlied : reply.applied = true) :
    progress (h ++ [⟨.db (.updateNode id data), reply⟩]) = { progress h with
      running := false
      done := if data.completes && reply.answered then nodeId :: (progress h).done
        else (progress h).done.filter (· ≠ nodeId) } := by
  rw [progress_append_singleton, NodeProgress.step, if_pos happlied,
    NodeProgress.update_current hcurrent]

theorem AtRow.nothingRunning (ha : AtRow m nodeId id before h) {data : NodeExecutionUpdate}
    {reply : Reply JsError (WorkerOp.db (.updateNode id data)).Result}
    (happlied : reply.applied = true) :
    NothingRunning (h ++ [⟨.db (.updateNode id data), reply⟩]) := by
  intro _
  rw [progress_update ha.current happlied]

/-- An update of its row leaves the delivery at it, whatever the reply. -/
theorem AtRow.update (ha : AtRow m nodeId id before h) {data : NodeExecutionUpdate}
    (reply : Reply JsError (WorkerOp.db (.updateNode id data)).Result) :
    AtRow m nodeId id before (h ++ [⟨.db (.updateNode id data), reply⟩]) := by
  have hruns : RunsNodes m (h ++ [⟨.db (.updateNode id data), reply⟩]) :=
    ha.runs.append_singleton fun h => h
  cases happlied : reply.applied with
  | false =>
      have hsame : progress (h ++ [⟨.db (.updateNode id data), reply⟩]) = progress h := by
        rw [progress_append_singleton, NodeProgress.step, happlied]
        rfl
      exact ⟨hruns, hsame ▸ ha.current, hsame ▸ ha.done⟩
  | true =>
      have hupdated := progress_update ha.current happlied
      refine ⟨hruns, hupdated ▸ ha.current, fun n hn hne => ?_⟩
      have hdone := ha.done n hn hne
      rw [hupdated]
      dsimp only
      split
      · exact List.mem_cons_of_mem _ hdone
      · exact List.mem_filter.mpr ⟨hdone, by simpa using hne⟩

/-- A node whose row was completed is done. -/
theorem AtRow.completed (ha : AtRow m nodeId id before h) {output : Record} {completedAt : Int}
    (r : Unit) : Between m (nodeId :: before)
      (h ++ [⟨.db (.updateNode id (.succeeded output completedAt)), .ok r⟩]) := by
  refine ⟨ha.runs.append_singleton fun h => h, ha.nothingRunning rfl, fun n hn => ?_⟩
  rw [progress_update ha.current rfl]
  show n ∈ nodeId :: (progress h).done
  by_cases hne : n = nodeId
  · exact hne ▸ List.mem_cons_self
  · exact List.mem_cons_of_mem _ (ha.done n ((List.mem_cons.mp hn).resolve_left hne) hne)

/-- A row is set running. -/
theorem Between.atRow (hb : Between m before h) {node : WorkflowNode} {input : Record}
    {startedAt : Int} (row : WorkflowNodeExecution) :
    AtRow m node.id row.id before
      (h ++ [⟨.db (.upsertRunningNode m node input startedAt), .ok row⟩]) := by
  refine ⟨hb.runs.append_singleton fun h => h, ?_, fun n hn hne => ?_⟩
  · rw [progress_append_singleton]
    rfl
  · rw [progress_append_singleton]
    exact List.mem_filter.mpr ⟨hb.done n hn, by simpa using hne⟩

/-- A call that sets a row running and throws. -/
theorem Between.upsert_throws (hb : Between m before h) {node : WorkflowNode} {input : Record}
    {startedAt : Int} {e : JsError}
    {reply : Reply JsError (WorkerOp.db (.upsertRunningNode m node input startedAt)).Result}
    (hreply : reply = .lost e ∨ reply = .failed e) :
    NothingRunning (h ++ [⟨.db (.upsertRunningNode m node input startedAt), reply⟩]) := by
  intro halong
  obtain ⟨hbefore, hcloses⟩ := along_closes_singleton.mp halong
  rw [progress_append_singleton]
  rcases hreply with rfl | rfl
  · cases hcloses rfl
  · exact hb.closed hbefore

end

section

variable [Runtime] {message : ConsumeMessage} {m : WorkflowExecutionRequestedMessage}
  {h : WorkerHistory} {before : List String} {α : Type}

/-- A part between nodes that goes on. -/
theorem Between.preliminary {p : Worker α} (hb : Between m before h)
    (hp : Issues Preliminary p) :
    WritesRows message p h (fun _ => Between m before) (fun _ => NothingRunning) :=
  preliminary_rows hp (fun _ _ hall _ => hb.append hall)
    (fun _ _ hall _ => (hb.append hall).closed)

/-- A part at a row that must not fail. -/
theorem AtRow.mustSucceed {routingKey : FlowPilotRoutingKey} {nodeId id : String} {p : Worker α}
    (ha : AtRow m nodeId id before h) (hp : ThrowsOnFailure (EventOp routingKey) p) :
    WritesRows message p h (fun _ => AtRow m nodeId id before) (fun _ => NothingRunning) := by
  have hops := spec_mono (fun _ hop => EventOp.preliminary hop) (spec_ops hp)
    (fun _ _ h => h) (fun _ _ h => h)
  exact preliminary_rows hops (fun _ _ hall _ => ha.append hall)
    (fun _ _ _ hfailed =>
      nothingRunning_of_failed (fun ev hev => (hfailed.2 ev hev).mustSucceed) hfailed.1)

variable (hm : parseWorkflowExecutionRequestedMessage message = some m) {node : WorkflowNode}
  {id : String} {input : Record} {startedAt : Int}

include hm in
/-- The `try` block: what it throws, it throws at the row of its node. -/
theorem nodeSuccessPath_rows (ha : AtRow m node.id id before h) :
    WritesRows message (nodeSuccessPath m node id input startedAt) h
      (fun _ => Between m (node.id :: before)) (fun _ => AtRow m node.id id before) := by
  have hexecute : Preliminary (.executeWorkflowNode node ⟨input, m, id⟩) := ⟨trivial, fun h => h⟩
  refine wp_bind (wp_perform trivial (fun output _ => ?_)
    (fun _ _ => ha.append_singleton hexecute) (fun _ _ => ha.append_singleton hexecute))
  have ha₁ : AtRow m node.id id before (h ++ [⟨_, .ok output⟩]) := ha.append_singleton hexecute
  refine wp_bind (wp_perform trivial (fun completedAt _ => ?_)
    (fun _ _ => ha₁.append_singleton preliminary_newDate)
    (fun _ _ => ha₁.append_singleton preliminary_newDate))
  have ha₂ : AtRow m node.id id before (_ ++ [⟨_, .ok completedAt⟩]) :=
    ha₁.append_singleton preliminary_newDate
  refine wp_bind (wp_perform ⟨m, hm, ha₂.runs, node.id, ha₂.current⟩ (fun r _ => ?_)
    (fun _ _ => ha₂.update _) (fun _ _ => ha₂.update _))
  -- the row is completed; what follows goes on from there
  have hrest : Issues Preliminary (do
      recordAiTraceForSuccessfulNode m node id input output startedAt completedAt
      publishNodeCompletedEvent m node id output startedAt completedAt
      pure output : Worker Record) :=
    issues_bind (recordAiTraceForSuccessfulNode_preliminary m node id input output startedAt
      completedAt) fun _ =>
      issues_bind ((publishNodeCompletedEvent_exact m node id output startedAt
        completedAt).issues fun _ hop => hop.preliminary) fun _ => issues_pure output
  exact preliminary_rows hrest (fun _ _ hall _ => (ha₂.completed r).append hall)
    (fun _ _ hall _ => (ha₂.update _).append hall)

include hm in
/-- The `catch` block: it throws, with the row of its node updated. -/
theorem nodeFailurePath_rows {error : JsError} (ha : AtRow m node.id id before h) :
    WritesRows message (nodeFailurePath m node id input startedAt error) h
      (fun _ _ => False) (fun _ => NothingRunning) := by
  have hdate : ThrowsOnFailure (EventOp .nodeExecutionFailed) newDate :=
    throwsOnFailure_call trivial
  refine wp_bind (wp_mono (fun failedAt h₁ ha₁ => ?_) (fun _ _ h => h) (ha.mustSucceed hdate))
  have hcloses : ∀ {reply}, Along ClosesNodes [] (h₁ ++ [⟨.db (.updateNode id
      (.failed (normalizeWorkerFailure error) failedAt)), reply⟩]) → reply.applied = false →
      (progress h₁).running = false := by
    intro reply halong happlied
    cases hrunning : (progress h₁).running with
    | false => rfl
    | true =>
        have happlied' := (along_closes_singleton.mp halong).2 hrunning
        cases happlied.symm.trans happlied'
  refine wp_bind (wp_perform ⟨m, hm, ha₁.runs, node.id, ha₁.current⟩ (fun r _ => ?_)
    (fun e _ => ha₁.nothingRunning rfl) (fun e _ halong => ?_))
  · have hclosed : NothingRunning (_ ++ [⟨.db (.updateNode id (.failed _ failedAt)), .ok r⟩]) :=
      ha₁.nothingRunning rfl
    have hrecord := issues_preliminary_leaves
      (recordAiTraceForFailedNode_preliminary m node id input (normalizeWorkerFailure error)
        startedAt failedAt)
    have hpublish : Issues LeavesNodes
        (publishNodeFailedEvent m node id (normalizeWorkerFailure error) failedAt) :=
      (publishNodeFailedEvent_exact m node id _ failedAt).issues fun _ hop => hop.preliminary.1
    refine wp_bind (wp_mono (fun _ h₃ hn₃ => ?_) (fun _ _ h => h) (hclosed.leaves hrecord))
    exact wp_bind (wp_mono (fun _ _ hn => hn) (fun _ _ h => h) (hn₃.leaves hpublish))
  · rw [progress_append_singleton]
    exact hcloses halong rfl

include hm in
/-- One iteration of the loop. -/
theorem runNode_rows (hb : Between m before h) :
    WritesRows message (runNode m node input) h
      (fun _ => Between m (node.id :: before)) (fun _ => NothingRunning) := by
  have hdate : Issues Preliminary newDate := issues_perform preliminary_newDate
  refine wp_bind (wp_mono (fun startedAt h₁ hb₁ => ?_) (fun _ _ h => h) (hb.preliminary hdate))
  refine wp_bind (wp_perform ⟨hm, hb₁.runs, hb₁.closed⟩ (fun row _ => ?_)
    (fun e _ => hb₁.upsert_throws (Or.inl rfl)) (fun e _ => hb₁.upsert_throws (Or.inr rfl)))
  have hstarted := (publishNodeStartedEvent_exact m node (WorkflowNodeExecution.id row) input
    startedAt).throwsOnFailure fun _ hop => hop
  refine wp_bind (wp_mono (fun _ h₂ ha₂ => ?_) (fun _ _ h => h)
    ((hb₁.atRow row).mustSucceed hstarted))
  exact wp_tryCatch (wp_mono (fun _ _ h => h)
    (fun error _ ha => wp_mono (fun _ _ h => h.elim) (fun _ _ h => h) (nodeFailurePath_rows hm ha))
    (nodeSuccessPath_rows hm ha₂))

/-! ## The loop -/

include hm in
/-- The loop ends with every node of its list done. -/
theorem executeNodes_rows (definition : WorkflowDefinition) :
    ∀ (nodes : List WorkflowNode) (nodeOutputs : JsMap Record) (currentInput : Record)
      {before : List String} {h : WorkerHistory}, Between m before h →
      WritesRows message (executeNodes m definition nodes nodeOutputs currentInput) h
        (fun _ => Between m (nodes.map (·.id) ++ before)) (fun _ => NothingRunning)
  | [], _, _, _, _, hb => hb
  | node :: nodes, nodeOutputs, currentInput, before, _, hb => by
      refine wp_bind (wp_mono (fun output h₁ hb₁ => ?_) (fun _ _ h => h) (runNode_rows hm hb))
      refine wp_mono (fun _ _ hb₂ => hb₂.mono ?_) (fun _ _ h => h)
        (executeNodes_rows definition nodes _ output hb₁)
      intro n hn
      simp only [List.map_cons, List.cons_append, List.mem_cons, List.mem_append] at hn ⊢
      tauto

include hm in
/-- When the nodes have run, every node of the definition is done. -/
theorem executeWorkflowNodes_rows {execution : WorkflowExecution} (hb : Between m [] h)
    (hread : ∃ row : WorkflowExecution, Saw h (.findExecution m.executionId) (some row)
      ∧ row.workflowVersion = execution.workflowVersion) :
    WritesRows message (executeWorkflowNodes m execution) h
      (fun _ h' => NothingRunning h' ∧ AllDone m.executionId h') (fun _ => NothingRunning) := by
  obtain ⟨row, hsaw, hversion⟩ := hread
  unfold executeWorkflowNodes
  cases assertNoSimulatedWorkflowFailure m with
  | error e => exact hb.closed
  | ok _ =>
      cases hparse : parseWorkflowDefinition execution.workflowVersion.definition with
      | error e => exact hb.closed
      | ok definition =>
          have haccept := parseWorkflowDefinition_eq_ok.mp hparse
          obtain ⟨ordered, hordered, horder⟩ :=
            orderWorkflowNodes_spec (wellFormedGraph_of_accepted haccept)
          simp only [ofExcept_ok_bind, hordered]
          have hloop := executeNodes_rows hm definition ordered .empty m.input hb
          refine wp_bind (wp_mono ?_ (fun _ _ hn => hn.2) (wp_grows hloop))
          rintro output h₁ ⟨hle, hb₁⟩
          refine ⟨hb₁.closed, row, definition, hsaw.mono hle, hversion ▸ haccept, ?_⟩
          intro node hnode
          have hmem := horder.perm.mem_iff.mpr hnode
          exact hb₁.done _ (List.mem_append_left _ (List.mem_map_of_mem hmem))

/-! ## The handler -/

omit [Runtime] in
theorem preliminary_call {op : WorkerOp} (hop : Preliminary op)
    {Q : op.Result → List WorkerEvent → Prop} (hQ : ∀ r, Q r [⟨op, .ok r⟩]) :
    Spec Preliminary (call op) Q (fun _ _ => True) :=
  spec_perform hop hQ (fun _ => trivial) (fun _ => trivial)

/-- How `enterRunning` comes to return an execution. -/
inductive Entered (m : WorkflowExecutionRequestedMessage) (existingExecution : WorkflowExecution)
    (effectiveStartedAt : Int) (events : WorkerHistory) : WorkflowExecution → Prop
  | running : existingExecution.status ≠ .pending →
      Entered m existingExecution effectiveStartedAt events existingExecution
  | started {eventId : String} {transition : TransitionResult} :
      Saw events (.transaction (startTransition m eventId effectiveStartedAt)) transition →
      transition.count ≠ 0 →
      Entered m existingExecution effectiveStartedAt events { existingExecution with
        status := .running, startedAt := some effectiveStartedAt }
  /-- Another delivery had started it, and it was read again. -/
  | lost {eventId : String} {transition : TransitionResult} {execution : WorkflowExecution} :
      Saw events (.transaction (startTransition m eventId effectiveStartedAt)) transition →
      transition.count = 0 → Saw events (.findExecution m.executionId) (some execution) →
      Entered m existingExecution effectiveStartedAt events execution

omit [Runtime] in
/-- The early returns. -/
theorem dispatchPending_none {executionId : String}
    {P : WorkerHistory → WorkflowExecution → Prop} :
    Spec Preliminary (do
        dispatchPendingWorkflowExecutionOutboxMessages executionId
        pure none)
      (fun execution? events => ∀ execution, execution? = some execution → P events execution)
      (fun _ _ => True) :=
  spec_bind (spec_conseq (dispatchPending_preliminary executionId)
    (fun _ _ _ _ hnone => nomatch hnone) (fun _ _ h => h))

omit [Runtime] in
theorem enterRunning_preliminary (existingExecution : WorkflowExecution)
    (effectiveStartedAt : Int) :
    Spec Preliminary (enterRunning m existingExecution effectiveStartedAt)
      (fun execution? events => ∀ execution, execution? = some execution →
        Entered m existingExecution effectiveStartedAt events execution)
      (fun _ _ => True) := by
  unfold enterRunning
  split
  · refine spec_bind (preliminary_call preliminary_randomUUID fun eventId => ?_)
    refine spec_bind (preliminary_call (preliminary_start _ _ _) fun transition => ?_)
    split
    · rename_i hcount
      refine spec_bind (preliminary_call (preliminary_findExecution _) fun execution? => ?_)
      cases execution? with
      | none => exact dispatchPending_none
      | some execution =>
          dsimp only
          split
          · exact dispatchPending_none
          · intro execution' he
            obtain rfl := Option.some.inj he
            exact .lost (List.mem_cons_of_mem _ List.mem_cons_self) hcount (by simp [Saw])
    · rename_i hcount
      split
      · trivial
      · refine spec_bind (spec_conseq (dispatchOutboxEvent_preliminary _) (fun _ _ _ => ?_)
          (fun _ _ h => h))
        intro execution he
        obtain rfl := Option.some.inj he
        exact .started (List.mem_cons_of_mem _ List.mem_cons_self) hcount
  · rename_i hstatus
    refine spec_bind (preliminary_call preliminary_randomUUID fun eventId => ?_)
    refine spec_bind (preliminary_call (preliminary_upsertOutbox _ _) fun row => ?_)
    refine spec_bind (spec_conseq (dispatchOutboxEvent_preliminary _) (fun _ _ _ => ?_)
      (fun _ _ h => h))
    intro execution he
    obtain rfl := Option.some.inj he
    exact .running hstatus

/-- Between the nodes and the completion. -/
theorem NothingRunning.preliminary {p : Worker α} {x : String} (hn : NothingRunning h)
    (hdone : AllDone x h) (hp : Issues Preliminary p) :
    WritesRows message p h (fun _ h' => NothingRunning h' ∧ AllDone x h')
      (fun _ => NothingRunning) := by
  have hstays : ∀ {events : WorkerHistory}, (∀ ev ∈ events, Preliminary ev.op) →
      NothingRunning (h ++ events) := fun hall => hn.append fun ev hev => (hall ev hev).1.not_writes
  exact preliminary_rows hp (fun _ _ hall _ => ⟨hstays hall, hdone.append hall⟩)
    (fun _ _ hall _ => hstays hall)

include hm in
/-- Completing an execution, when all its nodes are done. -/
theorem completeWorkflowExecution_rows {execution : WorkflowExecution} {output : Record}
    {effectiveStartedAt : Int} (hn : NothingRunning h) (hdone : AllDone m.executionId h) :
    WritesRows message (completeWorkflowExecution m execution output effectiveStartedAt) h
      (fun _ => NothingRunning) (fun _ => NothingRunning) := by
  have hx : messageExecutionId message = m.executionId := by simp [messageExecutionId, hm]
  have hdate : Issues Preliminary newDate := issues_perform preliminary_newDate
  have huuid : Issues Preliminary randomUUID := issues_perform preliminary_randomUUID
  refine wp_bind (wp_mono (fun completedAt h₁ hdone₁ => ?_) (fun _ _ h => h)
    (hn.preliminary hdone hdate))
  refine wp_bind (wp_mono (fun eventId h₂ hdone₂ => ?_) (fun _ _ h => h)
    (hdone₁.1.preliminary hdone₁.2 huuid))
  have hstays : ∀ reply, NothingRunning (h₂ ++ [⟨.db (.transaction (completeTransition m
      execution.id eventId output effectiveStartedAt completedAt)), reply⟩]) := fun reply =>
    hdone₂.1.append fun ev hev => List.mem_singleton.mp hev ▸ id
  refine wp_bind (wp_perform (fun _ _ _ => hx ▸ hdone₂.2) (fun completion _ => ?_)
    (fun _ _ => hstays _) (fun _ _ => hstays _))
  exact (hstays _).leaves (issues_preliminary_leaves (afterTransition_preliminary completion
    execution.id (fun _ => execution.id) (issues_throw _) (issues_throw _)))

include hm in
/-- Processing a command. -/
theorem processWorkflowExecution_rows :
    WritesRows message (processWorkflowExecution m) []
      (fun _ => NothingRunning) (fun _ => NothingRunning) := by
  have hdate : Issues Preliminary newDate := issues_perform preliminary_newDate
  have hfind : ∀ {h : WorkerHistory} {ev : WorkerEvent}, (∀ ev ∈ h, Preliminary ev.op) →
      Preliminary ev.op → ∀ ev' ∈ h ++ [ev], Preliminary ev'.op := fun hall hev =>
    List.forall_mem_append.mpr ⟨hall, fun _ h => List.mem_singleton.mp h ▸ hev⟩
  have hclosed : ∀ {h : WorkerHistory}, (∀ ev ∈ h, Preliminary ev.op) → NothingRunning h :=
    fun hall => nothingRunning_nil.append fun ev hev => (hall ev hev).1.not_writes
  refine wp_bind (preliminary_rows hdate (fun startedAt h₁ hall₁ _ => ?_)
    (fun _ _ hall _ => hclosed hall))
  rw [List.nil_append]
  refine wp_bind (wp_perform trivial (fun existing? _ => ?_)
    (fun _ _ => hclosed (hfind hall₁ (preliminary_findExecution _)))
    (fun _ _ => hclosed (hfind hall₁ (preliminary_findExecution _))))
  have hall₂ : ∀ ev ∈ h₁ ++ [⟨.db (.findExecution m.executionId), .ok existing?⟩],
      Preliminary ev.op := hfind hall₁ (preliminary_findExecution _)
  cases existing? with
  | none => exact hclosed hall₂
  | some existing =>
      dsimp only
      split
      · exact (hclosed hall₂).leaves (issues_preliminary_leaves (dispatchPending_preliminary _))
      · rename_i hstatus
        have hsaw := saw_singleton h₁ (.findExecution m.executionId) (some existing)
        have hb : Between m []
            (h₁ ++ [⟨.db (.findExecution m.executionId), .ok (some existing)⟩]) :=
          ⟨⟨fun ev hev => (hall₂ ev hev).2, existing, hsaw, by simpa using hstatus⟩,
            hclosed hall₂, fun _ hn => by cases hn⟩
        refine wp_bind (preliminary_rows (enterRunning_preliminary existing _)
          (fun execution? events hall hread => ?_) (fun _ _ hall _ => (hb.append hall).closed))
        cases execution? with
        | none => exact (hb.append hall).closed
        | some execution =>
            refine wp_bind (wp_mono (fun output h₄ hdone => ?_) (fun _ _ h => h)
              (executeWorkflowNodes_rows hm (hb.append hall) ?_))
            · exact completeWorkflowExecution_rows hm hdone.1 hdone.2
            · have hexisting := hsaw.mono (List.prefix_append _ events)
              cases hread execution rfl with
              | running _ => exact ⟨existing, hexisting, rfl⟩
              | started _ _ => exact ⟨existing, hexisting, rfl⟩
              | lost _ _ hread => exact ⟨execution, List.mem_append_right _ hread, rfl⟩

include hm in
theorem processAndAck_rows :
    WritesRows message (processAndAck message m) []
      (fun _ => NothingRunning) (fun _ => NothingRunning) :=
  wp_bind (wp_mono (fun _ _ hn => hn.leaves (issues_perform trivial)) (fun _ _ h => h)
    (processWorkflowExecution_rows hm))

/-- The handler keeps to `NodeRowOp`, whatever the replies. -/
theorem handleDelivery_rows (message : ConsumeMessage) :
    SafeFrom (NodeRowOp message) [] (handleDelivery message) := by
  unfold handleDelivery
  split
  · have hraw : Issues LeavesNodes (do
        publishRawDeadLetter message "invalid_payload"
        ack message) :=
      issues_bind (issues_bind (issues_perform trivial) fun now => publish_leaves _)
        fun _ => issues_perform trivial
    exact wp_mono (fun _ _ _ => trivial) (fun _ _ _ => trivial) (nothingRunning_nil.leaves hraw)
  · rename_i m hm
    refine wp_tryCatch (wp_mono (fun _ _ _ => trivial) (fun error h₁ hn => ?_)
      (processAndAck_rows hm))
    exact wp_mono (fun _ _ _ => trivial) (fun _ _ _ => trivial)
      (hn.leaves (handleFailure_leaves m message error))

end

end FlowPilot
