import FlowPilot.System.Commands

/-!
# Retries do not show in the output

With executors that answer as a fixed function of node and input, the output
of a succeeded execution is that of one failure-free run, whatever was
retried, duplicated, interleaved or lost on the way.

The reason is that an attempt takes nothing from the store but the
definition, and everything else from its own executor calls. So the
invariant (`Computed`) needs to follow the inputs only: the commands in
circulation carry the input of their execution, and so do the rows.
-/

namespace FlowPilot

open Prog hiding pure throw bind tryCatch

/-! ## Executors and inputs -/

/-- The executors are a function of the node and its input, and all commands
for an execution carry the same input. -/
structure Deterministic (env : Environment) (exec : WorkflowNode → Record → Record)
    (input : String → Record) : Prop where
  executor : ∀ node context output, env.executor node context output →
    output = exec node context.input
  creates : ∀ id row, env.creates id row → row.input = input id
  arrives : ∀ message m, env.arrives message →
    parseWorkflowExecutionRequestedMessage message = some m → m.input = input m.executionId

/-- The output of a succeeded row is the data flow's. -/
def Computed [Runtime] (exec : WorkflowNode → Record → Record) (input : Record)
    (row : WorkflowExecutionRow) : Prop :=
  ∃ calls output, row.output = some output
    ∧ executionFlow (dispatchExecutor exec) input row.workflowVersion.definition
      = .ok (calls, output)

/-- The invariant. -/
structure Transparent [Runtime] (exec : WorkflowNode → Record → Record)
    (input : String → Record) (s : WorkerPool) : Prop where
  messages : ∀ message m, Circulates s message →
    parseWorkflowExecutionRequestedMessage message = some m → m.input = input m.executionId
  rows : ∀ x row, s.world.store.executions x = some row → row.input = input x
  executors : ∀ t th, s.threads t = some th → AgreesWith (dispatchExecutor exec) th.history
  computed : ∀ x row, s.world.store.executions x = some row → row.status = .succeeded →
    Computed exec (input x) row

section

variable [Runtime] {env : Environment} {exec : WorkflowNode → Record → Record}
  {input : String → Record} {C : WorkerPool → WorkerLabel → Prop} {s s' : WorkerPool}
  {l : WorkerLabel} {x : String}

/-! ## The invariant -/

omit [Runtime] in
theorem parse_congr {message message' : ConsumeMessage}
    (h : message'.content = message.content) :
    parseWorkflowExecutionRequestedMessage message'
      = parseWorkflowExecutionRequestedMessage message := by
  unfold parseWorkflowExecutionRequestedMessage
  rw [h]

omit [Runtime] in
/-- An executor that answers, answers with the fixed function. -/
theorem Deterministic.dispatches (hd : Deterministic env exec input) {node : WorkflowNode}
    {context : WorkflowNodeExecutionContext} {output : Record} {w w' : World}
    (h : env.exec (.executeWorkflowNode node context) w (.ok output) w') :
    output = dispatchExecutor exec node context.input := by
  obtain ⟨hanswers, ctx, hrun⟩ := h
  obtain ⟨hout, -⟩ := Prod.mk.inj (Option.some.inj hrun)
  unfold dispatchExecutor
  split
  · rename_i htype
    exact hout.symm.trans (if_pos htype)
  · rename_i htype
    exact hd.executor node context output (hanswers.resolve_left htype)

theorem Transparent.messages_step (hd : Deterministic env exec input) (hr : Reached s)
    (hs : Pool.Step (workerSystem env) s l s') (hT : Transparent exec input s)
    (message : ConsumeMessage) (m : WorkflowExecutionRequestedMessage)
    (h : Circulates s' message)
    (hm : parseWorkflowExecutionRequestedMessage message = some m) :
    m.input = input m.executionId := by
  rcases circulates_step hr hs h with
    ⟨before, hbefore, hcontent⟩ | harrives
      | ⟨execution, eventId, occurredAt, actorUserId, hfound, hcontent⟩
  · exact hT.messages before m hbefore ((parse_congr hcontent).symm.trans hm)
  · exact hd.arrives message m harrives hm
  · obtain rfl := Option.some.inj ((parse_of_content hcontent).symm.trans hm)
    obtain ⟨row, hrow, hexecution⟩ := Option.map_eq_some_iff.mp hfound
    have hinput := hT.rows execution.id row hrow
    have hrow' : row = execution.toWorkflowExecutionRow :=
      congrArg WorkflowExecution.toWorkflowExecutionRow hexecution
    rw [hrow'] at hinput
    exact hinput

theorem Transparent.executors_step (hd : Deterministic env exec input)
    (hs : Pool.Step (workerSystem env) s l s') (hT : Transparent exec input s) (t : Nat)
    (th : WorkerThread) (hth : s'.threads t = some th) :
    AgreesWith (dispatchExecutor exec) th.history := by
  rcases hs.thread_cases hth with
    hold | ⟨info, -, -, rfl⟩ | ⟨info, h, op, k, reply, -, hold, hexec, rfl⟩
  · exact hT.executors t th hold
  · rintro node input output ⟨context, -, hmem⟩
    cases hmem
  · rintro node input output ⟨context, hinput, hmem⟩
    rcases List.mem_append.mp hmem with hmem | hmem
    · exact hT.executors t _ hold node input output ⟨context, hinput, hmem⟩
    · cases List.mem_singleton.mp hmem
      subst hinput
      exact hd.dispatches hexec

/-- A row that a delivery completes has the output of the data flow: the
definition is that of a row it read, the input that of its command. -/
theorem Transparent.computed_of_moved (hr : Reached s) (hT : Transparent exec input s)
    {i : Nat} {message : ConsumeMessage} {h : WorkerHistory} {p : Worker Unit} {ev : WorkerEvent}
    {w' : Store} {t : StatusTransition} {row : WorkflowExecutionRow}
    (hth : s.threads i = some ⟨.delivery message, h, p⟩)
    (hmoved : Moved message h ev s.world.store w' t row)
    (hsucceeded : (t.data.apply row).status = .succeeded) :
    Computed exec (input t.id) (t.data.apply row) := by
  obtain ⟨m, hm, ht⟩ := hmoved.command
  have hfound := hmoved.found
  cases ht with
  | start eventId startedAt => cases hsucceeded
  | fail eventId failureRecord failedAt => cases hsucceeded
  | complete eventId output startedAt completedAt hcomputed =>
      obtain ⟨seen, hsaw, hflow⟩ := hcomputed
      obtain ⟨calls, hcalls⟩ := hflow _ (hT.executors i _ hth)
      have hle := (hr.histories i _ hth _ hsaw).found m.executionId seen rfl
      have hversion : row.workflowVersion = seen.workflowVersion := by
        rw [show s.world.store.executions m.executionId = some row from hfound] at hle
        cases hle with
        | later hversion _ _ _ => exact hversion
      have hinput := hT.messages message m (Or.inr (Or.inr ⟨i, _, hth, rfl⟩)) hm
      rw [hinput, ← hversion] at hcalls
      exact ⟨calls, output, rfl, hcalls⟩

theorem Transparent.rows_step (hd : Deterministic env exec input) (hr : Reached s)
    (hs : Pool.Step (workerSystem env) s l s') (hT : Transparent exec input s) (x : String)
    (row : WorkflowExecutionRow) (hrow : s'.world.store.executions x = some row) :
    row.input = input x ∧ (row.status = .succeeded → Computed exec (input x) row) := by
  rcases hr.rows hs with
    heq | ⟨id, new, -, hnew, hcreates, heq⟩ | ⟨i, message, h, ev, p, p', t, old, -, hth, -, hmoved⟩
  · rw [heq] at hrow
    exact ⟨hT.rows x row hrow, hT.computed x row hrow⟩
  · rw [heq] at hrow
    by_cases hx : x = id
    · subst hx
      obtain rfl : new = row := by simpa using hrow
      exact ⟨hd.creates x new hcreates, fun h => by cases hnew.1.symm.trans h⟩
    · rw [Function.update_of_ne hx] at hrow
      exact ⟨hT.rows x row hrow, hT.computed x row hrow⟩
  · rw [hmoved.executions] at hrow
    by_cases hx : x = t.id
    · subst hx
      obtain rfl : t.data.apply old = row := by simpa using hrow
      have hinput : (t.data.apply old).input = input t.id := by
        rw [← hT.rows t.id old hmoved.found]
        cases t.data <;> rfl
      exact ⟨hinput, hT.computed_of_moved hr hth hmoved⟩
    · rw [Function.update_of_ne hx] at hrow
      exact ⟨hT.rows x row hrow, hT.computed x row hrow⟩

theorem ReachableUnder.transparent (hd : Deterministic env exec input)
    (h : ReachableUnder env C s) : Transparent exec input s := by
  induction h with
  | start hw =>
      subst hw
      refine ⟨?_, ?_, ?_, ?_⟩
      · rintro message m (hmem | hmem | ⟨t, th, hth, -⟩) _
        · cases hmem
        · cases hmem
        · cases hth
      · intro x row hrow
        cases hrow
      · intro t th hth
        cases hth
      · intro x row hrow
        cases hrow
  | step hreach _ hs ih =>
      have hr := ReachableUnder.reached hreach
      exact
        { messages := ih.messages_step hd hr hs
          rows := fun x row hrow => (ih.rows_step hd hr hs x row hrow).1
          executors := ih.executors_step hd hs
          computed := fun x row hrow => (ih.rows_step hd hr hs x row hrow).2 }

/-! ## Retry transparency -/

/-- If an execution succeeds, in any run, its output is that of the
failure-free runs of `executeWorkflowNodes` on its definition and input: one
exists, and all of them return this output. -/
theorem retry_transparency (env : Environment) (exec : WorkflowNode → Record → Record)
    (input : String → Record) (hd : Deterministic env exec input) (s : WorkerPool)
    (h : ReachableSystem env s) (x : String) (row : WorkflowExecutionRow)
    (hrow : s.world.store.executions x = some row) (hsucceeded : row.status = .succeeded) :
    ∃ output, row.output = some output
      ∧ (∃ d finalOutput, workflowDefinitionSchema (some row.workflowVersion.definition) = .ok d
        ∧ output = executionOutput d.nodes.length finalOutput)
      ∧ ∀ (m : WorkflowExecutionRequestedMessage) (execution : WorkflowExecution),
        m.input = input x → execution.workflowVersion = row.workflowVersion →
        (∃ events, Trace (executeWorkflowNodes m execution) events (.ok output)
          ∧ FailureFree exec events)
        ∧ ∀ events out, Trace (executeWorkflowNodes m execution) events out →
          FailureFree exec events → out = .ok output := by
  obtain ⟨calls, output, houtput, hflow⟩ :=
    (ReachableUnder.transparent hd h).computed x row hrow hsucceeded
  refine ⟨output, houtput, executionFlow_output hflow, fun m execution hinput hversion => ?_⟩
  have hunique : ∀ events out, Trace (executeWorkflowNodes m execution) events out →
      FailureFree exec events → out = .ok output := by
    intro events out htrace hfree
    have hout := hfree.outcome htrace
    rw [hinput, hversion, hflow] at hout
    cases out with
    | ok result =>
        obtain ⟨-, rfl⟩ := Prod.mk.inj (Except.ok.inj hout)
        rfl
    | error error => cases hout
  obtain ⟨events, out, htrace, hfree⟩ := exists_failureFree exec m execution
  obtain rfl := hunique events out htrace hfree
  exact ⟨⟨events, htrace, hfree⟩, hunique⟩

end

/-- The theorem at the diamond, when the first attempt stops in front of the
join, its event finding no room, and the delivery of the retry copy completes
the execution. -/
theorem retry_transparency_diamond :
    let _ : Runtime := .sample false
    let definition := diamondDefinition.toJson
    ∃ s t message history q row output,
      ReachableSystem (scriptEnvironment (newRow definition)) s
      ∧ s.threads t = some ⟨.delivery message, history, q⟩
      ∧ getWorkflowExecutionRetryAttempt message = 1
      ∧ s.world.store.executions "execution" = some row ∧ row.status = .succeeded
      ∧ row.output = some output
      ∧ ∃ events, Trace (executeWorkflowNodes (newCommand definition) (newExecution definition))
          events (.ok output)
        ∧ FailureFree signed events := by
  intro _ definition
  obtain ⟨s, t, message, history, q, hs, hth, hP, -⟩ :=
    exists_reachable_of_serve definition [(· ≠ 81)] (fun _ => true) 150
      (P := fun message _ w => getWorkflowExecutionRetryAttempt message = 1
        ∧ (w.store.executions "execution").any fun row =>
          row.status = .succeeded ∧ row.workflowVersion = ⟨1, definition⟩) (by decide +kernel)
  obtain ⟨hretry, hrow⟩ := of_decide_eq_true hP
  obtain ⟨row, hrow, hcheck⟩ := (Option.any_eq_true _ _).mp hrow
  obtain ⟨hsucceeded, hversion⟩ := of_decide_eq_true hcheck
  have hd : Deterministic (scriptEnvironment (newRow definition)) signed (fun _ => []) :=
    { executor := fun _ _ _ h => h
      creates := fun _ row h => by rw [h]; rfl
      arrives := fun _ _ h => h.elim }
  obtain ⟨output, houtput, -, hfree⟩ :=
    retry_transparency _ signed _ hd s hs.system "execution" row hrow hsucceeded
  exact ⟨s, t, message, history, q, row, output, hs.system, hth, hretry, hrow, hsucceeded, houtput,
    (hfree (newCommand definition) (newExecution definition) rfl hversion.symm).1⟩

end FlowPilot
