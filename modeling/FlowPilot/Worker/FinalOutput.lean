import FlowPilot.Worker.DataFlow

/-!
# The final output

`finalOutput` is what the loop of `executeWorkflowNodes` produced last. On an
accepted definition the last node of the execution order has no outgoing
edges (`ExecutionOrder.isSink_last`), so it is the output of such a node; where
there is only one, the order of the arrays does not matter
(`executeWorkflowNodes_finalOutput`).
-/

namespace FlowPilot

open Prog hiding pure throw bind tryCatch

/-- No edge leads out of `id`. -/
def WorkflowDefinition.IsSink (d : WorkflowDefinition) (id : String) : Prop :=
  ∀ edge ∈ d.edges, edge.sourceNodeId ≠ id

/-- The executor of `node` returned `output`. -/
def OutputIn (events : List WorkerEvent) (node : WorkflowNode) (output : Record) : Prop :=
  ∃ input, ExecutorReturned events node input output

theorem OutputIn.left {events rest : List WorkerEvent} {node : WorkflowNode} {output : Record}
    (h : OutputIn events node output) : OutputIn (events ++ rest) node output := by
  obtain ⟨input, context, hinput, hmem⟩ := h
  exact ⟨input, context, hinput, List.mem_append_left _ hmem⟩

theorem OutputIn.right {events rest : List WorkerEvent} {node : WorkflowNode} {output : Record}
    (h : OutputIn rest node output) : OutputIn (events ++ rest) node output := by
  obtain ⟨input, context, hinput, hmem⟩ := h
  exact ⟨input, context, hinput, List.mem_append_right _ hmem⟩

/-! ## The last node -/

/-- In an execution order the last node has no outgoing edge: its target would
have to come later. -/
theorem ExecutionOrder.isSink_last {d : WorkflowDefinition} (hg : WellFormedGraph d)
    {before : List WorkflowNode} {node : WorkflowNode}
    (horder : ExecutionOrder d (before ++ [node])) : d.IsSink node.id := by
  intro edge hedge hsource
  obtain ⟨target, htarget, hid⟩ := (hg.endpoints edge hedge).2
  rcases List.mem_append.mp (horder.perm.symm.subset htarget) with hbefore | hlast
  · obtain ⟨first, rest, rfl⟩ := List.append_of_mem hbefore
    have hincoming : edge ∈ incomingEdges d target :=
      List.mem_filter.mpr ⟨hedge, by simpa using hid.symm⟩
    have hsplit : first ++ target :: rest ++ [node] = first ++ target :: (rest ++ [node]) := by simp
    have hplaced : node.id ∈ first.map (·.id) :=
      hsource ▸ horder.source_mem_before hg hsplit edge hincoming
    have hnodup := (horder.perm.map WorkflowNode.id).nodup_iff.mpr hg.node_ids_distinct
    rw [List.map_append, List.nodup_append', List.map_append] at hnodup
    exact hnodup.2.2 (List.mem_append_left _ hplaced) (by simp)
  · obtain rfl := List.mem_singleton.mp hlast
    exact hg.no_self_edge edge hedge (hsource.trans hid)

/-- The loop returns the output of its last node. -/
theorem executeNodes_last [Runtime] (m : WorkflowExecutionRequestedMessage)
    (definition : WorkflowDefinition) (last : WorkflowNode) :
    ∀ (before : List WorkflowNode) (outputs : JsMap Record) (current : Record),
      Spec NodeOp (executeNodes m definition (before ++ [last]) outputs current)
        (fun final events => OutputIn events last final) (fun _ _ => True)
  | [], outputs, current => by
      refine spec_bind (spec_conseq (runNode_spec m last _) (fun output events h => ?_)
        (fun _ _ _ => trivial))
      have hreturned : OutputIn events last output := ⟨_, h.2⟩
      exact hreturned.left
  | node :: before, outputs, current => by
      refine spec_bind (spec_conseq (runNode_spec m node _) (fun output events _ => ?_)
        (fun _ _ _ => trivial))
      exact spec_conseq (executeNodes_last m definition last before _ _)
        (fun final rest h => h.right) (fun _ _ _ => trivial)

/-- What is returned counts the nodes and hands on the output of the last. -/
theorem executeWorkflowNodes_last [Runtime] (m : WorkflowExecutionRequestedMessage)
    (execution : WorkflowExecution) {d : WorkflowDefinition} {before : List WorkflowNode}
    {last : WorkflowNode}
    (haccept : workflowDefinitionSchema (some execution.workflowVersion.definition) = .ok d)
    (hordered : orderWorkflowNodes d = .ok (before ++ [last])) :
    Spec NodeOp (executeWorkflowNodes m execution)
      (fun result events => ∃ finalOutput, OutputIn events last finalOutput
        ∧ result = executionOutput (before ++ [last]).length finalOutput)
      (fun _ _ => True) := by
  unfold executeWorkflowNodes assertNoSimulatedWorkflowFailure
  rw [parseWorkflowDefinition_eq_ok.mpr haccept]
  cases simulatedWorkflowFailure m.input with
  | some error => trivial
  | none =>
      simp only [ofExcept_ok_bind, hordered]
      refine spec_bind (spec_conseq (executeNodes_last m d last before .empty m.input)
        (fun final events h => ?_) (fun _ _ _ => trivial))
      exact ⟨final, h.left, rfl⟩

/-- A run that returns has the output of a node without outgoing edges. -/
theorem finalOutput_of_returned [Runtime] {m : WorkflowExecutionRequestedMessage}
    {execution : WorkflowExecution} {d : WorkflowDefinition} {events : List WorkerEvent}
    {result : Record}
    (haccept : workflowDefinitionSchema (some execution.workflowVersion.definition) = .ok d)
    (htrace : Trace (executeWorkflowNodes m execution) events (.ok result)) :
    ∃ finalOutput, result = executionOutput d.nodes.length finalOutput
      ∧ ∃ node ∈ d.nodes, d.IsSink node.id ∧ OutputIn events node finalOutput := by
  have hg := wellFormedGraph_of_accepted haccept
  obtain ⟨ordered, hordered, horder⟩ := orderWorkflowNodes_spec hg
  rcases List.eq_nil_or_concat ordered with rfl | ⟨before, last, rfl⟩
  · obtain ⟨id, trigger, htrigger, -⟩ := hg.has_trigger
    cases horder.perm.symm.subset htrigger
  · rw [List.concat_eq_append] at hordered horder
    obtain ⟨-, finalOutput, houtput, rfl⟩ :=
      spec_trace (executeWorkflowNodes_last m execution haccept hordered) htrace
    exact ⟨finalOutput, by rw [horder.perm.length_eq], last, horder.perm.subset (by simp),
      horder.isSink_last hg, houtput⟩

/-! ## Permuted arrays -/

/-- What a run that returned has computed: every output is the executor's, on
the input the graph prescribes. -/
theorem AgreesWith.output_eq [Runtime] {exec : WorkflowNode → Record → Record}
    {m : WorkflowExecutionRequestedMessage} {execution : WorkflowExecution}
    {d : WorkflowDefinition} {events : List WorkerEvent} {result : Record}
    (hagree : AgreesWith (dispatchExecutor exec) events)
    (haccept : workflowDefinitionSchema (some execution.workflowVersion.definition) = .ok d)
    (htrace : Trace (executeWorkflowNodes m execution) events (.ok result)) :
    ∃ ordered s, ordered.Perm d.nodes ∧ FlowInv (dispatchExecutor exec) d m.input ordered s
      ∧ ∀ node output, OutputIn events node output →
        output = dispatchExecutor exec node (nodeInput d m.input s.output node) := by
  obtain ⟨-, hresult⟩ := spec_trace (executeWorkflowNodes_spec m execution) htrace
  have hflow := hresult _ hagree
  have hsim : simulatedWorkflowFailure m.input = none := by
    cases hsim : simulatedWorkflowFailure m.input with
    | none => rfl
    | some error => simp [executionFlow, hsim] at hflow
  obtain ⟨ordered, -, horder, hfold⟩ :=
    executionFlow_of_accepted (dispatchExecutor exec) hsim haccept
  have hinv := FlowInv.run (dispatchExecutor_trigger exec) (wellFormedGraph_of_accepted haccept)
    horder ordered [] [] _ (by simp) (.start _ _ m.input)
  refine ⟨ordered, _, horder.perm, hinv, ?_⟩
  rintro node output ⟨input, hreturned⟩
  obtain ⟨context, rfl, hmem⟩ := hreturned
  have hcall : (node, context.input) ∈ executorCalls events :=
    List.mem_filterMap.mpr ⟨_, hmem, rfl⟩
  rw [(Prod.mk.inj (Except.ok.inj (hflow.symm.trans hfold))).1] at hcall
  rw [← (hinv.prescribed _ hcall).1]
  exact hagree node context.input output ⟨context, rfl, hmem⟩

/-- With the same executors and the same input, a node has the same output
under every order of the arrays. -/
theorem outputIn_perm [Runtime] {exec : WorkflowNode → Record → Record}
    {m m' : WorkflowExecutionRequestedMessage} {execution execution' : WorkflowExecution}
    {d d' : WorkflowDefinition} {events events' : List WorkerEvent} {result result' : Record}
    (haccept : workflowDefinitionSchema (some execution.workflowVersion.definition) = .ok d)
    (haccept' : workflowDefinitionSchema (some execution'.workflowVersion.definition) = .ok d')
    (hnodes : d'.nodes.Perm d.nodes) (hedges : d'.edges.Perm d.edges) (hinput : m'.input = m.input)
    (htrace : Trace (executeWorkflowNodes m execution) events (.ok result))
    (htrace' : Trace (executeWorkflowNodes m' execution') events' (.ok result'))
    (hagree : AgreesWith (dispatchExecutor exec) events)
    (hagree' : AgreesWith (dispatchExecutor exec) events') {node : WorkflowNode}
    (hnode : node ∈ d.nodes) {output output' : Record} (h : OutputIn events node output)
    (h' : OutputIn events' node output') : output' = output := by
  obtain ⟨ordered, s, hordered, hinv, houtput⟩ := hagree.output_eq haccept htrace
  obtain ⟨ordered', s', hordered', hinv', houtput'⟩ := hagree'.output_eq haccept' htrace'
  rw [hinput] at hinv' houtput'
  have hsame := FlowInv.nodeInput_eq (wellFormedGraph_of_accepted haccept) hnodes hedges hinv hinv'
    hordered hordered' node hnode
  rw [houtput node output h, houtput' node output' h', hsame]

/-- **The final output.** On an accepted definition, a run whose calls all
succeed returns (unless the input asks for a simulated failure), and a run that
returns hands on the output of a node without outgoing edges. Where there is
only one such node it is that node's, and with the same executors the result
is the same for every order of the nodes and edges. -/
theorem executeWorkflowNodes_finalOutput [Runtime] {m : WorkflowExecutionRequestedMessage}
    {execution : WorkflowExecution} {d : WorkflowDefinition} {events : List WorkerEvent}
    {out : Except JsError Record}
    (haccept : workflowDefinitionSchema (some execution.workflowVersion.definition) = .ok d)
    (htrace : Trace (executeWorkflowNodes m execution) events out) :
    ((∀ ev ∈ events, CallSucceeded ev) → simulatedWorkflowFailure m.input = none →
      ∃ result, out = .ok result)
    ∧ ∀ result, out = .ok result → ∃ finalOutput,
      result = executionOutput d.nodes.length finalOutput
      ∧ (∃ node ∈ d.nodes, d.IsSink node.id ∧ OutputIn events node finalOutput)
      ∧ ∀ sink ∈ d.nodes, (∀ node ∈ d.nodes, d.IsSink node.id → node = sink) →
        OutputIn events sink finalOutput
        ∧ ∀ exec m' execution' d' events' result',
          workflowDefinitionSchema (some execution'.workflowVersion.definition) = .ok d' →
          d'.nodes.Perm d.nodes → d'.edges.Perm d.edges → m'.input = m.input →
          Trace (executeWorkflowNodes m' execution') events' (.ok result') →
          AgreesWith (dispatchExecutor exec) events →
          AgreesWith (dispatchExecutor exec) events' →
          OutputIn events' sink finalOutput ∧ result' = result := by
  refine ⟨fun hall hsim => ?_, ?_⟩
  · obtain ⟨-, hout⟩ := spec_trace (executeWorkflowNodes_spec m execution) htrace
    cases out with
    | ok result => exact ⟨result, rfl⟩
    | error error =>
        rcases hout with ⟨ev, hmem, hfailed⟩ | hflow
        · exact absurd (hall ev hmem) hfailed
        · obtain ⟨ordered, -, -, hok⟩ :=
            executionFlow_of_accepted (fun _ input => input) hsim haccept
          cases (hflow _).symm.trans hok
  · rintro result rfl
    obtain ⟨finalOutput, rfl, node, hnode, hsink, houtput⟩ := finalOutput_of_returned haccept htrace
    refine ⟨finalOutput, rfl, ⟨node, hnode, hsink, houtput⟩, fun sink _ hunique => ?_⟩
    obtain rfl := hunique node hnode hsink
    refine ⟨houtput, fun exec m' execution' d' events' result' haccept' hnodes hedges hinput
      htrace' hagree hagree' => ?_⟩
    obtain ⟨finalOutput', rfl, node', hnode', hsink', houtput'⟩ :=
      finalOutput_of_returned haccept' htrace'
    obtain rfl := hunique node' (hnodes.subset hnode') fun edge hedge =>
      hsink' edge (hedges.symm.subset hedge)
    obtain rfl := outputIn_perm haccept haccept' hnodes hedges hinput htrace htrace' hagree hagree'
      hnode houtput houtput'
    exact ⟨houtput', by rw [hnodes.length_eq]⟩

/-- The theorem at the diamond: its final output is the join's, also when it
is written the other way round. -/
theorem executeWorkflowNodes_finalOutput_diamond :
    let _ : Runtime := .sample false
    ∃ events events' finalOutput,
      Trace (executeWorkflowNodes (orderCommand diamondDefinition)
        (orderExecution diamondDefinition)) events (.ok (executionOutput 5 finalOutput))
      ∧ Trace (executeWorkflowNodes (orderCommand reversedDiamondDefinition)
        (orderExecution reversedDiamondDefinition)) events' (.ok (executionOutput 5 finalOutput))
      ∧ OutputIn events diamondJoin finalOutput ∧ OutputIn events' diamondJoin finalOutput := by
  intro _
  obtain ⟨events, out, htrace, hfree⟩ := exists_failureFree signed
    (orderCommand diamondDefinition) (orderExecution diamondDefinition)
  obtain ⟨events', out', htrace', hfree'⟩ := exists_failureFree signed
    (orderCommand reversedDiamondDefinition) (orderExecution reversedDiamondDefinition)
  obtain ⟨hreturns, hfinal⟩ := executeWorkflowNodes_finalOutput diamondDefinition_accepted htrace
  obtain ⟨hreturns', -⟩ :=
    executeWorkflowNodes_finalOutput reversedDiamondDefinition_accepted htrace'
  obtain ⟨result, rfl⟩ := hreturns hfree.succeeded rfl
  obtain ⟨result', rfl⟩ := hreturns' hfree'.succeeded rfl
  obtain ⟨finalOutput, rfl, -, hjoin⟩ := hfinal _ rfl
  have honly : ∀ node ∈ diamondDefinition.nodes, diamondDefinition.IsSink node.id →
      node = diamondJoin := by
    intro node hnode hsink
    simp only [diamondDefinition, List.mem_cons, List.not_mem_nil, or_false] at hnode
    rcases hnode with rfl | rfl | rfl | rfl | rfl
    · rfl
    · exact absurd rfl (hsink _ (.head _))
    · exact absurd rfl (hsink _ (.tail _ (.tail _ (.head _))))
    · exact absurd rfl (hsink _ (.tail _ (.head _)))
    · exact absurd rfl (hsink _ (.tail _ (.tail _ (.tail _ (.head _)))))
  obtain ⟨houtput, hsame⟩ := hjoin diamondJoin (.head _) honly
  obtain ⟨houtput', rfl⟩ := hsame signed _ _ _ events' result' reversedDiamondDefinition_accepted
    (List.reverse_perm _) (List.reverse_perm _) rfl htrace' hfree.agrees hfree'.agrees
  exact ⟨events, events', finalOutput, htrace, htrace', houtput, houtput'⟩

end FlowPilot
