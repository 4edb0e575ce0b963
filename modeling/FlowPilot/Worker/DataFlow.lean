import FlowPilot.Api.RequestExecution
import FlowPilot.Worker.Calls

/-!
# Data flow of an execution

What `executeWorkflowNodes` computes once its effects are set aside.
`executionFlow` is the same loop as a fold over the ordered nodes, with the
executors as a function, and `executeWorkflowNodes_spec` says that every run
that returns has computed exactly that.

On an accepted definition the fold has a description that does not mention
the order (`nodeInput`): a trigger gets the command's input, any other node
the outputs of its predecessors. The invariant is `FlowInv`. Since the edges
are well founded the description determines every input and output, so the
data flow is the same for every permutation of the nodes and edges.
-/

namespace FlowPilot

open Prog hiding pure throw bind tryCatch
open Relation

/-! ## The loop without its effects -/

/-- The executor `executeWorkflowNode` dispatches to, for executors of the
other nodes given by `exec`. -/
def dispatchExecutor (exec : WorkflowNode → Record → Record) (node : WorkflowNode)
    (input : Record) : Record :=
  if node.type = .manualTrigger then input else exec node input

structure FlowState where
  calls : List (WorkflowNode × Record)
  nodeOutputs : JsMap Record
  currentInput : Record

def FlowState.start (input : Record) : FlowState := ⟨[], .empty, input⟩

section

variable (exec : WorkflowNode → Record → Record) (definition : WorkflowDefinition)

/-- One iteration: the executor is called on the node's input. -/
def flowStep (s : FlowState) (node : WorkflowNode) : FlowState :=
  let input := getNodeInput node definition s.nodeOutputs s.currentInput
  let output := exec node input
  ⟨s.calls ++ [(node, input)], s.nodeOutputs.set node.id output, output⟩

def flow (nodes : List WorkflowNode) (s : FlowState) : FlowState :=
  nodes.foldl (flowStep exec definition) s

end

/-- `executeWorkflowNodes` without its effects: the executor calls and the
output, or what is thrown before the first node. -/
def executionFlow [Runtime] (exec : WorkflowNode → Record → Record) (input : Record)
    (definition : Json) : Except JsError (List (WorkflowNode × Record) × Record) :=
  match simulatedWorkflowFailure input with
  | some error => .error error
  | none =>
      match parseWorkflowDefinition definition with
      | .error error => .error error
      | .ok definition =>
          match orderWorkflowNodes definition with
          | .error error => .error error
          | .ok orderedNodes =>
              let s := flow exec definition orderedNodes (.start input)
              .ok (s.calls, executionOutput orderedNodes.length s.currentInput)

/-- Every executor that returned did so with the value of `exec`. -/
def AgreesWith (exec : WorkflowNode → Record → Record) (events : List WorkerEvent) : Prop :=
  ∀ node input output, ExecutorReturned events node input output → output = exec node input

theorem AgreesWith.left {exec : WorkflowNode → Record → Record} {events rest : List WorkerEvent}
    (h : AgreesWith exec (events ++ rest)) : AgreesWith exec events := by
  rintro node input output ⟨context, hinput, hmem⟩
  exact h node input output ⟨context, hinput, List.mem_append_left _ hmem⟩

theorem AgreesWith.right {exec : WorkflowNode → Record → Record} {events rest : List WorkerEvent}
    (h : AgreesWith exec (events ++ rest)) : AgreesWith exec rest := by
  rintro node input output ⟨context, hinput, hmem⟩
  exact h node input output ⟨context, hinput, List.mem_append_right _ hmem⟩

/-- The loop computes the fold, from any state of the data flow. -/
theorem executeNodes_spec [Runtime] (m : WorkflowExecutionRequestedMessage)
    (definition : WorkflowDefinition) :
    ∀ (nodes : List WorkflowNode) (outputs : JsMap Record) (current : Record),
      Spec NodeOp (executeNodes m definition nodes outputs current)
        (fun final events => ∀ exec, AgreesWith exec events → ∀ calls,
          (flow exec definition nodes ⟨calls, outputs, current⟩).calls
              = calls ++ executorCalls events
          ∧ (flow exec definition nodes ⟨calls, outputs, current⟩).currentInput = final)
        (fun _ events => SomeCallFailed events)
  | [], _, _ => fun _ _ calls => ⟨(List.append_nil calls).symm, rfl⟩
  | node :: nodes, outputs, current => by
      refine spec_bind (spec_conseq (runNode_spec m node _) (fun output events h => ?_)
        (fun _ _ h => h))
      refine spec_conseq (executeNodes_spec m definition nodes _ _) (fun final rest hrest => ?_)
        (fun _ _ h => h.append_right)
      obtain ⟨hcalls, hreturned⟩ := h
      intro exec hagree calls
      obtain rfl := hagree.left _ _ _ hreturned
      obtain ⟨hflow, hfinal⟩ := hrest exec hagree.right
        (calls ++ [(node, getNodeInput node definition outputs current)])
      refine ⟨?_, hfinal⟩
      rw [executorCalls_append, hcalls, ← List.append_assoc, ← hflow]
      rfl

/-- A run of `executeWorkflowNodes` that returns has computed the data flow;
one that throws met a failing call or never started a node. -/
theorem executeWorkflowNodes_spec [Runtime] (m : WorkflowExecutionRequestedMessage)
    (execution : WorkflowExecution) :
    Spec NodeOp (executeWorkflowNodes m execution)
      (fun output events => ∀ exec, AgreesWith exec events →
        executionFlow exec m.input execution.workflowVersion.definition
          = .ok (executorCalls events, output))
      (fun error events => SomeCallFailed events
        ∨ ∀ exec, executionFlow exec m.input execution.workflowVersion.definition
          = .error error) := by
  unfold executeWorkflowNodes executionFlow assertNoSimulatedWorkflowFailure
  cases simulatedWorkflowFailure m.input with
  | some error => exact Or.inr fun _ => rfl
  | none =>
      simp only [ofExcept_ok_bind]
      cases parseWorkflowDefinition execution.workflowVersion.definition with
      | error error => exact Or.inr fun _ => rfl
      | ok definition =>
          simp only [ofExcept_ok_bind]
          cases orderWorkflowNodes definition with
          | error error => exact Or.inr fun _ => rfl
          | ok orderedNodes =>
              simp only [ofExcept_ok_bind]
              refine spec_bind (spec_conseq
                (executeNodes_spec m definition orderedNodes .empty m.input)
                (fun final events h => ?_) (fun _ _ h => Or.inl h))
              intro exec hagree
              obtain ⟨hcalls, hfinal⟩ := h exec hagree.left []
              simp only [FlowState.start, hcalls, hfinal, List.append_nil, List.nil_append]

/-! ## What a node is given -/

/-- The input of a node in terms of the outputs of its predecessors. -/
def nodeInput (definition : WorkflowDefinition) (input : Record) (output : String → Record)
    (node : WorkflowNode) : Record :=
  match incomingEdges definition node with
  | [] => input
  | [edge] => output edge.sourceNodeId
  | edges => Record.fromEntries (edges.map fun edge =>
      (edge.sourceNodeId, .obj (output edge.sourceNodeId)))

/-- When every predecessor has an output, no fallback of `getNodeInput` is
taken. -/
theorem getNodeInput_eq {definition : WorkflowDefinition} {node : WorkflowNode}
    {nodeOutputs : JsMap Record} {fallbackInput input : Record} {output : String → Record}
    (hall : ∀ edge ∈ incomingEdges definition node,
      nodeOutputs.get? edge.sourceNodeId = some (output edge.sourceNodeId))
    (hnone : incomingEdges definition node = [] → fallbackInput = input) :
    getNodeInput node definition nodeOutputs fallbackInput
      = nodeInput definition input output node := by
  unfold getNodeInput nodeInput
  generalize incomingEdges definition node = edges at hall hnone
  match edges with
  | [] => exact hnone rfl
  | [edge] =>
      simp only [hall edge List.mem_cons_self]
      rfl
  | first :: second :: rest =>
      refine congrArg Record.fromEntries (List.map_congr_left fun edge hedge => ?_)
      rw [hall edge hedge]
      rfl

/-- On a well-formed graph only the triggers have no incoming edge. -/
theorem incomingEdges_eq_nil {d : WorkflowDefinition} (hg : WellFormedGraph d)
    {node : WorkflowNode} (hnode : node ∈ d.nodes) :
    incomingEdges d node = [] ↔ node.type = .manualTrigger := by
  constructor
  · intro hnil
    obtain ⟨t, ⟨trigger, htrigger, htype, rfl⟩, hpath⟩ := hg.reachable node hnode
    rcases ReflTransGen.cases_tail hpath with heq | ⟨a, -, edge, hedge, -, htarget⟩
    · exact List.inj_on_of_nodup_map hg.node_ids_distinct hnode htrigger heq ▸ htype
    · have hmem : edge ∈ incomingEdges d node :=
        List.mem_filter.mpr ⟨hedge, by simpa using htarget⟩
      rw [hnil] at hmem
      cases hmem
  · intro htype
    refine List.filter_eq_nil_iff.mpr fun edge hedge htarget => ?_
    have hid : edge.targetNodeId = node.id := by simpa using htarget
    exact hg.no_edge_to_trigger edge hedge ⟨node, hnode, htype, hid.symm⟩

/-- In an execution order the source of every edge to a node stands in front
of it. -/
theorem ExecutionOrder.source_mem_before {d : WorkflowDefinition} {ordered : List WorkflowNode}
    (hg : WellFormedGraph d) (horder : ExecutionOrder d ordered)
    {before after : List WorkflowNode} {node : WorkflowNode}
    (hsplit : ordered = before ++ node :: after) (edge : WorkflowEdge)
    (hedge : edge ∈ incomingEdges d node) : edge.sourceNodeId ∈ before.map (·.id) := by
  obtain ⟨hmem, htarget⟩ := List.mem_filter.mp hedge
  obtain ⟨i, j, hij, hi, hj⟩ := horder.source_before_target edge hmem
  have hnodup : (ordered.map WorkflowNode.id).Nodup :=
    (horder.perm.map _).nodup_iff.mpr hg.node_ids_distinct
  have hplace : (ordered.map WorkflowNode.id)[before.length]? = some node.id := by
    simp [hsplit]
  have hlt : before.length < (ordered.map WorkflowNode.id).length := by
    simp [hsplit]
  have hj' : j = before.length := by
    have hjget : (ordered.map WorkflowNode.id)[j]? = some node.id := by
      rw [List.getElem?_map, hj]
      simpa using htarget
    exact ((List.getElem?_inj hlt hnodup).mp (hplace.trans hjget.symm)).symm
  subst hj'
  have hget : (before.map WorkflowNode.id)[i]? = some edge.sourceNodeId := by
    rw [List.getElem?_map, ← hi, hsplit, List.getElem?_append_left hij]
  exact List.mem_of_getElem? hget

/-! ## The data flow on a well-formed graph -/

/-- The output recorded for an id. -/
def FlowState.output (s : FlowState) (id : String) : Record := (s.nodeOutputs.get? id).getD []

/-- After the nodes of `before`: each was called once with the input the
graph prescribes, its output is recorded, and as long as only triggers have
run the current input is still the command's. -/
structure FlowInv (exec : WorkflowNode → Record → Record) (d : WorkflowDefinition)
    (input : Record) (before : List WorkflowNode) (s : FlowState) : Prop where
  calls_eq : s.calls.map (·.1) = before
  recorded : ∀ id, (s.nodeOutputs.get? id).isSome ↔ id ∈ before.map (·.id)
  prescribed : ∀ call ∈ s.calls, call.2 = nodeInput d input s.output call.1
    ∧ s.output call.1.id = exec call.1 call.2
    ∧ ∀ edge ∈ incomingEdges d call.1, edge.sourceNodeId ∈ before.map (·.id)
  current : (∀ node ∈ before, node.type = .manualTrigger) → s.currentInput = input

theorem FlowInv.start (exec : WorkflowNode → Record → Record) (d : WorkflowDefinition)
    (input : Record) : FlowInv exec d input [] (.start input) where
  calls_eq := rfl
  recorded id := by simp [FlowState.start]
  prescribed call h := absurd h List.not_mem_nil
  current _ := rfl

theorem nodeInput_congr {d : WorkflowDefinition} {input : Record} {output output' : String → Record}
    {node : WorkflowNode}
    (h : ∀ edge ∈ incomingEdges d node, output edge.sourceNodeId = output' edge.sourceNodeId) :
    nodeInput d input output node = nodeInput d input output' node := by
  unfold nodeInput
  split
  · rfl
  · rename_i edge hone
    exact h edge (by simp [hone])
  · exact congrArg Record.fromEntries (List.map_congr_left fun edge hedge => by rw [h edge hedge])

/-- The next node gets the input the graph prescribes. -/
theorem FlowInv.next_input {exec : WorkflowNode → Record → Record}
    {d : WorkflowDefinition} (hg : WellFormedGraph d) {ordered : List WorkflowNode}
    (horder : ExecutionOrder d ordered) {input : Record} {before after : List WorkflowNode}
    {node : WorkflowNode} (hsplit : ordered = before ++ node :: after) {s : FlowState}
    (hinv : FlowInv exec d input before s) :
    getNodeInput node d s.nodeOutputs s.currentInput = nodeInput d input s.output node := by
  have hnode : node ∈ d.nodes := horder.perm.subset (by simp [hsplit])
  refine getNodeInput_eq (fun edge hedge => ?_) (fun hnil => ?_)
  · obtain ⟨r, hr⟩ := Option.isSome_iff_exists.mp
      ((hinv.recorded _).mpr (horder.source_mem_before hg hsplit edge hedge))
    simp [FlowState.output, hr]
  · -- a trigger: all nodes in front of it are triggers as well
    have htype := (incomingEdges_eq_nil hg hnode).mp hnil
    refine hinv.current fun m hm => ?_
    by_contra hm'
    obtain ⟨i, hi⟩ := List.mem_iff_getElem?.mp hm
    have hlt : i < before.length := (List.getElem?_eq_some_iff.mp hi).1
    have hfirst := horder.triggers_first before.length i node m (by simp [hsplit])
      (by rw [hsplit, List.getElem?_append_left hlt, hi]) htype hm'
    omega

/-- Running the next node keeps the invariant. -/
theorem FlowInv.step {exec : WorkflowNode → Record → Record}
    (hexec : ∀ node input, node.type = .manualTrigger → exec node input = input)
    {d : WorkflowDefinition} (hg : WellFormedGraph d) {ordered : List WorkflowNode}
    (horder : ExecutionOrder d ordered) {input : Record} {before after : List WorkflowNode}
    {node : WorkflowNode} (hsplit : ordered = before ++ node :: after) {s : FlowState}
    (hinv : FlowInv exec d input before s) :
    FlowInv exec d input (before ++ [node]) (flowStep exec d s node) := by
  have hnode : node ∈ d.nodes := horder.perm.subset (by simp [hsplit])
  have hnew : node.id ∉ before.map (·.id) := by
    have hnodup := (horder.perm.map WorkflowNode.id).nodup_iff.mpr hg.node_ids_distinct
    rw [hsplit, List.map_append, List.map_cons, List.nodup_append'] at hnodup
    exact fun hmem => hnodup.2.2 hmem List.mem_cons_self
  have hsources := horder.source_mem_before hg hsplit
  have hkeep : ∀ id ∈ before.map (·.id), (flowStep exec d s node).output id = s.output id := by
    intro id hid
    have hne : ¬ id = node.id := fun he => hnew (he ▸ hid)
    simp [flowStep, FlowState.output, hne]
  have hsame : ∀ n : WorkflowNode,
      (∀ edge ∈ incomingEdges d n, edge.sourceNodeId ∈ before.map (·.id)) →
      nodeInput d input (flowStep exec d s node).output n = nodeInput d input s.output n :=
    fun n h => nodeInput_congr fun edge hedge => hkeep _ (h edge hedge)
  have hgrow : ∀ {id}, id ∈ before.map WorkflowNode.id →
      id ∈ (before ++ [node]).map WorkflowNode.id := fun h => by
    rw [List.map_append]
    exact List.mem_append_left _ h
  refine
    { calls_eq := by simp [flowStep, hinv.calls_eq]
      recorded := fun id => ?_
      prescribed := fun call hcall => ?_
      current := fun hall => ?_ }
  · by_cases hid : id = node.id
    · simp [flowStep, hid]
    · simp [flowStep, hid, hinv.recorded]
  · rcases List.mem_append.mp hcall with hcall | hcall
    · obtain ⟨hin, hout, hbefore⟩ := hinv.prescribed call hcall
      have hid : call.1.id ∈ before.map (·.id) := by
        rw [← hinv.calls_eq, List.map_map]
        exact List.mem_map.mpr ⟨call, hcall, rfl⟩
      exact ⟨by rw [hsame _ hbefore, hin], by rw [hkeep _ hid, hout],
        fun edge hedge => hgrow (hbefore edge hedge)⟩
    · obtain rfl := List.mem_singleton.mp hcall
      refine ⟨?_, ?_, fun edge hedge => hgrow (hsources edge hedge)⟩
      · rw [hsame node fun edge hedge => hsources edge hedge]
        exact hinv.next_input hg horder hsplit
      · simp [flowStep, FlowState.output]
  · have htype := hall node (by simp)
    have hcurrent := hinv.current fun m hm => hall m (by simp [hm])
    show exec node (getNodeInput node d s.nodeOutputs s.currentInput) = input
    rw [hexec node _ htype]
    simp [getNodeInput, (incomingEdges_eq_nil hg hnode).mpr htype, hcurrent]

/-- The invariant holds after every initial part of an execution order. -/
theorem FlowInv.run {exec : WorkflowNode → Record → Record}
    (hexec : ∀ node input, node.type = .manualTrigger → exec node input = input)
    {d : WorkflowDefinition} (hg : WellFormedGraph d) {ordered : List WorkflowNode}
    (horder : ExecutionOrder d ordered) {input : Record} :
    ∀ (nodes before after : List WorkflowNode) (s : FlowState),
      ordered = before ++ (nodes ++ after) → FlowInv exec d input before s →
      FlowInv exec d input (before ++ nodes) (flow exec d nodes s)
  | [], before, _, s, _, hinv => by
      rw [List.append_nil]
      exact hinv
  | node :: nodes, before, after, s, hsplit, hinv => by
      have hrun := FlowInv.run hexec hg horder nodes (before ++ [node]) after
        (flowStep exec d s node) (by simpa using hsplit) (hinv.step hexec hg horder hsplit)
      rw [List.append_assoc] at hrun
      exact hrun

/-- The calls are determined by the order and the recorded outputs. -/
theorem FlowInv.calls_eq_map {exec : WorkflowNode → Record → Record} {d : WorkflowDefinition}
    {input : Record} {ordered : List WorkflowNode} {s : FlowState}
    (hinv : FlowInv exec d input ordered s) :
    s.calls = ordered.map fun node => (node, nodeInput d input s.output node) := by
  rw [← hinv.calls_eq, List.map_map]
  refine (List.map_id _).symm.trans (List.map_congr_left fun call hcall => ?_)
  exact Prod.ext rfl (hinv.prescribed call hcall).1

/-! ## Permuted definitions -/

theorem incomingEdges_sources_nodup {d : WorkflowDefinition} (hg : WellFormedGraph d)
    (node : WorkflowNode) : ((incomingEdges d node).map (·.sourceNodeId)).Nodup := by
  have hpair := List.pairwise_map.mp hg.no_parallel_edges
  refine List.pairwise_map.mpr ((List.Pairwise.filter _ hpair).imp_of_mem ?_)
  intro e e' he he' hne hsource
  have ht : e.targetNodeId = node.id := by simpa using (List.mem_filter.mp he).2
  have ht' : e'.targetNodeId = node.id := by simpa using (List.mem_filter.mp he').2
  exact hne (by rw [ht, ht', hsource])

/-- Neither the order of the edges nor outputs elsewhere matter to a node's
input. -/
theorem nodeInput_perm {d d' : WorkflowDefinition} (hg : WellFormedGraph d)
    {node : WorkflowNode} (hperm : (incomingEdges d node).Perm (incomingEdges d' node))
    {input : Record} {output output' : String → Record}
    (hout : ∀ edge ∈ incomingEdges d node,
      output edge.sourceNodeId = output' edge.sourceNodeId) :
    nodeInput d input output node = nodeInput d' input output' node := by
  have hnodup := incomingEdges_sources_nodup hg node
  rw [nodeInput_congr hout]
  unfold nodeInput
  generalize incomingEdges d node = edges at hperm hnodup
  generalize incomingEdges d' node = edges' at hperm
  match edges, edges' with
  | [], edges' =>
      obtain rfl := hperm.nil_eq
      rfl
  | [edge], edges' =>
      obtain rfl := List.perm_singleton.mp hperm.symm
      rfl
  | _ :: _ :: _, [] => exact absurd hperm.length_eq (by simp)
  | _ :: _ :: _, [_] => exact absurd hperm.length_eq (by simp)
  | first :: second :: rest, first' :: second' :: rest' =>
      refine Record.fromEntries_perm (hperm.map _) ?_
      rw [List.map_map]
      exact hnodup

/-- Every node has the same input and output in both data flows: by
induction along the edges. -/
theorem FlowInv.nodeInput_eq {exec : WorkflowNode → Record → Record} {d d' : WorkflowDefinition}
    (hg : WellFormedGraph d) (hnodes : d'.nodes.Perm d.nodes) (hedges : d'.edges.Perm d.edges)
    {input : Record} {ordered ordered' : List WorkflowNode} {s s' : FlowState}
    (hinv : FlowInv exec d input ordered s) (hinv' : FlowInv exec d' input ordered' s')
    (hordered : ordered.Perm d.nodes) (hordered' : ordered'.Perm d'.nodes) :
    ∀ node ∈ d.nodes, nodeInput d input s.output node = nodeInput d' input s'.output node := by
  have hwf : WellFounded d.HasEdge := by
    refine Loop.wellFounded_of_acyclic (l := d.nodes.map (·.id)) ?_ hg.acyclic
    rintro a b ⟨edge, hedge, rfl, -⟩
    simpa [WorkflowDefinition.IsNode] using (hg.endpoints edge hedge).1
  have hcalled : ∀ node ∈ d.nodes, (node, nodeInput d input s.output node) ∈ s.calls := by
    intro node hnode
    rw [hinv.calls_eq_map]
    exact List.mem_map.mpr ⟨node, hordered.mem_iff.mpr hnode, rfl⟩
  have hcalled' : ∀ node ∈ d.nodes, (node, nodeInput d' input s'.output node) ∈ s'.calls := by
    intro node hnode
    rw [hinv'.calls_eq_map]
    exact List.mem_map.mpr
      ⟨node, hordered'.mem_iff.mpr (hnodes.mem_iff.mpr hnode), rfl⟩
  have key : ∀ id, ∀ node ∈ d.nodes, node.id = id →
      nodeInput d input s.output node = nodeInput d' input s'.output node := by
    intro id
    induction id using hwf.induction with
    | _ id ih =>
        intro node hnode hid
        refine nodeInput_perm hg (hedges.symm.filter _) fun edge hedge => ?_
        obtain ⟨hmem, htarget⟩ := List.mem_filter.mp hedge
        obtain ⟨p, hp, hpid⟩ := (hg.endpoints edge hmem).1
        have hinput := ih edge.sourceNodeId
          ⟨edge, hmem, rfl, (by simpa using htarget : edge.targetNodeId = node.id).trans hid⟩
          p hp hpid
        have hout := (hinv.prescribed _ (hcalled p hp)).2.1
        have hout' := (hinv'.prescribed _ (hcalled' p hp)).2.1
        simp only at hout hout'
        rw [← hpid, hout, hout', hinput]
  exact fun node hnode => key node.id node hnode rfl

/-! ## The run of `executeWorkflowNodes` -/

/-- Every call returned, publishes found room, and the executors answered
with `exec`. -/
structure FailureFree (exec : WorkflowNode → Record → Record) (events : List WorkerEvent) :
    Prop where
  succeeded : ∀ ev ∈ events, CallSucceeded ev
  agrees : AgreesWith (dispatchExecutor exec) events

theorem FailureFree.not_someCallFailed {exec : WorkflowNode → Record → Record}
    {events : List WorkerEvent} (h : FailureFree exec events) : ¬ SomeCallFailed events := by
  rintro ⟨ev, hmem, hfailed⟩
  exact hfailed (h.succeeded ev hmem)

/-- A failure-free run ends as the data flow says. -/
theorem FailureFree.outcome [Runtime] {exec : WorkflowNode → Record → Record}
    {m : WorkflowExecutionRequestedMessage} {execution : WorkflowExecution}
    {events : List WorkerEvent} {out : Except JsError Record}
    (hfree : FailureFree exec events)
    (htrace : Trace (executeWorkflowNodes m execution) events out) :
    executionFlow (dispatchExecutor exec) m.input execution.workflowVersion.definition
      = out.map fun output => (executorCalls events, output) := by
  obtain ⟨-, hout⟩ := spec_trace (executeWorkflowNodes_spec m execution) htrace
  cases out with
  | ok output => exact hout _ hfree.agrees
  | error error =>
      rcases hout with hfailed | hflow
      · exact absurd hfailed hfree.not_someCallFailed
      · exact hflow _

/-- An answer for every database call. -/
def DbCall.sampleResult : (c : DbCall) → c.Result
  | .findExecution _ => (none : Option WorkflowExecution)
  | .transaction _ => (⟨0, none⟩ : TransitionResult)
  | .upsertOutbox routingKey message =>
      Store.newOutboxMessage ⟨0, "", fun _ => 0⟩ routingKey message
  | .updateOutbox _ _ => ()
  | .findOutbox _ _ => ([] : List OutboxMessage)
  | .upsertRunningNode m node input startedAt =>
      ({ id := "", workspaceId := m.workspaceId, workflowId := m.workflowId
         executionId := m.executionId, nodeId := node.id, nodeType := node.type.literal
         status := .running, input, output := none, error := none, startedAt
         completedAt := none } : WorkflowNodeExecution)
  | .updateNode _ _ => ()
  | .createAiTrace data =>
      ({ toWorkflowAiTraceCreateData := data, id := "", createdAt := 0 } : WorkflowAiTrace)

/-- An answer for every call, the executors' given by `exec`. -/
def WorkerOp.sampleResult (exec : WorkflowNode → Record → Record) : (op : WorkerOp) → op.Result
  | .newDate => (0 : Int)
  | .randomUUID => ("" : String)
  | .db c => c.sampleResult
  | .publish _ => true
  | .executeWorkflowNode node context => dispatchExecutor exec node context.input
  | .ack _ => ()
  | .nack _ _ _ => ()

/-- There is a failure-free run. -/
theorem exists_failureFree [Runtime] (exec : WorkflowNode → Record → Record)
    (m : WorkflowExecutionRequestedMessage) (execution : WorkflowExecution) :
    ∃ events out, Trace (executeWorkflowNodes m execution) events out
      ∧ FailureFree exec events := by
  obtain ⟨events, out, htrace, hall⟩ :=
    exists_trace (fun op => .ok (op.sampleResult exec)) (executeWorkflowNodes m execution)
  refine ⟨events, out, htrace, fun ev hev => ?_, ?_⟩
  · obtain ⟨op, reply⟩ := ev
    obtain rfl : reply = .ok (op.sampleResult exec) := hall _ hev
    cases op with
    | publish p => exact fun _ => rfl
    | _ => trivial
  · rintro node input output ⟨context, rfl, hmem⟩
    exact Reply.ok.inj (hall _ hmem)

theorem dispatchExecutor_trigger (exec : WorkflowNode → Record → Record) (node : WorkflowNode)
    (input : Record) (h : node.type = .manualTrigger) :
    dispatchExecutor exec node input = input := by
  simp [dispatchExecutor, h]

/-- On an accepted definition, unless the input asks for a simulated
failure, the data flow is the fold over an execution order. -/
theorem executionFlow_of_accepted [Runtime] (exec : WorkflowNode → Record → Record)
    {input : Record} (hsim : simulatedWorkflowFailure input = none) {definition : Json}
    {d : WorkflowDefinition} (haccept : workflowDefinitionSchema (some definition) = .ok d) :
    ∃ ordered, orderWorkflowNodes d = .ok ordered ∧ ExecutionOrder d ordered
      ∧ executionFlow exec input definition
        = .ok ((flow exec d ordered (.start input)).calls,
          executionOutput ordered.length (flow exec d ordered (.start input)).currentInput) := by
  obtain ⟨ordered, hok, horder⟩ := orderWorkflowNodes_spec (wellFormedGraph_of_accepted haccept)
  exact ⟨ordered, hok, horder, by
    simp [executionFlow, hsim, parseWorkflowDefinition_eq_ok.mpr haccept, hok]⟩

/-- What the data flow computes, it computes on an accepted definition, and
the output counts its nodes. -/
theorem executionFlow_output [Runtime] {exec : WorkflowNode → Record → Record} {input : Record}
    {definition : Json} {calls : List (WorkflowNode × Record)} {output : Record}
    (h : executionFlow exec input definition = .ok (calls, output)) :
    ∃ d finalOutput, workflowDefinitionSchema (some definition) = .ok d
      ∧ output = executionOutput d.nodes.length finalOutput := by
  cases hsim : simulatedWorkflowFailure input with
  | some error => simp [executionFlow, hsim] at h
  | none =>
      cases haccept : workflowDefinitionSchema (some definition) with
      | issues issues => simp [executionFlow, hsim, parseWorkflowDefinition, haccept] at h
      | ok d =>
          obtain ⟨ordered, -, horder, hflow⟩ := executionFlow_of_accepted exec hsim haccept
          obtain ⟨-, rfl⟩ := Prod.mk.inj (Except.ok.inj (hflow.symm.trans h))
          exact ⟨d, _, rfl, by rw [horder.perm.length_eq]⟩

/-- A failure-free run on an accepted definition returns, and its executor
calls are those of the fold over an execution order. -/
theorem FailureFree.runs_flow [Runtime] {exec : WorkflowNode → Record → Record}
    {m : WorkflowExecutionRequestedMessage} {execution : WorkflowExecution}
    {d : WorkflowDefinition} {events : List WorkerEvent} {out : Except JsError Record}
    (hfree : FailureFree exec events)
    (haccept : workflowDefinitionSchema (some execution.workflowVersion.definition) = .ok d)
    (hsim : simulatedWorkflowFailure m.input = none)
    (htrace : Trace (executeWorkflowNodes m execution) events out) :
    ∃ ordered, orderWorkflowNodes d = .ok ordered ∧ ExecutionOrder d ordered
      ∧ (∃ result, out = .ok result)
      ∧ executorCalls events = (flow (dispatchExecutor exec) d ordered (.start m.input)).calls
      ∧ ∀ before after, ordered = before ++ after → FlowInv (dispatchExecutor exec) d m.input
        before (flow (dispatchExecutor exec) d before (.start m.input)) := by
  obtain ⟨ordered, hok, horder, hflow⟩ :=
    executionFlow_of_accepted (dispatchExecutor exec) hsim haccept
  have hout := (hfree.outcome htrace).symm.trans hflow
  refine ⟨ordered, hok, horder, ?_, ?_, fun before after hsplit => ?_⟩
  · cases out with
    | ok result => exact ⟨result, rfl⟩
    | error error => cases hout
  · cases out with
    | ok result => exact (Prod.mk.inj (Except.ok.inj hout)).1
    | error error => cases hout
  · exact FlowInv.run (dispatchExecutor_trigger exec) (wellFormedGraph_of_accepted haccept) horder
      before [] after _ hsplit (.start _ _ _)

/-- The data flow of every failure-free run on an accepted definition whose
input asks for no simulated failure: it returns; every node's executor is
called once, on the input the graph prescribes; at each node all
predecessors have an output, so no fallback is taken; and a permuted
definition gives the same calls. -/
theorem executeWorkflowNodes_dataFlow [Runtime] (exec : WorkflowNode → Record → Record)
    (m : WorkflowExecutionRequestedMessage) (execution : WorkflowExecution)
    (d : WorkflowDefinition) (events : List WorkerEvent) (out : Except JsError Record)
    (haccept :
      workflowDefinitionSchema (some execution.workflowVersion.definition) = .ok d)
    (hsim : simulatedWorkflowFailure m.input = none)
    (htrace : Trace (executeWorkflowNodes m execution) events out)
    (hfree : FailureFree exec events) :
    (∃ result, out = .ok result)
    ∧ ((executorCalls events).map (·.1)).Perm d.nodes
    ∧ (∃ output : String → Record, ∀ node input, (node, input) ∈ executorCalls events →
        output node.id = dispatchExecutor exec node input
        ∧ (node.type = .manualTrigger → input = m.input)
        ∧ (∀ edge, incomingEdges d node = [edge] → input = output edge.sourceNodeId)
        ∧ (2 ≤ (incomingEdges d node).length →
          input = Record.fromEntries ((incomingEdges d node).map fun edge =>
            (edge.sourceNodeId, .obj (output edge.sourceNodeId)))))
    ∧ (∃ ordered, orderWorkflowNodes d = .ok ordered
        ∧ executorCalls events
          = (flow (dispatchExecutor exec) d ordered (.start m.input)).calls
        ∧ ∀ before node after, ordered = before ++ node :: after →
          (incomingEdges d node = [] → node.type = .manualTrigger)
          ∧ ∀ edge ∈ incomingEdges d node,
            ((flow (dispatchExecutor exec) d before (.start m.input)).nodeOutputs.get?
              edge.sourceNodeId).isSome)
    ∧ ∀ (m' : WorkflowExecutionRequestedMessage) (execution' : WorkflowExecution)
        (d' : WorkflowDefinition) (events' : List WorkerEvent) (out' : Except JsError Record),
        workflowDefinitionSchema (some execution'.workflowVersion.definition) = .ok d' →
        d'.nodes.Perm d.nodes → d'.edges.Perm d.edges → m'.input = m.input →
        Trace (executeWorkflowNodes m' execution') events' out' → FailureFree exec events' →
        (executorCalls events').Perm (executorCalls events) := by
  have hg := wellFormedGraph_of_accepted haccept
  obtain ⟨ordered, hok, horder, hreturns, hcalls, hinv⟩ := hfree.runs_flow haccept hsim htrace
  have hall := hinv ordered [] (by simp)
  refine ⟨hreturns, ?_, ⟨(flow (dispatchExecutor exec) d ordered (.start m.input)).output,
    fun node input hcall => ?_⟩, ⟨ordered, hok, hcalls, ?_⟩, ?_⟩
  · rw [hcalls, hall.calls_eq]
    exact horder.perm
  · rw [hcalls] at hcall
    obtain ⟨hinput, houtput, -⟩ := hall.prescribed _ hcall
    have hnode : node ∈ d.nodes := by
      refine horder.perm.subset ?_
      rw [← hall.calls_eq]
      exact List.mem_map.mpr ⟨_, hcall, rfl⟩
    simp only [nodeInput] at hinput
    refine ⟨houtput, fun htype => ?_, fun edge hone => ?_, fun hmany => ?_⟩
    · simpa [(incomingEdges_eq_nil hg hnode).mpr htype] using hinput
    · simpa [hone] using hinput
    · revert hinput hmany
      cases incomingEdges d node with
      | nil => exact fun _ h => absurd h (by simp)
      | cons first rest =>
          cases rest with
          | nil => exact fun _ h => absurd h (by simp)
          | cons second rest => exact fun h _ => h
  · intro before node after hsplit
    have hnode : node ∈ d.nodes := horder.perm.subset (by simp [hsplit])
    refine ⟨(incomingEdges_eq_nil hg hnode).mp, fun edge hedge => ?_⟩
    exact ((hinv before (node :: after) hsplit).recorded _).mpr
      (horder.source_mem_before hg hsplit edge hedge)
  · intro m' execution' d' events' out' haccept' hnodes hedges hinput htrace' hfree'
    obtain ⟨ordered', -, horder', -, hcalls', hinv'⟩ :=
      hfree'.runs_flow haccept' (hinput ▸ hsim) htrace'
    have hall' := hinv' ordered' [] (by simp)
    rw [hinput] at hall' hcalls'
    have hsame := FlowInv.nodeInput_eq hg hnodes hedges hall hall' horder.perm horder'.perm
    rw [hcalls, hcalls', hall.calls_eq_map, hall'.calls_eq_map]
    refine ((horder'.perm.trans (hnodes.trans horder.perm.symm)).map _).trans ?_
    refine List.Perm.of_eq (List.map_congr_left fun node hnode => ?_)
    rw [hsame node (horder.perm.subset hnode)]

/-- Executors that say which node was given which input. -/
def signed (node : WorkflowNode) (input : Record) : Record := [(node.id, .obj input)]

/-- An execution whose input is an order, and the command that asks for it. -/
def orderExecution (definition : WorkflowDefinition) : WorkflowExecution :=
  { newExecution definition.toJson with input := [("order", .num 7)] }

def orderCommand (definition : WorkflowDefinition) : WorkflowExecutionRequestedMessage :=
  requestCommand (orderExecution definition) "command" "1970-01-01T00:00:00.000Z" "user"

/-- The theorem at the diamond, and at the diamond written the other way
round: the join is given what both branches made of the input, and the right
branch what both triggers passed on. -/
theorem executeWorkflowNodes_dataFlow_diamond :
    let _ : Runtime := .sample false
    ∃ events out events' out',
      Trace (executeWorkflowNodes (orderCommand diamondDefinition)
        (orderExecution diamondDefinition)) events out
      ∧ FailureFree signed events
      ∧ Trace (executeWorkflowNodes (orderCommand reversedDiamondDefinition)
        (orderExecution reversedDiamondDefinition)) events' out'
      ∧ FailureFree signed events'
      ∧ ((executorCalls events).map (·.1)).Perm diamondDefinition.nodes
      ∧ (diamondRight, [("manual", .obj [("order", .num 7)]),
        ("replay", .obj [("order", .num 7)])]) ∈ executorCalls events
      ∧ (diamondJoin, [("left", .obj [("left", .obj [("order", .num 7)])]),
        ("right", .obj [("right", .obj [("manual", .obj [("order", .num 7)]),
          ("replay", .obj [("order", .num 7)])])])]) ∈ executorCalls events
      ∧ (executorCalls events').Perm (executorCalls events) := by
  intro _
  obtain ⟨events, out, htrace, hfree⟩ := exists_failureFree signed
    (orderCommand diamondDefinition) (orderExecution diamondDefinition)
  obtain ⟨events', out', htrace', hfree'⟩ := exists_failureFree signed
    (orderCommand reversedDiamondDefinition) (orderExecution reversedDiamondDefinition)
  obtain ⟨-, hnodes, ⟨output, houtput⟩, -, hpermuted⟩ := executeWorkflowNodes_dataFlow signed _ _ _
    events out diamondDefinition_accepted rfl htrace hfree
  have hcalled : ∀ node ∈ diamondDefinition.nodes, ∃ input, (node, input) ∈ executorCalls events :=
    fun node hnode => by simpa using hnodes.symm.subset hnode
  obtain ⟨input, htrigger⟩ := hcalled diamondTrigger (by simp [diamondDefinition])
  obtain ⟨houtputTrigger, hinput, -⟩ := houtput _ _ htrigger
  obtain rfl := hinput rfl
  obtain ⟨input, hreplay⟩ := hcalled diamondReplay (by simp [diamondDefinition])
  obtain ⟨houtputReplay, hinput, -⟩ := houtput _ _ hreplay
  obtain rfl := hinput rfl
  obtain ⟨input, hleft⟩ := hcalled diamondLeft (by simp [diamondDefinition])
  obtain ⟨houtputLeft, -, hinput, -⟩ := houtput _ _ hleft
  obtain rfl := (hinput _ rfl).trans houtputTrigger
  obtain ⟨right, hright⟩ := hcalled diamondRight (by simp [diamondDefinition])
  obtain ⟨houtputRight, -, -, hinput⟩ := houtput _ _ hright
  have hinputRight : right = Record.fromEntries
      [("replay", .obj (output "replay")), ("manual", .obj (output "manual"))] :=
    hinput (by decide)
  rw [show output "replay" = _ from houtputReplay, show output "manual" = _ from houtputTrigger]
    at hinputRight
  obtain ⟨join, hjoin⟩ := hcalled diamondJoin (by simp [diamondDefinition])
  obtain ⟨-, -, -, hinput⟩ := houtput _ _ hjoin
  have hinputJoin : join = Record.fromEntries
      [("left", .obj (output "left")), ("right", .obj (output "right"))] :=
    hinput (by decide)
  rw [show output "left" = _ from houtputLeft, show output "right" = _ from houtputRight,
    hinputRight] at hinputJoin
  subst hinputRight hinputJoin
  exact ⟨events, out, events', out', htrace, hfree, htrace', hfree', hnodes, hright, hjoin,
    hpermuted _ _ _ events' out' reversedDiamondDefinition_accepted (List.reverse_perm _)
      (List.reverse_perm _) rfl htrace' hfree'⟩

/-- With failure simulation on, the input can ask for a failure: then no
executor is called. -/
theorem executeWorkflowNodes_simulated_failure :
    ∃ (_ : Runtime) (execution : WorkflowExecution) (events : List WorkerEvent)
      (out : Except JsError Record),
      workflowDefinitionSchema (some execution.workflowVersion.definition)
        = .ok parsedDefaultWorkflowDefinition
      ∧ Trace (executeWorkflowNodes (requestCommand execution "command" "1970-01-01T00:00:00.000Z"
        "user") execution) events out
      ∧ FailureFree (fun _ _ => []) events ∧ executorCalls events = [] := by
  let _ : Runtime := .sample true
  let execution : WorkflowExecution :=
    { newExecution defaultWorkflowDefinition with
      input := [(failureSimulationInputKey, .str "retryable")] }
  have hended : ((executeWorkflowNodes (requestCommand execution "command"
      "1970-01-01T00:00:00.000Z" "user") execution).ended?).isSome = true := by decide +kernel
  obtain ⟨out, hout⟩ := Option.isSome_iff_exists.mp hended
  refine ⟨_, execution, [], out, defaultWorkflowDefinition_accepted, trace_of_ended? hout,
    ⟨by simp, ?_⟩, rfl⟩
  rintro node input output ⟨context, -, hmem⟩
  cases hmem

end FlowPilot
