import FlowPilot.Lib.Loop
import FlowPilot.Contracts.WorkflowNodes

/-!
# The workflow definition schema

`workflowDefinitionSchema` of `packages/contracts`: the object schema with
its bounds, then the graph checks of `superRefine` in the order of the
source - one pass over the nodes, one over the edges, the incoming edges of
the triggers, the breadth-first `validateReachability` and the depth-first
`validateAcyclicGraph`.

Both searches run on a fuel computed from the graph. They are total because
that fuel always suffices (`reachableNodeIds?_isSome`,
`acyclicFrom?_isSome`), whatever the graph: cycles and edges to ids that are
no nodes included.
-/

namespace FlowPilot

open Loop

/-! ## Edges and definitions -/

/-- What `workflowEdgeSchema` returns. -/
structure WorkflowEdge where
  edgeId : WorkflowNodeId
  source : WorkflowNodeId
  target : WorkflowNodeId

namespace WorkflowEdge

/-- `edge.id`. -/
def id (edge : WorkflowEdge) : String := edge.edgeId.value

def sourceNodeId (edge : WorkflowEdge) : String := edge.source.value

def targetNodeId (edge : WorkflowEdge) : String := edge.target.value

end WorkflowEdge

/-- What the object schema under `superRefine` returns: nodes and edges that
pass their own schemas, in numbers within the bounds. -/
structure WorkflowDefinition where
  nodes : List WorkflowNode
  edges : List WorkflowEdge
  nodes_length : 1 ≤ nodes.length ∧ nodes.length ≤ 100
  edges_length : edges.length ≤ 200

def workflowEdgeSchema : Schema WorkflowEdge :=
  Schema.strictObject ["id", "sourceNodeId", "targetNodeId"] fun fields =>
    WorkflowEdge.mk
      <$> Schema.field fields "id" workflowNodeIdSchema
      <*> Schema.field fields "sourceNodeId" workflowNodeIdSchema
      <*> Schema.field fields "targetNodeId" workflowNodeIdSchema

/-- `z.object({ nodes: ..., edges: ... }).strict()`. -/
def workflowDefinitionObjectSchema [Runtime] : Schema WorkflowDefinition :=
  Schema.strictObject ["nodes", "edges"] fun fields =>
    (fun nodes edges => ⟨nodes.val, edges.val, nodes.property, edges.property.2⟩)
      <$> Schema.field fields "nodes" (Schema.boundedArray workflowNodeSchema 1 100)
      <*> Schema.field fields "edges" (Schema.boundedArray workflowEdgeSchema 0 200)

/-- `context.addIssue({ code: "custom", message, path })`. -/
def customIssue (message : String) (path : List PathSegment) : Issue :=
  ⟨.custom, path, some message⟩

/-! ## The pass over the nodes -/

structure NodeScan where
  nodeIds : JsSet
  triggerNodeIds : JsSet
  issues : List Issue

def scanNode (scan : NodeScan) (entry : WorkflowNode × Nat) : NodeScan where
  nodeIds := scan.nodeIds.add entry.1.id
  triggerNodeIds :=
    if entry.1.type = .manualTrigger then scan.triggerNodeIds.add entry.1.id
    else scan.triggerNodeIds
  issues := scan.issues ++
    if scan.nodeIds.has entry.1.id then
      [customIssue "node ids must be unique" [.key "nodes", .index entry.2, .key "id"]]
    else []

def scanNodes (nodes : List WorkflowNode) : NodeScan :=
  nodes.zipIdx.foldl scanNode ⟨.empty, .empty, []⟩

def missingTriggerIssues (triggerNodeIds : JsSet) : List Issue :=
  if triggerNodeIds.items.length = 0 then
    [customIssue "workflow definition must include at least one manual trigger node"
      [.key "nodes"]]
  else []

/-! ## The pass over the edges -/

/-- `outgoingEdges.get(nodeId) ?? []`. -/
def outgoing (outgoingEdges : JsMap (List String)) (nodeId : String) : List String :=
  (outgoingEdges.get? nodeId).getD []

/-- `outgoingEdges.set(edge.sourceNodeId, [...(...), edge.targetNodeId])`. -/
def addOutgoing (outgoingEdges : JsMap (List String)) (edge : WorkflowEdge) :
    JsMap (List String) :=
  outgoingEdges.set edge.sourceNodeId
    (outgoing outgoingEdges edge.sourceNodeId ++ [edge.targetNodeId])

/-- `incomingCounts.set(edge.targetNodeId, (... ?? 0) + 1)`. -/
def addIncoming (incomingCounts : JsMap Int) (edge : WorkflowEdge) : JsMap Int :=
  incomingCounts.set edge.targetNodeId ((incomingCounts.get? edge.targetNodeId).getD 0 + 1)

/-- `` `${edge.sourceNodeId}->${edge.targetNodeId}` ``. -/
def pairKey (edge : WorkflowEdge) : String :=
  edge.sourceNodeId ++ "->" ++ edge.targetNodeId

structure EdgeScan where
  edgeIds : JsSet
  edgePairs : JsSet
  outgoingEdges : JsMap (List String)
  incomingCounts : JsMap Int
  issues : List Issue

/-- The issues of one edge, given the ids and pairs of the edges before it. -/
def edgeIssues (nodeIds edgeIds edgePairs : JsSet) (edge : WorkflowEdge) (index : Nat) :
    List Issue :=
  (if edgeIds.has edge.id then
    [customIssue "edge ids must be unique" [.key "edges", .index index, .key "id"]]
  else [])
  ++ (if nodeIds.has edge.sourceNodeId then []
  else
    [customIssue "edge sourceNodeId must reference an existing node"
      [.key "edges", .index index, .key "sourceNodeId"]])
  ++ (if nodeIds.has edge.targetNodeId then []
  else
    [customIssue "edge targetNodeId must reference an existing node"
      [.key "edges", .index index, .key "targetNodeId"]])
  ++ (if edge.sourceNodeId = edge.targetNodeId then
    [customIssue "edges cannot point a node to itself" [.key "edges", .index index]]
  else [])
  ++ (if edgePairs.has (pairKey edge) then
    [customIssue "duplicate edges between the same source and target are not allowed"
      [.key "edges", .index index]]
  else [])

def scanEdge (nodeIds : JsSet) (scan : EdgeScan) (entry : WorkflowEdge × Nat) : EdgeScan where
  edgeIds := scan.edgeIds.add entry.1.id
  edgePairs := scan.edgePairs.add (pairKey entry.1)
  outgoingEdges := addOutgoing scan.outgoingEdges entry.1
  incomingCounts := addIncoming scan.incomingCounts entry.1
  issues := scan.issues ++ edgeIssues nodeIds scan.edgeIds scan.edgePairs entry.1 entry.2

def scanEdges (nodeIds : JsSet) (edges : List WorkflowEdge) : EdgeScan :=
  edges.zipIdx.foldl (scanEdge nodeIds) ⟨.empty, .empty, .empty, .empty, []⟩

/-- One issue for every trigger with an incoming edge. -/
def triggerIncomingIssues (triggerNodeIds : JsSet) (incomingCounts : JsMap Int) :
    List Issue :=
  triggerNodeIds.items.flatMap fun triggerNodeId =>
    if 0 < (incomingCounts.get? triggerNodeId).getD 0 then
      [customIssue "manual trigger nodes cannot have incoming edges" [.key "edges"]]
    else []

/-! ## Reachability -/

structure ReachState where
  queue : List String
  reachableNodeIds : JsSet

/-- One round of the `while` loop of `validateReachability`. -/
def reachStep (outgoingEdges : JsMap (List String)) (s : ReachState) : Option ReachState :=
  match s.queue with
  | [] => none
  | nodeId :: queue =>
      if nodeId = "" ∨ s.reachableNodeIds.has nodeId then some { s with queue }
      else some
        { queue := queue ++ outgoing outgoingEdges nodeId
          reachableNodeIds := s.reachableNodeIds.add nodeId }

/-- The number of entries of the adjacency lists of the ids that `done` does
not hold yet: what the search can still push. -/
def pendingPushes (done : JsSet) (adjacency : List (String × List String)) : Nat :=
  (adjacency.map fun e => if done.has e.1 then 0 else e.2.length).sum

/-- Expanding an id uses up at least its own adjacency list. -/
theorem pendingPushes_add {done : JsSet} {nodeId : String} (hnew : nodeId ∉ done.items) :
    ∀ adjacency : List (String × List String),
      pendingPushes (done.add nodeId) adjacency + ((adjacency.lookup nodeId).getD []).length
        ≤ pendingPushes done adjacency
  | [] => by simp [pendingPushes]
  | (k, targets) :: es => by
      have ih := pendingPushes_add hnew es
      simp only [pendingPushes, List.map_cons, List.sum_cons] at ih ⊢
      by_cases hk : nodeId = k
      · subst hk
        have hold : done.has nodeId = false := by simpa [JsSet.has] using hnew
        have hadd : (done.add nodeId).has nodeId = true := by simp
        simp only [List.lookup_cons_self, Option.getD_some, hold, hadd]
        simp only [if_true, Bool.false_eq_true, if_false]
        omega
      · have hkey : (done.add nodeId).has k = done.has k := by
          have : k ≠ nodeId := fun h => hk h.symm
          simp [JsSet.has, this]
        simp only [List.lookup_cons, beq_eq_false_iff_ne.mpr hk, hkey]
        omega

/-- The work left for the search: the queue and what is still to be pushed. -/
def ReachState.work (outgoingEdges : JsMap (List String)) (s : ReachState) : Nat :=
  s.queue.length + pendingPushes s.reachableNodeIds outgoingEdges.entries

theorem reachStep_work {outgoingEdges : JsMap (List String)} {s s' : ReachState}
    (h : reachStep outgoingEdges s = some s') :
    s'.work outgoingEdges < s.work outgoingEdges := by
  obtain ⟨queue, done⟩ := s
  cases queue with
  | nil => cases h
  | cons nodeId queue =>
      simp only [reachStep] at h
      split at h
      · obtain rfl := Option.some.inj h
        simp [ReachState.work]
      · rename_i hnew
        obtain rfl := Option.some.inj h
        have hmem : nodeId ∉ done.items := fun hm => hnew (Or.inr (by simpa using hm))
        have := pendingPushes_add hmem outgoingEdges.entries
        simp only [ReachState.work, outgoing, JsMap.get?, List.length_append, List.length_cons]
        omega

/-- The search from the triggers; `none` if it did not finish. -/
def reachableNodeIds? (triggerNodeIds : JsSet) (outgoingEdges : JsMap (List String)) :
    Option JsSet :=
  let start : ReachState := ⟨triggerNodeIds.items, .empty⟩
  (loop (reachStep outgoingEdges) (start.work outgoingEdges + 1) start).map
    (·.reachableNodeIds)

/-- The search always finishes. -/
theorem reachableNodeIds?_isSome (triggerNodeIds : JsSet)
    (outgoingEdges : JsMap (List String)) :
    (reachableNodeIds? triggerNodeIds outgoingEdges).isSome := by
  obtain ⟨r, hr, -⟩ := loop_total (reachStep outgoingEdges) (fun _ => True)
    (fun s => s.work outgoingEdges) (fun _ _ _ h => ⟨trivial, reachStep_work h⟩)
    trivial (Nat.lt_succ_self (ReachState.work outgoingEdges ⟨triggerNodeIds.items, .empty⟩))
  simp [reachableNodeIds?, hr]

def reachableNodeIds (triggerNodeIds : JsSet) (outgoingEdges : JsMap (List String)) : JsSet :=
  (reachableNodeIds? triggerNodeIds outgoingEdges).get (reachableNodeIds?_isSome _ _)

/-- At most one issue, for the first node that was not reached. -/
def validateReachability (nodeIds : List String) (triggerNodeIds : JsSet)
    (outgoingEdges : JsMap (List String)) : List Issue :=
  if nodeIds.all (reachableNodeIds triggerNodeIds outgoingEdges).has then []
  else [customIssue "all nodes must be reachable from a manual trigger" [.key "nodes"]]

/-! ## Acyclicity -/

structure VisitState where
  visitedNodeIds : JsSet
  visitingNodeIds : JsSet

/-- `for (const id of nodeIds) if (!visit(id)) return false`, with `none` for
a visit that did not finish. -/
def visitEach (visit : String → VisitState → Option (Bool × VisitState)) :
    List String → VisitState → Option (Bool × VisitState)
  | [], s => some (true, s)
  | nodeId :: nodeIds, s =>
      match visit nodeId s with
      | none => none
      | some (false, s') => some (false, s')
      | some (true, s') => visitEach visit nodeIds s'

/-- The recursive `visit`, to a depth below the fuel. -/
def visit (outgoingEdges : JsMap (List String)) :
    Nat → String → VisitState → Option (Bool × VisitState)
  | 0, _, _ => none
  | depth + 1, nodeId, s =>
      if s.visitingNodeIds.has nodeId then some (false, s)
      else if s.visitedNodeIds.has nodeId then some (true, s)
      else
        match visitEach (visit outgoingEdges depth) (outgoing outgoingEdges nodeId)
          { s with visitingNodeIds := s.visitingNodeIds.add nodeId } with
        | none => none
        | some (false, s') => some (false, s')
        | some (true, s') => some (true,
            { visitingNodeIds := s'.visitingNodeIds.delete nodeId
              visitedNodeIds := s'.visitedNodeIds.add nodeId })

/-- Every id a visit can meet: the roots and the targets of the edges. -/
def visitableIds (nodeIds : List String) (outgoingEdges : JsMap (List String)) : List String :=
  nodeIds ++ outgoingEdges.entries.flatMap (·.2)

theorem mem_of_lookup {β : Type} {k : String} {v : β} : ∀ {es : List (String × β)},
    es.lookup k = some v → (k, v) ∈ es
  | [], h => by cases h
  | (k', v') :: es, h => by
      rw [List.lookup_cons] at h
      by_cases hk : k = k'
      · subst hk
        simp only [beq_self_eq_true] at h
        obtain rfl := Option.some.inj h
        exact List.mem_cons_self
      · rw [beq_eq_false_iff_ne.mpr hk] at h
        exact List.mem_cons_of_mem _ (mem_of_lookup h)

theorem outgoing_subset_visitableIds (nodeIds : List String)
    (outgoingEdges : JsMap (List String)) (nodeId : String) :
    outgoing outgoingEdges nodeId ⊆ visitableIds nodeIds outgoingEdges := by
  intro target htarget
  unfold outgoing JsMap.get? at htarget
  cases hl : outgoingEdges.entries.lookup nodeId with
  | none => simp [hl] at htarget
  | some targets =>
      rw [hl] at htarget
      exact List.mem_append_right _
        (List.mem_flatMap.mpr ⟨_, mem_of_lookup hl, htarget⟩)

/-- The ids of `ids` that are not being visited. -/
def unvisited (ids : List String) (s : VisitState) : Nat :=
  (ids.filter fun x => !s.visitingNodeIds.has x).length

theorem unvisited_add {ids : List String} {s : VisitState} {nodeId : String}
    (hmem : nodeId ∈ ids) (hnew : nodeId ∉ s.visitingNodeIds.items) :
    unvisited ids { s with visitingNodeIds := s.visitingNodeIds.add nodeId }
      < unvisited ids s := by
  have hsplit : (ids.filter fun x => !(s.visitingNodeIds.add nodeId).has x)
      = (ids.filter fun x => !s.visitingNodeIds.has x).filter (· ≠ nodeId) := by
    rw [List.filter_filter]
    refine List.filter_congr fun x _ => ?_
    by_cases hx : x = nodeId <;> simp [JsSet.has, hx]
  simp only [unvisited, hsplit]
  refine List.length_filter_lt_length_iff_exists.mpr ⟨nodeId, ?_, by simp⟩
  simpa [JsSet.has, hmem] using hnew

theorem unvisited_congr {ids : List String} {s s' : VisitState}
    (h : ∀ x, x ∈ s'.visitingNodeIds.items ↔ x ∈ s.visitingNodeIds.items) :
    unvisited ids s' = unvisited ids s := by
  simp [unvisited, JsSet.has, h]

/-- A visit that finishes with `true` leaves the set of ids being visited as
it found it. -/
def KeepsVisiting (visit : String → VisitState → Option (Bool × VisitState)) : Prop :=
  ∀ nodeId s s', visit nodeId s = some (true, s') →
    ∀ x, x ∈ s'.visitingNodeIds.items ↔ x ∈ s.visitingNodeIds.items

theorem visitEach_keeps {visit : String → VisitState → Option (Bool × VisitState)}
    (hkeeps : KeepsVisiting visit) :
    ∀ {nodeIds : List String} {s s' : VisitState},
      visitEach visit nodeIds s = some (true, s') →
      ∀ x, x ∈ s'.visitingNodeIds.items ↔ x ∈ s.visitingNodeIds.items
  | [], s, s', h, x => by
      simp only [visitEach, Option.some.injEq, Prod.mk.injEq, true_and] at h
      rw [h]
  | nodeId :: nodeIds, s, s', h, x => by
      simp only [visitEach] at h
      split at h
      · cases h
      · cases h
      · rename_i s₁ h₁
        rw [visitEach_keeps hkeeps h x, hkeeps nodeId s s₁ h₁ x]

theorem visit_keeps (outgoingEdges : JsMap (List String)) :
    ∀ depth, KeepsVisiting (visit outgoingEdges depth)
  | 0, _, _, _, h, _ => by cases h
  | depth + 1, nodeId, s, s', h, x => by
      simp only [visit] at h
      split at h
      · cases h
      · rename_i hnew
        split at h
        · simp only [Option.some.injEq, Prod.mk.injEq, true_and] at h
          rw [h]
        · split at h
          · cases h
          · cases h
          · rename_i s₁ h₁
            simp only [Option.some.injEq, Prod.mk.injEq, true_and] at h
            subst h
            have hmem := visitEach_keeps (visit_keeps outgoingEdges depth) h₁ x
            simp only [JsSet.mem_add] at hmem
            simp only [JsSet.mem_delete, hmem]
            constructor
            · rintro ⟨hx | rfl, hne⟩
              · exact hx
              · exact absurd rfl hne
            · intro hx
              exact ⟨Or.inl hx, fun he => hnew (by simpa [he] using hx)⟩

theorem visitEach_isSome {visit : String → VisitState → Option (Bool × VisitState)}
    {ids : List String} {depth : Nat} (hkeeps : KeepsVisiting visit)
    (hvisit : ∀ nodeId s, nodeId ∈ ids → unvisited ids s < depth →
      (visit nodeId s).isSome) :
    ∀ {nodeIds : List String} {s : VisitState}, nodeIds ⊆ ids → unvisited ids s < depth →
      (visitEach visit nodeIds s).isSome
  | [], _, _, _ => rfl
  | nodeId :: nodeIds, s, hsub, hlt => by
      obtain ⟨r, hr⟩ :=
        Option.isSome_iff_exists.mp (hvisit nodeId s (hsub List.mem_cons_self) hlt)
      obtain ⟨b, s'⟩ := r
      cases b with
      | false => simp [visitEach, hr]
      | true =>
          simp only [visitEach, hr]
          refine visitEach_isSome hkeeps hvisit
            (fun x hx => hsub (List.mem_cons_of_mem _ hx)) ?_
          rw [unvisited_congr (hkeeps nodeId s s' hr)]
          exact hlt

/-- Each nested call visits one more id, so a depth above the number of ids
not being visited is enough. -/
theorem visit_isSome {outgoingEdges : JsMap (List String)} {ids : List String}
    (hout : ∀ nodeId, outgoing outgoingEdges nodeId ⊆ ids) :
    ∀ {depth : Nat} {nodeId : String} {s : VisitState}, nodeId ∈ ids →
      unvisited ids s < depth → (visit outgoingEdges depth nodeId s).isSome
  | 0, _, _, _, hlt => absurd hlt (Nat.not_lt_zero _)
  | depth + 1, nodeId, s, hmem, hlt => by
      simp only [visit]
      split
      · rfl
      · rename_i hnew
        split
        · rfl
        · have hdec := unvisited_add (s := s) hmem (fun h => hnew (by simpa using h))
          have hsome := visitEach_isSome (visit_keeps outgoingEdges depth)
            (fun _ _ h h' => visit_isSome hout h h') (hout nodeId)
            (show unvisited ids
              { s with visitingNodeIds := s.visitingNodeIds.add nodeId } < depth by omega)
          obtain ⟨⟨b, s'⟩, hr⟩ := Option.isSome_iff_exists.mp hsome
          rw [hr]
          cases b <;> rfl

/-- Whether every visit from `nodeIds` returned `true`; `none` if one did not
finish. -/
def acyclicFrom? (nodeIds : List String) (outgoingEdges : JsMap (List String)) : Option Bool :=
  (visitEach (visit outgoingEdges ((visitableIds nodeIds outgoingEdges).length + 1)) nodeIds
    ⟨.empty, .empty⟩).map (·.1)

/-- The visits always finish. -/
theorem acyclicFrom?_isSome (nodeIds : List String) (outgoingEdges : JsMap (List String)) :
    (acyclicFrom? nodeIds outgoingEdges).isSome := by
  have hlt : unvisited (visitableIds nodeIds outgoingEdges) ⟨.empty, .empty⟩
      < (visitableIds nodeIds outgoingEdges).length + 1 :=
    Nat.lt_succ_of_le (List.length_filter_le _ _)
  have hsome := visitEach_isSome (visit_keeps outgoingEdges _)
    (fun _ _ hmem h =>
      visit_isSome (outgoing_subset_visitableIds nodeIds outgoingEdges) hmem h)
    (List.subset_append_left _ _) hlt
  simpa [acyclicFrom?] using hsome

def acyclicFrom (nodeIds : List String) (outgoingEdges : JsMap (List String)) : Bool :=
  (acyclicFrom? nodeIds outgoingEdges).get (acyclicFrom?_isSome _ _)

def validateAcyclicGraph (nodeIds : List String) (outgoingEdges : JsMap (List String)) :
    List Issue :=
  if acyclicFrom nodeIds outgoingEdges then []
  else [customIssue "workflow definition must be acyclic" [.key "edges"]]

/-! ## The schema -/

/-- The issues of `superRefine`, in the order the source adds them. -/
def superRefine (definition : WorkflowDefinition) : List Issue :=
  let nodeScan := scanNodes definition.nodes
  let edgeScan := scanEdges nodeScan.nodeIds definition.edges
  let nodeIds := definition.nodes.map (·.id)
  nodeScan.issues
    ++ missingTriggerIssues nodeScan.triggerNodeIds
    ++ edgeScan.issues
    ++ triggerIncomingIssues nodeScan.triggerNodeIds edgeScan.incomingCounts
    ++ validateReachability nodeIds nodeScan.triggerNodeIds edgeScan.outgoingEdges
    ++ validateAcyclicGraph nodeIds edgeScan.outgoingEdges

/-- The refinement runs on what the object schema accepted. -/
def workflowDefinitionSchema [Runtime] : Schema WorkflowDefinition := fun v =>
  (workflowDefinitionObjectSchema v).andThen fun definition =>
    match superRefine definition with
    | [] => .ok definition
    | found => .issues found

theorem workflowDefinitionSchema_eq_ok [Runtime] {v : Option Json} {d : WorkflowDefinition} :
    workflowDefinitionSchema v = .ok d ↔
      workflowDefinitionObjectSchema v = .ok d ∧ superRefine d = [] := by
  unfold workflowDefinitionSchema
  rw [Parsed.andThen_eq_ok]
  constructor
  · rintro ⟨d', hobj, hrefine⟩
    split at hrefine
    · rename_i hnil
      obtain rfl := Parsed.ok.inj hrefine
      exact ⟨hobj, hnil⟩
    · cases hrefine
  · rintro ⟨hobj, hnil⟩
    exact ⟨d, hobj, by simp [hnil]⟩

/-! ## The default definition -/

/-- `DEFAULT_WORKFLOW_DEFINITION`. -/
def defaultWorkflowDefinition : Json :=
  .obj [("nodes", .arr [.obj [("id", .str "manual-trigger"),
      ("type", .str WorkflowNodeType.manualTrigger.literal), ("name", .str "Manual Trigger"),
      ("config", .obj [])]]),
    ("edges", .arr [])]

/-- The default definition as the schema returns it. -/
def parsedDefaultWorkflowDefinition : WorkflowDefinition where
  nodes :=
    [{ nodeId := ⟨"manual-trigger", by decide, by decide⟩
       name := ⟨"Manual Trigger", by decide⟩
       position := none
       config := .manualTrigger }]
  edges := []
  nodes_length := by decide
  edges_length := by decide

/-- The default passes its own check. -/
theorem defaultWorkflowDefinition_accepted [Runtime] :
    workflowDefinitionSchema (some defaultWorkflowDefinition)
      = .ok parsedDefaultWorkflowDefinition := by
  rfl

end FlowPilot
