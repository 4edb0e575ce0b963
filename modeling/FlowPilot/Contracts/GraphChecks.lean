import FlowPilot.Contracts.Encoding

/-!
# What the graph checks decide

`WellFormedGraph` is the specification of an accepted definition in graph
terms; `workflowDefinitionSchema_accepts_iff` says the schema accepts
exactly the definitions that satisfy it, and that both searches finish on
every candidate.

The route: each scan's issues are characterised by an induction over its
list with the accumulated sets generalised (`scanNodes_issues`,
`scanEdges_issues`); the adjacency map the scan builds is the edge relation
(`mem_outgoing_iff`); the breadth-first search computes the reflexive
transitive closure from the triggers (`mem_reachableNodeIds`); and the
depth-first search answers `true` exactly when what it can reach is
well founded along the edges (`acyclicFrom_iff`).
-/

namespace FlowPilot

open Loop Relation

/-! ## The graph of a definition -/

namespace WorkflowDefinition

/-- `a -> b` is an edge of the definition. -/
def HasEdge (d : WorkflowDefinition) (a b : String) : Prop :=
  ∃ edge ∈ d.edges, edge.sourceNodeId = a ∧ edge.targetNodeId = b

/-- `id` is the id of a manual trigger node. -/
def IsTrigger (d : WorkflowDefinition) (id : String) : Prop :=
  ∃ node ∈ d.nodes, node.type = .manualTrigger ∧ node.id = id

/-- `id` is the id of a node. -/
def IsNode (d : WorkflowDefinition) (id : String) : Prop :=
  ∃ node ∈ d.nodes, node.id = id

end WorkflowDefinition

/-- The graph conditions an executable definition satisfies. -/
structure WellFormedGraph (d : WorkflowDefinition) : Prop where
  node_ids_distinct : (d.nodes.map (·.id)).Nodup
  edge_ids_distinct : (d.edges.map (·.id)).Nodup
  has_trigger : ∃ id, d.IsTrigger id
  endpoints : ∀ edge ∈ d.edges, d.IsNode edge.sourceNodeId ∧ d.IsNode edge.targetNodeId
  no_self_edge : ∀ edge ∈ d.edges, edge.sourceNodeId ≠ edge.targetNodeId
  no_parallel_edges : (d.edges.map fun edge => (edge.sourceNodeId, edge.targetNodeId)).Nodup
  no_edge_to_trigger : ∀ edge ∈ d.edges, ¬ d.IsTrigger edge.targetNodeId
  reachable : ∀ node ∈ d.nodes, ∃ id, d.IsTrigger id ∧ ReflTransGen d.HasEdge id node.id
  acyclic : ∀ id, ¬ TransGen d.HasEdge id id

/-! ## The pass over the nodes -/

theorem scanNode_fold : ∀ (nodes : List WorkflowNode) (k : Nat) (scan : NodeScan),
    (∀ x, x ∈ ((nodes.zipIdx k).foldl scanNode scan).nodeIds.items ↔
      x ∈ scan.nodeIds.items ∨ ∃ node ∈ nodes, node.id = x)
    ∧ (∀ x, x ∈ ((nodes.zipIdx k).foldl scanNode scan).triggerNodeIds.items ↔
      x ∈ scan.triggerNodeIds.items ∨ ∃ node ∈ nodes, node.type = .manualTrigger ∧ node.id = x)
    ∧ (((nodes.zipIdx k).foldl scanNode scan).issues = [] ↔
      scan.issues = [] ∧ (∀ node ∈ nodes, node.id ∉ scan.nodeIds.items)
        ∧ (nodes.map (·.id)).Nodup)
  | [], _, _ => by simp
  | node :: nodes, k, scan => by
      obtain ⟨hids, htriggers, hissues⟩ :=
        scanNode_fold nodes (k + 1) (scanNode scan (node, k))
      rw [List.zipIdx_cons, List.foldl_cons]
      refine ⟨fun x => ?_, fun x => ?_, ?_⟩
      · rw [hids]
        simp only [scanNode, JsSet.mem_add, List.exists_mem_cons_iff, or_assoc, eq_comm]
      · rw [htriggers]
        simp only [scanNode, List.exists_mem_cons_iff]
        split
        · rename_i htype
          simp only [JsSet.mem_add, htype, true_and, or_assoc, eq_comm]
        · rename_i htype
          simp [htype]
      · rw [hissues]
        have hhead : (scanNode scan (node, k)).issues = [] ↔
            scan.issues = [] ∧ node.id ∉ scan.nodeIds.items := by
          simp [scanNode, JsSet.has]
        rw [hhead]
        simp only [scanNode, JsSet.mem_add, not_or, List.forall_mem_cons, List.map_cons,
          List.nodup_cons, List.mem_map, not_exists, not_and]
        constructor
        · rintro ⟨⟨hnil, hnew⟩, hrest, hnodup⟩
          exact ⟨hnil, ⟨hnew, fun m hm => (hrest m hm).1⟩, fun m hm => (hrest m hm).2, hnodup⟩
        · rintro ⟨hnil, ⟨hnew, hrest⟩, hne, hnodup⟩
          exact ⟨⟨hnil, hnew⟩, fun m hm => ⟨hrest m hm, hne m hm⟩, hnodup⟩

theorem mem_scanNodes_nodeIds (d : WorkflowDefinition) (x : String) :
    x ∈ (scanNodes d.nodes).nodeIds.items ↔ d.IsNode x := by
  simpa [scanNodes, WorkflowDefinition.IsNode]
    using (scanNode_fold d.nodes 0 ⟨.empty, .empty, []⟩).1 x

theorem mem_scanNodes_triggerNodeIds (d : WorkflowDefinition) (x : String) :
    x ∈ (scanNodes d.nodes).triggerNodeIds.items ↔ d.IsTrigger x := by
  simpa [scanNodes, WorkflowDefinition.IsTrigger]
    using (scanNode_fold d.nodes 0 ⟨.empty, .empty, []⟩).2.1 x

theorem scanNodes_issues (nodes : List WorkflowNode) :
    (scanNodes nodes).issues = [] ↔ (nodes.map (·.id)).Nodup := by
  simpa [scanNodes] using (scanNode_fold nodes 0 ⟨.empty, .empty, []⟩).2.2

theorem missingTriggerIssues_eq_nil (triggerNodeIds : JsSet) :
    missingTriggerIssues triggerNodeIds = [] ↔ ∃ id, id ∈ triggerNodeIds.items := by
  cases h : triggerNodeIds.items with
  | nil => simp [missingTriggerIssues, h]
  | cons id ids => simp [missingTriggerIssues, h]

/-! ## The pass over the edges -/

/-- No id holds a `>`, so the arrow splits a pair key in one way only. -/
theorem pairKey_inj (e e' : WorkflowEdge) :
    pairKey e = pairKey e' ↔
      (e.sourceNodeId, e.targetNodeId) = (e'.sourceNodeId, e'.targetNodeId) := by
  have hno : ∀ id : WorkflowNodeId, '>' ∉ id.value.toList := fun id hmem =>
    absurd (id.isIdChar_of_mem hmem) (by decide)
  have hsource : '>' ∉ e.sourceNodeId.toList ++ ['-'] := by
    simpa [WorkflowEdge.sourceNodeId] using hno e.source
  have htarget : '>' ∉ e.targetNodeId.toList := hno e.target
  have hlist : ∀ e : WorkflowEdge, (pairKey e).toList
      = (e.sourceNodeId.toList ++ ['-']) ++ '>' :: e.targetNodeId.toList := by
    intro e
    simp [pairKey, String.toList_append]
  rw [← String.toList_inj, hlist, hlist,
    List.append_cons_inj_of_notMem hsource htarget]
  simp [String.toList_inj]

theorem edgeIssues_eq_nil (nodeIds edgeIds edgePairs : JsSet) (edge : WorkflowEdge) (k : Nat) :
    edgeIssues nodeIds edgeIds edgePairs edge k = [] ↔
      edge.id ∉ edgeIds.items ∧ edge.sourceNodeId ∈ nodeIds.items
        ∧ edge.targetNodeId ∈ nodeIds.items ∧ edge.sourceNodeId ≠ edge.targetNodeId
        ∧ pairKey edge ∉ edgePairs.items := by
  simp [edgeIssues, JsSet.has]

theorem scanEdge_fold_issues (nodeIds : JsSet) :
    ∀ (edges : List WorkflowEdge) (k : Nat) (scan : EdgeScan),
      ((edges.zipIdx k).foldl (scanEdge nodeIds) scan).issues = [] ↔
        scan.issues = []
        ∧ (∀ edge ∈ edges, edge.id ∉ scan.edgeIds.items
          ∧ edge.sourceNodeId ∈ nodeIds.items ∧ edge.targetNodeId ∈ nodeIds.items
          ∧ edge.sourceNodeId ≠ edge.targetNodeId ∧ pairKey edge ∉ scan.edgePairs.items)
        ∧ (edges.map (·.id)).Nodup ∧ (edges.map pairKey).Nodup
  | [], _, _ => by simp
  | edge :: edges, k, scan => by
      rw [List.zipIdx_cons, List.foldl_cons,
        scanEdge_fold_issues nodeIds edges (k + 1) (scanEdge nodeIds scan (edge, k))]
      have hhead : (scanEdge nodeIds scan (edge, k)).issues = [] ↔
          scan.issues = [] ∧ edgeIssues nodeIds scan.edgeIds scan.edgePairs edge k = [] := by
        simp [scanEdge]
      rw [hhead, edgeIssues_eq_nil]
      simp only [scanEdge, JsSet.mem_add, not_or, List.forall_mem_cons, List.map_cons,
        List.nodup_cons, List.mem_map, not_exists, not_and]
      constructor
      · rintro ⟨⟨hnil, hedge⟩, hrest, hids, hpairs⟩
        refine ⟨hnil, ⟨hedge, fun e he => ?_⟩, ⟨fun e he => (hrest e he).1.2, hids⟩,
          ⟨fun e he => (hrest e he).2.2.2.2.2, hpairs⟩⟩
        obtain ⟨hid, hs, ht, hne, hpair⟩ := hrest e he
        exact ⟨hid.1, hs, ht, hne, hpair.1⟩
      · rintro ⟨hnil, ⟨hedge, hrest⟩, ⟨hid, hids⟩, ⟨hpair, hpairs⟩⟩
        refine ⟨⟨hnil, hedge⟩, fun e he => ?_, hids, hpairs⟩
        obtain ⟨hold, hs, ht, hne, hpairOld⟩ := hrest e he
        exact ⟨⟨hold, hid e he⟩, hs, ht, hne, hpairOld, hpair e he⟩

theorem scanEdges_issues (nodeIds : JsSet) (edges : List WorkflowEdge) :
    (scanEdges nodeIds edges).issues = [] ↔
      (∀ edge ∈ edges, edge.sourceNodeId ∈ nodeIds.items ∧ edge.targetNodeId ∈ nodeIds.items
        ∧ edge.sourceNodeId ≠ edge.targetNodeId)
      ∧ (edges.map (·.id)).Nodup
      ∧ (edges.map fun edge => (edge.sourceNodeId, edge.targetNodeId)).Nodup := by
  have hpairs : (edges.map pairKey).Nodup ↔
      (edges.map fun edge => (edge.sourceNodeId, edge.targetNodeId)).Nodup := by
    simp only [List.Nodup, List.pairwise_map, ne_eq, pairKey_inj]
  rw [← hpairs]
  simpa [scanEdges] using scanEdge_fold_issues nodeIds edges 0 ⟨.empty, .empty, .empty, .empty, []⟩

theorem scanEdge_fold_outgoingEdges (nodeIds : JsSet) :
    ∀ (edges : List WorkflowEdge) (k : Nat) (scan : EdgeScan),
      ((edges.zipIdx k).foldl (scanEdge nodeIds) scan).outgoingEdges
        = edges.foldl addOutgoing scan.outgoingEdges
  | [], _, _ => rfl
  | edge :: edges, k, scan => by
      rw [List.zipIdx_cons, List.foldl_cons, List.foldl_cons, scanEdge_fold_outgoingEdges]
      rfl

theorem scanEdges_outgoingEdges (nodeIds : JsSet) (edges : List WorkflowEdge) :
    (scanEdges nodeIds edges).outgoingEdges = edges.foldl addOutgoing .empty :=
  scanEdge_fold_outgoingEdges nodeIds edges 0 _

theorem scanEdge_fold_incomingCounts (nodeIds : JsSet) :
    ∀ (edges : List WorkflowEdge) (k : Nat) (scan : EdgeScan),
      ((edges.zipIdx k).foldl (scanEdge nodeIds) scan).incomingCounts
        = edges.foldl addIncoming scan.incomingCounts
  | [], _, _ => rfl
  | edge :: edges, k, scan => by
      rw [List.zipIdx_cons, List.foldl_cons, List.foldl_cons, scanEdge_fold_incomingCounts]
      rfl

theorem scanEdges_incomingCounts (nodeIds : JsSet) (edges : List WorkflowEdge) :
    (scanEdges nodeIds edges).incomingCounts = edges.foldl addIncoming .empty :=
  scanEdge_fold_incomingCounts nodeIds edges 0 _

/-! ## The maps the pass builds -/

/-- The targets of the edges from `x`, in the order of the array. -/
def targetsFrom (edges : List WorkflowEdge) (x : String) : List String :=
  (edges.filter (·.sourceNodeId = x)).map (·.targetNodeId)

theorem outgoing_foldl_addOutgoing (x : String) :
    ∀ (edges : List WorkflowEdge) (m : JsMap (List String)),
      outgoing (edges.foldl addOutgoing m) x = outgoing m x ++ targetsFrom edges x
  | [], m => by simp [targetsFrom]
  | edge :: edges, m => by
      rw [List.foldl_cons, outgoing_foldl_addOutgoing x edges]
      by_cases hx : edge.sourceNodeId = x
      · subst hx
        simp [outgoing, addOutgoing, targetsFrom]
      · have hx' : ¬ x = edge.sourceNodeId := fun h => hx h.symm
        simp [outgoing, addOutgoing, targetsFrom, hx, hx']

/-- The adjacency map of the edges is the edge relation. -/
theorem mem_outgoing_iff (d : WorkflowDefinition) (a b : String) :
    b ∈ outgoing (d.edges.foldl addOutgoing .empty) a ↔ d.HasEdge a b := by
  rw [outgoing_foldl_addOutgoing]
  simp [outgoing, targetsFrom, WorkflowDefinition.HasEdge, and_assoc]

/-- The number of edges to `x`. -/
def incomingCount (edges : List WorkflowEdge) (x : String) : Nat :=
  edges.countP (·.targetNodeId = x)

theorem getD_foldl_addIncoming (x : String) :
    ∀ (edges : List WorkflowEdge) (m : JsMap Int),
      ((edges.foldl addIncoming m).get? x).getD 0 = (m.get? x).getD 0 + incomingCount edges x
  | [], m => by simp [incomingCount]
  | edge :: edges, m => by
      rw [List.foldl_cons, getD_foldl_addIncoming x edges]
      by_cases hx : edge.targetNodeId = x
      · subst hx
        simp [addIncoming, incomingCount]
        omega
      · have hx' : ¬ x = edge.targetNodeId := fun h => hx h.symm
        simp [addIncoming, incomingCount, hx, hx']

theorem triggerIncomingIssues_eq_nil (d : WorkflowDefinition) :
    triggerIncomingIssues (scanNodes d.nodes).triggerNodeIds
        (d.edges.foldl addIncoming .empty) = [] ↔
      ∀ edge ∈ d.edges, ¬ d.IsTrigger edge.targetNodeId := by
  have hcount : ∀ x, 0 < ((d.edges.foldl addIncoming .empty).get? x).getD 0 ↔
      ∃ edge ∈ d.edges, edge.targetNodeId = x := by
    intro x
    rw [getD_foldl_addIncoming]
    simp [incomingCount, List.countP_pos_iff]
  simp only [triggerIncomingIssues, List.flatMap_eq_nil_iff, ite_eq_right_iff,
    mem_scanNodes_triggerNodeIds, hcount]
  simp only [List.cons_ne_nil, imp_false, not_exists, not_and]
  constructor
  · intro h edge hedge htrigger
    exact h edge.targetNodeId htrigger edge hedge rfl
  · intro h x htrigger edge hedge hx
    exact h edge hedge (hx ▸ htrigger)

/-! ## Reachability -/

/-- `b` is in the adjacency list of `a`. -/
def Adjacent (outgoingEdges : JsMap (List String)) (a b : String) : Prop :=
  b ∈ outgoing outgoingEdges a

/-- What every round of the search keeps: it only meets ids that a trigger
reaches, and every id it has to look at is queued or done. -/
structure ReachInv (triggers : List String) (outgoingEdges : JsMap (List String))
    (s : ReachState) : Prop where
  sound : ∀ x, x ∈ s.queue ∨ x ∈ s.reachableNodeIds.items →
    ∃ t ∈ triggers, ReflTransGen (Adjacent outgoingEdges) t x
  started : ∀ t ∈ triggers, t ∈ s.queue ∨ t ∈ s.reachableNodeIds.items
  closed : ∀ x ∈ s.reachableNodeIds.items, ∀ y, Adjacent outgoingEdges x y →
    y ∈ s.queue ∨ y ∈ s.reachableNodeIds.items

theorem reachStep_inv {triggers : List String} {outgoingEdges : JsMap (List String)}
    (hne : ∀ x, (∃ t ∈ triggers, ReflTransGen (Adjacent outgoingEdges) t x) → x ≠ "")
    {s s' : ReachState} (hinv : ReachInv triggers outgoingEdges s)
    (hstep : reachStep outgoingEdges s = some s') : ReachInv triggers outgoingEdges s' := by
  obtain ⟨queue, done⟩ := s
  cases queue with
  | nil => cases hstep
  | cons nodeId queue =>
      have hreach := hinv.sound nodeId (Or.inl List.mem_cons_self)
      simp only [reachStep] at hstep
      split at hstep
      · rename_i hskip
        obtain rfl := Option.some.inj hstep
        have hdone : nodeId ∈ done.items := by
          rcases hskip with h | h
          · exact absurd h (hne nodeId hreach)
          · simpa using h
        -- dropping a queued id that is already done loses nothing
        have hdrop : ∀ {y}, y ∈ nodeId :: queue ∨ y ∈ done.items → y ∈ queue ∨ y ∈ done.items := by
          rintro y (hy | hy)
          · rcases List.mem_cons.mp hy with rfl | hy
            · exact Or.inr hdone
            · exact Or.inl hy
          · exact Or.inr hy
        exact ⟨fun x hx => hinv.sound x (hx.imp (List.mem_cons_of_mem _) id),
          fun t ht => hdrop (hinv.started t ht),
          fun x hx y hy => hdrop (hinv.closed x hx y hy)⟩
      · obtain rfl := Option.some.inj hstep
        have hmove : ∀ {y}, y ∈ nodeId :: queue ∨ y ∈ done.items →
            y ∈ queue ++ outgoing outgoingEdges nodeId ∨ y ∈ (done.add nodeId).items := by
          rintro y (hy | hy)
          · rcases List.mem_cons.mp hy with rfl | hy
            · exact Or.inr (by simp)
            · exact Or.inl (List.mem_append_left _ hy)
          · exact Or.inr (by simp [hy])
        refine ⟨fun x hx => ?_, fun t ht => hmove (hinv.started t ht), fun x hx y hy => ?_⟩
        · rcases hx with hx | hx
          · rcases List.mem_append.mp hx with hx | hx
            · exact hinv.sound x (Or.inl (List.mem_cons_of_mem _ hx))
            · obtain ⟨t, ht, hpath⟩ := hreach
              exact ⟨t, ht, hpath.tail hx⟩
          · rcases JsSet.mem_add.mp hx with hx | rfl
            · exact hinv.sound x (Or.inr hx)
            · exact hreach
        · rcases JsSet.mem_add.mp hx with hx | rfl
          · exact hmove (hinv.closed x hx y hy)
          · exact Or.inl (List.mem_append_right _ hy)

/-- The search finds exactly the ids the triggers reach. -/
theorem mem_reachableNodeIds {triggerNodeIds : JsSet} {outgoingEdges : JsMap (List String)}
    (hne : ∀ x, (∃ t ∈ triggerNodeIds.items, ReflTransGen (Adjacent outgoingEdges) t x) →
      x ≠ "") (x : String) :
    x ∈ (reachableNodeIds triggerNodeIds outgoingEdges).items ↔
      ∃ t ∈ triggerNodeIds.items, ReflTransGen (Adjacent outgoingEdges) t x := by
  have hstart : ReachInv triggerNodeIds.items outgoingEdges ⟨triggerNodeIds.items, .empty⟩ :=
    ⟨fun x hx => ⟨x, by simpa using hx, .refl⟩, fun t ht => Or.inl ht, fun x hx => by simp at hx⟩
  obtain ⟨r, hr, hinv, hstop⟩ := loop_total (reachStep outgoingEdges)
    (ReachInv triggerNodeIds.items outgoingEdges) (fun s => s.work outgoingEdges)
    (fun _ _ hinv h => ⟨reachStep_inv hne hinv h, reachStep_work h⟩) hstart
    (Nat.lt_succ_self (ReachState.work outgoingEdges ⟨triggerNodeIds.items, .empty⟩))
  have hresult : reachableNodeIds triggerNodeIds outgoingEdges = r.reachableNodeIds := by
    simp [reachableNodeIds, reachableNodeIds?, hr]
  have hqueue : r.queue = [] := by
    cases hq : r.queue with
    | nil => rfl
    | cons nodeId queue =>
        simp only [reachStep, hq] at hstop
        split at hstop <;> cases hstop
  rw [hresult]
  constructor
  · exact fun hx => hinv.sound x (Or.inr hx)
  · rintro ⟨t, ht, hpath⟩
    induction hpath with
    | refl => simpa [hqueue] using hinv.started t ht
    | tail _ hstep ih => simpa [hqueue] using hinv.closed _ ih _ hstep

/-! ## Acyclicity -/

/-- Nothing reachable from `x` starts an infinite walk. -/
def Grounded (outgoingEdges : JsMap (List String)) (x : String) : Prop :=
  Acc (fun a b => Adjacent outgoingEdges b a) x

/-- What a visit that answers `true` does to the visited ids. -/
def VisitTrue (outgoingEdges : JsMap (List String))
    (visit : String → VisitState → Option (Bool × VisitState)) : Prop :=
  ∀ nodeId s s', visit nodeId s = some (true, s') →
    (∀ x ∈ s.visitedNodeIds.items, Grounded outgoingEdges x) →
    (∀ x ∈ s'.visitedNodeIds.items, Grounded outgoingEdges x)
      ∧ nodeId ∈ s'.visitedNodeIds.items
      ∧ ∀ x ∈ s.visitedNodeIds.items, x ∈ s'.visitedNodeIds.items

theorem visitEach_true {outgoingEdges : JsMap (List String)}
    {visit : String → VisitState → Option (Bool × VisitState)}
    (hvisit : VisitTrue outgoingEdges visit) :
    ∀ {nodeIds : List String} {s s' : VisitState},
      visitEach visit nodeIds s = some (true, s') →
      (∀ x ∈ s.visitedNodeIds.items, Grounded outgoingEdges x) →
      (∀ x ∈ s'.visitedNodeIds.items, Grounded outgoingEdges x)
        ∧ (∀ x ∈ nodeIds, x ∈ s'.visitedNodeIds.items)
        ∧ ∀ x ∈ s.visitedNodeIds.items, x ∈ s'.visitedNodeIds.items
  | [], s, s', h, hgood => by
      simp only [visitEach, Option.some.injEq, Prod.mk.injEq, true_and] at h
      subst h
      exact ⟨hgood, by simp, fun _ hx => hx⟩
  | nodeId :: nodeIds, s, s', h, hgood => by
      simp only [visitEach] at h
      split at h
      · cases h
      · cases h
      · rename_i s₁ h₁
        obtain ⟨hgood₁, hmem₁, hmono₁⟩ := hvisit nodeId s s₁ h₁ hgood
        obtain ⟨hgood', hmem', hmono'⟩ := visitEach_true hvisit h hgood₁
        refine ⟨hgood', fun x hx => ?_, fun x hx => hmono' x (hmono₁ x hx)⟩
        rcases List.mem_cons.mp hx with rfl | hx
        · exact hmono' _ hmem₁
        · exact hmem' x hx

theorem visit_true (outgoingEdges : JsMap (List String)) :
    ∀ depth, VisitTrue outgoingEdges (visit outgoingEdges depth)
  | 0, _, _, _, h, _ => by cases h
  | depth + 1, nodeId, s, s', h, hgood => by
      simp only [visit] at h
      split at h
      · cases h
      · split at h
        · rename_i hvisited
          simp only [Option.some.injEq, Prod.mk.injEq, true_and] at h
          subst h
          exact ⟨hgood, by simpa using hvisited, fun _ hx => hx⟩
        · split at h
          · cases h
          · cases h
          · rename_i s₁ h₁
            simp only [Option.some.injEq, Prod.mk.injEq, true_and] at h
            subst h
            obtain ⟨hgood₁, hmem₁, hmono₁⟩ :=
              visitEach_true (visit_true outgoingEdges depth) h₁ hgood
            have hnode : Grounded outgoingEdges nodeId :=
              Acc.intro _ fun y hy => hgood₁ y (hmem₁ y hy)
            refine ⟨fun x hx => ?_, by simp, fun x hx => by simp [hmono₁ x hx]⟩
            rcases JsSet.mem_add.mp hx with hx | rfl
            · exact hgood₁ x hx
            · exact hnode

/-- What a visit that answers `false` has found, when every id being visited
leads to the one it is called with. -/
def VisitFalse (outgoingEdges : JsMap (List String))
    (visit : String → VisitState → Option (Bool × VisitState)) : Prop :=
  ∀ nodeId s s', visit nodeId s = some (false, s') →
    (∀ x ∈ s.visitingNodeIds.items, TransGen (Adjacent outgoingEdges) x nodeId) →
    ∃ a, TransGen (Adjacent outgoingEdges) a a

theorem visitEach_false {outgoingEdges : JsMap (List String)}
    {visit : String → VisitState → Option (Bool × VisitState)}
    (hkeeps : KeepsVisiting visit) (hvisit : VisitFalse outgoingEdges visit) :
    ∀ {nodeIds : List String} {s s' : VisitState},
      visitEach visit nodeIds s = some (false, s') →
      (∀ x ∈ s.visitingNodeIds.items, ∀ y ∈ nodeIds,
        TransGen (Adjacent outgoingEdges) x y) →
      ∃ a, TransGen (Adjacent outgoingEdges) a a
  | [], _, _, h, _ => by simp [visitEach] at h
  | nodeId :: nodeIds, s, s', h, hpath => by
      simp only [visitEach] at h
      split at h
      · cases h
      · rename_i s₁ h₁
        exact hvisit nodeId s s₁ h₁ fun x hx => hpath x hx nodeId List.mem_cons_self
      · rename_i s₁ h₁
        refine visitEach_false hkeeps hvisit h fun x hx y hy => ?_
        exact hpath x ((hkeeps nodeId s s₁ h₁ x).mp hx) y (List.mem_cons_of_mem _ hy)

theorem visit_false (outgoingEdges : JsMap (List String)) :
    ∀ depth, VisitFalse outgoingEdges (visit outgoingEdges depth)
  | 0, _, _, _, h, _ => by cases h
  | depth + 1, nodeId, s, s', h, hpath => by
      simp only [visit] at h
      split at h
      · rename_i hvisiting
        exact ⟨nodeId, hpath nodeId (by simpa using hvisiting)⟩
      · split at h
        · cases h
        · split at h
          · cases h
          · rename_i s₁ h₁
            refine visitEach_false (visit_keeps outgoingEdges depth)
              (visit_false outgoingEdges depth) h₁ fun x hx y hy => ?_
            rcases JsSet.mem_add.mp hx with hx | rfl
            · exact (hpath x hx).tail hy
            · exact TransGen.single hy
          · cases h

/-- The visits answer `true` exactly when no cycle is within their reach. -/
theorem acyclicFrom_iff {nodeIds : List String} {outgoingEdges : JsMap (List String)}
    (hsource : ∀ a b, Adjacent outgoingEdges a b → a ∈ nodeIds) :
    acyclicFrom nodeIds outgoingEdges = true ↔
      ∀ a, ¬ TransGen (Adjacent outgoingEdges) a a := by
  obtain ⟨answer, hanswer⟩ :=
    Option.isSome_iff_exists.mp (acyclicFrom?_isSome nodeIds outgoingEdges)
  have hresult : acyclicFrom nodeIds outgoingEdges = answer := by
    simp [acyclicFrom, hanswer]
  unfold acyclicFrom? at hanswer
  obtain ⟨⟨found, s'⟩, hrun, rfl⟩ := Option.map_eq_some_iff.mp hanswer
  rw [hresult]
  cases found with
  | true =>
      obtain ⟨hgood, hmem, -⟩ := visitEach_true (visit_true outgoingEdges _) hrun (by simp)
      refine iff_of_true rfl fun a hcycle => ?_
      obtain ⟨b, hab, -⟩ := TransGen.head'_iff.mp hcycle
      exact not_transGen_self_of_acc (hgood a (hmem a (hsource a b hab))) hcycle
  | false =>
      obtain ⟨a, hcycle⟩ := visitEach_false (visit_keeps outgoingEdges _)
        (visit_false outgoingEdges _) hrun (by simp)
      exact iff_of_false (by simp) fun h => h a hcycle

/-! ## The schema -/

/-- The adjacency map a definition's edges build. -/
def outgoingEdgesOf (d : WorkflowDefinition) : JsMap (List String) :=
  d.edges.foldl addOutgoing .empty

theorem adjacent_outgoingEdgesOf (d : WorkflowDefinition) :
    Adjacent (outgoingEdgesOf d) = d.HasEdge := by
  funext a b
  exact propext (mem_outgoing_iff d a b)

/-- Only ids of nodes and of edge endpoints are reached, and none is empty. -/
theorem reached_ne_empty {d : WorkflowDefinition} {x : String}
    (h : ∃ t ∈ (scanNodes d.nodes).triggerNodeIds.items,
      ReflTransGen (Adjacent (outgoingEdgesOf d)) t x) : x ≠ "" := by
  obtain ⟨t, ht, hpath⟩ := h
  rw [adjacent_outgoingEdgesOf] at hpath
  cases hpath with
  | refl =>
      obtain ⟨node, -, -, rfl⟩ := (mem_scanNodes_triggerNodeIds d _).mp ht
      exact node.nodeId.value_ne_empty
  | tail _ hedge =>
      obtain ⟨edge, -, -, rfl⟩ := hedge
      exact edge.target.value_ne_empty

theorem validateReachability_eq_nil (d : WorkflowDefinition) :
    validateReachability (d.nodes.map (·.id)) (scanNodes d.nodes).triggerNodeIds
        (outgoingEdgesOf d) = [] ↔
      ∀ node ∈ d.nodes, ∃ id, d.IsTrigger id ∧ ReflTransGen d.HasEdge id node.id := by
  simp only [validateReachability, ite_eq_left_iff, List.cons_ne_nil, imp_false, not_not,
    List.all_eq_true, List.forall_mem_map, JsSet.has_iff]
  refine forall₂_congr fun node _ => ?_
  rw [mem_reachableNodeIds fun x hx => reached_ne_empty hx, adjacent_outgoingEdgesOf]
  simp only [mem_scanNodes_triggerNodeIds]

theorem validateAcyclicGraph_eq_nil {d : WorkflowDefinition}
    (hends : ∀ edge ∈ d.edges, d.IsNode edge.sourceNodeId) :
    validateAcyclicGraph (d.nodes.map (·.id)) (outgoingEdgesOf d) = [] ↔
      ∀ id, ¬ TransGen d.HasEdge id id := by
  have hsource : ∀ a b, Adjacent (outgoingEdgesOf d) a b → a ∈ d.nodes.map (·.id) := by
    intro a b hab
    rw [adjacent_outgoingEdgesOf] at hab
    obtain ⟨edge, hedge, rfl, -⟩ := hab
    simpa [WorkflowDefinition.IsNode] using hends edge hedge
  simp only [validateAcyclicGraph, ite_eq_left_iff, List.cons_ne_nil, imp_false, not_not,
    acyclicFrom_iff hsource, adjacent_outgoingEdgesOf]

/-- The refinement reports nothing exactly on the well-formed graphs. -/
theorem superRefine_eq_nil (d : WorkflowDefinition) :
    superRefine d = [] ↔ WellFormedGraph d := by
  have hends : (∀ edge ∈ d.edges,
      edge.sourceNodeId ∈ (scanNodes d.nodes).nodeIds.items
        ∧ edge.targetNodeId ∈ (scanNodes d.nodes).nodeIds.items
        ∧ edge.sourceNodeId ≠ edge.targetNodeId) ↔
      ∀ edge ∈ d.edges, d.IsNode edge.sourceNodeId ∧ d.IsNode edge.targetNodeId
        ∧ edge.sourceNodeId ≠ edge.targetNodeId := by
    simp only [mem_scanNodes_nodeIds]
  have hreach := validateReachability_eq_nil d
  simp only [outgoingEdgesOf] at hreach
  simp only [superRefine, List.append_eq_nil_iff, scanEdges_outgoingEdges,
    scanEdges_incomingCounts, scanNodes_issues, missingTriggerIssues_eq_nil,
    mem_scanNodes_triggerNodeIds, scanEdges_issues, hends, triggerIncomingIssues_eq_nil, hreach]
  constructor
  · rintro ⟨⟨⟨⟨⟨hnodes, htrigger⟩, hedges, hedgeIds, hpairs⟩, hincoming⟩, hreachable⟩, hacyclic⟩
    refine ⟨hnodes, hedgeIds, htrigger, fun e he => ⟨(hedges e he).1, (hedges e he).2.1⟩,
      fun e he => (hedges e he).2.2, hpairs, hincoming, hreachable, ?_⟩
    exact (validateAcyclicGraph_eq_nil fun e he => (hedges e he).1).mp hacyclic
  · intro h
    refine ⟨⟨⟨⟨⟨h.node_ids_distinct, h.has_trigger⟩,
      fun e he => ⟨(h.endpoints e he).1, (h.endpoints e he).2, h.no_self_edge e he⟩,
      h.edge_ids_distinct, h.no_parallel_edges⟩, h.no_edge_to_trigger⟩, h.reachable⟩, ?_⟩
    exact (validateAcyclicGraph_eq_nil fun e he => (h.endpoints e he).1).mpr h.acyclic

/-- A definition the schema accepts has a well-formed graph. -/
theorem wellFormedGraph_of_accepted [Runtime] {v : Option Json} {d : WorkflowDefinition}
    (h : workflowDefinitionSchema v = .ok d) : WellFormedGraph d :=
  (superRefine_eq_nil d).mp (workflowDefinitionSchema_eq_ok.mp h).2

/-- Of the candidates whose fields and counts pass, the schema accepts
exactly those with a well-formed graph; both searches finish on every one. -/
theorem workflowDefinitionSchema_accepts_iff [Runtime] (v : Option Json) (d : WorkflowDefinition)
    (hfields : workflowDefinitionObjectSchema v = .ok d) :
    ((∃ d', workflowDefinitionSchema v = .ok d') ↔ WellFormedGraph d)
    ∧ (reachableNodeIds? (scanNodes d.nodes).triggerNodeIds
        (scanEdges (scanNodes d.nodes).nodeIds d.edges).outgoingEdges).isSome
    ∧ (acyclicFrom? (d.nodes.map (·.id))
        (scanEdges (scanNodes d.nodes).nodeIds d.edges).outgoingEdges).isSome := by
  refine ⟨?_, reachableNodeIds?_isSome _ _, acyclicFrom?_isSome _ _⟩
  rw [← superRefine_eq_nil]
  constructor
  · rintro ⟨d', haccept⟩
    obtain ⟨hobj, hnil⟩ := workflowDefinitionSchema_eq_ok.mp haccept
    obtain rfl := Parsed.ok.inj (hfields.symm.trans hobj)
    exact hnil
  · intro hnil
    exact ⟨d, workflowDefinitionSchema_eq_ok.mpr ⟨hfields, hnil⟩⟩

/-! ## A diamond -/

def diamondTrigger : WorkflowNode where
  nodeId := ⟨"manual", by decide, by decide⟩
  name := ⟨"Manual", by decide⟩
  position := none
  config := .manualTrigger

/-- A second trigger, which leads to the right branch only. -/
def diamondReplay : WorkflowNode where
  nodeId := ⟨"replay", by decide, by decide⟩
  name := ⟨"Replay", by decide⟩
  position := none
  config := .manualTrigger

def diamondLeft : WorkflowNode where
  nodeId := ⟨"left", by decide, by decide⟩
  name := ⟨"Left", by decide⟩
  position := none
  config := .transformAction ⟨.passthrough, none, by simp⟩

def diamondRight : WorkflowNode where
  nodeId := ⟨"right", by decide, by decide⟩
  name := ⟨"Right", by decide⟩
  position := none
  config := .transformAction ⟨.passthrough, none, by simp⟩

def diamondJoin : WorkflowNode where
  nodeId := ⟨"join", by decide, by decide⟩
  name := ⟨"Join", by decide⟩
  position := none
  config := .transformAction ⟨.passthrough, none, by simp⟩

/-- Two branches that meet again, written down back to front. -/
def diamondDefinition : WorkflowDefinition where
  nodes := [diamondJoin, diamondLeft, diamondReplay, diamondRight, diamondTrigger]
  edges :=
    [⟨⟨"left-join", by decide, by decide⟩, diamondLeft.nodeId, diamondJoin.nodeId⟩,
      ⟨⟨"right-join", by decide, by decide⟩, diamondRight.nodeId, diamondJoin.nodeId⟩,
      ⟨⟨"replay-right", by decide, by decide⟩, diamondReplay.nodeId, diamondRight.nodeId⟩,
      ⟨⟨"manual-right", by decide, by decide⟩, diamondTrigger.nodeId, diamondRight.nodeId⟩,
      ⟨⟨"manual-left", by decide, by decide⟩, diamondTrigger.nodeId, diamondLeft.nodeId⟩]
  nodes_length := by decide
  edges_length := by decide

/-- The same, written the other way round. -/
def reversedDiamondDefinition : WorkflowDefinition where
  nodes := diamondDefinition.nodes.reverse
  edges := diamondDefinition.edges.reverse
  nodes_length := by decide
  edges_length := by decide

/-- The join leads back to the left branch. -/
def cyclicDiamondDefinition : WorkflowDefinition where
  nodes := diamondDefinition.nodes
  edges := ⟨⟨"join-left", by decide, by decide⟩, diamondJoin.nodeId, diamondLeft.nodeId⟩
    :: diamondDefinition.edges
  nodes_length := by decide
  edges_length := by decide

theorem diamondDefinition_accepted [Runtime] :
    workflowDefinitionSchema (some diamondDefinition.toJson) = .ok diamondDefinition := by
  rfl

theorem reversedDiamondDefinition_accepted [Runtime] :
    workflowDefinitionSchema (some reversedDiamondDefinition.toJson)
      = .ok reversedDiamondDefinition := by
  rfl

theorem not_wellFormedGraph_cyclicDiamond : ¬ WellFormedGraph cyclicDiamondDefinition := by
  intro h
  have hthere : cyclicDiamondDefinition.HasEdge "left" "join" :=
    ⟨_, .tail _ (.head _), rfl, rfl⟩
  have hback : cyclicDiamondDefinition.HasEdge "join" "left" := ⟨_, .head _, rfl, rfl⟩
  exact h.acyclic "left" (.tail (.single hthere) hback)

/-- The theorem at the diamond, which is accepted and so well formed, and at
the diamond with a cycle, which is not and so rejected. -/
theorem workflowDefinitionSchema_accepts_iff_diamond :
    let _ : Runtime := .sample false
    WellFormedGraph diamondDefinition
      ∧ workflowDefinitionObjectSchema (some cyclicDiamondDefinition.toJson)
        = .ok cyclicDiamondDefinition
      ∧ ¬ ∃ d', workflowDefinitionSchema (some cyclicDiamondDefinition.toJson) = .ok d' := by
  intro _
  have haccepted := diamondDefinition_accepted
  have hfields := (workflowDefinitionSchema_eq_ok.mp haccepted).1
  have hcyclic : workflowDefinitionObjectSchema (some cyclicDiamondDefinition.toJson)
      = .ok cyclicDiamondDefinition := rfl
  refine ⟨(workflowDefinitionSchema_accepts_iff _ _ hfields).1.mp ⟨_, haccepted⟩, hcyclic, ?_⟩
  rw [(workflowDefinitionSchema_accepts_iff _ _ hcyclic).1]
  exact not_wellFormedGraph_cyclicDiamond

end FlowPilot
