import FlowPilot.Contracts.GraphChecks
import FlowPilot.Worker.Errors

/-!
# The execution order

`orderWorkflowNodes`: a queue seeded with the manual triggers, each node
released when its last incoming edge has been used up.

On a well-formed graph the order is complete and topological
(`orderWorkflowNodes_spec`). One invariant carries it (`OrderInv`): the
count kept for a node is the number of its incoming edges whose source has
not been placed, so what is queued is ready and what is ready is placed or
queued. Completeness is then an induction along the edges, which a
well-formed graph grounds.
-/

namespace FlowPilot

open Loop Relation

/-! ## The loop -/

structure OrderState where
  queue : List String
  orderedNodes : List WorkflowNode
  visitedNodeIds : JsSet
  incomingCounts : JsMap Int

/-- One round of the inner `for`: an edge to `targetNodeId` is used up. -/
def releaseTarget (s : OrderState) (targetNodeId : String) : OrderState :=
  let nextIncomingCount := (s.incomingCounts.get? targetNodeId).getD 1 - 1
  { s with
    incomingCounts := s.incomingCounts.set targetNodeId nextIncomingCount
    queue := if nextIncomingCount = 0 then s.queue ++ [targetNodeId] else s.queue }

/-- One round of the `while` loop of `orderWorkflowNodes`. -/
def orderStep (nodesById : JsMap WorkflowNode) (outgoingEdges : JsMap (List String))
    (s : OrderState) : Option OrderState :=
  match s.queue with
  | [] => none
  | nodeId :: queue =>
      if nodeId = "" ∨ s.visitedNodeIds.has nodeId then some { s with queue }
      else
        match nodesById.get? nodeId with
        | none => some { s with queue }
        | some node =>
            some ((outgoing outgoingEdges nodeId).foldl releaseTarget
              { s with
                queue
                visitedNodeIds := s.visitedNodeIds.add nodeId
                orderedNodes := s.orderedNodes ++ [node] })

/-- `new Map(definition.nodes.map((node) => [node.id, node]))`. -/
def nodesById (d : WorkflowDefinition) : JsMap WorkflowNode :=
  .ofEntries (d.nodes.map fun node => (node.id, node))

/-- Every node set to `0`, then one more for each edge to it. -/
def initialIncomingCounts (d : WorkflowDefinition) : JsMap Int :=
  d.edges.foldl addIncoming (.ofEntries (d.nodes.map fun node => (node.id, 0)))

/-- The queue before the first round. -/
def triggerIds (d : WorkflowDefinition) : List String :=
  (d.nodes.filter (·.type = .manualTrigger)).map (·.id)

def OrderState.start (d : WorkflowDefinition) : OrderState where
  queue := triggerIds d
  orderedNodes := []
  visitedNodeIds := .empty
  incomingCounts := initialIncomingCounts d

/-- The work left: the queue and what is still to be pushed. -/
def OrderState.work (outgoingEdges : JsMap (List String)) (s : OrderState) : Nat :=
  s.queue.length + pendingPushes s.visitedNodeIds outgoingEdges.entries

theorem foldl_releaseTarget_work (outgoingEdges : JsMap (List String)) :
    ∀ (targets : List String) (s : OrderState),
      (targets.foldl releaseTarget s).work outgoingEdges
        ≤ s.work outgoingEdges + targets.length
  | [], _ => Nat.le_refl _
  | target :: targets, s => by
      have ih := foldl_releaseTarget_work outgoingEdges targets (releaseTarget s target)
      have hone : (releaseTarget s target).work outgoingEdges ≤ s.work outgoingEdges + 1 := by
        simp only [OrderState.work, releaseTarget]
        split
        · simp only [List.length_append, List.length_singleton]
          omega
        · omega
      simp only [List.foldl_cons, List.length_cons]
      omega

theorem orderStep_work {nodesById : JsMap WorkflowNode} {outgoingEdges : JsMap (List String)}
    {s s' : OrderState} (h : orderStep nodesById outgoingEdges s = some s') :
    s'.work outgoingEdges < s.work outgoingEdges := by
  obtain ⟨queue, ordered, done, counts⟩ := s
  cases queue with
  | nil => cases h
  | cons nodeId queue =>
      simp only [orderStep] at h
      split at h
      · obtain rfl := Option.some.inj h
        simp [OrderState.work]
      · rename_i hnew
        split at h
        · obtain rfl := Option.some.inj h
          simp [OrderState.work]
        · obtain rfl := Option.some.inj h
          have hmem : nodeId ∉ done.items := fun hm => hnew (Or.inr (by simpa using hm))
          have hpush := pendingPushes_add hmem outgoingEdges.entries
          refine Nat.lt_of_le_of_lt (foldl_releaseTarget_work _ _ _) ?_
          simp only [OrderState.work, outgoing, JsMap.get?, List.length_cons]
          omega

/-- The state in which the loop stops; `none` if it did not. -/
def orderLoop? (d : WorkflowDefinition) : Option OrderState :=
  loop (orderStep (nodesById d) (outgoingEdgesOf d))
    ((OrderState.start d).work (outgoingEdgesOf d) + 1) (.start d)

/-- The loop always stops. -/
theorem orderLoop?_isSome (d : WorkflowDefinition) : (orderLoop? d).isSome := by
  obtain ⟨r, hr, -⟩ := loop_total (orderStep (nodesById d) (outgoingEdgesOf d))
    (fun _ => True) (fun s => s.work (outgoingEdgesOf d))
    (fun _ _ _ h => ⟨trivial, orderStep_work h⟩) trivial
    (Nat.lt_succ_self ((OrderState.start d).work (outgoingEdgesOf d)))
  simp [orderLoop?, hr]

def orderLoop (d : WorkflowDefinition) : OrderState := (orderLoop? d).get (orderLoop?_isSome d)

def orderWorkflowNodes (d : WorkflowDefinition) : Except JsError (List WorkflowNode) :=
  let orderedNodes := (orderLoop d).orderedNodes
  if orderedNodes.length ≠ d.nodes.length then
    .error (.workflowExecutionWorkerError "workflow_definition_unordered"
      "Workflow definition could not be ordered for sequential execution" false none)
  else .ok orderedNodes

/-! ## The counts -/

/-- The edges to `x` whose source has not been placed. -/
def pendingCount (edges : List WorkflowEdge) (visitedNodeIds : JsSet) (x : String) : Nat :=
  edges.countP fun edge => edge.targetNodeId = x ∧ edge.sourceNodeId ∉ visitedNodeIds.items

theorem pendingCount_eq_zero {d : WorkflowDefinition} {visitedNodeIds : JsSet} {x : String} :
    pendingCount d.edges visitedNodeIds x = 0 ↔
      ∀ a, d.HasEdge a x → a ∈ visitedNodeIds.items := by
  simp only [pendingCount, List.countP_eq_zero, decide_eq_true_eq, not_and, not_not,
    WorkflowDefinition.HasEdge]
  constructor
  · rintro h a ⟨edge, hedge, rfl, htarget⟩
    exact h edge hedge htarget
  · intro h edge hedge htarget
    exact h _ ⟨edge, hedge, rfl, htarget⟩

/-- Placing `nodeId` uses up its own edges to `x`. -/
theorem pendingCount_add {visitedNodeIds : JsSet} {nodeId : String}
    (hnew : nodeId ∉ visitedNodeIds.items) (x : String) (edges : List WorkflowEdge) :
    pendingCount edges visitedNodeIds x
      = pendingCount edges (visitedNodeIds.add nodeId) x + (targetsFrom edges nodeId).count x := by
  simp only [pendingCount, targetsFrom, List.count_eq_countP, List.countP_map, List.countP_filter]
  induction edges with
  | nil => rfl
  | cons edge edges ih =>
      simp only [List.countP_cons, ih, JsSet.mem_add, not_or]
      by_cases htarget : edge.targetNodeId = x
      · by_cases hsource : edge.sourceNodeId = nodeId
        · simp [htarget, hsource, hnew]
          omega
        · simp [htarget, hsource]
          omega
      · simp [htarget]

/-- Parallel edges being excluded, an adjacency list has no repetition. -/
theorem targetsFrom_nodup {edges : List WorkflowEdge}
    (h : (edges.map fun edge => (edge.sourceNodeId, edge.targetNodeId)).Nodup) (x : String) :
    (targetsFrom edges x).Nodup := by
  have hpair := List.pairwise_map.mp h
  refine List.pairwise_map.mpr ((List.Pairwise.filter _ hpair).imp_of_mem ?_)
  intro e e' he he' hne htarget
  have hs : e.sourceNodeId = x := by simpa using (List.mem_filter.mp he).2
  have hs' : e'.sourceNodeId = x := by simpa using (List.mem_filter.mp he').2
  exact hne (by rw [hs, hs', htarget])

theorem initialIncomingCounts_get? {d : WorkflowDefinition} {x : String} (hx : d.IsNode x) :
    (initialIncomingCounts d).get? x = some (pendingCount d.edges .empty x : Int) := by
  have hbase : ∀ nodes : List WorkflowNode, ∀ m : JsMap Int,
      (m.get? x = some 0 ∨ ∃ node ∈ nodes, node.id = x) →
      ((nodes.map fun node => (node.id, (0 : Int))).foldl (fun m e => m.set e.1 e.2) m).get? x
        = some 0 := by
    intro nodes
    induction nodes with
    | nil =>
        rintro m (h | ⟨node, hnode, -⟩)
        · exact h
        · cases hnode
    | cons node nodes ih =>
        intro m h
        rw [List.map_cons, List.foldl_cons]
        refine ih _ ?_
        rcases h with h | ⟨m', hm', rfl⟩
        · refine Or.inl ?_
          by_cases hid : x = node.id <;> simp [hid, h]
        · rcases List.mem_cons.mp hm' with rfl | hm'
          · exact Or.inl (by simp)
          · exact Or.inr ⟨m', hm', rfl⟩
  have hedges : ∀ edges : List WorkflowEdge, ∀ (m : JsMap Int) (c : Int),
      m.get? x = some c →
      (edges.foldl addIncoming m).get? x = some (c + pendingCount edges .empty x) := by
    intro edges
    induction edges with
    | nil => intro m c h; simpa [pendingCount] using h
    | cons edge edges ih =>
        intro m c h
        rw [List.foldl_cons]
        by_cases htarget : edge.targetNodeId = x
        · rw [ih (addIncoming m edge) (c + 1) (by simp [addIncoming, htarget, h])]
          simp [pendingCount, htarget]
          omega
        · have hne : ¬ x = edge.targetNodeId := fun he => htarget he.symm
          rw [ih (addIncoming m edge) c (by simp [addIncoming, hne, h])]
          simp [pendingCount, htarget]
  have hzero := hedges d.edges _ 0 (hbase d.nodes .empty (Or.inr hx))
  simpa [initialIncomingCounts, JsMap.ofEntries] using hzero

/-! ## The invariant -/

/-- `x` is a node all of whose predecessors have been placed. -/
def ReadyNode (d : WorkflowDefinition) (s : OrderState) (x : String) : Prop :=
  d.IsNode x ∧ ∀ a, d.HasEdge a x → a ∈ s.visitedNodeIds.items

structure OrderInv (d : WorkflowDefinition) (s : OrderState) : Prop where
  visited_iff : ∀ x, x ∈ s.visitedNodeIds.items ↔ x ∈ s.orderedNodes.map (·.id)
  ids_nodup : (s.orderedNodes.map (·.id)).Nodup
  nodes : ∀ node ∈ s.orderedNodes, node ∈ d.nodes
  counts : ∀ x, d.IsNode x →
    s.incomingCounts.get? x = some (pendingCount d.edges s.visitedNodeIds x : Int)
  queue_ready : ∀ x ∈ s.queue, ReadyNode d s x
  ready_queued : ∀ x, ReadyNode d s x → x ∈ s.visitedNodeIds.items ∨ x ∈ s.queue
  placed_ready : ∀ node ∈ s.orderedNodes, ReadyNode d s node.id
  topological : s.orderedNodes.Pairwise fun m n => ¬ d.HasEdge n.id m.id
  triggers_first : (s.orderedNodes.map (·.id) ++ s.queue).Pairwise
    fun x y => d.IsTrigger y → d.IsTrigger x

theorem mem_triggerIds (d : WorkflowDefinition) (x : String) :
    x ∈ triggerIds d ↔ d.IsTrigger x := by
  simp [triggerIds, WorkflowDefinition.IsTrigger, and_assoc]

theorem OrderInv.start {d : WorkflowDefinition} (hg : WellFormedGraph d) :
    OrderInv d (.start d) where
  visited_iff x := by simp [OrderState.start]
  ids_nodup := by simp [OrderState.start]
  nodes node h := absurd h List.not_mem_nil
  counts x hx := initialIncomingCounts_get? hx
  queue_ready x hx := by
    obtain ⟨node, hnode, htype, rfl⟩ := (mem_triggerIds d x).mp hx
    refine ⟨⟨node, hnode, rfl⟩, ?_⟩
    rintro a ⟨edge, hedge, -, htarget⟩
    exact absurd ⟨node, hnode, htype, htarget.symm⟩ (hg.no_edge_to_trigger edge hedge)
  ready_queued x hx := by
    obtain ⟨⟨node, hnode, rfl⟩, hpreds⟩ := hx
    obtain ⟨t, ht, hpath⟩ := hg.reachable node hnode
    -- a node without predecessors is reached by the empty path only
    rcases ReflTransGen.cases_tail hpath with heq | ⟨a, -, ha⟩
    · exact Or.inr ((mem_triggerIds d _).mpr (heq ▸ ht))
    · exact absurd (hpreds a ha) (by simp [OrderState.start])
  placed_ready node h := absurd h List.not_mem_nil
  topological := List.Pairwise.nil
  triggers_first := List.pairwise_of_forall_mem_list fun a ha _ _ _ =>
    (mem_triggerIds d a).mp ha

/-- What the inner loop does to the counts and to the queue. -/
theorem foldl_releaseTarget : ∀ (targets : List String) (s : OrderState), targets.Nodup →
    (targets.foldl releaseTarget s).orderedNodes = s.orderedNodes
    ∧ (targets.foldl releaseTarget s).visitedNodeIds = s.visitedNodeIds
    ∧ (∀ x, (targets.foldl releaseTarget s).incomingCounts.get? x =
        if x ∈ targets then some ((s.incomingCounts.get? x).getD 1 - 1)
        else s.incomingCounts.get? x)
    ∧ (targets.foldl releaseTarget s).queue = s.queue ++
        targets.filter fun x => (s.incomingCounts.get? x).getD 1 = 1
  | [], s, _ => by simp
  | target :: targets, s, hnodup => by
      obtain ⟨hnew, hnodup⟩ := List.nodup_cons.mp hnodup
      obtain ⟨hordered, hvisited, hcounts, hqueue⟩ :=
        foldl_releaseTarget targets (releaseTarget s target) hnodup
      have hother : ∀ x, x ∈ targets →
          (releaseTarget s target).incomingCounts.get? x = s.incomingCounts.get? x := by
        intro x hx
        have hne : ¬ x = target := fun he => hnew (he ▸ hx)
        simp [releaseTarget, hne]
      refine ⟨hordered, hvisited, fun x => ?_, ?_⟩
      · rw [List.foldl_cons, hcounts x]
        by_cases hx : x ∈ targets
        · simp [hx, hother x hx]
        · by_cases htarget : x = target
          · subst htarget
            simp [hx, releaseTarget]
          · simp [hx, htarget, releaseTarget]
      · rw [List.foldl_cons, hqueue, List.filter_congr fun x hx => by rw [hother x hx]]
        by_cases hlast : (s.incomingCounts.get? target).getD 1 = 1
        · simp [releaseTarget, hlast]
        · have hne : ¬ (s.incomingCounts.get? target).getD 1 - 1 = 0 := by omega
          simp [releaseTarget, hlast, hne]

/-- The round that takes `node` from the front of the queue and places it:
the targets it `released` are pushed behind the `rest` of the queue. -/
structure Places (d : WorkflowDefinition) (node : WorkflowNode) (rest released : List String)
    (s s' : OrderState) : Prop where
  queue_before : s.queue = node.id :: rest
  new : node.id ∉ s.visitedNodeIds.items
  orderedNodes : s'.orderedNodes = s.orderedNodes ++ [node]
  visitedNodeIds : s'.visitedNodeIds = s.visitedNodeIds.add node.id
  counts : ∀ x, d.IsNode x →
    s'.incomingCounts.get? x = some (pendingCount d.edges s'.visitedNodeIds x : Int)
  queue_after : s'.queue = rest ++ released
  mem_released : ∀ x, x ∈ released ↔ d.HasEdge node.id x ∧ ReadyNode d s' x

/-- The inner loop releases a target when the edge from `node` was the last
one its count was waiting for. -/
theorem places_of_counts {d : WorkflowDefinition} (hg : WellFormedGraph d) {node : WorkflowNode}
    (queue : List String) (ordered : List WorkflowNode) {done : JsSet} {counts : JsMap Int}
    (hold : ∀ x, d.IsNode x → counts.get? x = some (pendingCount d.edges done x : Int))
    (hnew : node.id ∉ done.items) :
    ∃ released, Places d node queue released ⟨node.id :: queue, ordered, done, counts⟩
      ((outgoing (outgoingEdgesOf d) node.id).foldl releaseTarget
        ⟨queue, ordered ++ [node], done.add node.id, counts⟩) := by
  have htargets : outgoing (outgoingEdgesOf d) node.id = targetsFrom d.edges node.id := by
    rw [outgoingEdgesOf, outgoing_foldl_addOutgoing]
    simp [outgoing]
  have hnodup := targetsFrom_nodup hg.no_parallel_edges node.id
  have hmem : ∀ x, x ∈ targetsFrom d.edges node.id ↔ d.HasEdge node.id x := fun x =>
    htargets ▸ mem_outgoing_iff d node.id x
  obtain ⟨hordered, hvisited, hcounts, hqueue⟩ := foldl_releaseTarget
    (targetsFrom d.edges node.id) ⟨queue, ordered ++ [node], done.add node.id, counts⟩ hnodup
  rw [htargets]
  refine ⟨_, rfl, hnew, hordered, hvisited, fun x hx => ?_, hqueue, fun x => ?_⟩
  · have hcount := pendingCount_add hnew x d.edges
    rw [hcounts x, hvisited]
    by_cases hxt : x ∈ targetsFrom d.edges node.id
    · rw [List.count_eq_one_of_mem hnodup hxt] at hcount
      simp only [hxt, if_true, hold x hx, Option.getD_some, Option.some.injEq]
      omega
    · rw [List.count_eq_zero_of_not_mem hxt] at hcount
      simp only [hxt, if_false, hold x hx, Option.some.injEq]
      omega
  · rw [List.mem_filter, hmem x]
    refine and_congr_right fun hedge => ?_
    have hx : d.IsNode x := by
      obtain ⟨edge, hedge, -, rfl⟩ := hedge
      exact (hg.endpoints edge hedge).2
    have hcount := pendingCount_add hnew x d.edges
    rw [List.count_eq_one_of_mem hnodup ((hmem x).mpr hedge)] at hcount
    have hlast : (counts.get? x).getD 1 = 1 ↔ pendingCount d.edges (done.add node.id) x = 0 := by
      rw [hold x hx, Option.getD_some]
      omega
    rw [decide_eq_true_iff, hlast, pendingCount_eq_zero, ReadyNode, hvisited]
    exact (and_iff_right hx).symm

section Places

variable {d : WorkflowDefinition} {node : WorkflowNode} {rest released : List String}
  {s s' : OrderState}

theorem Places.ready_mono (hp : Places d node rest released s s') {x : String}
    (hx : ReadyNode d s x) : ReadyNode d s' x :=
  ⟨hx.1, fun a ha => by rw [hp.visitedNodeIds]; simp [hx.2 a ha]⟩

theorem Places.mem_orderedNodes (hp : Places d node rest released s s') {m : WorkflowNode} :
    m ∈ s'.orderedNodes ↔ m ∈ s.orderedNodes ∨ m = node := by
  rw [hp.orderedNodes, List.mem_append, List.mem_singleton]

theorem Places.queue_ready (hp : Places d node rest released s s') (hinv : OrderInv d s) :
    ∀ x ∈ s'.queue, ReadyNode d s' x := by
  intro x hx
  rw [hp.queue_after] at hx
  rcases List.mem_append.mp hx with hx | hx
  · refine hp.ready_mono (hinv.queue_ready x ?_)
    rw [hp.queue_before]
    exact List.mem_cons_of_mem _ hx
  · exact ((hp.mem_released x).mp hx).2

theorem Places.ready_queued (hp : Places d node rest released s s') (hinv : OrderInv d s) :
    ∀ x, ReadyNode d s' x → x ∈ s'.visitedNodeIds.items ∨ x ∈ s'.queue := by
  intro x hx
  rw [hp.visitedNodeIds, hp.queue_after]
  by_cases hedge : d.HasEdge node.id x
  · exact Or.inr (List.mem_append_right _ ((hp.mem_released x).mpr ⟨hedge, hx⟩))
  -- a node that `node` has no edge to was ready before
  · have hold : ReadyNode d s x := by
      refine ⟨hx.1, fun a ha => ?_⟩
      have hmem := hx.2 a ha
      rw [hp.visitedNodeIds, JsSet.mem_add] at hmem
      rcases hmem with h | rfl
      · exact h
      · exact absurd ha hedge
    rcases hinv.ready_queued x hold with h | h
    · exact Or.inl (by simp [h])
    · rw [hp.queue_before] at h
      rcases List.mem_cons.mp h with rfl | h
      · exact Or.inl (by simp)
      · exact Or.inr (List.mem_append_left _ h)

theorem Places.topological (hp : Places d node rest released s s') (hinv : OrderInv d s) :
    s'.orderedNodes.Pairwise fun m n => ¬ d.HasEdge n.id m.id := by
  rw [hp.orderedNodes]
  refine List.pairwise_append.mpr ⟨hinv.topological, List.pairwise_singleton _ _, ?_⟩
  intro m hm n hn hedge
  obtain rfl := List.mem_singleton.mp hn
  exact hp.new ((hinv.placed_ready m hm).2 _ hedge)

/-- Nothing that is released is a trigger. -/
theorem Places.triggers_first (hg : WellFormedGraph d) (hp : Places d node rest released s s')
    (hinv : OrderInv d s) :
    (s'.orderedNodes.map (·.id) ++ s'.queue).Pairwise
      fun x y => d.IsTrigger y → d.IsTrigger x := by
  have hold := hinv.triggers_first
  have hreleased : ∀ y ∈ released, ¬ d.IsTrigger y := by
    intro y hy
    obtain ⟨edge, hedge, -, rfl⟩ := ((hp.mem_released y).mp hy).1
    exact hg.no_edge_to_trigger edge hedge
  rw [hp.queue_before, List.append_cons] at hold
  rw [hp.orderedNodes, hp.queue_after, List.map_append, List.map_singleton, ← List.append_assoc]
  refine List.pairwise_append.mpr ⟨hold, ?_, fun x _ y hy ht => absurd ht (hreleased y hy)⟩
  exact List.pairwise_of_forall_mem_list fun x _ y hy ht => absurd ht (hreleased y hy)

/-- Placing a ready node keeps the invariant. -/
theorem OrderInv.place (hg : WellFormedGraph d) (hnode : node ∈ d.nodes)
    (hp : Places d node rest released s s') (hinv : OrderInv d s) : OrderInv d s' where
  visited_iff x := by
    rw [hp.visitedNodeIds, hp.orderedNodes, JsSet.mem_add, hinv.visited_iff x]
    simp
  ids_nodup := by
    rw [hp.orderedNodes, List.map_append, List.map_singleton]
    refine List.Nodup.append hinv.ids_nodup (List.nodup_singleton _) ?_
    rw [List.disjoint_singleton]
    exact fun h => hp.new ((hinv.visited_iff _).mpr h)
  nodes m hm := by
    rcases hp.mem_orderedNodes.mp hm with hm | rfl
    · exact hinv.nodes m hm
    · exact hnode
  counts := hp.counts
  queue_ready := hp.queue_ready hinv
  ready_queued := hp.ready_queued hinv
  placed_ready m hm := by
    rcases hp.mem_orderedNodes.mp hm with hm | rfl
    · exact hp.ready_mono (hinv.placed_ready m hm)
    · exact hp.ready_mono (hinv.queue_ready _ (by rw [hp.queue_before]; exact List.mem_cons_self))
  topological := hp.topological hinv
  triggers_first := hp.triggers_first hg hinv

end Places

theorem nodesById_get? {d : WorkflowDefinition} (hg : WellFormedGraph d) {node : WorkflowNode}
    (hnode : node ∈ d.nodes) : (nodesById d).get? node.id = some node := by
  refine JsMap.get?_ofEntries_of_mem ?_ (List.mem_map.mpr ⟨node, hnode, rfl⟩)
  simpa [Function.comp_def] using hg.node_ids_distinct

theorem orderStep_inv {d : WorkflowDefinition} (hg : WellFormedGraph d) {s s' : OrderState}
    (hinv : OrderInv d s) (hstep : orderStep (nodesById d) (outgoingEdgesOf d) s = some s') :
    OrderInv d s' := by
  obtain ⟨queue, ordered, done, counts⟩ := s
  cases queue with
  | nil => cases hstep
  | cons nodeId queue =>
      obtain ⟨⟨node, hnode, rfl⟩, -⟩ := hinv.queue_ready nodeId List.mem_cons_self
      simp only [orderStep, nodesById_get? hg hnode] at hstep
      split at hstep
      · rename_i hskip
        obtain rfl := Option.some.inj hstep
        have hdone : node.id ∈ done.items := by
          rcases hskip with h | h
          · exact absurd h node.nodeId.value_ne_empty
          · simpa using h
        refine
          { hinv with
            queue_ready := fun x hx => hinv.queue_ready x (List.mem_cons_of_mem _ hx)
            ready_queued := fun x hx => ?_
            triggers_first := hinv.triggers_first.sublist
              (List.Sublist.append (List.Sublist.refl _) (List.sublist_cons_self _ _)) }
        rcases hinv.ready_queued x hx with h | h
        · exact Or.inl h
        · rcases List.mem_cons.mp h with rfl | h
          · exact Or.inl hdone
          · exact Or.inr h
      · rename_i hnew
        obtain rfl := Option.some.inj hstep
        obtain ⟨released, hp⟩ := places_of_counts hg queue ordered hinv.counts
          fun hm => hnew (Or.inr (by simpa using hm))
        exact hinv.place hg hnode hp

/-! ## The result -/

/-- In `ordered`, a node with id `a` stands strictly before one with id `b`. -/
def Precedes (ordered : List WorkflowNode) (a b : String) : Prop :=
  ∃ i j : Nat, i < j ∧ (ordered[i]?).map WorkflowNode.id = some a
    ∧ (ordered[j]?).map WorkflowNode.id = some b

/-- A complete topological order with the triggers in front. -/
structure ExecutionOrder (d : WorkflowDefinition) (ordered : List WorkflowNode) : Prop where
  perm : ordered.Perm d.nodes
  source_before_target : ∀ edge ∈ d.edges,
    Precedes ordered edge.sourceNodeId edge.targetNodeId
  triggers_first : ∀ (i j : Nat) (m n : WorkflowNode), ordered[i]? = some m → ordered[j]? = some n →
    m.type = .manualTrigger → n.type ≠ .manualTrigger → i < j

/-- When the loop stops, every node has been placed: a node whose
predecessors are placed is ready, and the queue is empty. -/
theorem OrderInv.all_placed {d : WorkflowDefinition} (hg : WellFormedGraph d) {s : OrderState}
    (hinv : OrderInv d s) (hqueue : s.queue = []) :
    ∀ x, d.IsNode x → x ∈ s.visitedNodeIds.items := by
  have hwf : WellFounded d.HasEdge := by
    refine wellFounded_of_acyclic (l := d.nodes.map (·.id)) ?_ hg.acyclic
    rintro a b ⟨edge, hedge, rfl, -⟩
    simpa [WorkflowDefinition.IsNode] using (hg.endpoints edge hedge).1
  intro x
  induction x using hwf.induction with
  | _ x ih =>
      intro hx
      have hready : ReadyNode d s x := by
        refine ⟨hx, fun a ha => ih a ha ?_⟩
        obtain ⟨edge, hedge, rfl, -⟩ := ha
        exact (hg.endpoints edge hedge).1
      simpa [hqueue] using hinv.ready_queued x hready

theorem OrderInv.executionOrder {d : WorkflowDefinition} (hg : WellFormedGraph d)
    {s : OrderState} (hinv : OrderInv d s) (hqueue : s.queue = []) :
    ExecutionOrder d s.orderedNodes := by
  have hplaced : ∀ x, d.IsNode x → x ∈ s.orderedNodes.map (·.id) := fun x hx =>
    (hinv.visited_iff x).mp (hinv.all_placed hg hqueue x hx)
  have hperm : s.orderedNodes.Perm d.nodes := by
    refine (List.perm_ext_iff_of_nodup (List.Nodup.of_map _ hinv.ids_nodup)
      (List.Nodup.of_map _ hg.node_ids_distinct)).mpr fun node => ⟨hinv.nodes node, fun h => ?_⟩
    obtain ⟨m, hm, hid⟩ := List.mem_map.mp (hplaced node.id ⟨node, h, rfl⟩)
    exact List.inj_on_of_nodup_map hg.node_ids_distinct (hinv.nodes m hm) h hid ▸ hm
  refine ⟨hperm, fun edge hedge => ?_, fun i j m n hi hj hm hn => ?_⟩
  · obtain ⟨hsource, htarget⟩ := hg.endpoints edge hedge
    obtain ⟨m, hm, hmid⟩ := List.mem_map.mp (hplaced _ hsource)
    obtain ⟨n, hn, hnid⟩ := List.mem_map.mp (hplaced _ htarget)
    obtain ⟨i, hi⟩ := List.mem_iff_getElem?.mp hm
    obtain ⟨j, hj⟩ := List.mem_iff_getElem?.mp hn
    refine ⟨i, j, ?_, by simp [hi, hmid], by simp [hj, hnid]⟩
    rcases Nat.lt_trichotomy i j with h | rfl | h
    · exact h
    · obtain rfl := Option.some.inj (hi.symm.trans hj)
      exact absurd (hmid.symm.trans hnid) (hg.no_self_edge edge hedge)
    · obtain ⟨hjlt, rfl⟩ := List.getElem?_eq_some_iff.mp hj
      obtain ⟨hilt, rfl⟩ := List.getElem?_eq_some_iff.mp hi
      exact absurd ⟨edge, hedge, hmid.symm, hnid.symm⟩
        (List.pairwise_iff_getElem.mp hinv.topological j i hjlt hilt h)
  · obtain ⟨hilt, rfl⟩ := List.getElem?_eq_some_iff.mp hi
    obtain ⟨hjlt, rfl⟩ := List.getElem?_eq_some_iff.mp hj
    have hfirst := (List.pairwise_append.mp hinv.triggers_first).1
    by_contra hle
    have hlt : j < i := by
      rcases Nat.lt_or_eq_of_le (Nat.le_of_not_lt hle) with h | rfl
      · exact h
      · exact absurd hm hn
    have htrigger := List.pairwise_iff_getElem.mp (List.pairwise_map.mp hfirst) j i hjlt hilt hlt
      ⟨_, hinv.nodes _ (List.getElem_mem hilt), hm, rfl⟩
    obtain ⟨t, ht, htype, hid⟩ := htrigger
    have := List.inj_on_of_nodup_map hg.node_ids_distinct ht
      (hinv.nodes _ (List.getElem_mem hjlt)) hid
    exact hn (this ▸ htype)

/-- On a well-formed graph the order is complete, topological, and starts
with the triggers. -/
theorem orderWorkflowNodes_spec {d : WorkflowDefinition} (hg : WellFormedGraph d) :
    ∃ ordered, orderWorkflowNodes d = .ok ordered ∧ ExecutionOrder d ordered := by
  obtain ⟨r, hr, hinv, hstop⟩ := loop_total (orderStep (nodesById d) (outgoingEdgesOf d))
    (OrderInv d) (fun s => s.work (outgoingEdgesOf d))
    (fun _ _ hinv h => ⟨orderStep_inv hg hinv h, orderStep_work h⟩) (.start hg)
    (Nat.lt_succ_self ((OrderState.start d).work (outgoingEdgesOf d)))
  have hresult : orderLoop d = r := by
    simp [orderLoop, orderLoop?, hr]
  have hqueue : r.queue = [] := by
    cases hq : r.queue with
    | nil => rfl
    | cons nodeId queue =>
        simp only [orderStep, hq] at hstop
        split at hstop
        · cases hstop
        · split at hstop <;> cases hstop
  have horder := hinv.executionOrder hg hqueue
  refine ⟨r.orderedNodes, ?_, horder⟩
  simp [orderWorkflowNodes, hresult, horder.perm.length_eq]

/-- The worker can order every definition the schema accepts: its loop stops,
`workflow_definition_unordered` is not thrown, and the result is a complete
topological order with the triggers in front. -/
theorem orderWorkflowNodes_of_accepted [Runtime] (v : Option Json) (d : WorkflowDefinition)
    (haccept : workflowDefinitionSchema v = .ok d) :
    (orderLoop? d).isSome
    ∧ ∃ ordered, orderWorkflowNodes d = .ok ordered
      ∧ ordered.Perm d.nodes
      ∧ (∀ edge ∈ d.edges, Precedes ordered edge.sourceNodeId edge.targetNodeId)
      ∧ (∀ (i j : Nat) (m n : WorkflowNode), ordered[i]? = some m → ordered[j]? = some n →
        m.type = .manualTrigger → n.type ≠ .manualTrigger → i < j) := by
  obtain ⟨ordered, hok, horder⟩ := orderWorkflowNodes_spec (wellFormedGraph_of_accepted haccept)
  exact ⟨orderLoop?_isSome d, ordered, hok, horder.perm, horder.source_before_target,
    horder.triggers_first⟩

/-- The theorem at the diamond, of whose nodes the join comes first in the
definition. -/
theorem orderWorkflowNodes_diamond :
    let _ : Runtime := .sample false
    (orderLoop? diamondDefinition).isSome
    ∧ ∃ ordered, orderWorkflowNodes diamondDefinition = .ok ordered
      ∧ ordered.Perm diamondDefinition.nodes
      ∧ Precedes ordered "left" "join" ∧ Precedes ordered "right" "join"
      ∧ Precedes ordered "replay" "right"
      ∧ ordered.map (·.id) = ["replay", "manual", "right", "left", "join"] := by
  intro _
  obtain ⟨hstops, ordered, hok, hperm, hedges, -⟩ :=
    orderWorkflowNodes_of_accepted _ _ diamondDefinition_accepted
  have hordered : ordered
      = [diamondReplay, diamondTrigger, diamondRight, diamondLeft, diamondJoin] :=
    Except.ok.inj (hok.symm.trans rfl)
  exact ⟨hstops, ordered, hok, hperm, hedges _ (.head _), hedges _ (.tail _ (.head _)),
    hedges _ (.tail _ (.tail _ (.head _))), by rw [hordered]; rfl⟩

end FlowPilot
