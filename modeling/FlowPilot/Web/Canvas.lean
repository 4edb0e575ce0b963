import FlowPilot.Contracts.GraphChecks
import FlowPilot.Lib.Worklist
import Mathlib.Data.Fintype.EquivFin
import Mathlib.Data.Nat.Find

/-!
# The workflow canvas

The draft of a definition that the editor works on, the operations of the
editor (`edit`) and `getNodeLevels`, the layout pass that runs on every
change of the draft.

A draft need not be valid: `handleConnect` draws an edge between any two
distinct nodes without asking the validator. The layout pass keeps no set of
visited nodes, so it stops on exactly the drafts in which no cycle is
reachable from a node without incoming edges
(`getNodeLevels_stops_iff`), and drawing an edge back freezes it
(`drawn_cycle_freezes`).
-/

namespace FlowPilot.Web

open Loop Relation

/-! ## Drafts -/

/-- What the canvas looks at of a node. -/
structure CanvasNode where
  id : String
  type : WorkflowNodeType
  position : Option Position
deriving DecidableEq, Repr

structure CanvasEdge where
  id : String
  sourceNodeId : String
  targetNodeId : String
deriving DecidableEq, Repr

/-- A definition as it is edited: the shape of one, none of its checks. -/
structure Draft where
  nodes : List CanvasNode
  edges : List CanvasEdge
deriving DecidableEq, Repr

namespace Draft

/-- `cloneDefinition(definition)`. -/
def ofDefinition (definition : WorkflowDefinition) : Draft where
  nodes := definition.nodes.map fun node => ⟨node.id, node.type, node.position⟩
  edges := definition.edges.map fun edge => ⟨edge.id, edge.sourceNodeId, edge.targetNodeId⟩

/-- `a -> b` is an edge of the draft. -/
def HasEdge (d : Draft) (a b : String) : Prop :=
  ∃ edge ∈ d.edges, edge.sourceNodeId = a ∧ edge.targetNodeId = b

/-- `id` is the id of a node. -/
def IsNode (d : Draft) (id : String) : Prop := ∃ node ∈ d.nodes, node.id = id

/-- No edge points to `id`. -/
def IsEntry (d : Draft) (id : String) : Prop := ∀ edge ∈ d.edges, edge.targetNodeId ≠ id

/-- An edge whose end is a node. -/
def Leads (d : Draft) (a b : String) : Prop := d.HasEdge a b ∧ d.IsNode b

/-- No cycle can be reached from a node without incoming edges. -/
def NoReachableCycle (d : Draft) : Prop :=
  ∀ node ∈ d.nodes, d.IsEntry node.id →
    ∀ id, ReflTransGen d.Leads node.id id → ¬ TransGen d.Leads id id

end Draft

/-! ## `getNodeLevels` -/

/-- `outgoing.set(edge.sourceNodeId, [...(...), edge.targetNodeId])`. -/
def pushOutgoing (m : JsMap (List String)) (edge : CanvasEdge) : JsMap (List String) :=
  m.set edge.sourceNodeId (outgoing m edge.sourceNodeId ++ [edge.targetNodeId])

/-- `incomingCount.set(edge.targetNodeId, (... ?? 0) + 1)`. -/
def countIncoming (m : JsMap Nat) (edge : CanvasEdge) : JsMap Nat :=
  m.set edge.targetNodeId ((m.get? edge.targetNodeId).getD 0 + 1)

/-- The map `outgoing` after the pass over the edges. -/
def outgoingTargets (d : Draft) : JsMap (List String) := d.edges.foldl pushOutgoing .empty

/-- The map `incomingCount` after the pass over the edges. -/
def incomingCounts (d : Draft) : JsMap Nat :=
  d.edges.foldl countIncoming (d.nodes.foldl (fun m node => m.set node.id 0) .empty)

/-- The queue before the first round. -/
def entryNodes (d : Draft) : List CanvasNode :=
  d.nodes.filter fun node => ((incomingCounts d).get? node.id).getD 0 = 0

/-- `levels.set(id, Math.max(levels.get(id) ?? 0, level))`. -/
def raiseLevel (level : Nat) (levels : JsMap Nat) (id : String) : JsMap Nat :=
  levels.set id (max ((levels.get? id).getD 0) level)

/-- `definition.nodes.find((candidate) => candidate.id === id)`. -/
def findNode (d : Draft) (id : String) : Option CanvasNode := d.nodes.find? (·.id = id)

/-- One round of the inner `for`. -/
def visitTarget (d : Draft) (nextLevel : Nat) (s : List CanvasNode × JsMap Nat)
    (targetNodeId : String) : List CanvasNode × JsMap Nat :=
  let levels := raiseLevel nextLevel s.2 targetNodeId
  match findNode d targetNodeId with
  | some targetNode => (s.1 ++ [targetNode], levels)
  | none => (s.1, levels)

/-- `(levels.get(node.id) ?? 0) + 1`. -/
def nextLevelOf (levels : JsMap Nat) (node : CanvasNode) : Nat :=
  (levels.get? node.id).getD 0 + 1

/-- One round of the `while` loop. -/
def levelsStep (d : Draft) : List CanvasNode × JsMap Nat → Option (List CanvasNode × JsMap Nat)
  | ([], _) => none
  | (node :: queue, levels) =>
      some ((outgoing (outgoingTargets d) node.id).foldl
        (visitTarget d (nextLevelOf levels node)) (queue, levels))

/-- The loop from the nodes without incoming edges, all at level `0`, for
fewer than `fuel` rounds. -/
def getNodeLevels (fuel : Nat) (d : Draft) : Option (JsMap Nat) :=
  let queue := entryNodes d
  let levels := queue.foldl (fun levels node => levels.set node.id 0) .empty
  (loop (levelsStep d) fuel (queue, levels)).map (·.2)

/-- `getNodeLevels` returns. -/
def Stops (d : Draft) : Prop := ∃ fuel, (getNodeLevels fuel d).isSome

/-! ### The loop is a worklist -/

/-- The nodes a round pushes. -/
def targetNodes (d : Draft) (node : CanvasNode) : List CanvasNode :=
  (outgoing (outgoingTargets d) node.id).filterMap (findNode d)

/-- The levels after a round. -/
def raiseTargets (d : Draft) (node : CanvasNode) (levels : JsMap Nat) : JsMap Nat :=
  (outgoing (outgoingTargets d) node.id).foldl (raiseLevel (nextLevelOf levels node)) levels

theorem foldl_visitTarget (d : Draft) (level : Nat) :
    ∀ (targets : List String) (queue : List CanvasNode) (levels : JsMap Nat),
      targets.foldl (visitTarget d level) (queue, levels)
        = (queue ++ targets.filterMap (findNode d), targets.foldl (raiseLevel level) levels)
  | [], queue, levels => by simp
  | target :: targets, queue, levels => by
      have ih := foldl_visitTarget d level targets
      cases hfind : findNode d target with
      | none => simp [visitTarget, hfind, ih]
      | some node => simp [visitTarget, hfind, ih]

theorem levelsStep_eq (d : Draft) :
    levelsStep d = Worklist.step (targetNodes d) (raiseTargets d) := by
  funext s
  rcases s with ⟨_ | ⟨node, queue⟩, levels⟩
  · rfl
  · simp [levelsStep, Worklist.step, foldl_visitTarget, targetNodes, raiseTargets]

/-! ### What the two maps hold -/

theorem outgoing_foldl_pushOutgoing (x : String) :
    ∀ (edges : List CanvasEdge) (m : JsMap (List String)),
      outgoing (edges.foldl pushOutgoing m) x
        = outgoing m x ++ (edges.filter (·.sourceNodeId = x)).map (·.targetNodeId)
  | [], m => by simp
  | edge :: edges, m => by
      rw [List.foldl_cons, outgoing_foldl_pushOutgoing x edges]
      by_cases hx : edge.sourceNodeId = x
      · subst hx
        simp [outgoing, pushOutgoing]
      · have hx' : ¬ x = edge.sourceNodeId := fun h => hx h.symm
        simp [outgoing, pushOutgoing, hx, hx']

theorem mem_outgoingTargets (d : Draft) (a b : String) :
    b ∈ outgoing (outgoingTargets d) a ↔ d.HasEdge a b := by
  rw [outgoingTargets, outgoing_foldl_pushOutgoing]
  simp [outgoing, Draft.HasEdge, and_assoc]

theorem getD_foldl_countIncoming (x : String) :
    ∀ (edges : List CanvasEdge) (m : JsMap Nat),
      ((edges.foldl countIncoming m).get? x).getD 0
        = (m.get? x).getD 0 + edges.countP (·.targetNodeId = x)
  | [], m => by simp
  | edge :: edges, m => by
      rw [List.foldl_cons, getD_foldl_countIncoming x edges]
      by_cases hx : edge.targetNodeId = x
      · subst hx
        simp [countIncoming]
        omega
      · have hx' : ¬ x = edge.targetNodeId := fun h => hx h.symm
        simp [countIncoming, hx, hx']

theorem getD_foldl_zero (x : String) :
    ∀ (nodes : List CanvasNode) (m : JsMap Nat), (m.get? x).getD 0 = 0 →
      ((nodes.foldl (fun m node => m.set node.id 0) m).get? x).getD 0 = 0
  | [], _, h => h
  | node :: nodes, m, h => by
      refine getD_foldl_zero x nodes _ ?_
      by_cases hx : x = node.id <;> simp [hx, h]

theorem mem_entryNodes (d : Draft) (node : CanvasNode) :
    node ∈ entryNodes d ↔ node ∈ d.nodes ∧ d.IsEntry node.id := by
  have hcount : ((incomingCounts d).get? node.id).getD 0
      = d.edges.countP (·.targetNodeId = node.id) := by
    rw [incomingCounts, getD_foldl_countIncoming, getD_foldl_zero _ _ _ rfl, Nat.zero_add]
  simp [entryNodes, hcount, Draft.IsEntry, List.countP_eq_zero]

/-! ### When it stops -/

/-- A pushed node is one that an edge from the node leads to. -/
theorem leads_of_mem_targetNodes {d : Draft} {node target : CanvasNode}
    (h : target ∈ targetNodes d node) : d.Leads node.id target.id := by
  obtain ⟨id, hid, hfind⟩ := List.mem_filterMap.mp h
  have hname : target.id = id := by simpa using List.find?_some hfind
  subst hname
  exact ⟨(mem_outgoingTargets d _ _).mp hid, target, List.mem_of_find?_eq_some hfind, rfl⟩

/-- Each edge that leads to a node pushes one with that id. -/
theorem exists_targetNode {d : Draft} {node : CanvasNode} {id : String}
    (h : d.Leads node.id id) : ∃ target ∈ targetNodes d node, target.id = id := by
  obtain ⟨hedge, target, htarget, rfl⟩ := h
  have hsome : (findNode d target.id).isSome := by
    simpa [findNode, List.find?_isSome] using ⟨target, htarget, rfl⟩
  obtain ⟨found, hfound⟩ := Option.isSome_iff_exists.mp hsome
  have hid : found.id = target.id := by simpa using List.find?_some hfound
  exact ⟨found,
    List.mem_filterMap.mpr ⟨target.id, (mem_outgoingTargets d _ _).mpr hedge, hfound⟩, hid⟩

/-- Pushing nodes and following edges between ids go equally far. -/
theorem acc_targetNodes_iff (d : Draft) (node : CanvasNode) :
    Acc (fun y x => Worklist.Next (targetNodes d) x y) node
      ↔ Acc (fun b a => d.Leads a b) node.id := by
  constructor
  · intro h
    induction h with
    | intro node _ ih =>
        refine Acc.intro _ fun id hid => ?_
        obtain ⟨target, htarget, rfl⟩ := exists_targetNode hid
        exact ih target htarget
  · intro h
    exact Subrelation.accessible (fun h => leads_of_mem_targetNodes h)
      (InvImage.accessible CanvasNode.id h)

/-- **Termination of the layout pass.** It returns on exactly the drafts in
which no cycle is reachable from a node without incoming edges. -/
theorem getNodeLevels_stops_iff (d : Draft) : Stops d ↔ d.NoReachableCycle := by
  have hfin : ∀ a b, d.Leads a b → b ∈ d.nodes.map (·.id) :=
    fun a b h => List.mem_map.mpr h.2
  simp only [Stops, getNodeLevels, Option.isSome_map, levelsStep_eq, Worklist.terminates_iff,
    mem_entryNodes, acc_targetNodes_iff, Worklist.acc_iff_no_cycle hfin, and_imp,
    Draft.NoReachableCycle]

/-- Without cycles it returns. -/
theorem stops_of_acyclic {d : Draft} (h : ∀ id, ¬ TransGen d.HasEdge id id) : Stops d :=
  (getNodeLevels_stops_iff d).mpr fun _ _ _ id _ hcycle =>
    h id (hcycle.lift (fun x => x) fun _ _ hab => hab.1)

/-! ## Node ids -/

/-- `\w`. -/
def isWordChar (c : Char) : Bool := c.isAlphanum || c == '_'

/-- `replace(/\b\w/g, (letter) => letter.toUpperCase())`; the flag says
whether the character before is a word character. -/
def capitalizeWords : Bool → List Char → List Char
  | _, [] => []
  | inWord, c :: cs =>
      (if isWordChar c && !inWord then c.toUpper else c) :: capitalizeWords (isWordChar c) cs

/-- `humanizeIdentifier`. -/
def humanizeIdentifier (value : List Char) : List Char :=
  capitalizeWords false (value.map fun c => if c = '.' ∨ c = '_' ∨ c = '-' then ' ' else c)

/-- `replace(/[^a-z0-9]+/g, "-")`. -/
def dashRuns : List Char → List Char
  | [] => []
  | c :: cs =>
      if c.isLower || c.isDigit then c :: dashRuns cs
      else
        match dashRuns cs with
        | '-' :: rest => '-' :: rest
        | rest => '-' :: rest

/-- `slugify`, on the letters it is given here, all of them ASCII. -/
def slugify (value : List Char) : List Char :=
  let trimmed := ((value.dropWhile (·.isWhitespace)).reverse.dropWhile (·.isWhitespace)).reverse
  let dashed := dashRuns (trimmed.map (·.toLower))
  (((dashed.dropWhile (· == '-')).reverse.dropWhile (· == '-')).reverse).take 80

/-- `slugify(humanizeIdentifier(type)) || "node"`. -/
def baseNodeId (type : WorkflowNodeType) : String :=
  let baseId := String.ofList (slugify (humanizeIdentifier type.literal.toList))
  if baseId = "" then "node" else baseId

/-- `` `${baseId}-${suffix}` ``. -/
def suffixedId (baseId : String) (suffix : Nat) : String := baseId ++ "-" ++ toString suffix

theorem suffixedId_injective (baseId : String) : Function.Injective (suffixedId baseId) := by
  intro m n h
  have hdigits : Nat.toDigits 10 m = Nat.toDigits 10 n := by
    simpa [suffixedId, Nat.repr, String.ext_iff] using h
  have := congrArg (fun cs => Nat.ofDigitChars 10 cs 0) hdigits
  simpa using this

/-- The search for a suffix ends. -/
theorem exists_free_suffix (baseId : String) (existingIds : List String) :
    ∃ suffix, 2 ≤ suffix ∧ suffixedId baseId suffix ∉ existingIds := by
  have hinf : (Set.range fun k => suffixedId baseId (k + 2)).Infinite :=
    Set.infinite_range_of_injective fun m n h => by
      have := suffixedId_injective baseId h
      omega
  obtain ⟨_, ⟨k, rfl⟩, hk⟩ := hinf.exists_notMem_finset existingIds.toFinset
  exact ⟨k + 2, by omega, by simpa using hk⟩

/-- The first free suffix from `2` on. -/
def freeSuffix (baseId : String) (existingIds : List String) : Nat :=
  Nat.find (exists_free_suffix baseId existingIds)

theorem suffixedId_freeSuffix_notMem (baseId : String) (existingIds : List String) :
    suffixedId baseId (freeSuffix baseId existingIds) ∉ existingIds :=
  have hfree := Nat.find_spec (exists_free_suffix baseId existingIds)
  hfree.2

/-- `createNodeId`: the base id if it is free, else the first free one of
`base-2`, `base-3`, ... -/
def createNodeId (type : WorkflowNodeType) (d : Draft) : String :=
  let baseId := baseNodeId type
  let existingIds := d.nodes.map (·.id)
  if baseId ∉ existingIds then baseId
  else suffixedId baseId (freeSuffix baseId existingIds)

/-- The id of an added node is new. -/
theorem createNodeId_notMem (type : WorkflowNodeType) (d : Draft) :
    createNodeId type d ∉ d.nodes.map (·.id) := by
  by_cases hfree : baseNodeId type ∉ d.nodes.map (·.id)
  · rwa [createNodeId, if_pos hfree]
  · rw [createNodeId, if_neg hfree]
    exact suffixedId_freeSuffix_notMem _ _

/-! ## The editor -/

/-- An edge as the canvas library holds it. -/
structure FlowEdge where
  id : String
  source : String
  target : String
  sourceHandle : Option String
  targetHandle : Option String
deriving DecidableEq, Repr

/-- The changes of edges that the library reports. -/
inductive EdgeChange where
  | remove (id : String)
  | select (id : String) (selected : Bool)
deriving DecidableEq, Repr

structure Connection where
  source : String
  target : String
  sourceHandle : Option String
  targetHandle : Option String
deriving DecidableEq, Repr

/-- The functions of the canvas library that the editor calls. -/
structure ReactFlow where
  addEdge : FlowEdge → List FlowEdge → List FlowEdge
  applyEdgeChanges : List EdgeChange → List FlowEdge → List FlowEdge

/-- What the library documents of them: an edge is appended unless there is
such a connection already, and the removed edges are left out. -/
structure ReactFlow.Documented (rf : ReactFlow) : Prop where
  addEdge_eq : ∀ edge edges, rf.addEdge edge edges = edges ∨ rf.addEdge edge edges = edges ++ [edge]
  applyEdgeChanges_eq : ∀ changes edges,
    rf.applyEdgeChanges changes edges = edges.filter fun edge => .remove edge.id ∉ changes

/-- The edges of the canvas, by `toReactFlowElements`. -/
def flowEdges (d : Draft) : List FlowEdge :=
  d.edges.map fun edge => ⟨edge.id, edge.sourceNodeId, edge.targetNodeId, none, none⟩

def updateDefinitionFromEdges (nextEdges : List FlowEdge) (d : Draft) : Draft :=
  { d with edges := nextEdges.map fun edge => ⟨edge.id, edge.source, edge.target⟩ }

/-- `addNode` of the page. -/
def addNode (type : WorkflowNodeType) (d : Draft) : Draft :=
  { d with nodes := d.nodes ++ [⟨createNodeId type d, type, none⟩] }

/-- `deleteNode` of the page. -/
def deleteNode (nodeId : String) (d : Draft) : Draft where
  nodes := d.nodes.filter (·.id ≠ nodeId)
  edges := d.edges.filter fun edge => edge.sourceNodeId ≠ nodeId ∧ edge.targetNodeId ≠ nodeId

/-- `handleNodesChange`, given the ids of the changes of type `remove`. -/
def handleNodesChange (removedNodeIds : List String) (d : Draft) : Draft :=
  if 0 < removedNodeIds.length then
    { nodes := d.nodes.filter (·.id ∉ removedNodeIds)
      edges := d.edges.filter fun edge =>
        edge.sourceNodeId ∉ removedNodeIds ∧ edge.targetNodeId ∉ removedNodeIds }
  else d

/-- `deleteEdge`, of the page and of the canvas. -/
def deleteEdge (edgeId : String) (d : Draft) : Draft :=
  { d with edges := d.edges.filter (·.id ≠ edgeId) }

def handleEdgesChange (rf : ReactFlow) (changes : List EdgeChange) (d : Draft) : Draft :=
  if changes.any fun change => change matches .remove _ then
    updateDefinitionFromEdges (rf.applyEdgeChanges changes (flowEdges d)) d
  else d

def handleConnect (rf : ReactFlow) (connection : Connection) (d : Draft) : Draft :=
  if connection.source = "" ∨ connection.target = "" ∨ connection.source = connection.target then d
  else
    let edge : FlowEdge :=
      { id := connection.source ++ "-to-" ++ connection.target
        source := connection.source
        target := connection.target
        sourceHandle := connection.sourceHandle
        targetHandle := connection.targetHandle }
    updateDefinitionFromEdges (rf.addEdge edge (flowEdges d)) d

/-- `Math.round`. -/
def mathRound (x : Rat) : Rat := (x + 1 / 2).floor

/-- The end of a drag: `updateDefinitionFromNodePosition`. -/
def updateDefinitionFromNodePosition (nodeId : String) (position : Position) (d : Draft) : Draft :=
  { d with
    nodes := d.nodes.map fun node =>
      if node.id = nodeId then
        { node with position := some ⟨mathRound position.x, mathRound position.y⟩ }
      else node }

/-- The operations of the editor. -/
inductive EditorAction where
  | addNode (type : WorkflowNodeType)
  | deleteNode (nodeId : String)
  | nodesChange (removedNodeIds : List String)
  | deleteEdge (edgeId : String)
  | edgesChange (changes : List EdgeChange)
  | connect (connection : Connection)
  | moveNode (nodeId : String) (position : Position)
deriving DecidableEq, Repr

def edit (rf : ReactFlow) (d : Draft) : EditorAction → Draft
  | .addNode type => addNode type d
  | .deleteNode nodeId => deleteNode nodeId d
  | .nodesChange removedNodeIds => handleNodesChange removedNodeIds d
  | .deleteEdge edgeId => deleteEdge edgeId d
  | .edgesChange changes => handleEdgesChange rf changes d
  | .connect connection => handleConnect rf connection d
  | .moveNode nodeId position => updateDefinitionFromNodePosition nodeId position d

/-! ### What an operation does to the edges -/

theorem hasEdge_filter {d : Draft} {nodes : List CanvasNode} {keep : CanvasEdge → Bool}
    {a b : String} (h : Draft.HasEdge ⟨nodes, d.edges.filter keep⟩ a b) : d.HasEdge a b := by
  obtain ⟨edge, hmem, hends⟩ := h
  exact ⟨edge, List.mem_of_mem_filter hmem, hends⟩

theorem hasEdge_updateDefinitionFromEdges {edges : List FlowEdge} {d : Draft} {a b : String} :
    (updateDefinitionFromEdges edges d).HasEdge a b
      ↔ ∃ edge ∈ edges, edge.source = a ∧ edge.target = b := by
  simp [updateDefinitionFromEdges, Draft.HasEdge]

theorem mem_flowEdges {d : Draft} {a b : String} :
    (∃ edge ∈ flowEdges d, edge.source = a ∧ edge.target = b) ↔ d.HasEdge a b := by
  simp [flowEdges, Draft.HasEdge]

theorem hasEdge_handleConnect {rf : ReactFlow} (hrf : rf.Documented) {connection : Connection}
    {d : Draft} {a b : String} (h : (handleConnect rf connection d).HasEdge a b) :
    d.HasEdge a b ∨ (a = connection.source ∧ b = connection.target) ∧ a ≠ b := by
  unfold handleConnect at h
  split at h
  · exact Or.inl h
  · rename_i hends
    obtain ⟨edge, hmem, rfl, rfl⟩ := hasEdge_updateDefinitionFromEdges.mp h
    have hold : edge ∈ flowEdges d → d.HasEdge edge.source edge.target :=
      fun hmem => mem_flowEdges.mp ⟨edge, hmem, rfl, rfl⟩
    rcases hrf.addEdge_eq _ (flowEdges d) with heq | heq
    · exact Or.inl (hold (heq ▸ hmem))
    · rw [heq] at hmem
      rcases List.mem_append.mp hmem with hmem | hnew
      · exact Or.inl (hold hmem)
      · obtain rfl := List.mem_singleton.mp hnew
        exact Or.inr ⟨⟨rfl, rfl⟩, fun h => hends (Or.inr (Or.inr h))⟩

/-- Only drawing adds an edge, and only between two distinct ids. -/
theorem hasEdge_edit {rf : ReactFlow} (hrf : rf.Documented) {d : Draft} {action : EditorAction}
    {a b : String} (h : (edit rf d action).HasEdge a b) :
    d.HasEdge a b
      ∨ ∃ connection, action = .connect connection
          ∧ (a = connection.source ∧ b = connection.target) ∧ a ≠ b := by
  cases action with
  | addNode type => exact Or.inl h
  | deleteNode nodeId => exact Or.inl (hasEdge_filter h)
  | nodesChange removedNodeIds =>
      simp only [edit, handleNodesChange] at h
      split at h
      · exact Or.inl (hasEdge_filter h)
      · exact Or.inl h
  | deleteEdge edgeId => exact Or.inl (hasEdge_filter h)
  | edgesChange changes =>
      simp only [edit, handleEdgesChange] at h
      split at h
      · obtain ⟨edge, hmem, hends⟩ := hasEdge_updateDefinitionFromEdges.mp h
        rw [hrf.applyEdgeChanges_eq] at hmem
        exact Or.inl (mem_flowEdges.mp ⟨edge, List.mem_of_mem_filter hmem, hends⟩)
      · exact Or.inl h
  | connect connection =>
      rcases hasEdge_handleConnect hrf h with hold | hnew
      · exact Or.inl hold
      · exact Or.inr ⟨connection, rfl, hnew⟩
  | moveNode nodeId position => exact Or.inl h

/-! ## Editing sessions -/

/-- The draft after a session. -/
def edits (rf : ReactFlow) (d : Draft) (actions : List EditorAction) : Draft :=
  actions.foldl (edit rf) d

/-- A drawn edge does not lead back to where it starts. -/
def ClosesNoCycle (d : Draft) : EditorAction → Prop
  | .connect connection =>
      connection.source ≠ connection.target →
        ¬ ReflTransGen d.HasEdge connection.target connection.source
  | _ => True

/-- Every action of the session closes no cycle. -/
def NeverClosesCycle (rf : ReactFlow) : Draft → List EditorAction → Prop
  | _, [] => True
  | d, action :: actions => ClosesNoCycle d action ∧ NeverClosesCycle rf (edit rf d action) actions

theorem edit_acyclic {rf : ReactFlow} (hrf : rf.Documented) {d : Draft} {action : EditorAction}
    (hcloses : ClosesNoCycle d action) (hacyc : ∀ id, ¬ TransGen d.HasEdge id id) (id : String) :
    ¬ TransGen (edit rf d action).HasEdge id id := by
  by_cases hnew : ∃ connection, action = .connect connection
      ∧ connection.source ≠ connection.target
  · obtain ⟨connection, rfl, hne⟩ := hnew
    refine Worklist.acyclic_of_added_edge (fun a b h => ?_) (hcloses hne) hacyc id
    rcases hasEdge_handleConnect hrf h with hold | ⟨hends, -⟩
    · exact Or.inl hold
    · exact Or.inr hends
  · intro hcycle
    refine hacyc id (hcycle.lift (fun x => x) fun a b h => ?_)
    rcases hasEdge_edit hrf h with hold | ⟨connection, rfl, ⟨rfl, rfl⟩, hne⟩
    · exact hold
    · exact absurd ⟨connection, rfl, hne⟩ hnew

theorem edits_acyclic {rf : ReactFlow} (hrf : rf.Documented) :
    ∀ {actions : List EditorAction} {d : Draft}, NeverClosesCycle rf d actions →
      (∀ id, ¬ TransGen d.HasEdge id id) → ∀ id, ¬ TransGen (edits rf d actions).HasEdge id id
  | [], _, _, hacyc => hacyc
  | _ :: _, _, hnever, hacyc => by
      have hnext := edits_acyclic hrf hnever.2 fun id => edit_acyclic hrf hnever.1 hacyc id
      exact hnext

/-- A node that is moved keeps its id. -/
theorem updateDefinitionFromNodePosition_ids (nodeId : String) (position : Position) (d : Draft) :
    (updateDefinitionFromNodePosition nodeId position d).nodes.map (·.id)
      = d.nodes.map (·.id) := by
  simp only [updateDefinitionFromNodePosition, List.map_map]
  refine List.map_congr_left fun node _ => ?_
  simp only [Function.comp]
  split <;> rfl

theorem ofDefinition_hasEdge {definition : WorkflowDefinition} {a b : String} :
    (Draft.ofDefinition definition).HasEdge a b ↔ definition.HasEdge a b := by
  simp [Draft.ofDefinition, Draft.HasEdge, WorkflowDefinition.HasEdge]

/-! ### A sample session -/

/-- The library as documented. -/
def ReactFlow.sample : ReactFlow where
  addEdge edge edges :=
    if edges.any fun other =>
        other.source == edge.source && other.target == edge.target
          && other.sourceHandle == edge.sourceHandle && other.targetHandle == edge.targetHandle then
      edges
    else edges ++ [edge]
  applyEdgeChanges changes edges := edges.filter fun edge => .remove edge.id ∉ changes

theorem ReactFlow.sample_documented : ReactFlow.sample.Documented where
  addEdge_eq edge edges := by
    simp only [sample]
    split <;> simp
  applyEdgeChanges_eq _ _ := rfl

/-- Two nodes added to the default definition, the first connected to the
trigger and to the second. -/
def chainActions : List EditorAction :=
  [.addNode .transformAction, .addNode .conditionAction,
    .connect ⟨"manual-trigger", "action-transform", none, none⟩,
    .connect ⟨"action-transform", "action-condition", none, none⟩]

/-- The edge from the second node back to the first. -/
def backEdge : EditorAction := .connect ⟨"action-condition", "action-transform", none, none⟩

/-- What the session leaves. -/
def frozenDraft : Draft where
  nodes := [⟨"manual-trigger", .manualTrigger, none⟩, ⟨"action-transform", .transformAction, none⟩,
    ⟨"action-condition", .conditionAction, none⟩]
  edges := [⟨"manual-trigger-to-action-transform", "manual-trigger", "action-transform"⟩,
    ⟨"action-transform-to-action-condition", "action-transform", "action-condition"⟩,
    ⟨"action-condition-to-action-transform", "action-condition", "action-transform"⟩]

theorem edits_backEdge :
    edits .sample (.ofDefinition parsedDefaultWorkflowDefinition) (chainActions ++ [backEdge])
      = frozenDraft := by
  decide

/-- A node without outgoing edges reaches itself only. -/
theorem eq_of_reflTransGen {d : Draft} {a b : String}
    (hout : ∀ edge ∈ d.edges, edge.sourceNodeId ≠ a) (h : ReflTransGen d.HasEdge a b) : b = a := by
  rcases h.cases_head with rfl | ⟨_, ⟨edge, hedge, hsource, -⟩, -⟩
  · rfl
  · exact absurd hsource (hout edge hedge)

theorem neverClosesCycle_chainActions :
    NeverClosesCycle .sample (.ofDefinition parsedDefaultWorkflowDefinition) chainActions := by
  refine ⟨trivial, trivial, fun _ h => ?_, fun _ h => ?_, trivial⟩
  · exact absurd (eq_of_reflTransGen (by decide) h) (by decide)
  · exact absurd (eq_of_reflTransGen (by decide) h) (by decide)

/-- **The layout pass while editing.** From a valid definition on, it returns
on a draft if and only if no cycle of the draft is reachable from a node
without incoming edges; so it does as long as no drawn edge leads back to
where it starts. -/
theorem getNodeLevels_stops_while_editing [Runtime] {rf : ReactFlow} (hrf : rf.Documented)
    {v : Option Json} {definition : WorkflowDefinition}
    (hvalid : workflowDefinitionSchema v = .ok definition) (actions : List EditorAction) :
    (Stops (edits rf (.ofDefinition definition) actions)
      ↔ (edits rf (.ofDefinition definition) actions).NoReachableCycle)
    ∧ (NeverClosesCycle rf (.ofDefinition definition) actions →
        Stops (edits rf (.ofDefinition definition) actions)) := by
  refine ⟨getNodeLevels_stops_iff _, fun hnever => stops_of_acyclic ?_⟩
  refine edits_acyclic hrf hnever fun id hcycle => ?_
  exact (wellFormedGraph_of_accepted hvalid).acyclic id
    (hcycle.lift (fun x => x) fun _ _ h => ofDefinition_hasEdge.mp h)

theorem getNodeLevels_stops_chain : Stops (edits .sample
    (.ofDefinition parsedDefaultWorkflowDefinition) chainActions) :=
  let _ : Runtime := .sample false
  (getNodeLevels_stops_while_editing ReactFlow.sample_documented
    defaultWorkflowDefinition_accepted chainActions).2 neverClosesCycle_chainActions

theorem not_noReachableCycle_frozenDraft : ¬ frozenDraft.NoReachableCycle := by
  intro h
  have hstart : frozenDraft.Leads "manual-trigger" "action-transform" := by
    refine ⟨?_, ?_⟩ <;> simp [Draft.HasEdge, Draft.IsNode, frozenDraft]
  have hforth : frozenDraft.Leads "action-transform" "action-condition" := by
    refine ⟨?_, ?_⟩ <;> simp [Draft.HasEdge, Draft.IsNode, frozenDraft]
  have hback : frozenDraft.Leads "action-condition" "action-transform" := by
    refine ⟨?_, ?_⟩ <;> simp [Draft.HasEdge, Draft.IsNode, frozenDraft]
  have hentry : frozenDraft.IsEntry "manual-trigger" := by simp [Draft.IsEntry, frozenDraft]
  exact h ⟨"manual-trigger", .manualTrigger, none⟩ List.mem_cons_self hentry
    "action-transform" (.single hstart) (.tail (.single hforth) hback)

/-- An edge drawn back to an earlier node: from the default definition, with
two nodes added and connected, one more edge makes a draft on which the
layout pass never returns. -/
theorem drawn_cycle_freezes :
    let _ : Runtime := .sample false
    workflowDefinitionSchema (some defaultWorkflowDefinition)
        = .ok parsedDefaultWorkflowDefinition
      ∧ ReactFlow.sample.Documented
      ∧ ¬ Stops (edits .sample (.ofDefinition parsedDefaultWorkflowDefinition)
          (chainActions ++ [backEdge])) := by
  intro _
  refine ⟨defaultWorkflowDefinition_accepted, ReactFlow.sample_documented, ?_⟩
  rw [edits_backEdge, getNodeLevels_stops_iff]
  exact not_noReachableCycle_frozenDraft

end FlowPilot.Web
