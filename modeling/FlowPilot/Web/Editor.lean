import FlowPilot.KeyOrder
import FlowPilot.Web.Canvas

/-!
# The workflow editor

The page a workflow is edited on: the whole definition with the contents of
its nodes, what is selected, and the operations of the page and of the
canvas on it (`perform`). What the canvas sees of a definition changes as
`edit` says (`canvas_edit`).

Four of the operations choose an id. `addNode` and `updateSelectedEdge` look
for a free one; `handleConnect` takes `source-to-target` as it is. So the ids
of a draft stay distinct up to the first drawn edge whose id is taken
(`perform_identified_iff`).
-/

namespace FlowPilot.Web

/-! ## Definitions being edited -/

/-- A node of a definition being edited. -/
structure DraftNode where
  id : String
  type : WorkflowNodeType
  name : String
  position : Option Position
  config : Record
deriving DecidableEq, Repr

structure DraftDefinition where
  nodes : List DraftNode
  edges : List CanvasEdge
deriving DecidableEq, Repr

def DraftNode.toJson (node : DraftNode) : Json :=
  .object [("id", some (.str node.id)), ("type", some (.str node.type.literal)),
    ("name", some (.str node.name)),
    ("position", node.position.map fun position =>
      .object [("x", some (.num position.x)), ("y", some (.num position.y))]),
    ("config", some (.obj node.config))]

def CanvasEdge.toJson (edge : CanvasEdge) : Json :=
  .object [("id", some (.str edge.id)), ("sourceNodeId", some (.str edge.sourceNodeId)),
    ("targetNodeId", some (.str edge.targetNodeId))]

/-- What the canvas looks at of the node. -/
def DraftNode.canvas (node : DraftNode) : CanvasNode := ⟨node.id, node.type, node.position⟩

namespace DraftDefinition

def toJson (d : DraftDefinition) : Json :=
  .object [("nodes", some (.arr (d.nodes.map DraftNode.toJson))),
    ("edges", some (.arr (d.edges.map CanvasEdge.toJson)))]

/-- What the canvas looks at of the definition. -/
def canvas (d : DraftDefinition) : Draft := ⟨d.nodes.map DraftNode.canvas, d.edges⟩

end DraftDefinition

/-! ## The node catalog -/

/-- The `create` of a catalog entry. -/
def createNode (type : WorkflowNodeType) (title : String) (config : Record) (nodeNumber : Nat)
    (d : DraftDefinition) : DraftNode where
  id := createNodeId type d.canvas
  type
  name := title ++ " " ++ toString nodeNumber
  position := none
  config

def manualTriggerNode : Nat → DraftDefinition → DraftNode :=
  createNode .manualTrigger "Manual Trigger" []

def transformActionNode : Nat → DraftDefinition → DraftNode :=
  createNode .transformAction "Transform" [("mode", .str "passthrough")]

def conditionActionNode : Nat → DraftDefinition → DraftNode :=
  createNode .conditionAction "Condition"
    [("field", .str "priority"), ("operator", .str "equals"), ("value", .str "high"),
      ("trueLabel", .str "high_priority"), ("falseLabel", .str "standard_priority")]

def httpRequestActionNode : Nat → DraftDefinition → DraftNode :=
  createNode .httpRequestAction "HTTP Request"
    [("mode", .str "mock"), ("method", .str "GET"), ("url", .str "https://example.test/webhook"),
      ("body", .obj []), ("timeoutMs", .num 5000)]

def aiPromptActionNode : Nat → DraftDefinition → DraftNode :=
  createNode .aiPromptAction "AI Prompt"
    [("provider", .str "deterministic"), ("model", .str "mock-flowpilot-llm"),
      ("systemPrompt", .str "You are a concise workflow assistant."),
      ("prompt", .str "Summarize the current workflow payload for an operator."),
      ("temperature", .num (1 / 5))]

/-- `getNodeCatalogEntry(type)?.create`; every type has an entry. -/
def getNodeCatalogEntry : WorkflowNodeType → Nat → DraftDefinition → DraftNode
  | .manualTrigger => manualTriggerNode
  | .transformAction => transformActionNode
  | .conditionAction => conditionActionNode
  | .httpRequestAction => httpRequestActionNode
  | .aiPromptAction => aiPromptActionNode

/-- A created node shows on the canvas with its new id and no position. -/
theorem getNodeCatalogEntry_canvas (type : WorkflowNodeType) (nodeNumber : Nat)
    (d : DraftDefinition) :
    (getNodeCatalogEntry type nodeNumber d).canvas = ⟨createNodeId type d.canvas, type, none⟩ := by
  cases type <;> rfl

/-! ## Editing a definition -/

namespace DraftDefinition

def addNode (type : WorkflowNodeType) (d : DraftDefinition) : DraftDefinition :=
  { d with nodes := d.nodes ++ [getNodeCatalogEntry type (d.nodes.length + 1) d] }

def deleteNode (nodeId : String) (d : DraftDefinition) : DraftDefinition where
  nodes := d.nodes.filter (·.id ≠ nodeId)
  edges := d.edges.filter fun edge => edge.sourceNodeId ≠ nodeId ∧ edge.targetNodeId ≠ nodeId

def handleNodesChange (removedNodeIds : List String) (d : DraftDefinition) : DraftDefinition :=
  if 0 < removedNodeIds.length then
    { nodes := d.nodes.filter (·.id ∉ removedNodeIds)
      edges := d.edges.filter fun edge =>
        edge.sourceNodeId ∉ removedNodeIds ∧ edge.targetNodeId ∉ removedNodeIds }
  else d

def deleteEdge (edgeId : String) (d : DraftDefinition) : DraftDefinition :=
  { d with edges := d.edges.filter (·.id ≠ edgeId) }

/-- `{ ...definition, edges }`, with the edges that the canvas leaves. -/
def withCanvasEdges (d : DraftDefinition) (canvas : Draft) : DraftDefinition :=
  { d with edges := canvas.edges }

def updateDefinitionFromNodePosition (nodeId : String) (position : Position)
    (d : DraftDefinition) : DraftDefinition :=
  { d with
    nodes := d.nodes.map fun node =>
      if node.id = nodeId then
        { node with position := some ⟨mathRound position.x, mathRound position.y⟩ }
      else node }

def updateNode (nextNode : DraftNode) (d : DraftDefinition) : DraftDefinition :=
  { d with nodes := d.nodes.map fun node => if node.id = nextNode.id then nextNode else node }

/-- The operations of the canvas and of the page on the whole definition. -/
def edit (rf : ReactFlow) (d : DraftDefinition) : EditorAction → DraftDefinition
  | .addNode type => d.addNode type
  | .deleteNode nodeId => d.deleteNode nodeId
  | .nodesChange removedNodeIds => d.handleNodesChange removedNodeIds
  | .deleteEdge edgeId => d.deleteEdge edgeId
  | .edgesChange changes => d.withCanvasEdges (handleEdgesChange rf changes d.canvas)
  | .connect connection => d.withCanvasEdges (handleConnect rf connection d.canvas)
  | .moveNode nodeId position => d.updateDefinitionFromNodePosition nodeId position

/-- On the canvas the definition changes as the draft of it. -/
theorem canvas_edit (rf : ReactFlow) (d : DraftDefinition) (action : EditorAction) :
    (d.edit rf action).canvas = Web.edit rf d.canvas action := by
  have hfilter : ∀ keep : String → Bool, (d.nodes.filter (keep ·.id)).map DraftNode.canvas
      = (d.nodes.map DraftNode.canvas).filter (keep ·.id) := by
    intro keep
    rw [List.filter_map]
    rfl
  cases action with
  | addNode type =>
      simp [edit, addNode, canvas, Web.edit, Web.addNode, getNodeCatalogEntry_canvas]
  | deleteNode nodeId =>
      simpa [edit, deleteNode, canvas, Web.edit, Web.deleteNode] using hfilter (· ≠ nodeId)
  | nodesChange removedNodeIds =>
      simp only [edit, handleNodesChange, Web.edit, Web.handleNodesChange]
      split
      · simpa [canvas] using hfilter (· ∉ removedNodeIds)
      · rfl
  | deleteEdge edgeId => rfl
  | edgesChange changes =>
      simp only [edit, withCanvasEdges, Web.edit, handleEdgesChange]
      split <;> rfl
  | connect connection =>
      simp only [edit, withCanvasEdges, Web.edit, handleConnect]
      split <;> rfl
  | moveNode nodeId position =>
      simp only [edit, updateDefinitionFromNodePosition, canvas, Web.edit,
        Web.updateDefinitionFromNodePosition, List.map_map, Draft.mk.injEq, and_true]
      refine List.map_congr_left fun node _ => ?_
      by_cases hid : node.id = nodeId <;> simp [hid, DraftNode.canvas]

end DraftDefinition

/-! ## Editing an edge -/

section

variable [Runtime] (wording : Json → Issue → String)

/-- `issue.message`: the text the repository gives the issue, or the
`wording` of the library for it. -/
def issueMessage (definition : Json) (issue : Issue) : String :=
  issue.message.getD (wording definition issue)

def getWorkflowDefinitionIssueMessages (d : DraftDefinition) : List String :=
  match workflowDefinitionSchema (some d.toJson) with
  | .ok _ => []
  | .issues found =>
      ((found.map (issueMessage wording d.toJson)).foldl JsSet.add .empty).items

/-- The edges of other ids than the ignored one. -/
def otherEdges (d : DraftDefinition) (ignoredEdgeId : Option String) : List CanvasEdge :=
  d.edges.filter fun edge => some edge.id ≠ ignoredEdgeId

/-- The definition that `validateEdgeDraft` tries. -/
def trialDefinition (d : DraftDefinition) (sourceNodeId targetNodeId : String)
    (ignoredEdgeId : Option String) : DraftDefinition :=
  { d with
    edges := otherEdges d ignoredEdgeId ++ [⟨"validation-edge", sourceNodeId, targetNodeId⟩] }

/-- The message for the first thing that is wrong with an edge; `none` if
nothing is. -/
def validateEdgeDraft (d : DraftDefinition) (sourceNodeId targetNodeId : String)
    (ignoredEdgeId : Option String) : Option String :=
  if sourceNodeId = "" ∨ targetNodeId = "" then
    some "Choose a source and target node before adding an edge."
  else if sourceNodeId = targetNodeId then
    some "Source and target nodes must be different."
  else
    match d.nodes.find? (·.id = sourceNodeId), d.nodes.find? (·.id = targetNodeId) with
    | some _, some targetNode =>
        if targetNode.type = .manualTrigger then
          some "Manual trigger nodes cannot receive incoming edges."
        else if d.edges.any fun edge => some edge.id ≠ ignoredEdgeId
            ∧ edge.sourceNodeId = sourceNodeId ∧ edge.targetNodeId = targetNodeId then
          some "This edge already exists."
        else
          (getWorkflowDefinitionIssueMessages wording
            (trialDefinition d sourceNodeId targetNodeId ignoredEdgeId)).head?
    | _, _ => some "Source and target nodes must exist in this workflow."

/-- `getUniqueEdgeId`: the base id if no other edge has it, else the first
free one of `base-2`, `base-3`, ... -/
def getUniqueEdgeId (baseId : String) (d : DraftDefinition) (ignoredEdgeId : Option String) :
    String :=
  let existingIds := (otherEdges d ignoredEdgeId).map (·.id)
  if baseId ∉ existingIds then baseId
  else suffixedId baseId (freeSuffix baseId existingIds)

/-- The id that `updateSelectedEdge` gives the edge. -/
def updatedEdgeId (selectedEdge : CanvasEdge) (sourceNodeId targetNodeId : String)
    (d : DraftDefinition) : String :=
  if selectedEdge.id = sourceNodeId ++ "-to-" ++ targetNodeId then selectedEdge.id
  else getUniqueEdgeId (sourceNodeId ++ "-to-" ++ targetNodeId) d (some selectedEdge.id)

/-- The definition that `updateSelectedEdge` builds. -/
def replaceSelectedEdge (selectedEdge : CanvasEdge) (sourceNodeId targetNodeId : String)
    (d : DraftDefinition) : DraftDefinition :=
  let edgeId := updatedEdgeId selectedEdge sourceNodeId targetNodeId d
  { d with
    edges := d.edges.map fun edge =>
      if edge.id = selectedEdge.id then ⟨edgeId, sourceNodeId, targetNodeId⟩ else edge }

end

/-! ## The page -/

/-- What the page keeps while a workflow is edited. -/
structure Editor where
  draftDefinition : DraftDefinition
  selectedNodeId : Option String
  selectedEdgeId : Option String
  nodeEditorNodeId : Option String
  formError : Option String
deriving DecidableEq, Repr

namespace Editor

/-- `handleDefinitionChange`, and what `updateDraftDefinition` does around
its updater. -/
def handleDefinitionChange (page : Editor) (next : DraftDefinition) : Editor :=
  { page with draftDefinition := next, formError := none }

def selectedEdge (page : Editor) : Option CanvasEdge :=
  page.draftDefinition.edges.find? fun edge => some edge.id = page.selectedEdgeId

/-- The actions of the canvas and the buttons of the page. -/
def edit (rf : ReactFlow) (page : Editor) (action : EditorAction) : Editor :=
  let d := page.draftDefinition
  let changed := page.handleDefinitionChange (d.edit rf action)
  match action with
  | .addNode type =>
      { changed with
        selectedNodeId := some (getNodeCatalogEntry type (d.nodes.length + 1) d).id
        selectedEdgeId := none }
  | .deleteNode nodeId =>
      { changed with
        nodeEditorNodeId := none
        selectedNodeId := if page.selectedNodeId = some nodeId then none else page.selectedNodeId }
  | .nodesChange removedNodeIds => if 0 < removedNodeIds.length then changed else page
  | .deleteEdge _ => { changed with selectedEdgeId := none }
  | .edgesChange changes =>
      if changes.any fun change => change matches .remove _ then changed else page
  | .connect connection =>
      if connection.source = "" ∨ connection.target = ""
          ∨ connection.source = connection.target then
        page
      else
        { changed with selectedEdgeId := some (connection.source ++ "-to-" ++ connection.target) }
  | .moveNode _ _ => changed

theorem edit_draftDefinition (rf : ReactFlow) (page : Editor) (action : EditorAction) :
    (page.edit rf action).draftDefinition = page.draftDefinition.edit rf action := by
  cases action with
  | nodesChange removedNodeIds =>
      simp only [edit, DraftDefinition.edit, DraftDefinition.handleNodesChange,
        handleDefinitionChange]
      split <;> rfl
  | edgesChange changes =>
      simp only [edit, DraftDefinition.edit, handleDefinitionChange]
      split
      · rfl
      · rename_i hnone
        have hsame : handleEdgesChange rf changes page.draftDefinition.canvas
            = page.draftDefinition.canvas := if_neg hnone
        rw [hsame]
        rfl
  | connect connection =>
      simp only [edit, DraftDefinition.edit, handleConnect, handleDefinitionChange]
      split <;> rfl
  | _ => rfl

def deleteSelectedEdge (rf : ReactFlow) (page : Editor) : Editor :=
  match page.selectedEdge with
  | none => page
  | some selectedEdge => page.edit rf (.deleteEdge selectedEdge.id)

/-- `if (edgeValidationError)`: an error of no text would not stop it. -/
def updateSelectedEdge [Runtime] (wording : Json → Issue → String)
    (sourceNodeId targetNodeId : String) (page : Editor) : Editor :=
  let d := page.draftDefinition
  match page.selectedEdge with
  | none => page
  | some selectedEdge =>
      let edgeValidationError :=
        validateEdgeDraft wording d sourceNodeId targetNodeId (some selectedEdge.id)
      if edgeValidationError.getD "" ≠ "" then { page with formError := edgeValidationError }
      else
        { page.handleDefinitionChange
            (replaceSelectedEdge selectedEdge sourceNodeId targetNodeId d) with
          selectedEdgeId := some (updatedEdgeId selectedEdge sourceNodeId targetNodeId d) }

end Editor

/-- What a user does on the page. -/
inductive PageAction where
  | edit (action : EditorAction)
  | updateNode (nextNode : DraftNode)
  | deleteSelectedEdge
  | updateSelectedEdge (sourceNodeId targetNodeId : String)
  | selectEdge (edgeId : Option String)
  | selectNode (nodeId : String)
deriving DecidableEq, Repr

def perform [Runtime] (rf : ReactFlow) (wording : Json → Issue → String) (page : Editor) :
    PageAction → Editor
  | .edit action => page.edit rf action
  | .updateNode nextNode => page.handleDefinitionChange (page.draftDefinition.updateNode nextNode)
  | .deleteSelectedEdge => page.deleteSelectedEdge rf
  | .updateSelectedEdge sourceNodeId targetNodeId =>
      page.updateSelectedEdge wording sourceNodeId targetNodeId
  | .selectEdge edgeId => { page with selectedEdgeId := edgeId }
  | .selectNode nodeId => { page with selectedNodeId := some nodeId, selectedEdgeId := none }

/-! ## The identity of a draft -/

/-- What the operations take for granted: an id names one node or one edge,
and an edge joins nodes of the draft. -/
structure Draft.Identified (d : Draft) : Prop where
  node_ids_distinct : (d.nodes.map (·.id)).Nodup
  edge_ids_distinct : (d.edges.map (·.id)).Nodup
  endpoints : ∀ edge ∈ d.edges, d.IsNode edge.sourceNodeId ∧ d.IsNode edge.targetNodeId

theorem Draft.isNode_iff {d : Draft} {id : String} : d.IsNode id ↔ id ∈ d.nodes.map (·.id) := by
  simp [Draft.IsNode]

namespace Draft.Identified

variable {d : Draft}

/-- Edges may go. -/
theorem sublist (h : d.Identified) {edges : List CanvasEdge} (hsub : edges.Sublist d.edges) :
    Draft.Identified { d with edges } where
  node_ids_distinct := h.node_ids_distinct
  edge_ids_distinct := h.edge_ids_distinct.sublist (hsub.map _)
  endpoints edge hedge := h.endpoints edge (hsub.subset hedge)

/-- Nodes may go with the edges that end in them. -/
theorem restrict (h : d.Identified) (keep : String → Bool) :
    Draft.Identified ⟨d.nodes.filter (keep ·.id),
      d.edges.filter fun edge => keep edge.sourceNodeId ∧ keep edge.targetNodeId⟩ where
  node_ids_distinct := h.node_ids_distinct.sublist (List.filter_sublist.map _)
  edge_ids_distinct := h.edge_ids_distinct.sublist (List.filter_sublist.map _)
  endpoints edge hedge := by
    obtain ⟨hmem, hkeep⟩ := List.mem_filter.mp hedge
    obtain ⟨hsource, htarget⟩ := of_decide_eq_true hkeep
    obtain ⟨⟨source, hs, hsid⟩, target, ht, htid⟩ := h.endpoints edge hmem
    exact ⟨⟨source, List.mem_filter.mpr ⟨hs, by rwa [hsid]⟩, hsid⟩,
      target, List.mem_filter.mpr ⟨ht, by rwa [htid]⟩, htid⟩

/-- Nodes may change that keep their ids. -/
theorem of_ids (h : d.Identified) {nodes : List CanvasNode}
    (hids : nodes.map (·.id) = d.nodes.map (·.id)) : Draft.Identified { d with nodes } where
  node_ids_distinct := hids ▸ h.node_ids_distinct
  edge_ids_distinct := h.edge_ids_distinct
  endpoints edge hedge := by
    simpa only [isNode_iff, hids] using h.endpoints edge hedge

/-- A node of a new id may come. -/
theorem append_node (h : d.Identified) {node : CanvasNode} (hnew : node.id ∉ d.nodes.map (·.id)) :
    Draft.Identified { d with nodes := d.nodes ++ [node] } where
  node_ids_distinct := by
    rw [List.map_append, List.map_singleton]
    exact List.nodup_append'.mpr ⟨h.node_ids_distinct, List.nodup_singleton _, by simpa using hnew⟩
  edge_ids_distinct := h.edge_ids_distinct
  endpoints edge hedge := by
    obtain ⟨⟨source, hs, hsid⟩, target, ht, htid⟩ := h.endpoints edge hedge
    exact ⟨⟨source, List.mem_append_left _ hs, hsid⟩, target, List.mem_append_left _ ht, htid⟩

/-- An edge between nodes may come exactly if its id is new. -/
theorem append_edge_iff (h : d.Identified) {edge : CanvasEdge}
    (hends : d.IsNode edge.sourceNodeId ∧ d.IsNode edge.targetNodeId) :
    Draft.Identified { d with edges := d.edges ++ [edge] } ↔ edge.id ∉ d.edges.map (·.id) := by
  have hnodup : ((d.edges ++ [edge]).map (·.id)).Nodup ↔ edge.id ∉ d.edges.map (·.id) := by
    rw [List.map_append, List.map_singleton, List.nodup_append']
    simp [h.edge_ids_distinct]
  refine ⟨fun hnew => hnodup.mp hnew.edge_ids_distinct, fun hnew => ?_⟩
  refine ⟨h.node_ids_distinct, hnodup.mpr hnew, fun other hother => ?_⟩
  rcases List.mem_append.mp hother with hold | hlast
  · exact h.endpoints other hold
  · obtain rfl := List.mem_singleton.mp hlast
    exact hends

/-- An edge may be replaced by one between nodes, under an id that no other
edge has. -/
theorem replace_edge (h : d.Identified) {id : String} {edge : CanvasEdge}
    (hends : d.IsNode edge.sourceNodeId ∧ d.IsNode edge.targetNodeId)
    (hnew : ∀ other ∈ d.edges, other.id = edge.id → other.id = id) :
    Draft.Identified
      { d with edges := d.edges.map fun other => if other.id = id then edge else other } where
  node_ids_distinct := h.node_ids_distinct
  edge_ids_distinct := by
    rw [List.map_map]
    refine (List.nodup_map_iff_inj_on h.edge_ids_distinct.of_map).mpr fun e he e' he' heq => ?_
    have hinj := List.inj_on_of_nodup_map h.edge_ids_distinct he he'
    simp only [Function.comp] at heq
    split at heq <;> split at heq
    · rename_i hid hid'
      exact hinj (hid.trans hid'.symm)
    · rename_i hid hid'
      exact absurd (hnew e' he' heq.symm) hid'
    · rename_i hid hid'
      exact absurd (hnew e he heq) hid
    · exact hinj heq
  endpoints other hother := by
    obtain ⟨old, hold, rfl⟩ := List.mem_map.mp hother
    split
    · exact hends
    · exact h.endpoints old hold

end Draft.Identified

/-! ### The operations of the canvas -/

/-- An edge drawn between two nodes that are not connected yet. -/
def Draft.DrawsNewEdge (d : Draft) : EditorAction → Prop
  | .connect connection =>
      (d.IsNode connection.source ∧ d.IsNode connection.target)
        ∧ ¬ d.HasEdge connection.source connection.target
  | _ => True

/-- An edge drawn between two nodes whose id `source-to-target` is the id of
an edge already. -/
def Draft.DrawsTakenId (d : Draft) : EditorAction → Prop
  | .connect connection =>
      (connection.source ≠ "" ∧ connection.target ≠ "" ∧ connection.source ≠ connection.target)
        ∧ connection.source ++ "-to-" ++ connection.target ∈ d.edges.map (·.id)
  | _ => False

/-- An edge is appended unless an edge with the same source and target
exists. -/
def ReactFlow.AppendsNew (rf : ReactFlow) : Prop :=
  ∀ edge edges, (∀ other ∈ edges, ¬ (other.source = edge.source ∧ other.target = edge.target)) →
    rf.addEdge edge edges = edges ++ [edge]

theorem ReactFlow.sample_appendsNew : ReactFlow.sample.AppendsNew := by
  intro edge edges hnew
  refine if_neg fun hany => ?_
  obtain ⟨other, hother, hsame⟩ := List.any_eq_true.mp hany
  simp only [Bool.and_eq_true, beq_iff_eq] at hsame
  exact hnew other hother hsame.1.1

theorem handleConnect_eq {rf : ReactFlow} (happends : rf.AppendsNew) {d : Draft}
    {connection : Connection} (hnew : ¬ d.HasEdge connection.source connection.target)
    (hends : connection.source ≠ "" ∧ connection.target ≠ ""
      ∧ connection.source ≠ connection.target) :
    handleConnect rf connection d = { d with
      edges := d.edges ++ [⟨connection.source ++ "-to-" ++ connection.target,
        connection.source, connection.target⟩] } := by
  have hfree : ∀ other ∈ flowEdges d,
      ¬ (other.source = connection.source ∧ other.target = connection.target) :=
    fun other hother hsame => hnew (mem_flowEdges.mp ⟨other, hother, hsame⟩)
  have happended := happends ⟨connection.source ++ "-to-" ++ connection.target, connection.source,
    connection.target, connection.sourceHandle, connection.targetHandle⟩ (flowEdges d) hfree
  rw [handleConnect, if_neg (by simp [hends])]
  simp only [happended]
  simp [updateDefinitionFromEdges, flowEdges, Function.comp_def]

theorem handleNodesChange_identified {d : Draft} (h : d.Identified)
    (removedNodeIds : List String) : (handleNodesChange removedNodeIds d).Identified := by
  unfold handleNodesChange
  split
  · simpa using h.restrict fun id => id ∉ removedNodeIds
  · exact h

theorem handleEdgesChange_identified {rf : ReactFlow} (hrf : rf.Documented) {d : Draft}
    (h : d.Identified) (changes : List EdgeChange) :
    (handleEdgesChange rf changes d).Identified := by
  unfold handleEdgesChange
  split
  · rw [hrf.applyEdgeChanges_eq]
    refine h.sublist ?_
    have hsub := (List.filter_sublist (p := fun edge : FlowEdge => .remove edge.id ∉ changes)
      (l := flowEdges d)).map fun edge => CanvasEdge.mk edge.id edge.source edge.target
    simpa [flowEdges, Function.comp_def] using hsub
  · exact h

/-- A connection that is drawn takes the id `source-to-target`, free or not. -/
theorem handleConnect_identified_iff {rf : ReactFlow} (happends : rf.AppendsNew) {d : Draft}
    (h : d.Identified) {connection : Connection} (hnew : d.DrawsNewEdge (.connect connection)) :
    (handleConnect rf connection d).Identified ↔ ¬ d.DrawsTakenId (.connect connection) := by
  obtain ⟨hends, hunconnected⟩ := hnew
  by_cases hdrawn : connection.source ≠ "" ∧ connection.target ≠ ""
      ∧ connection.source ≠ connection.target
  · rw [handleConnect_eq happends hunconnected hdrawn, h.append_edge_iff hends,
      Draft.DrawsTakenId, and_iff_right hdrawn]
  · refine iff_of_true ?_ fun htaken => hdrawn htaken.1
    have hnone : connection.source = "" ∨ connection.target = ""
        ∨ connection.source = connection.target := by
      by_contra hall
      simp only [not_or] at hall
      exact hdrawn hall
    rw [handleConnect, if_pos hnone]
    exact h

/-- One operation of the canvas. -/
theorem edit_identified_iff {rf : ReactFlow} (hrf : rf.Documented) (happends : rf.AppendsNew)
    {d : Draft} (h : d.Identified) {action : EditorAction} (hnew : d.DrawsNewEdge action) :
    (edit rf d action).Identified ↔ ¬ d.DrawsTakenId action := by
  cases action with
  | connect connection => exact handleConnect_identified_iff happends h hnew
  | addNode type =>
      exact iff_of_true (h.append_node (createNodeId_notMem type d)) (fun h => h)
  | deleteNode nodeId =>
      have hrest : (edit rf d (.deleteNode nodeId)).Identified := by
        simpa [edit, deleteNode] using h.restrict fun id => id ≠ nodeId
      exact iff_of_true hrest (fun h => h)
  | nodesChange removedNodeIds =>
      exact iff_of_true (handleNodesChange_identified h removedNodeIds) (fun h => h)
  | edgesChange changes =>
      exact iff_of_true (handleEdgesChange_identified hrf h changes) (fun h => h)
  | deleteEdge edgeId => exact iff_of_true (h.sublist List.filter_sublist) (fun h => h)
  | moveNode nodeId position =>
      have hids := updateDefinitionFromNodePosition_ids nodeId position d
      exact iff_of_true (h.of_ids hids) (fun h => h)

/-! ### The operations of the page -/

theorem mem_otherEdges {d : DraftDefinition} {ignoredEdgeId : Option String} {edge : CanvasEdge} :
    edge ∈ otherEdges d ignoredEdgeId ↔ edge ∈ d.edges ∧ some edge.id ≠ ignoredEdgeId := by
  simp [otherEdges]

/-- The id is new among the other edges. -/
theorem getUniqueEdgeId_notMem (baseId : String) (d : DraftDefinition)
    (ignoredEdgeId : Option String) :
    getUniqueEdgeId baseId d ignoredEdgeId ∉ (otherEdges d ignoredEdgeId).map (·.id) := by
  by_cases hfree : baseId ∉ (otherEdges d ignoredEdgeId).map (·.id)
  · rwa [getUniqueEdgeId, if_pos hfree]
  · rw [getUniqueEdgeId, if_neg hfree]
    exact suffixedId_freeSuffix_notMem _ _

/-- An edge that has the updated id already is the selected one. -/
theorem eq_of_updatedEdgeId {selectedEdge : CanvasEdge} {sourceNodeId targetNodeId : String}
    {d : DraftDefinition} {edge : CanvasEdge} (hedge : edge ∈ d.edges)
    (hid : edge.id = updatedEdgeId selectedEdge sourceNodeId targetNodeId d) :
    edge.id = selectedEdge.id := by
  by_contra hne
  have hother : edge.id ∈ (otherEdges d (some selectedEdge.id)).map (·.id) :=
    List.mem_map_of_mem (mem_otherEdges.mpr ⟨hedge, fun h => hne (Option.some.inj h)⟩)
  unfold updatedEdgeId at hid
  split at hid
  · exact hne hid
  · exact getUniqueEdgeId_notMem _ d _ (hid ▸ hother)

/-- An edge that passes joins two nodes. -/
theorem isNode_of_validateEdgeDraft [Runtime] {wording : Json → Issue → String}
    {d : DraftDefinition} {sourceNodeId targetNodeId : String} {ignoredEdgeId : Option String}
    (h : (validateEdgeDraft wording d sourceNodeId targetNodeId ignoredEdgeId).getD "" = "") :
    d.canvas.IsNode sourceNodeId ∧ d.canvas.IsNode targetNodeId := by
  have hfound : ∀ {id node}, d.nodes.find? (·.id = id) = some node → d.canvas.IsNode id := by
    intro id node hfind
    have hid : node.id = id := by simpa using List.find?_some hfind
    exact ⟨node.canvas, List.mem_map_of_mem (List.mem_of_find?_eq_some hfind), hid⟩
  unfold validateEdgeDraft at h
  split at h
  · simp at h
  · split at h
    · simp at h
    · split at h
      · rename_i hsource htarget
        exact ⟨hfound hsource, hfound htarget⟩
      · simp at h

theorem updateSelectedEdge_identified [Runtime] {wording : Json → Issue → String} {page : Editor}
    (h : page.draftDefinition.canvas.Identified) (sourceNodeId targetNodeId : String) :
    (page.updateSelectedEdge wording sourceNodeId targetNodeId).draftDefinition.canvas.Identified
    := by
  simp only [Editor.updateSelectedEdge]
  split
  · exact h
  · rename_i selectedEdge hselected
    split
    · exact h
    · rename_i hvalid
      exact h.replace_edge (isNode_of_validateEdgeDraft (not_not.mp hvalid))
        fun edge hedge hid => eq_of_updatedEdgeId hedge hid

theorem updateNode_identified {d : DraftDefinition} (h : d.canvas.Identified)
    (nextNode : DraftNode) : (d.updateNode nextNode).canvas.Identified := by
  refine h.of_ids ?_
  simp only [DraftDefinition.canvas, DraftDefinition.updateNode, List.map_map]
  refine List.map_congr_left fun node _ => ?_
  by_cases hid : node.id = nextNode.id <;> simp [hid, DraftNode.canvas]

namespace PageAction

/-- A drawn edge joins two nodes that are not connected yet. -/
def DrawsNewEdge (d : Draft) : PageAction → Prop
  | .edit action => d.DrawsNewEdge action
  | _ => True

/-- An edge is drawn whose id is taken. -/
def DrawsTakenId (d : Draft) : PageAction → Prop
  | .edit action => d.DrawsTakenId action
  | _ => False

end PageAction

/-! ### Whole sessions -/

section

variable [Runtime] {rf : ReactFlow} {wording : Json → Issue → String} {page : Editor}

omit [Runtime] in
theorem editor_edit_identified_iff (hrf : rf.Documented) (happends : rf.AppendsNew)
    (h : page.draftDefinition.canvas.Identified) {action : EditorAction}
    (hnew : page.draftDefinition.canvas.DrawsNewEdge action) :
    (page.edit rf action).draftDefinition.canvas.Identified
      ↔ ¬ page.draftDefinition.canvas.DrawsTakenId action := by
  rw [Editor.edit_draftDefinition, DraftDefinition.canvas_edit]
  exact edit_identified_iff hrf happends h hnew

/-- One action. -/
theorem perform_identified (hrf : rf.Documented) (happends : rf.AppendsNew)
    (h : page.draftDefinition.canvas.Identified) {action : PageAction}
    (hnew : action.DrawsNewEdge page.draftDefinition.canvas)
    (hfree : ¬ action.DrawsTakenId page.draftDefinition.canvas) :
    (perform rf wording page action).draftDefinition.canvas.Identified := by
  cases action with
  | edit action => exact (editor_edit_identified_iff hrf happends h hnew).mpr hfree
  | updateNode nextNode => exact updateNode_identified h nextNode
  | deleteSelectedEdge =>
      simp only [perform, Editor.deleteSelectedEdge]
      split
      · exact h
      · rename_i selectedEdge _
        have hnew : page.draftDefinition.canvas.DrawsNewEdge (.deleteEdge selectedEdge.id) :=
          trivial
        exact (editor_edit_identified_iff hrf happends h hnew).mpr fun h => h
  | updateSelectedEdge sourceNodeId targetNodeId =>
      exact updateSelectedEdge_identified h sourceNodeId targetNodeId
  | selectEdge edgeId => exact h
  | selectNode nodeId => exact h

/-- The page after a session. -/
def session (rf : ReactFlow) (wording : Json → Issue → String) (page : Editor)
    (actions : List PageAction) : Editor :=
  actions.foldl (perform rf wording) page

/-- No action of the session draws an edge whose id is taken. -/
def NeverDrawsTakenId (rf : ReactFlow) (wording : Json → Issue → String) :
    Editor → List PageAction → Prop
  | _, [] => True
  | page, action :: actions =>
      (action.DrawsNewEdge page.draftDefinition.canvas
        ∧ ¬ action.DrawsTakenId page.draftDefinition.canvas)
      ∧ NeverDrawsTakenId rf wording (perform rf wording page action) actions

/-- In such a session the ids stay distinct, and edges end in nodes. -/
theorem session_identified (hrf : rf.Documented) (happends : rf.AppendsNew) :
    ∀ {actions : List PageAction} {page : Editor}, page.draftDefinition.canvas.Identified →
      NeverDrawsTakenId rf wording page actions →
      (session rf wording page actions).draftDefinition.canvas.Identified
  | [], _, h, _ => h
  | _ :: _, _, h, hnever => by
      have hnext := session_identified hrf happends
        (perform_identified hrf happends h hnever.1.1 hnever.1.2) hnever.2
      exact hnext

/-- **The identity of a draft under the editor.** From a draft with distinct
node ids, distinct edge ids and edges between its nodes, an action leaves
such a draft if and only if it does not draw an edge whose id
`source-to-target` an edge of the draft has; and so does a session in which
no action does that. -/
theorem perform_identified_iff (hrf : rf.Documented) (happends : rf.AppendsNew)
    (h : page.draftDefinition.canvas.Identified) :
    (∀ action : PageAction, action.DrawsNewEdge page.draftDefinition.canvas →
      ((perform rf wording page action).draftDefinition.canvas.Identified
        ↔ ¬ action.DrawsTakenId page.draftDefinition.canvas))
    ∧ ∀ actions : List PageAction, NeverDrawsTakenId rf wording page actions →
        (session rf wording page actions).draftDefinition.canvas.Identified := by
  refine ⟨fun action hnew => ⟨fun hafter => ?_, perform_identified hrf happends h hnew⟩,
    fun actions hnever => session_identified hrf happends h hnever⟩
  cases action with
  | edit action => exact (editor_edit_identified_iff hrf happends h hnew).mp hafter
  | _ => exact fun htaken => htaken

end

/-! ### Two edges of one id -/

/-- A stored definition is being edited: a trigger that leads to `a` and to
`b`, the edge to `a` under the id `a-to-b`. -/
def takenIdPage : Editor where
  draftDefinition :=
    { nodes := [⟨"manual-trigger", .manualTrigger, "Manual Trigger", none, []⟩,
        ⟨"a", .transformAction, "A", none, [("mode", .str "passthrough")]⟩,
        ⟨"b", .transformAction, "B", none, [("mode", .str "passthrough")]⟩]
      edges := [⟨"a-to-b", "manual-trigger", "a"⟩,
        ⟨"manual-trigger-to-b", "manual-trigger", "b"⟩] }
  selectedNodeId := some "a"
  selectedEdgeId := none
  nodeEditorNodeId := none
  formError := none

/-- The edge from `a` to `b`. -/
def drawAToB : PageAction := .edit (.connect ⟨"a", "b", none, none⟩)

theorem takenIdPage_identified : takenIdPage.draftDefinition.canvas.Identified where
  node_ids_distinct := by decide
  edge_ids_distinct := by decide
  endpoints := by simp [Draft.IsNode, DraftDefinition.canvas, DraftNode.canvas, takenIdPage]

theorem drawAToB_drawsNewEdge :
    drawAToB.DrawsNewEdge takenIdPage.draftDefinition.canvas := by
  refine ⟨⟨?_, ?_⟩, ?_⟩ <;>
    simp [Draft.IsNode, Draft.HasEdge, DraftDefinition.canvas, DraftNode.canvas, takenIdPage]

theorem perform_identified_iff_drawAToB :
    let _ : Runtime := .sample false
    (perform .sample (fun _ _ => "Invalid input") takenIdPage
        drawAToB).draftDefinition.canvas.Identified
      ↔ ¬ drawAToB.DrawsTakenId takenIdPage.draftDefinition.canvas :=
  let _ : Runtime := .sample false
  (perform_identified_iff ReactFlow.sample_documented ReactFlow.sample_appendsNew
    takenIdPage_identified).1 drawAToB drawAToB_drawsNewEdge

/-- In a definition that the schema accepts, one edge has the id `a-to-b`;
the edge drawn from `a` to `b` gets that id too. -/
theorem drawn_edge_takes_id :
    let _ : Runtime := .sample false
    (∃ definition, workflowDefinitionSchema (some takenIdPage.draftDefinition.toJson)
        = .ok definition)
      ∧ ReactFlow.sample.Documented ∧ ReactFlow.sample.AppendsNew
      ∧ takenIdPage.draftDefinition.canvas.Identified
      ∧ drawAToB.DrawsNewEdge takenIdPage.draftDefinition.canvas
      ∧ ¬ (perform .sample (fun _ _ => "Invalid input") takenIdPage
          drawAToB).draftDefinition.canvas.Identified := by
  intro _
  exact ⟨⟨_, rfl⟩, ReactFlow.sample_documented, ReactFlow.sample_appendsNew,
    takenIdPage_identified, drawAToB_drawsNewEdge,
    fun h => absurd h.edge_ids_distinct (by decide)⟩

end FlowPilot.Web
