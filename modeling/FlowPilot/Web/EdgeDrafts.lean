import FlowPilot.Contracts.Encoding
import FlowPilot.Contracts.Rejections
import FlowPilot.Web.Editor
import Mathlib.Data.Set.List

/-!
# Edge drafts

`validateEdgeDraft` tries an edge of the id `validation-edge`, put after the
other edges; `updateSelectedEdge` then puts an edge of another id where the
selected one stood. The schema looks at the ends of the edges as at a
collection (`WellFormedGraph.of_ends`), so the two verdicts can differ
through ids alone, and `validateEdgeDraft_agrees_iff` says when they do not.
-/

namespace FlowPilot

open Relation

/-! ## Which part of the edges the graph checks see -/

/-- The two ends of an edge. -/
def WorkflowEdge.ends (edge : WorkflowEdge) : String × String :=
  (edge.sourceNodeId, edge.targetNodeId)

section

variable {d d' : WorkflowDefinition}

theorem WorkflowDefinition.hasEdge_iff {a b : String} :
    d.HasEdge a b ↔ (a, b) ∈ d.edges.map WorkflowEdge.ends := by
  simp [WorkflowDefinition.HasEdge, WorkflowEdge.ends]

/-- The graph stays well formed when edges get other, distinct ids and
another order. -/
theorem WellFormedGraph.of_ends (h : WellFormedGraph d) (hnodes : d'.nodes = d.nodes)
    (hends : (d'.edges.map WorkflowEdge.ends).Perm (d.edges.map WorkflowEdge.ends))
    (hids : (d'.edges.map (·.id)).Nodup) : WellFormedGraph d' := by
  have hnode : d'.IsNode = d.IsNode := by
    funext id
    simp [WorkflowDefinition.IsNode, hnodes]
  have htrigger : d'.IsTrigger = d.IsTrigger := by
    funext id
    simp [WorkflowDefinition.IsTrigger, hnodes]
  have hedge : d'.HasEdge = d.HasEdge := by
    funext a b
    simp only [WorkflowDefinition.hasEdge_iff, hends.mem_iff]
  have hold : ∀ edge' ∈ d'.edges, ∃ edge ∈ d.edges,
      edge.sourceNodeId = edge'.sourceNodeId ∧ edge.targetNodeId = edge'.targetNodeId := by
    intro edge' hedge'
    obtain ⟨edge, hmem, heq⟩ :=
      List.mem_map.mp (hends.subset (List.mem_map_of_mem hedge'))
    exact ⟨edge, hmem, Prod.mk.inj heq⟩
  refine ⟨hnodes ▸ h.node_ids_distinct, hids, ?_, fun edge' hedge' => ?_, fun edge' hedge' => ?_,
    hends.nodup_iff.mpr h.no_parallel_edges, fun edge' hedge' => ?_, ?_, ?_⟩
  · rw [htrigger]
    exact h.has_trigger
  · obtain ⟨edge, hmem, hs, ht⟩ := hold edge' hedge'
    rw [hnode, ← hs, ← ht]
    exact h.endpoints edge hmem
  · obtain ⟨edge, hmem, hs, ht⟩ := hold edge' hedge'
    rw [← hs, ← ht]
    exact h.no_self_edge edge hmem
  · obtain ⟨edge, hmem, -, ht⟩ := hold edge' hedge'
    rw [htrigger, ← ht]
    exact h.no_edge_to_trigger edge hmem
  · rw [hnodes, htrigger, hedge]
    exact h.reachable
  · rw [hedge]
    exact h.acyclic

end

namespace Web

open Schema

/-! ## What the schema reads of a draft -/

/-- The id passes `workflowNodeIdSchema`. -/
def IsNodeId (id : String) : Prop :=
  (1 ≤ utf16Length id ∧ utf16Length id ≤ 80) ∧ nodeIdPattern id = true

theorem workflowNodeId_isNodeId (id : WorkflowNodeId) : IsNodeId id.value :=
  ⟨id.length, id.pattern⟩

theorem workflowNodeIdSchema_value {s : String} {id : WorkflowNodeId}
    (h : workflowNodeIdSchema (some (.str s)) = .ok id) : id.value = s := by
  obtain ⟨b, hb, h⟩ := Parsed.andThen_eq_ok.mp h
  split at h
  · obtain rfl := Parsed.ok.inj h
    obtain ⟨s', hs', hb⟩ := Parsed.andThen_eq_ok.mp hb
    obtain rfl := Parsed.ok.inj hs'
    split at hb
    · split at hb
      · obtain rfl := Parsed.ok.inj hb
        rfl
      · cases hb
    · cases hb
  · cases h

/-- What a strict object returns, its fields gave. -/
theorem body_of_strictObject {α : Type} {keys : List String} {body : Record → Parsed α}
    {fields : Record} {a : α} (h : strictObject keys body (some (.obj fields)) = .ok a) :
    body fields = .ok a := by
  obtain ⟨_, _, hmap, -, heq⟩ := Parsed.seq_eq_ok h
  obtain ⟨b, hbody, rfl⟩ := Parsed.map_eq_ok hmap
  exact heq ▸ hbody

/-- How the editor holds an accepted edge. -/
def draftEdge (edge : WorkflowEdge) : CanvasEdge := ⟨edge.id, edge.sourceNodeId, edge.targetNodeId⟩

theorem draftEdge_of_accepted {edge : CanvasEdge} {accepted : WorkflowEdge}
    (h : workflowEdgeSchema (some edge.toJson) = .ok accepted) : draftEdge accepted = edge := by
  obtain ⟨f₁, target, h₁, htarget, rfl⟩ := Parsed.seq_eq_ok (body_of_strictObject h)
  obtain ⟨f₂, source, h₂, hsource, rfl⟩ := Parsed.seq_eq_ok h₁
  obtain ⟨id, hid, rfl⟩ := Parsed.map_eq_ok h₂
  have hid := workflowNodeIdSchema_value (Parsed.at_eq_ok hid)
  have hsource := workflowNodeIdSchema_value (Parsed.at_eq_ok hsource)
  have htarget := workflowNodeIdSchema_value (Parsed.at_eq_ok htarget)
  cases edge
  exact congr (congr (congrArg CanvasEdge.mk hid) hsource) htarget

/-- The accepted edges are those the draft holds. -/
theorem elements_workflowEdgeSchema : ∀ {edges : List CanvasEdge} {accepted : List WorkflowEdge}
    {i : Nat}, elements workflowEdgeSchema i (edges.map CanvasEdge.toJson) = .ok accepted ↔
      accepted.map draftEdge = edges
  | [], accepted, i => by
      constructor
      · intro h
        obtain rfl := Parsed.ok.inj h
        rfl
      · intro h
        rw [List.map_eq_nil_iff.mp h]
        rfl
  | edge :: edges, accepted, i => by
      constructor
      · intro h
        obtain ⟨_, rest, hcons, hrest, rfl⟩ := Parsed.seq_eq_ok h
        obtain ⟨first, hfirst, rfl⟩ := Parsed.map_eq_ok hcons
        rw [List.map_cons, draftEdge_of_accepted (Parsed.at_eq_ok hfirst),
          elements_workflowEdgeSchema.mp hrest]
      · intro h
        obtain ⟨first, rest, rfl, rfl, hrest⟩ := List.map_eq_cons_iff.mp h
        have hfirst := workflowEdgeSchema_reads first _ (.refl _)
        exact Parsed.seq_ok (Parsed.map_ok (congrArg (Parsed.at_ (.index i)) hfirst))
          (elements_workflowEdgeSchema.mpr hrest)

section

variable [Runtime]

omit [Runtime] in
/-- A node schema keeps the id, and its config schema gives the config. -/
theorem base_of_nodeSchema {node : DraftNode} {accepted : WorkflowNode}
    {configSchema : Schema WorkflowNodeConfig}
    (h : nodeSchema configSchema (some node.toJson) = .ok accepted) :
    accepted.id = node.id ∧ ∃ o, configSchema o = .ok accepted.config := by
  obtain ⟨f₁, config, h₁, hconfig, rfl⟩ := Parsed.seq_eq_ok (body_of_strictObject h)
  obtain ⟨f₂, position, h₂, -, rfl⟩ := Parsed.seq_eq_ok h₁
  obtain ⟨f₃, name, h₃, -, rfl⟩ := Parsed.seq_eq_ok h₂
  obtain ⟨id, hid, rfl⟩ := Parsed.map_eq_ok h₃
  exact ⟨workflowNodeIdSchema_value (Parsed.at_eq_ok hid), _, Parsed.at_eq_ok hconfig⟩

omit [Runtime] in
theorem exists_eq_wrap {α : Type} {s : Schema α} {wrap : α → WorkflowNodeConfig}
    {o : Option Json} {config : WorkflowNodeConfig} (h : (s o).map wrap = .ok config) :
    ∃ a, config = wrap a := by
  have hwrapped : Ensures (fun o => (s o).map wrap) fun config => ∃ a, config = wrap a :=
    map_ensures (P := fun _ => True) (fun _ _ _ => trivial) fun a _ => ⟨a, rfl⟩
  exact hwrapped o config h

/-- An accepted node has the id and the type of the draft's node. -/
theorem node_of_accepted {node : DraftNode} {accepted : WorkflowNode}
    (h : workflowNodeSchema (some node.toJson) = .ok accepted) :
    accepted.id = node.id ∧ accepted.type = node.type := by
  have hlookup : node.toJson.get? "type" = some (.str node.type.literal) := rfl
  unfold workflowNodeSchema at h
  simp only [Option.bind_some, hlookup] at h
  -- the discriminator picks the schema of the node's own type
  cases hnode : node.type <;> rw [hnode] at h <;>
    obtain ⟨hid, o, hconfig⟩ := base_of_nodeSchema h <;>
    obtain ⟨a, ha⟩ := exists_eq_wrap hconfig <;>
    exact ⟨hid, by rw [WorkflowNode.type, ha]⟩

/-- The accepted nodes are those the draft holds. -/
theorem elements_workflowNodeSchema : ∀ {nodes : List DraftNode} {accepted : List WorkflowNode}
    {i : Nat}, elements workflowNodeSchema i (nodes.map DraftNode.toJson) = .ok accepted →
      accepted.map (fun node => (node.id, node.type)) = nodes.map fun node => (node.id, node.type)
  | [], accepted, i, h => by
      obtain rfl := Parsed.ok.inj h
      rfl
  | node :: nodes, accepted, i, h => by
      obtain ⟨_, rest, hcons, hrest, rfl⟩ := Parsed.seq_eq_ok h
      obtain ⟨first, hfirst, rfl⟩ := Parsed.map_eq_ok hcons
      obtain ⟨hid, htype⟩ := node_of_accepted (Parsed.at_eq_ok hfirst)
      rw [List.map_cons, List.map_cons, elements_workflowNodeSchema hrest, hid, htype]

omit [Runtime] in
theorem boundedArray_eq_ok {α : Type} {s : Schema α} {lo hi : Nat} {vs : List Json}
    {items : { items : List α // lo ≤ items.length ∧ items.length ≤ hi }} :
    boundedArray s lo hi (some (.arr vs)) = .ok items ↔ elements s 0 vs = .ok items.val := by
  constructor
  · intro h
    obtain ⟨list, hlist, h⟩ := Parsed.andThen_eq_ok.mp h
    split at h
    · split at h
      · obtain rfl := Parsed.ok.inj h
        exact hlist
      · cases h
    · cases h
  · intro h
    simp only [boundedArray, h, Parsed.andThen, items.property, dite_true]

theorem workflowDefinitionObjectSchema_toJson {d : DraftDefinition}
    {definition : WorkflowDefinition} :
    workflowDefinitionObjectSchema (some d.toJson) = .ok definition ↔
      elements workflowNodeSchema 0 (d.nodes.map DraftNode.toJson) = .ok definition.nodes
        ∧ definition.edges.map draftEdge = d.edges := by
  rw [← elements_workflowEdgeSchema (i := 0)]
  constructor
  · intro h
    obtain ⟨f, edges, hf, hedges, rfl⟩ := Parsed.seq_eq_ok (body_of_strictObject h)
    obtain ⟨nodes, hnodes, rfl⟩ := Parsed.map_eq_ok hf
    exact ⟨boundedArray_eq_ok.mp (Parsed.at_eq_ok hnodes),
      boundedArray_eq_ok.mp (Parsed.at_eq_ok hedges)⟩
  · rintro ⟨hnodes, hedges⟩
    let fields : Record := [("nodes", .arr (d.nodes.map DraftNode.toJson)),
      ("edges", .arr (d.edges.map CanvasEdge.toJson))]
    have hnodesField : field fields "nodes" (boundedArray workflowNodeSchema 1 100)
        = .ok ⟨definition.nodes, definition.nodes_length⟩ :=
      field_eq_ok (boundedArray_eq_ok.mpr hnodes)
    have hedgesField : field fields "edges" (boundedArray workflowEdgeSchema 0 200)
        = .ok ⟨definition.edges, Nat.zero_le _, definition.edges_length⟩ :=
      field_eq_ok (boundedArray_eq_ok.mpr hedges)
    exact strictObject_ok rfl (Parsed.seq_ok (Parsed.map_ok hnodesField) hedgesField)

/-- The draft passes `workflowDefinitionSchema`. -/
def DraftDefinition.Accepted (d : DraftDefinition) : Prop :=
  ∃ definition, workflowDefinitionSchema (some d.toJson) = .ok definition

/-- The schema accepts the drafts that hold a definition with a well-formed
graph. -/
theorem accepted_iff {d : DraftDefinition} : d.Accepted ↔ ∃ definition : WorkflowDefinition,
    elements workflowNodeSchema 0 (d.nodes.map DraftNode.toJson) = .ok definition.nodes
      ∧ definition.edges.map draftEdge = d.edges ∧ WellFormedGraph definition := by
  simp only [DraftDefinition.Accepted, workflowDefinitionSchema_eq_ok, superRefine_eq_nil,
    workflowDefinitionObjectSchema_toJson, and_assoc]

/-- The two ends of an edge. -/
def CanvasEdge.ends (edge : CanvasEdge) : String × String := (edge.sourceNodeId, edge.targetNodeId)

omit [Runtime] in
theorem map_ends {edges : List CanvasEdge} {accepted : List WorkflowEdge}
    (h : accepted.map draftEdge = edges) :
    edges.map CanvasEdge.ends = accepted.map WorkflowEdge.ends := by
  rw [← h, List.map_map]
  rfl

omit [Runtime] in
theorem map_ids {edges : List CanvasEdge} {accepted : List WorkflowEdge}
    (h : accepted.map draftEdge = edges) :
    edges.map (·.id) = accepted.map (·.id) := by
  rw [← h, List.map_map]
  rfl

namespace DraftDefinition.Accepted

variable {d d' : DraftDefinition}

theorem edge_ids_distinct (h : d.Accepted) : (d.edges.map (·.id)).Nodup := by
  obtain ⟨definition, -, hedges, hgraph⟩ := accepted_iff.mp h
  exact map_ids hedges ▸ hgraph.edge_ids_distinct

theorem ends_distinct (h : d.Accepted) : (d.edges.map CanvasEdge.ends).Nodup := by
  obtain ⟨definition, -, hedges, hgraph⟩ := accepted_iff.mp h
  exact map_ends hedges ▸ hgraph.no_parallel_edges

theorem isNodeId_of_mem (h : d.Accepted) {edge : CanvasEdge} (hedge : edge ∈ d.edges) :
    IsNodeId edge.id := by
  obtain ⟨definition, -, hedges, -⟩ := accepted_iff.mp h
  rw [← hedges] at hedge
  obtain ⟨accepted, -, rfl⟩ := List.mem_map.mp hedge
  exact workflowNodeId_isNodeId accepted.edgeId

theorem ends_valid (h : d.Accepted) {edge : CanvasEdge} (hedge : edge ∈ d.edges) :
    ∃ source target : WorkflowNodeId,
      source.value = edge.sourceNodeId ∧ target.value = edge.targetNodeId := by
  obtain ⟨definition, -, hedges, -⟩ := accepted_iff.mp h
  rw [← hedges] at hedge
  obtain ⟨accepted, -, rfl⟩ := List.mem_map.mp hedge
  exact ⟨accepted.source, accepted.target, rfl, rfl⟩

/-- Edges may get other ids, and another order: with distinct ids of the
right form the draft stays accepted. -/
theorem of_ends (h : d.Accepted) (hnodes : d'.nodes = d.nodes)
    (hends : (d'.edges.map CanvasEdge.ends).Perm (d.edges.map CanvasEdge.ends))
    (hids : (d'.edges.map (·.id)).Nodup) (hvalid : ∀ edge ∈ d'.edges, IsNodeId edge.id) :
    d'.Accepted := by
  obtain ⟨definition, hparsed, hedges, hgraph⟩ := accepted_iff.mp h
  have hparts : ∀ edge ∈ d'.edges, edge ∈ Set.range draftEdge := by
    intro edge hedge
    have hmem := hends.subset (List.mem_map_of_mem hedge)
    rw [map_ends hedges] at hmem
    obtain ⟨old, -, heq⟩ := List.mem_map.mp hmem
    obtain ⟨hs, ht⟩ := Prod.mk.inj heq
    obtain ⟨hlength, hpattern⟩ := hvalid edge hedge
    refine ⟨⟨⟨edge.id, hlength, hpattern⟩, old.source, old.target⟩, ?_⟩
    exact congr (congrArg (CanvasEdge.mk edge.id) hs) ht
  obtain ⟨edges, hedges'⟩ : d'.edges ∈ Set.range (List.map draftEdge) := by
    rw [Set.range_list_map]
    exact hparts
  have hperm : (edges.map WorkflowEdge.ends).Perm (definition.edges.map WorkflowEdge.ends) := by
    rw [← map_ends hedges', ← map_ends hedges]
    exact hends
  have hlength : edges.length ≤ 200 := by
    have := hperm.length_eq
    rw [List.length_map, List.length_map] at this
    exact this ▸ definition.edges_length
  refine accepted_iff.mpr ⟨⟨definition.nodes, edges, definition.nodes_length, hlength⟩,
    hnodes ▸ hparsed, hedges', ?_⟩
  exact hgraph.of_ends rfl hperm (map_ids hedges' ▸ hids)

theorem of_perm (h : d.Accepted) (hnodes : d'.nodes = d.nodes) (hperm : d'.edges.Perm d.edges) :
    d'.Accepted :=
  h.of_ends hnodes (hperm.map _) ((hperm.map _).nodup_iff.mpr h.edge_ids_distinct)
    fun _ hedge => h.isNodeId_of_mem (hperm.subset hedge)

end DraftDefinition.Accepted

/-! ## What `validateEdgeDraft` answers -/

variable {wording : Json → Issue → String} {d : DraftDefinition}

omit [Runtime] in
theorem mem_foldl_add {x : String} : ∀ {xs : List String} {s : JsSet},
    x ∈ (xs.foldl JsSet.add s).items ↔ x ∈ s.items ∨ x ∈ xs
  | [], s => by simp
  | y :: xs, s => by
      rw [List.foldl_cons, mem_foldl_add, JsSet.mem_add, List.mem_cons, or_assoc]

/-- No message is left for exactly the accepted drafts. -/
theorem getWorkflowDefinitionIssueMessages_head? :
    (getWorkflowDefinitionIssueMessages wording d).head? = none ↔ d.Accepted := by
  rw [List.head?_eq_none_iff, getWorkflowDefinitionIssueMessages]
  cases hparsed : workflowDefinitionSchema (some d.toJson) with
  | ok definition => exact iff_of_true rfl ⟨definition, hparsed⟩
  | issues found =>
      refine iff_of_false (fun hnil => ?_) fun ⟨_, hok⟩ => by rw [hparsed] at hok; cases hok
      cases found with
      | nil => exact workflowDefinitionSchema_reports _ hparsed
      | cons issue found =>
          have hmem : issueMessage wording d.toJson issue ∈ ([] : List String) :=
            hnil ▸ mem_foldl_add.mpr (Or.inr List.mem_cons_self)
          cases hmem

omit [Runtime] in
/-- The first node of an id, and its type. -/
theorem find?_of_isNode {definition : WorkflowDefinition}
    (hids : definition.nodes.map (fun node => (node.id, node.type))
      = d.nodes.map fun node => (node.id, node.type)) {id : String} (hnode : definition.IsNode id) :
    ∃ node, d.nodes.find? (·.id = id) = some node
      ∧ (node.type = .manualTrigger → definition.IsTrigger id) := by
  obtain ⟨accepted, haccepted, rfl⟩ := hnode
  have hmem : (accepted.id, accepted.type) ∈ d.nodes.map fun node => (node.id, node.type) :=
    hids ▸ List.mem_map_of_mem haccepted
  obtain ⟨node, hnode, heq⟩ := List.mem_map.mp hmem
  obtain ⟨first, hfirst⟩ : ∃ first, d.nodes.find? (·.id = accepted.id) = some first := by
    refine Option.isSome_iff_exists.mp (List.find?_isSome.mpr ⟨node, hnode, ?_⟩)
    exact decide_eq_true (Prod.mk.inj heq).1
  refine ⟨first, hfirst, fun htype => ?_⟩
  have hid : first.id = accepted.id := by simpa using List.find?_some hfirst
  have hmem : (first.id, first.type) ∈ definition.nodes.map fun node => (node.id, node.type) :=
    hids ▸ List.mem_map_of_mem (List.mem_of_find?_eq_some hfirst)
  obtain ⟨other, hother, heq⟩ := List.mem_map.mp hmem
  obtain ⟨hotherId, hotherType⟩ := Prod.mk.inj heq
  exact ⟨other, hother, hotherType.trans htype, hotherId.trans hid⟩

/-- With no two parallel edges, none of the others has the ends of the edge on
trial. -/
theorem not_any_parallel {sourceNodeId targetNodeId : String} {ignoredEdgeId : Option String}
    (h : (trialDefinition d sourceNodeId targetNodeId ignoredEdgeId).Accepted) :
    ¬ d.edges.any (fun other => some other.id ≠ ignoredEdgeId
      ∧ other.sourceNodeId = sourceNodeId ∧ other.targetNodeId = targetNodeId) = true := by
  intro hany
  obtain ⟨other, hother, hsame⟩ := List.any_eq_true.mp hany
  obtain ⟨hid, hs, ht⟩ := of_decide_eq_true hsame
  have hdistinct := h.ends_distinct
  rw [trialDefinition, List.map_append] at hdistinct
  have hends : other.ends = (sourceNodeId, targetNodeId) := Prod.ext hs ht
  refine (List.nodup_append'.mp hdistinct).2.2
    (List.mem_map_of_mem (mem_otherEdges.mpr ⟨hother, hid⟩)) ?_
  rw [hends]
  exact List.mem_singleton_self _

theorem trialDefinition_accepted_of_none {sourceNodeId targetNodeId : String}
    {ignoredEdgeId : Option String}
    (h : validateEdgeDraft wording d sourceNodeId targetNodeId ignoredEdgeId = none) :
    (trialDefinition d sourceNodeId targetNodeId ignoredEdgeId).Accepted := by
  unfold validateEdgeDraft at h
  split at h
  · cases h
  · split at h
    · cases h
    · split at h
      · split at h
        · cases h
        · split at h
          · cases h
          · exact getWorkflowDefinitionIssueMessages_head?.mp h
      · cases h

/-- The checks made before the trial are checks of the schema too. -/
theorem validateEdgeDraft_eq_none_iff {sourceNodeId targetNodeId : String}
    {ignoredEdgeId : Option String} :
    validateEdgeDraft wording d sourceNodeId targetNodeId ignoredEdgeId = none ↔
      (trialDefinition d sourceNodeId targetNodeId ignoredEdgeId).Accepted := by
  refine ⟨trialDefinition_accepted_of_none, fun h => ?_⟩
  obtain ⟨definition, hnodes, hedges, hgraph⟩ := accepted_iff.mp h
  -- the edge on trial is one of the accepted ones
  obtain ⟨edge, hedge, heq⟩ : ∃ edge ∈ definition.edges,
      draftEdge edge = ⟨"validation-edge", sourceNodeId, targetNodeId⟩ := by
    refine List.mem_map.mp ?_
    rw [hedges]
    exact List.mem_append_right _ List.mem_cons_self
  obtain ⟨-, rfl, rfl⟩ := CanvasEdge.mk.inj heq
  have hids := elements_workflowNodeSchema hnodes
  obtain ⟨source, hsource, -⟩ := find?_of_isNode hids (hgraph.endpoints edge hedge).1
  obtain ⟨target, htarget, htrigger⟩ := find?_of_isNode hids (hgraph.endpoints edge hedge).2
  have hempty : ¬ (edge.sourceNodeId = "" ∨ edge.targetNodeId = "") :=
    not_or.mpr ⟨edge.source.value_ne_empty, edge.target.value_ne_empty⟩
  simp only [trialDefinition] at hsource htarget
  rw [validateEdgeDraft, if_neg hempty, if_neg (hgraph.no_self_edge edge hedge)]
  simp only [hsource, htarget]
  rw [if_neg fun htype => hgraph.no_edge_to_trigger edge hedge (htrigger htype),
    if_neg (not_any_parallel h)]
  exact getWorkflowDefinitionIssueMessages_head?.mpr h

end

/-! ## The id that the edge gets -/

theorem utf16Length_append (s t : String) :
    utf16Length (s ++ t) = utf16Length s + utf16Length t := by
  simp [utf16Length]

theorem isDigit_of_mem_toString {n : Nat} {c : Char} (hc : c ∈ (toString n).toList) :
    c.isDigit = true := by
  refine Nat.isDigit_of_mem_toDigits (b := 10) (n := n) (by decide) (by decide) ?_
  simpa [Nat.repr] using hc

theorem utf16Length_toString (n : Nat) : utf16Length (toString n) = (toString n).length := by
  have hsmall : ∀ c ∈ (toString n).toList, (if 0x10000 ≤ c.toNat then 2 else 1) = 1 := by
    intro c hc
    have hle : c.toNat ≤ 57 := (Char.isDigit_iff_toNat.mp (isDigit_of_mem_toString hc)).2
    exact if_neg (by omega)
  rw [utf16Length, List.map_congr_left hsmall]
  simp [Nat.repr]

/-- A smaller suffix makes no longer id. -/
theorem utf16Length_suffixedId_mono (baseId : String) {m n : Nat} (h : m ≤ n) :
    utf16Length (suffixedId baseId m) ≤ utf16Length (suffixedId baseId n) := by
  have hdigits : (toString m).length ≤ (toString n).length := by
    have hpos : 0 < (Nat.repr n).length := Nat.length_repr_pos
    exact (Nat.length_repr_le_iff hpos).mpr
      (lt_of_le_of_lt h ((Nat.length_repr_le_iff hpos).mp le_rfl))
  simp only [suffixedId, utf16Length_append, utf16Length_toString]
  omega

/-- The ids that `getUniqueEdgeId` goes through. -/
def IsCandidateId (baseId id : String) : Prop :=
  id = baseId ∨ ∃ suffix, 2 ≤ suffix ∧ id = suffixedId baseId suffix

/-- One of them is free among the other edges and not too long for an id. -/
def HasShortFreeId (baseId : String) (d : DraftDefinition) (ignoredEdgeId : Option String) :
    Prop :=
  ∃ id, IsCandidateId baseId id ∧ id ∉ (otherEdges d ignoredEdgeId).map (·.id)
    ∧ utf16Length id ≤ 80

section

variable {baseId : String} {d : DraftDefinition} {ignoredEdgeId : Option String}

theorem getUniqueEdgeId_isCandidateId :
    IsCandidateId baseId (getUniqueEdgeId baseId d ignoredEdgeId) := by
  simp only [getUniqueEdgeId]
  split
  · exact Or.inl rfl
  · exact Or.inr ⟨_, (Nat.find_spec (exists_free_suffix baseId _)).1, rfl⟩

/-- No free id of them is shorter. -/
theorem getUniqueEdgeId_shortest {id : String} (hid : IsCandidateId baseId id)
    (hfree : id ∉ (otherEdges d ignoredEdgeId).map (·.id)) :
    utf16Length (getUniqueEdgeId baseId d ignoredEdgeId) ≤ utf16Length id := by
  simp only [getUniqueEdgeId]
  split
  · rcases hid with rfl | ⟨suffix, -, rfl⟩
    · exact le_rfl
    · simp only [suffixedId, utf16Length_append]
      omega
  · rename_i htaken
    rcases hid with rfl | ⟨suffix, hsuffix, rfl⟩
    · exact absurd hfree htaken
    · exact utf16Length_suffixedId_mono baseId (Nat.find_min' _ ⟨hsuffix, hfree⟩)

theorem getUniqueEdgeId_short_iff :
    utf16Length (getUniqueEdgeId baseId d ignoredEdgeId) ≤ 80 ↔
      HasShortFreeId baseId d ignoredEdgeId := by
  constructor
  · intro hshort
    exact ⟨_, getUniqueEdgeId_isCandidateId, getUniqueEdgeId_notMem baseId d ignoredEdgeId, hshort⟩
  · rintro ⟨id, hid, hfree, hshort⟩
    exact (getUniqueEdgeId_shortest hid hfree).trans hshort

end

theorem nodeIdPattern_append {s t : String} (hs : nodeIdPattern s = true)
    (ht : t.toList.all isIdChar = true) : nodeIdPattern (s ++ t) = true := by
  unfold nodeIdPattern at hs ⊢
  rw [String.toList_append]
  cases hl : s.toList with
  | nil => rw [hl] at hs; cases hs
  | cons c cs =>
      rw [hl] at hs
      simp only [List.cons_append, List.all_append, Bool.and_eq_true] at hs ⊢
      exact ⟨hs.1, hs.2, ht⟩

theorem isIdChar_toString (n : Nat) : (toString n).toList.all isIdChar = true := by
  refine List.all_eq_true.mpr fun c hc => ?_
  have hdigit : c.isDigit = true := isDigit_of_mem_toString hc
  simp [isIdChar, Char.isAlphanum, hdigit]

/-- What the editor concatenates has the form of an id. -/
theorem candidateId_pattern (source target : WorkflowNodeId) {id : String}
    (hid : IsCandidateId (source.value ++ "-to-" ++ target.value) id) :
    1 ≤ utf16Length id ∧ nodeIdPattern id = true := by
  have hbase : nodeIdPattern (source.value ++ "-to-" ++ target.value) = true :=
    nodeIdPattern_append (nodeIdPattern_append source.pattern (by decide))
      (List.all_eq_true.mpr fun c hc => target.isIdChar_of_mem hc)
  have hlength := source.length.1
  rcases hid with rfl | ⟨suffix, -, rfl⟩
  · refine ⟨?_, hbase⟩
    simp only [utf16Length_append]
    omega
  · refine ⟨?_, nodeIdPattern_append (nodeIdPattern_append hbase (by decide))
      (isIdChar_toString suffix)⟩
    simp only [suffixedId, utf16Length_append]
    omega

/-! ## The two verdicts -/

/-- Replacing the elements of a kind moves them to the end, as far as the
content goes. -/
theorem map_replace_perm {α : Type} (p : α → Prop) [DecidablePred p] (x : α) : ∀ l : List α,
    (l.map fun a => if p a then x else a).Perm
      (l.filter (¬ p ·) ++ List.replicate (l.countP p) x)
  | [] => .nil
  | a :: l => by
      have ih := map_replace_perm p x l
      by_cases ha : p a
      · simp only [List.map_cons, ha, if_true, not_true_eq_false, decide_false, Bool.false_eq_true,
          not_false_eq_true, List.filter_cons_of_neg, decide_true, List.countP_cons_of_pos,
          List.replicate_succ]
        exact (ih.cons x).trans List.perm_middle.symm
      · simpa [ha] using ih.cons a

section

variable [Runtime] {wording : Json → Issue → String} {d : DraftDefinition}
  {selectedEdge : CanvasEdge} {sourceNodeId targetNodeId : String}

/-- The other edges, and one from source to target under `id`. -/
def withEdge (d : DraftDefinition) (selectedEdge : CanvasEdge)
    (sourceNodeId targetNodeId id : String) : DraftDefinition :=
  { d with
    edges := otherEdges d (some selectedEdge.id) ++ [⟨id, sourceNodeId, targetNodeId⟩] }

/-- Under some id, an edge from source to target is accepted beside the other
edges. -/
def EdgeFits (d : DraftDefinition) (selectedEdge : CanvasEdge)
    (sourceNodeId targetNodeId : String) : Prop :=
  ∃ id, (withEdge d selectedEdge sourceNodeId targetNodeId id).Accepted

/-- The id is the id of another edge. -/
def IsOtherId (d : DraftDefinition) (selectedEdge : CanvasEdge) (id : String) : Prop :=
  id ∈ (otherEdges d (some selectedEdge.id)).map (·.id)

/-- An edge that fits is accepted under every id that is free and has the
form of one. -/
theorem EdgeFits.accepted_iff (h : EdgeFits d selectedEdge sourceNodeId targetNodeId)
    {id : String} : (withEdge d selectedEdge sourceNodeId targetNodeId id).Accepted ↔
      IsNodeId id ∧ ¬ IsOtherId d selectedEdge id := by
  constructor
  · intro haccepted
    have hdistinct := haccepted.edge_ids_distinct
    rw [withEdge, List.map_append] at hdistinct
    have hvalid := haccepted.isNodeId_of_mem (List.mem_append_right _ List.mem_cons_self)
    exact ⟨hvalid, fun hother =>
      (List.nodup_append'.mp hdistinct).2.2 hother (List.mem_singleton_self _)⟩
  · rintro ⟨hvalid, hfree⟩
    obtain ⟨fitting, hfitting⟩ := h
    have hdistinct := hfitting.edge_ids_distinct
    rw [withEdge, List.map_append] at hdistinct
    refine hfitting.of_ends rfl (by simp [withEdge, CanvasEdge.ends]) ?_ fun edge hedge => ?_
    · rw [withEdge, List.map_append, List.map_singleton]
      exact List.nodup_append'.mpr ⟨(List.nodup_append'.mp hdistinct).1, List.nodup_singleton _,
        by simpa [IsOtherId] using hfree⟩
    · rcases List.mem_append.mp hedge with hother | hlast
      · exact hfitting.isNodeId_of_mem (List.mem_append_left _ hother)
      · obtain rfl := List.mem_singleton.mp hlast
        exact hvalid

/-- The trial goes well. -/
theorem trialDefinition_accepted_iff :
    (trialDefinition d sourceNodeId targetNodeId (some selectedEdge.id)).Accepted ↔
      EdgeFits d selectedEdge sourceNodeId targetNodeId
        ∧ ¬ IsOtherId d selectedEdge "validation-edge" := by
  have hvalid : IsNodeId "validation-edge" := ⟨by decide, by decide⟩
  constructor
  · intro h
    have hfits : EdgeFits d selectedEdge sourceNodeId targetNodeId := ⟨_, h⟩
    exact ⟨hfits, (hfits.accepted_iff.mp h).2⟩
  · rintro ⟨hfits, hfree⟩
    exact hfits.accepted_iff.mpr ⟨hvalid, hfree⟩

omit [Runtime] in
/-- The id of the selected edge is kept where the search would find it. -/
theorem updatedEdgeId_eq : updatedEdgeId selectedEdge sourceNodeId targetNodeId d
    = getUniqueEdgeId (sourceNodeId ++ "-to-" ++ targetNodeId) d (some selectedEdge.id) := by
  unfold updatedEdgeId
  split
  · rename_i hkept
    have hfree : selectedEdge.id ∉ (otherEdges d (some selectedEdge.id)).map (·.id) := by
      simp [otherEdges]
    rw [← hkept, getUniqueEdgeId, if_pos hfree]
  · rfl

omit [Runtime] in
/-- Up to their order, the edges that `updateSelectedEdge` leaves. -/
theorem replaceSelectedEdge_perm (d : DraftDefinition) (selectedEdge : CanvasEdge)
    (sourceNodeId targetNodeId : String) :
    (replaceSelectedEdge selectedEdge sourceNodeId targetNodeId d).edges.Perm
      (otherEdges d (some selectedEdge.id)
        ++ List.replicate (d.edges.countP (·.id = selectedEdge.id))
          ⟨updatedEdgeId selectedEdge sourceNodeId targetNodeId d,
            sourceNodeId, targetNodeId⟩) := by
  have hperm := map_replace_perm (fun edge : CanvasEdge => edge.id = selectedEdge.id)
    ⟨updatedEdgeId selectedEdge sourceNodeId targetNodeId d, sourceNodeId, targetNodeId⟩ d.edges
  simpa [otherEdges, replaceSelectedEdge] using hperm

/-- The updated id has the form of an id when it is short enough. -/
theorem EdgeFits.isNodeId_updatedEdgeId (h : EdgeFits d selectedEdge sourceNodeId targetNodeId)
    (hshort : HasShortFreeId (sourceNodeId ++ "-to-" ++ targetNodeId) d (some selectedEdge.id)) :
    IsNodeId (updatedEdgeId selectedEdge sourceNodeId targetNodeId d) := by
  obtain ⟨id, hfitting⟩ := h
  obtain ⟨source, target, hs, ht⟩ :=
    hfitting.ends_valid (List.mem_append_right _ List.mem_cons_self)
  have hs : source.value = sourceNodeId := hs
  have ht : target.value = targetNodeId := ht
  subst hs ht
  rw [updatedEdgeId_eq]
  obtain ⟨hlength, hpattern⟩ := candidateId_pattern source target getUniqueEdgeId_isCandidateId
  exact ⟨⟨hlength, getUniqueEdgeId_short_iff.mpr hshort⟩, hpattern⟩

/-- The definition that is kept is accepted. -/
theorem replaceSelectedEdge_accepted_iff (hselected : selectedEdge ∈ d.edges) :
    (replaceSelectedEdge selectedEdge sourceNodeId targetNodeId d).Accepted ↔
      EdgeFits d selectedEdge sourceNodeId targetNodeId
        ∧ d.edges.countP (·.id = selectedEdge.id) = 1
        ∧ HasShortFreeId (sourceNodeId ++ "-to-" ++ targetNodeId) d (some selectedEdge.id) := by
  have hperm := replaceSelectedEdge_perm d selectedEdge sourceNodeId targetNodeId
  constructor
  · intro h
    have hpos : 0 < d.edges.countP (·.id = selectedEdge.id) :=
      List.countP_pos_iff.mpr ⟨selectedEdge, hselected, by simp⟩
    have hone : d.edges.countP (·.id = selectedEdge.id) = 1 := by
      have hdistinct := (hperm.map (·.id)).nodup_iff.mp h.edge_ids_distinct
      rw [List.map_append, List.map_replicate] at hdistinct
      have := List.nodup_replicate.mp (List.nodup_append'.mp hdistinct).2.1
      omega
    rw [hone, List.replicate_one] at hperm
    have hkept : (withEdge d selectedEdge sourceNodeId targetNodeId
        (updatedEdgeId selectedEdge sourceNodeId targetNodeId d)).Accepted :=
      h.of_perm rfl hperm.symm
    have hvalid := hkept.isNodeId_of_mem (List.mem_append_right _ List.mem_cons_self)
    refine ⟨⟨_, hkept⟩, hone, getUniqueEdgeId_short_iff.mp ?_⟩
    rw [← updatedEdgeId_eq]
    exact hvalid.1.2
  · rintro ⟨hfits, hone, hshort⟩
    rw [hone, List.replicate_one] at hperm
    refine DraftDefinition.Accepted.of_perm (hfits.accepted_iff.mpr
      ⟨hfits.isNodeId_updatedEdgeId hshort, ?_⟩) rfl hperm
    rw [updatedEdgeId_eq]
    exact getUniqueEdgeId_notMem _ d _

/-- **Editor and schema on edges.** `validateEdgeDraft` and the schema agree
on what `updateSelectedEdge` makes of a selected edge if and only if, where
an edge fits at all, `validation-edge` is the id of another edge exactly when
the selected id is on a second edge or no free id of the form
`source-to-target`, `source-to-target-2`, ... is short enough. -/
theorem validateEdgeDraft_agrees_iff (hselected : selectedEdge ∈ d.edges) :
    (validateEdgeDraft wording d sourceNodeId targetNodeId (some selectedEdge.id) = none ↔
      ∃ definition, workflowDefinitionSchema
        (some (replaceSelectedEdge selectedEdge sourceNodeId targetNodeId d).toJson)
          = .ok definition) ↔
      (EdgeFits d selectedEdge sourceNodeId targetNodeId →
        (IsOtherId d selectedEdge "validation-edge" ↔
          ¬ (d.edges.countP (·.id = selectedEdge.id) = 1
            ∧ HasShortFreeId (sourceNodeId ++ "-to-" ++ targetNodeId) d
                (some selectedEdge.id)))) := by
  have hkept : (∃ definition, workflowDefinitionSchema
      (some (replaceSelectedEdge selectedEdge sourceNodeId targetNodeId d).toJson)
        = .ok definition) ↔ _ := replaceSelectedEdge_accepted_iff hselected
  rw [validateEdgeDraft_eq_none_iff, trialDefinition_accepted_iff, hkept]
  tauto

end

/-! ### An id that is too long -/

/-- A trigger, a transform and a node with a long id, in a row. -/
def longIdDefinition : DraftDefinition where
  nodes := [⟨"manual-trigger", .manualTrigger, "Manual Trigger", none, []⟩,
    ⟨"action-transform", .transformAction, "Transform", none, [("mode", .str "passthrough")]⟩,
    ⟨"summarize-the-answers-of-the-customer-survey-of-the-last-quarter", .transformAction,
      "Summarize", none, [("mode", .str "passthrough")]⟩]
  edges := [⟨"edge-1", "manual-trigger", "action-transform"⟩,
    ⟨"edge-2", "action-transform",
      "summarize-the-answers-of-the-customer-survey-of-the-last-quarter"⟩]

/-- The edge to the long id. -/
def longIdEdge : CanvasEdge where
  id := "edge-2"
  sourceNodeId := "action-transform"
  targetNodeId := "summarize-the-answers-of-the-customer-survey-of-the-last-quarter"

theorem validateEdgeDraft_agrees_iff_longId :
    let _ : Runtime := .sample false
    (validateEdgeDraft (fun _ _ => "Invalid input") longIdDefinition "manual-trigger"
        longIdEdge.targetNodeId (some longIdEdge.id) = none ↔
      ∃ definition, workflowDefinitionSchema
        (some (replaceSelectedEdge longIdEdge "manual-trigger" longIdEdge.targetNodeId
          longIdDefinition).toJson) = .ok definition) ↔
      (EdgeFits longIdDefinition longIdEdge "manual-trigger" longIdEdge.targetNodeId →
        (IsOtherId longIdDefinition longIdEdge "validation-edge" ↔
          ¬ (longIdDefinition.edges.countP (·.id = longIdEdge.id) = 1
            ∧ HasShortFreeId ("manual-trigger" ++ "-to-" ++ longIdEdge.targetNodeId)
                longIdDefinition (some longIdEdge.id)))) :=
  let _ : Runtime := .sample false
  validateEdgeDraft_agrees_iff (by decide)

/-- In an accepted definition, the edge to the long id may start at the
trigger, says the editor; the definition that it then keeps is rejected for
the id of the edge. -/
theorem editor_keeps_long_id :
    let _ : Runtime := .sample false
    longIdDefinition.Accepted ∧ longIdEdge ∈ longIdDefinition.edges
      ∧ validateEdgeDraft (fun _ _ => "Invalid input") longIdDefinition "manual-trigger"
          longIdEdge.targetNodeId (some longIdEdge.id) = none
      ∧ ¬ ∃ definition, workflowDefinitionSchema
          (some (replaceSelectedEdge longIdEdge "manual-trigger" longIdEdge.targetNodeId
            longIdDefinition).toJson) = .ok definition := by
  intro _
  refine ⟨⟨_, rfl⟩, by decide, rfl, fun haccepted => ?_⟩
  have hvalid := DraftDefinition.Accepted.isNodeId_of_mem haccepted
    (List.mem_map_of_mem (show longIdEdge ∈ longIdDefinition.edges by decide))
  exact absurd hvalid.1.2 (by decide)

end Web

end FlowPilot
