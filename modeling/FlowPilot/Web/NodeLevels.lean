import FlowPilot.Lib.Relaxation
import FlowPilot.Web.Canvas

/-!
# The levels of the layout

What `getNodeLevels` returns on a draft without cycles whose edges join nodes:
every node is at the length of the longest path to it from a node without
incoming edges, so every edge leads to a higher level
(`getNodeLevels_longestPath`). The rounds of the loop are those of
`Lib.Relaxation`, on the ids of the queued nodes.
-/

namespace FlowPilot.Web

open Loop Relation Relaxation

/-- Both ends of every edge are nodes. -/
def Draft.EdgesJoinNodes (d : Draft) : Prop :=
  ∀ edge ∈ d.edges, d.IsNode edge.sourceNodeId ∧ d.IsNode edge.targetNodeId

/-- `id` is the id of a node without incoming edges. -/
def Draft.IsEntryNode (d : Draft) (id : String) : Prop := d.IsNode id ∧ d.IsEntry id

/-- The ends of the edges that start in `id`, in the order of the draft. -/
def edgeTargets (d : Draft) (id : String) : List String := outgoing (outgoingTargets d) id

theorem next_edgeTargets (d : Draft) : Worklist.Next (edgeTargets d) = d.HasEdge := by
  funext a b
  exact propext (mem_outgoingTargets d a b)

/-! ## Levels -/

/-- Raising the targets of a node, id by id. -/
theorem get?_foldl_raiseLevel (level : Nat) (id : String) :
    ∀ (targets : List String) (levels : JsMap Nat),
      (targets.foldl (raiseLevel level) levels).get? id
        = if id ∈ targets then some (max ((levels.get? id).getD 0) level) else levels.get? id
  | [], _ => by simp
  | target :: targets, levels => by
      rw [List.foldl_cons, get?_foldl_raiseLevel level id targets, raiseLevel, JsMap.get?_set]
      by_cases hhead : id = target
      · subst hhead
        by_cases htail : id ∈ targets <;> simp [htail]
      · by_cases htail : id ∈ targets <;> simp [hhead, htail]

theorem raised_raiseTargets (d : Draft) (node : CanvasNode) (levels : JsMap Nat) :
    Raised (edgeTargets d node.id) (nextLevelOf levels node) levels.get?
      (raiseTargets d node levels).get? where
  target id hid := by
    rw [raiseTargets, get?_foldl_raiseLevel]
    exact if_pos hid
  other id hid := by
    rw [raiseTargets, get?_foldl_raiseLevel]
    exact if_neg hid

/-- All entry nodes are set to `0`. -/
theorem get?_foldl_zero (id : String) :
    ∀ (nodes : List CanvasNode) (levels : JsMap Nat),
      (nodes.foldl (fun levels node => levels.set node.id 0) levels).get? id
        = if id ∈ nodes.map (·.id) then some 0 else levels.get? id
  | [], _ => by simp
  | node :: nodes, levels => by
      rw [List.foldl_cons, get?_foldl_zero id nodes, JsMap.get?_set]
      by_cases hhead : id = node.id
      · simp [hhead]
      · by_cases htail : id ∈ nodes.map (·.id) <;> simp [hhead, htail]

/-! ## The loop -/

/-- The nodes a round pushes are those its edges lead to. -/
theorem map_targetNodes {d : Draft} (hends : d.EdgesJoinNodes) (node : CanvasNode) :
    (targetNodes d node).map (·.id) = edgeTargets d node.id := by
  have hfound : ∀ id ∈ edgeTargets d node.id, (findNode d id).map (·.id) = some id := by
    intro id hid
    obtain ⟨edge, hedge, -, rfl⟩ := (mem_outgoingTargets d node.id id).mp hid
    obtain ⟨target, htarget, hname⟩ := (hends edge hedge).2
    have hsome : (findNode d edge.targetNodeId).isSome := by
      simpa [findNode, List.find?_isSome] using ⟨target, htarget, hname⟩
    obtain ⟨found, hfind⟩ := Option.isSome_iff_exists.mp hsome
    have hid : found.id = edge.targetNodeId := by simpa using List.find?_some hfind
    rw [hfind, Option.map_some, hid]
  rw [targetNodes, List.map_filterMap]
  exact (List.filterMap_congr hfound).trans List.filterMap_some

/-- The invariant of the `while` loop. -/
def LevelsInv (d : Draft) (s : List CanvasNode × JsMap Nat) : Prop :=
  Relaxing d.IsEntryNode (edgeTargets d) (s.1.map (·.id)) s.2.get?

theorem levelsInv_start (d : Draft) :
    LevelsInv d (entryNodes d,
      (entryNodes d).foldl (fun levels node => levels.set node.id 0) .empty) := by
  have hqueue : ∀ id, id ∈ (entryNodes d).map (·.id) ↔ d.IsEntryNode id := by
    intro id
    simp only [List.mem_map, mem_entryNodes, Draft.IsEntryNode, Draft.IsNode]
    constructor
    · rintro ⟨node, ⟨hnode, hentry⟩, rfl⟩
      exact ⟨⟨node, hnode, rfl⟩, hentry⟩
    · rintro ⟨⟨node, hnode, rfl⟩, hentry⟩
      exact ⟨node, ⟨hnode, hentry⟩, rfl⟩
  refine relaxing_start hqueue (fun id hid => ?_) fun id hid => ?_
  · rw [get?_foldl_zero, if_pos ((hqueue id).mpr hid)]
  · rw [get?_foldl_zero, if_neg (mt (hqueue id).mp hid), JsMap.get?_empty]

theorem levelsInv_step {d : Draft} (hends : d.EdgesJoinNodes) (s s' : List CanvasNode × JsMap Nat)
    (h : LevelsInv d s) (hstep : levelsStep d s = some s') : LevelsInv d s' := by
  rw [levelsStep_eq] at hstep
  obtain ⟨_ | ⟨node, queue⟩, levels⟩ := s
  · cases hstep
  · cases hstep
    obtain ⟨level, hlevel⟩ := h.queued (a := node.id) (by simp)
    have hnext : nextLevelOf levels node = level + 1 := by
      rw [nextLevelOf, hlevel, Option.getD_some]
    have hraised := raised_raiseTargets d node levels
    rw [hnext] at hraised
    rw [LevelsInv, List.map_append, map_targetNodes hends]
    exact h.round hlevel hraised

/-- Where the loop has stopped, the queue is empty. -/
theorem relaxing_getNodeLevels {d : Draft} (hends : d.EdgesJoinNodes) {fuel : Nat}
    {levels : JsMap Nat} (h : getNodeLevels fuel d = some levels) :
    Relaxing d.IsEntryNode (edgeTargets d) [] levels.get? := by
  obtain ⟨⟨queue, levels⟩, hloop, rfl⟩ := Option.map_eq_some_iff.mp h
  obtain ⟨hinv, hstopped⟩ := loop_invariant (levelsInv_step hends) hloop (levelsInv_start d)
  cases queue with
  | nil => exact hinv
  | cons node queue => cases hstopped

/-! ## Longest paths -/

/-- In a draft without cycles, a path from an entry node leads to every
node. -/
theorem exists_pathTo_node {d : Draft} (hends : d.EdgesJoinNodes)
    (hacyclic : ∀ id, ¬ TransGen d.HasEdge id id) {id : String} (hid : d.IsNode id) :
    ∃ n, PathTo d.IsEntryNode d.HasEdge n id := by
  have hfin : ∀ a b, d.HasEdge a b → a ∈ d.nodes.map (·.id) := by
    rintro a b ⟨edge, hedge, rfl, -⟩
    exact List.mem_map.mpr (hends edge hedge).1
  refine exists_pathTo (wellFounded_of_acyclic hfin hacyclic) (fun b hb => ?_) id hid
  by_cases hentry : d.IsEntry b
  · exact Or.inl ⟨hb, hentry⟩
  · simp only [Draft.IsEntry, not_forall, not_not] at hentry
    obtain ⟨edge, hedge, rfl⟩ := hentry
    exact Or.inr ⟨edge.sourceNodeId, (hends edge hedge).1, edge, hedge, rfl, rfl⟩

/-- **The levels are longest paths.** On a draft without cycles, `getNodeLevels`
returns, and gives every node the length of the longest path to it from a node
without incoming edges; every edge leads to a higher level. -/
theorem getNodeLevels_longestPath {d : Draft} (hends : d.EdgesJoinNodes)
    (hacyclic : ∀ id, ¬ TransGen d.HasEdge id id) :
    Stops d ∧ ∀ fuel levels, getNodeLevels fuel d = some levels →
      (∀ node ∈ d.nodes, ∃ level, levels.get? node.id = some level
        ∧ IsGreatest {n | PathTo d.IsEntryNode d.HasEdge n node.id} level)
      ∧ ∀ edge ∈ d.edges, ∃ source target, levels.get? edge.sourceNodeId = some source
        ∧ levels.get? edge.targetNodeId = some target ∧ source < target := by
  refine ⟨stops_of_acyclic hacyclic, fun fuel levels hlevels => ?_⟩
  have hinv := relaxing_getNodeLevels hends hlevels
  have hnode : ∀ {id}, d.IsNode id → ∃ level, levels.get? id = some level := by
    intro id hid
    obtain ⟨n, hn⟩ := exists_pathTo_node hends hacyclic hid
    obtain ⟨level, hlevel, -⟩ := hinv.le_level (next_edgeTargets d ▸ hn)
    exact ⟨level, hlevel⟩
  constructor
  · intro node hmem
    obtain ⟨level, hlevel⟩ := hnode ⟨node, hmem, rfl⟩
    exact ⟨level, hlevel, next_edgeTargets d ▸ hinv.isGreatest hlevel⟩
  · intro edge hedge
    obtain ⟨source, hsource⟩ := hnode (hends edge hedge).1
    have htarget : edge.targetNodeId ∈ edgeTargets d edge.sourceNodeId :=
      (mem_outgoingTargets d _ _).mpr ⟨edge, hedge, rfl, rfl⟩
    obtain ⟨target, htarget, hlt⟩ := hinv.settled hsource List.not_mem_nil htarget
    exact ⟨source, target, hsource, htarget, hlt⟩

/-- Three nodes in a row, and an edge from the first to the last. -/
def shortcutDraft : Draft where
  nodes := [⟨"first", .manualTrigger, none⟩, ⟨"second", .transformAction, none⟩,
    ⟨"third", .conditionAction, none⟩]
  edges := [⟨"long", "first", "third"⟩, ⟨"in", "first", "second"⟩, ⟨"out", "second", "third"⟩]

/-- The last node is taken twice, and ends at the level of the longer path. -/
theorem getNodeLevels_longestPath_shortcut :
    Stops shortcutDraft ∧ ∃ levels, getNodeLevels 6 shortcutDraft = some levels
      ∧ levels.get? "third" = some 2
      ∧ IsGreatest {n | PathTo shortcutDraft.IsEntryNode shortcutDraft.HasEdge n "third"} 2 := by
  let rank (id : String) : Nat := ["first", "second", "third"].idxOf id
  have hends : shortcutDraft.EdgesJoinNodes := by
    simp [Draft.EdgesJoinNodes, Draft.IsNode, shortcutDraft]
  have hrank : ∀ edge ∈ shortcutDraft.edges,
      rank edge.sourceNodeId < rank edge.targetNodeId := by decide
  have hacyclic : ∀ id, ¬ TransGen shortcutDraft.HasEdge id id := by
    intro id hcycle
    have hlt : TransGen (· < ·) (rank id) (rank id) := by
      refine hcycle.lift rank ?_
      rintro a b ⟨edge, hedge, rfl, rfl⟩
      exact hrank edge hedge
    rw [transGen_eq_self] at hlt
    exact lt_irrefl _ hlt
  obtain ⟨hstops, hlevels⟩ := getNodeLevels_longestPath hends hacyclic
  have hresult : getNodeLevels 6 shortcutDraft
      = some ⟨[("first", 0), ("third", 2), ("second", 1)]⟩ := by rfl
  obtain ⟨level, hlevel, hgreatest⟩ := (hlevels 6 _ hresult).1
    ⟨"third", .conditionAction, none⟩ (by decide)
  obtain rfl : 2 = level := Option.some.inj hlevel
  exact ⟨hstops, _, hresult, hlevel, hgreatest⟩

end FlowPilot.Web
