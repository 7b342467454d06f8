/-
Iwifunni/Web/Undo.lean

Removing a node that was just inserted.

    a ---label---> b        insert n        a ---> n ---> b
    a ----------> b         remove n        a -----------> b

The insertion splits an edge and the removal heals it.  Both build their edges without a
label.  So everything is as before, except that the edge the node was put on has no label
any more: exactly what `updateEdgeBranch` of the store does to it.  An edge that had no
label, and the end of a path, are restored (`inserted_removed`).
-/
import Iwifunni.Web.Linear

namespace Iwifunni.Web

open Go Workflow Graph

/-! ### Graphs that are the same -/

/-- What an edge says: its ends and its branch. -/
def WorkflowCanvasEdge.labelled (edge : WorkflowCanvasEdge) : String × String × String :=
  (edge.source, edge.target, edge.branch)

/-- The same nodes, positions apart, and the same edges in any order, ids apart. -/
structure SameGraph (canvas canvas' : WorkflowCanvas) : Prop where
  nodes : (canvas'.nodes.map fun node => (node.id, node.draft)) =
    canvas.nodes.map fun node => (node.id, node.draft)
  edges : (canvas'.edges.map WorkflowCanvasEdge.labelled).Perm
    (canvas.edges.map WorkflowCanvasEdge.labelled)

/-- What a node can be put on: an edge between two nodes, and the terminal edge of a node
that has no edge out of it. -/
inductive Insertable (canvas : WorkflowCanvas) : String → Prop
  | onEdge (edge : WorkflowCanvasEdge) (h : edge ∈ canvas.edges) (hsource : edge.source ∈ canvas.ids)
      (hends : edge.source ≠ edge.target) : Insertable canvas edge.id
  | atEnd (last : String) (h : last ∈ canvas.ids) (hlast : ∀ edge ∈ canvas.edges,
      edge.source ≠ last) (hterminal : "terminal:" ++ last ∉ canvas.edgeIds) :
      Insertable canvas ("terminal:" ++ last)

/-- An id that is not in use. -/
structure Unused (canvas : WorkflowCanvas) (nodeId : String) : Prop where
  node : nodeId ∉ canvas.ids
  source : ∀ edge ∈ canvas.edges, edge.source ≠ nodeId
  target : ∀ edge ∈ canvas.edges, edge.target ≠ nodeId

/-! ### Removing a new node -/

section

variable {layout layout' : Layout} {random random' : Random} {event : String}
  {nodes : List WorkflowCanvasNode} {edges rest : List WorkflowCanvasEdge}
  {new : WorkflowCanvasNode}

/-- The nodes that are left are those there were. -/
theorem nodes_removeNode_new (hne : nodes ≠ []) (hnew : new.id ∉ nodes.map fun node => node.id) :
    ((removeNodeAction layout' random' ⟨event, layoutCanvasGraph layout (nodes ++ [new]) edges,
      edges⟩ new.id).nodes.map fun node => (node.id, node.draft)) =
        nodes.map fun node => (node.id, node.draft) := by
  have hkept : (nodes.filter fun node => node.id != new.id) = nodes := by
    rw [List.filter_eq_self]
    intro node hnode
    simpa using fun heq : node.id = new.id => hnew (heq ▸ List.mem_map_of_mem hnode)
  obtain ⟨place, hplace⟩ : ∃ place : String → Position,
      layoutCanvasGraph layout (nodes ++ [new]) edges =
        (nodes ++ [new]).map fun node => { node with position := place node.id } := ⟨_, rfl⟩
  -- the layout gives places and leaves the ids as they are
  have hleft : ((layoutCanvasGraph layout (nodes ++ [new]) edges).filter fun node =>
      node.id != new.id) = nodes.map fun node => { node with position := place node.id } := by
    rw [hplace]
    simp only [List.filter_map, Function.comp_def, List.filter_append, hkept]
    simp
  unfold removeNodeAction
  simp only [hleft, List.map_eq_nil_iff, if_neg hne]
  rw [map_layoutCanvasGraph Prod.mk, List.map_map]
  rfl

/-- The edges that are left: those at other nodes, and one that bridges the gap. -/
theorem edges_removeNode_new {added : List WorkflowCanvasEdge} {nodeId : String}
    (hrest : ∀ edge ∈ rest, edge.source ≠ nodeId ∧ edge.target ≠ nodeId)
    (hadded : ∀ edge ∈ added, edge.source = nodeId ∨ edge.target = nodeId) :
    (removeNodeAction layout' random' ⟨event, nodes, rest ++ added⟩ nodeId).edges =
      rest ++ (removeNodeAction layout' random' ⟨event, nodes, added⟩ nodeId).edges := by
  have hkept : (rest.filter fun edge => edge.source != nodeId && edge.target != nodeId) = rest := by
    rw [List.filter_eq_self]
    intro edge hedge
    simpa using hrest edge hedge
  have hgone : (added.filter fun edge => edge.source != nodeId && edge.target != nodeId) = [] := by
    rw [List.filter_eq_nil_iff]
    intro edge hedge
    rcases hadded edge hedge with h | h
    · simp [h]
    · simp [h]
  have hin : (rest.filter fun edge => edge.target == nodeId) = [] := by
    rw [List.filter_eq_nil_iff]
    intro edge hedge
    simpa using (hrest edge hedge).2
  have hout : (rest.filter fun edge => edge.source == nodeId) = [] := by
    rw [List.filter_eq_nil_iff]
    intro edge hedge
    simpa using (hrest edge hedge).1
  simp only [removeNodeAction, List.filter_append, hkept, hgone, hin, hout, List.append_nil,
    List.nil_append]

/-- Between two nodes an edge is left that leads from one to the other. -/
theorem edges_removeNode_between {source target nodeId i j : String} (hends : source ≠ target)
    (hsource : source ≠ nodeId) (htarget : target ≠ nodeId) :
    (removeNodeAction layout' random' ⟨event, nodes, [buildCanvasEdge source nodeId "" i,
      buildCanvasEdge nodeId target "" j]⟩ nodeId).edges =
        [buildCanvasEdge source target "" (random' 1)] := by
  simp [removeNodeAction, buildCanvasEdge, hends, hsource, htarget]

/-- At the end no edge is left. -/
theorem edges_removeNode_last {source nodeId i : String} (hsource : source ≠ nodeId) :
    (removeNodeAction layout' random' ⟨event, nodes, [buildCanvasEdge source nodeId "" i]⟩
      nodeId).edges = [] := by
  simp [removeNodeAction, buildCanvasEdge, hsource]

end

/-! ### What an insertion and a removal do together -/

section

variable {layout layout' : Layout} {random random' : Random} {canvas : WorkflowCanvas}
  {edgeId : String}

/-- The graph without the label of one edge. -/
theorem labelled_updateEdgeBranch (layout : Layout) (random : Random)
    (hids : canvas.edgeIds.Nodup) {edge : WorkflowCanvasEdge}
    (hedge : edge ∈ canvas.edges) :
    (((StoreAction.updateEdgeBranch edge.id).apply layout random canvas).edges.map
      WorkflowCanvasEdge.labelled).Perm ((edge.source, edge.target, "") ::
        (canvas.edges.filter fun e => e.id != edge.id).map WorkflowCanvasEdge.labelled) := by
  have hperm := (perm_cons_filter_key_ne hids hedge).symm
  have hother : ((canvas.edges.filter fun e => e.id != edge.id).map fun e =>
      if e.id = edge.id then { e with branch := "" } else e) =
        canvas.edges.filter fun e => e.id != edge.id := by
    refine (List.map_congr_left fun e he => if_neg ?_).trans (List.map_id _)
    simpa using (List.mem_filter.mp he).2
  have hmap := (hperm.map fun e => if e.id = edge.id then { e with branch := "" } else e).map
    WorkflowCanvasEdge.labelled
  rw [List.map_cons, hother, if_pos rfl] at hmap
  exact hmap

/-- On an edge. -/
theorem inserted_removed_onEdge {edge : WorkflowCanvasEdge} (hids : canvas.edgeIds.Nodup)
    (hedge : edge ∈ canvas.edges) (hsource : edge.source ∈ canvas.ids)
    (hends : edge.source ≠ edge.target) (type : WorkflowNodeType) (channel : Option String)
    (hnew : Unused canvas (createCanvasNodeId (random 1))) :
    SameGraph ((StoreAction.updateEdgeBranch edge.id).apply layout random canvas)
      (removeNodeAction layout' random'
        (insertNodeOnEdgeAction layout random canvas edge.id type channel)
        (createCanvasNodeId (random 1))) := by
  obtain ⟨event, nodes, edges⟩ := canvas
  have hfind : (edges.find? fun e => e.id == edge.id) = some edge := by
    rw [← List.head?_filter]
    exact congrArg List.head? (filter_key_eq hids hedge)
  have hne : nodes ≠ [] := by
    rintro rfl
    cases hsource
  -- the other edges do not touch the new node
  have hrest : ∀ e ∈ edges.filter (fun e => e.id != edge.id),
      e.source ≠ createCanvasNodeId (random 1) ∧ e.target ≠ createCanvasNodeId (random 1) := by
    intro e he
    have hmem := (List.mem_filter.mp he).1
    exact ⟨hnew.source e hmem, hnew.target e hmem⟩
  unfold insertNodeOnEdgeAction
  simp only [hfind]
  constructor
  case nodes => exact nodes_removeNode_new hne hnew.node
  case edges =>
    -- the edge comes back at the end of the list, without its label
    refine List.Perm.trans ?_ (labelled_updateEdgeBranch _ _ hids hedge).symm
    refine (List.Perm.of_eq (congrArg _ (edges_removeNode_new hrest ?_))).trans ?_
    · simp [buildCanvasEdge, buildCanvasNode]
    · rw [List.map_append]
      refine (List.Perm.of_eq (congrArg _ (congrArg _ (edges_removeNode_between hends
        (hnew.source edge hedge) (hnew.target edge hedge))))).trans ?_
      exact List.perm_append_singleton _ _

/-- At the end of a path. -/
theorem inserted_removed_atEnd {last : String} (hlast : last ∈ canvas.ids)
    (hterminal : "terminal:" ++ last ∉ canvas.edgeIds) (type : WorkflowNodeType)
    (channel : Option String) (hnew : Unused canvas (createCanvasNodeId (random 1))) :
    SameGraph ((StoreAction.updateEdgeBranch ("terminal:" ++ last)).apply layout random canvas)
      (removeNodeAction layout' random'
        (insertNodeOnEdgeAction layout random canvas ("terminal:" ++ last) type channel)
        (createCanvasNodeId (random 1))) := by
  obtain ⟨event, nodes, edges⟩ := canvas
  -- the id is that of no edge, so the node is added behind the last one
  have hreal : ∀ edge ∈ edges, edge.id ≠ "terminal:" ++ last := fun edge hedge heq =>
    hterminal (heq ▸ List.mem_map_of_mem hedge)
  have hfind : (edges.find? fun e => e.id == "terminal:" ++ last) = none := by
    rw [List.find?_eq_none]
    intro edge hedge
    simpa using hreal edge hedge
  have hany : (nodes.any fun node => node.id == last) = true := by
    obtain ⟨node, hnode, hid⟩ := List.mem_map.mp hlast
    exact List.any_eq_true.mpr ⟨node, hnode, by simpa using hid⟩
  have hne : nodes ≠ [] := by
    rintro rfl
    cases hlast
  -- and no label is cleared
  have hlabels : edges.map (fun edge => if edge.id = "terminal:" ++ last then
      { edge with branch := "" } else edge) = edges :=
    (List.map_congr_left fun edge hedge => if_neg (hreal edge hedge)).trans (List.map_id _)
  have hends : last ≠ createCanvasNodeId (random 1) := fun heq => hnew.node (heq ▸ hlast)
  unfold insertNodeOnEdgeAction
  simp only [hfind, terminalSource_terminal, hany, if_true, addConnectedNodeAction]
  constructor
  case nodes => exact nodes_removeNode_new hne hnew.node
  case edges =>
    show List.Perm _ (List.map _ (edges.map _))
    rw [hlabels]
    refine List.Perm.of_eq (congrArg _ ((edges_removeNode_new ?_ ?_).trans ?_))
    · exact fun edge hedge => ⟨hnew.source edge hedge, hnew.target edge hedge⟩
    · simp [buildCanvasEdge, buildCanvasNode]
    · refine (congrArg _ (edges_removeNode_last hends)).trans ?_
      exact List.append_nil edges

/-- Clearing a label changes nothing exactly if there is none. -/
theorem sameGraph_updateEdgeBranch_iff (layout : Layout) (random : Random) (hids : canvas.edgeIds.Nodup) :
    SameGraph canvas ((StoreAction.updateEdgeBranch edgeId).apply layout random canvas) ↔
      ∀ edge ∈ canvas.edges, edge.id = edgeId → edge.branch = "" := by
  constructor
  · rintro ⟨-, hedges⟩ edge hedge rfl
    have hcleared := (labelled_updateEdgeBranch layout random hids hedge).symm.trans hedges
    have hperm := (perm_cons_filter_key_ne hids hedge).map WorkflowCanvasEdge.labelled
    -- the other edges are the same on both sides
    have hone : [(edge.source, edge.target, "")].Perm [edge.labelled] :=
      (List.perm_append_right_iff _).mp (hcleared.trans hperm.symm)
    have heq := List.singleton_inj.mp (List.perm_singleton.mp hone)
    exact (congrArg (fun label : String × String × String => label.2.2) heq).symm
  · intro hlabel
    refine ⟨rfl, List.Perm.of_eq (congrArg _ ?_)⟩
    refine (List.map_congr_left fun edge hedge => ?_).trans (List.map_id _)
    show ite _ _ _ = edge
    split
    · next hid => rw [← hlabel edge hedge hid]
    · rfl

/-- **An insertion and a removal together clear the label of the edge the node was put on**,
and do nothing else.  So the removal undoes the insertion exactly if the edge had no label. -/
theorem inserted_removed (hids : canvas.edgeIds.Nodup) (h : Insertable canvas edgeId)
    (type : WorkflowNodeType) (channel : Option String)
    (hnew : Unused canvas (createCanvasNodeId (random 1))) :
    SameGraph ((StoreAction.updateEdgeBranch edgeId).apply layout random canvas)
        (removeNodeAction layout' random'
          (insertNodeOnEdgeAction layout random canvas edgeId type channel)
          (createCanvasNodeId (random 1))) ∧
      (SameGraph canvas (removeNodeAction layout' random'
          (insertNodeOnEdgeAction layout random canvas edgeId type channel)
          (createCanvasNodeId (random 1))) ↔
        ∀ edge ∈ canvas.edges, edge.id = edgeId → edge.branch = "") := by
  have hsame : SameGraph ((StoreAction.updateEdgeBranch edgeId).apply layout random canvas)
      (removeNodeAction layout' random'
        (insertNodeOnEdgeAction layout random canvas edgeId type channel)
        (createCanvasNodeId (random 1))) := by
    cases h with
    | onEdge edge hedge hsource hends =>
        exact inserted_removed_onEdge hids hedge hsource hends type channel hnew
    | atEnd last hmem hlast hterminal =>
        exact inserted_removed_atEnd hmem hterminal type channel hnew
  refine ⟨hsame, ?_⟩
  rw [← sameGraph_updateEdgeBranch_iff layout random hids]
  constructor
  · intro hback
    exact ⟨hsame.nodes.symm.trans hback.nodes, hsame.edges.symm.trans hback.edges⟩
  · intro hback
    exact ⟨hsame.nodes.trans hback.nodes, hsame.edges.trans hback.edges⟩

end

namespace Sample

/-- Two nodes, and an edge with a label from one to the other. -/
def labelled : WorkflowCanvas :=
  canvas ("t", "trigger_1") [("x", "delay_x")] [⟨"edge_1", "t", "x", "true"⟩]

end Sample

theorem inserted_removed_labelled :
    SameGraph ((StoreAction.updateEdgeBranch "edge_1").apply Sample.onOneSpot Sample.random
        Sample.labelled)
        (removeNodeAction Sample.onOneSpot Sample.random
          (insertNodeOnEdgeAction Sample.onOneSpot Sample.random Sample.labelled "edge_1" .delay none)
          (createCanvasNodeId (Sample.random 1))) ∧
      (SameGraph Sample.labelled (removeNodeAction Sample.onOneSpot Sample.random
          (insertNodeOnEdgeAction Sample.onOneSpot Sample.random Sample.labelled "edge_1" .delay none)
          (createCanvasNodeId (Sample.random 1))) ↔
        ∀ edge ∈ Sample.labelled.edges, edge.id = "edge_1" → edge.branch = "") :=
  inserted_removed (by decide)
    (.onEdge ⟨"edge_1", "t", "x", "true"⟩ (List.mem_cons_self ..) (by decide) (by decide)) .delay none
    ⟨by decide, by decide, by decide⟩

/-- The label of the edge is lost. -/
theorem label_lost :
    Sample.labelled.ids.Nodup ∧ Sample.labelled.edgeIds.Nodup ∧
      Insertable Sample.labelled "edge_1" ∧
      Unused Sample.labelled (createCanvasNodeId (Sample.random 1)) ∧
      ¬ SameGraph Sample.labelled (removeNodeAction Sample.onOneSpot Sample.random
        (insertNodeOnEdgeAction Sample.onOneSpot Sample.random Sample.labelled "edge_1" .delay none)
        (createCanvasNodeId (Sample.random 1))) := by
  refine ⟨by decide, by decide, .onEdge ⟨"edge_1", "t", "x", "true"⟩ (List.mem_cons_self ..)
    (by decide) (by decide), ⟨by decide, by decide, by decide⟩, fun h => ?_⟩
  revert h
  rintro ⟨-, hedges⟩
  revert hedges
  decide

end Iwifunni.Web
