/-
Iwifunni/Web/Graph.lean

From a draft to the canvas and back.

On the way to the canvas the nodes get ids of their own, and every end of an edge is
looked up by the trimmed id of a draft; on the way back the ends are looked up by
the id on the canvas:

    draft edge   "a " -> "b"
    canvas edge  canvas_x -> canvas_y       node "a" is canvas_x, "b" is canvas_y
    draft edge   "a" -> "b"

In between the nodes are sorted by whatever positions the layout has given them,
and then the triggers are put first.  All this changes nothing but the order of the
nodes and the white space around the ends, provided no id of a node is blank
(`draft_kept`); if no two nodes share an id, the ends are those of the same nodes.
-/
import Iwifunni.Web.Canvas

namespace Iwifunni.Web

open Go Workflow

/-! ### Drafts -/

/-- The ids of a draft, as far as they count. -/
def WorkflowBuilderDraft.ids (draft : WorkflowBuilderDraft) : List String :=
  draft.nodes.map fun node => trim node.id

/-- Every edge joins two of the nodes. -/
def Joined (draft : WorkflowBuilderDraft) : Prop :=
  ∀ edge ∈ draft.edges, trim edge.source ∈ draft.ids ∧ trim edge.target ∈ draft.ids

instance (draft : WorkflowBuilderDraft) : Decidable (Joined draft) := by
  unfold Joined
  infer_instance

/-- The ids the nodes of the draft get on the canvas. -/
def canvasIds (random : Random) (draft : WorkflowBuilderDraft) : List String :=
  (canvasNodes random 0 draft.nodes).map fun node => node.id

/-! ### Nodes -/

section Nodes

variable {layout : Layout} {nodes : List WorkflowCanvasNode}

theorem map_draft_canvasNodes (random : Random) (start : ℕ) (drafts : List BuilderNodeDraft) :
    (canvasNodes random start drafts).map (fun node => node.draft) = drafts := by
  induction drafts generalizing start with
  | nil => rfl
  | cons draft drafts ih =>
      show draft :: _ = _
      rw [ih]

/-- A layout moves the nodes and does nothing else. -/
theorem map_layoutCanvasGraph {α : Type} (f : String → BuilderNodeDraft → α)
    (edges : List WorkflowCanvasEdge) :
    (layoutCanvasGraph layout nodes edges).map (fun node => f node.id node.draft) =
      nodes.map fun node => f node.id node.draft := by
  unfold layoutCanvasGraph
  rw [List.map_map]
  rfl

/-- A draft id that belongs to a node is found, at a node with that id. -/
theorem canvasNodeId_of_mem {draftId : String}
    (hne : ∀ node ∈ nodes, trim node.draft.id ≠ "")
    (h : trim draftId ∈ nodes.map fun node => trim node.draft.id) :
    ∃ node ∈ nodes, canvasNodeId nodes draftId = some node.id ∧
      trim node.draft.id = trim draftId := by
  obtain ⟨node, hnode, hid⟩ := List.mem_map.mp h
  unfold canvasNodeId
  rcases hfind : nodes.find? fun node =>
    trim node.draft.id != "" && trim node.draft.id == trim draftId with - | found
  · have hnone := List.find?_eq_none.mp hfind node hnode
    have hnot := hne node hnode
    simp [hid] at hnone
    exact absurd (hid.trans hnone) hnot
  · have hsome := List.find?_some hfind
    simp only [Bool.and_eq_true, beq_iff_eq] at hsome
    exact ⟨found, List.mem_of_find?_eq_some hfind, by rw [hfind]; rfl, hsome.2⟩

/-- With distinct ids on the canvas, every node is found under its own. -/
theorem draftIdOf_eq (hnodup : (nodes.map fun node => node.id).Nodup)
    {node : WorkflowCanvasNode} (hnode : node ∈ nodes) :
    draftIdOf nodes node.id = node.draft.id := by
  have hfind : Json.lookup (nodes.map fun node => (node.id, node.draft.id)) node.id =
      some node.draft.id := by
    apply Json.lookup_of_mem
    · rw [List.map_map]
      exact hnodup
    · exact List.mem_map.mpr ⟨node, hnode, rfl⟩
  rw [draftIdOf, hfind]
  rfl

end Nodes

/-! ### Edges -/

/-- The same edge, with ends that are equal up to white space around them. -/
structure SameEdge (edge edge' : BuilderEdgeDraft) : Prop where
  source : trim edge'.source = trim edge.source
  target : trim edge'.target = trim edge.target
  branch : edge'.branch = edge.branch

section Edges

variable {nodes : List WorkflowCanvasNode}

/-- An edge on the canvas stands for an edge of the draft. -/
structure StandsFor (nodes : List WorkflowCanvasNode) (edge : BuilderEdgeDraft)
    (edge' : WorkflowCanvasEdge) : Prop where
  source : ∃ node ∈ nodes, edge'.source = node.id ∧ trim node.draft.id = trim edge.source
  target : ∃ node ∈ nodes, edge'.target = node.id ∧ trim node.draft.id = trim edge.target
  branch : edge'.branch = edge.branch

/-- Edges between nodes of the draft all come to the canvas, in order. -/
theorem canvasEdges_standFor (random : Random)
    (hne : ∀ node ∈ nodes, trim node.draft.id ≠ "") (start : ℕ) (edges : List BuilderEdgeDraft)
    (h : ∀ edge ∈ edges, trim edge.source ∈ nodes.map (fun node => trim node.draft.id) ∧
      trim edge.target ∈ nodes.map fun node => trim node.draft.id) :
    List.Forall₂ (StandsFor nodes) edges (canvasEdges nodes random start edges) := by
  induction edges generalizing start with
  | nil => exact .nil
  | cons edge edges ih =>
      obtain ⟨hsource, htarget⟩ := h edge (List.mem_cons_self ..)
      obtain ⟨source, hs, hsfind, hsid⟩ := canvasNodeId_of_mem hne hsource
      obtain ⟨target, ht, htfind, htid⟩ := canvasNodeId_of_mem hne htarget
      rw [canvasEdges, hsfind, htfind]
      refine .cons ⟨⟨source, hs, rfl, hsid⟩, ⟨target, ht, rfl, htid⟩, rfl⟩ ?_
      exact ih _ fun e he => h e (List.mem_cons_of_mem _ he)

/-- Back from the canvas, an edge is the one it stands for. -/
theorem StandsFor.same {nodes' : List WorkflowCanvasNode}
    (hnodup : (nodes'.map fun node => node.id).Nodup)
    (hnodes : ∀ node ∈ nodes, ∃ node' ∈ nodes', node'.id = node.id ∧ node'.draft = node.draft)
    {edge : BuilderEdgeDraft} {edge' : WorkflowCanvasEdge} (h : StandsFor nodes edge edge') :
    SameEdge edge ⟨draftIdOf nodes' edge'.source, draftIdOf nodes' edge'.target,
      edge'.branch⟩ := by
  obtain ⟨⟨source, hs, hsource, hsid⟩, ⟨target, ht, htarget, htid⟩, hbranch⟩ := h
  obtain ⟨source', hs', hsid', hsdraft⟩ := hnodes source hs
  obtain ⟨target', ht', htid', htdraft⟩ := hnodes target ht
  refine ⟨?_, ?_, hbranch⟩
  · show trim (draftIdOf nodes' edge'.source) = _
    rw [hsource, ← hsid', draftIdOf_eq hnodup hs', hsdraft, hsid]
  · show trim (draftIdOf nodes' edge'.target) = _
    rw [htarget, ← htid', draftIdOf_eq hnodup ht', htdraft, htid]

end Edges

/-! ### The round trip -/

/-- No trigger comes after another node. -/
def TriggersFirst (nodes : List BuilderNodeDraft) : Prop :=
  nodes.Pairwise fun a b => b.type = .trigger → a.type = .trigger

/-- The second sort puts the triggers first. -/
theorem triggersFirst_buildDraftFromCanvas (canvas : WorkflowCanvas) :
    TriggersFirst (buildDraftFromCanvas canvas).nodes := by
  let r (a b : BuilderNodeDraft) : Prop := a.type = .trigger ∨ b.type ≠ .trigger
  have htotal : Std.Total r := ⟨fun a b => by
    by_cases ha : a.type = .trigger
    · exact Or.inl (Or.inl ha)
    · exact Or.inr (Or.inr ha)⟩
  have htrans : IsTrans BuilderNodeDraft r := ⟨fun a b c hab hbc => by
    rcases hbc with hb | hc
    · exact Or.inl (hab.resolve_right (not_not.mpr hb))
    · exact Or.inr hc⟩
  refine (List.pairwise_insertionSort r _).imp ?_
  intro a b hab hb
  exact hab.resolve_right (not_not.mpr hb)

/-- The nodes of the canvas, in another order. -/
theorem perm_buildDraftFromCanvas (canvas : WorkflowCanvas) :
    (buildDraftFromCanvas canvas).nodes.Perm (canvas.nodes.map fun node => node.draft) := by
  refine (List.perm_insertionSort _ _).trans ?_
  exact (List.perm_insertionSort _ _).map _

/-- The nodes of a draft on the canvas, under their ids. -/
theorem mem_ordered {layout : Layout} {edges : List WorkflowCanvasEdge}
    {nodes : List WorkflowCanvasNode} {node : WorkflowCanvasNode} (h : node ∈ nodes) :
    ∃ node' ∈ (layoutCanvasGraph layout nodes edges).insertionSort
      (fun a b => a.position.notAfter b.position), node'.id = node.id ∧ node'.draft = node.draft := by
  have hpair : (node.id, node.draft) ∈
      (layoutCanvasGraph layout nodes edges).map fun node => (node.id, node.draft) := by
    rw [map_layoutCanvasGraph Prod.mk]
    exact List.mem_map_of_mem h
  obtain ⟨node', hmem, heq⟩ := List.mem_map.mp hpair
  refine ⟨node', (List.mem_insertionSort _).mpr hmem, congrArg Prod.fst heq, congrArg Prod.snd heq⟩

/-- **From a draft to the canvas and back nothing is lost**, whatever the layout. -/
theorem draft_kept {layout : Layout} {random : Random} {draft : WorkflowBuilderDraft}
    (hids : "" ∉ draft.ids) (hedges : Joined draft) (hrandom : (canvasIds random draft).Nodup) :
    (buildDraftFromCanvas (buildCanvasGraphFromDraft layout random draft)).triggerEvent =
      draft.triggerEvent ∧
    (buildDraftFromCanvas (buildCanvasGraphFromDraft layout random draft)).nodes.Perm
      draft.nodes ∧
    TriggersFirst (buildDraftFromCanvas (buildCanvasGraphFromDraft layout random draft)).nodes ∧
    List.Forall₂ SameEdge draft.edges
      (buildDraftFromCanvas (buildCanvasGraphFromDraft layout random draft)).edges := by
  have hdrafts : (canvasNodes random 0 draft.nodes).map (fun node => node.draft) = draft.nodes :=
    map_draft_canvasNodes random 0 draft.nodes
  have hkeys : (canvasNodes random 0 draft.nodes).map (fun node => trim node.draft.id)
      = draft.ids := by
    rw [WorkflowBuilderDraft.ids, ← hdrafts, List.map_map, hdrafts]
    rfl
  refine ⟨rfl, ?_, triggersFirst_buildDraftFromCanvas _, ?_⟩
  · refine (perm_buildDraftFromCanvas _).trans (List.Perm.of_eq ?_)
    exact (map_layoutCanvasGraph (fun _ draft => draft) _).trans hdrafts
  · have hne : ∀ node ∈ canvasNodes random 0 draft.nodes, trim node.draft.id ≠ "" := by
      intro node hnode hblank
      apply hids
      rw [← hkeys]
      exact List.mem_map.mpr ⟨node, hnode, hblank⟩
    -- each edge of the canvas stands for one of the draft
    have hstand := canvasEdges_standFor random hne draft.nodes.length draft.edges
      (by rw [hkeys]; exact hedges)
    -- sorting and laying out leave the ids of the canvas different
    have hnodup : ((layoutCanvasGraph layout (canvasNodes random 0 draft.nodes)
        (canvasEdges (canvasNodes random 0 draft.nodes) random draft.nodes.length
          draft.edges)).insertionSort (fun a b => a.position.notAfter b.position) |>.map
        fun node => node.id).Nodup := by
      refine (((List.perm_insertionSort _ _).map _).nodup_iff).mpr ?_
      rw [map_layoutCanvasGraph (fun id _ => id)]
      exact hrandom
    refine List.forall₂_map_right_iff.mpr (hstand.imp fun edge edge' h => ?_)
    exact h.same hnodup fun node hnode => mem_ordered hnode

namespace Sample

/-- A notification listed before the trigger it follows. -/
def welcome : WorkflowBuilderDraft where
  triggerEvent := "user.signup"
  nodes := [createNodeDraft .notification none "0.abcd", createNodeDraft .trigger none ""]
  edges := [⟨" trigger_1", "email_abcd", ""⟩]

end Sample

theorem draft_kept_welcome :
    (buildDraftFromCanvas (buildCanvasGraphFromDraft Sample.onOneSpot Sample.random
      Sample.welcome)).nodes.Perm Sample.welcome.nodes :=
  have h := @draft_kept Sample.onOneSpot Sample.random Sample.welcome (by decide) (by decide)
    (by decide)
  h.2.1

end Iwifunni.Web
