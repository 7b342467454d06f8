/-
Iwifunni/Web/Linear.lean

The builder keeps a workflow on one path.

On the canvas the edges join nodes by the ids they have there; the edges of what is
exported join the drafts.  An action works on the canvas, the checks on what is
exported:

    canvas   trigger --> x --> y           insert, duplicate, remove
               |         |     |
    drafts   "t"   --> "a" --> "b"         validateEdges

Every action replaces edges in one spot, so a path stays a path (`SinglePath.step`).
What is exported is that path under the trimmed ids of the drafts.  That only works
if these are distinct: the canvas itself does not see it when they are not.
-/
import Iwifunni.Web.Graph
import Iwifunni.Web.Ordering

namespace Iwifunni.Web

open Go Workflow Graph Relation

/-! ### Canvases -/

/-- The ids of the nodes on the canvas. -/
def WorkflowCanvas.ids (canvas : WorkflowCanvas) : List String :=
  canvas.nodes.map fun node => node.id

/-- The ids of their drafts, trimmed. -/
def WorkflowCanvas.draftIds (canvas : WorkflowCanvas) : List String :=
  canvas.nodes.map fun node => trim node.draft.id

/-- The ids of the edges. -/
def WorkflowCanvas.edgeIds (canvas : WorkflowCanvas) : List String :=
  canvas.edges.map fun edge => edge.id

/-- The ends of edges. -/
def ends (edges : List WorkflowCanvasEdge) : List (String × String) :=
  edges.map fun edge => (edge.source, edge.target)

/-- What is exported. -/
def exported (canvas : WorkflowCanvas) : Definition :=
  workflowDefinitionFromBuilderDraft (buildDraftFromCanvas canvas)

/-- The edges are a path over these nodes from a trigger, with empty branches. -/
structure PathOver (canvas : WorkflowCanvas) (path : List String) : Prop where
  line : IsLine path (ends canvas.edges)
  nodes : path.Perm canvas.ids
  trigger : ∃ node ∈ canvas.nodes, path.head? = some node.id ∧ node.draft.type = .trigger
  branch : ∀ edge ∈ canvas.edges, edge.branch = ""

/-- The edges are a single path over all nodes, which starts at a trigger. -/
def SinglePath (canvas : WorkflowCanvas) : Prop := ∃ path, PathOver canvas path

/-- Edges are told apart by their ids, and drafts by theirs. -/
structure Distinct (canvas : WorkflowCanvas) : Prop where
  edges : canvas.edgeIds.Nodup
  drafts : canvas.draftIds.Nodup
  drafts_ne : "" ∉ canvas.draftIds

/-! ### The actions -/

/-- The actions that keep a path: an insertion on an edge or after the last node, a
duplicate, a removal of what is no trigger, an update that keeps id and type, a layout. -/
inductive Allowed (canvas : WorkflowCanvas) : StoreAction → Prop
  | onEdge (edge : WorkflowCanvasEdge) (h : edge ∈ canvas.edges) (type : WorkflowNodeType)
      (channel : Option String) : Allowed canvas (.insertNodeOnEdge edge.id type channel)
  | atEnd (last : String) (h : last ∈ canvas.ids) (hlast : ∀ edge ∈ canvas.edges,
      edge.source ≠ last) (type : WorkflowNodeType) (channel : Option String) :
      Allowed canvas (.insertNodeOnEdge ("terminal:" ++ last) type channel)
  | duplicate (nodeId : String) : Allowed canvas (.duplicateNode nodeId)
  | remove (nodeId : String) (h : ∀ node ∈ canvas.nodes, node.id = nodeId →
      node.draft.type ≠ .trigger) : Allowed canvas (.removeNode nodeId)
  | update (nodeId : String) (updater : BuilderNodeDraft → BuilderNodeDraft)
      (hid : ∀ draft, (updater draft).id = draft.id)
      (htype : ∀ draft, (updater draft).type = draft.type) :
      Allowed canvas (.updateNodeDraft nodeId updater)
  | layout : Allowed canvas .autoLayout

/-- The id an action gives to a new draft. -/
def newDraftId (random : Random) (canvas : WorkflowCanvas) : StoreAction → Option String
  | .insertNodeOnEdge _ type channel => some (createNodeDraft type channel (random 0)).id
  | .duplicateNode nodeId => (canvas.nodes.find? fun node => node.id == nodeId).map fun node =>
      (createNodeDraft node.draft.type (some node.draft.channel) (random 0)).id
  | _ => none

/-- The ids an action generates are new. -/
structure Fresh (random : Random) (canvas : WorkflowCanvas) (action : StoreAction) : Prop where
  node : createCanvasNodeId (random 1) ∉ canvas.ids
  edge : ∀ i ∈ [1, 2, 3], createCanvasEdgeId (random i) ∉ canvas.edgeIds
  edges : createCanvasEdgeId (random 2) ≠ createCanvasEdgeId (random 3)
  draft : ∀ id, newDraftId random canvas action = some id → trim id ∉ canvas.draftIds

/-- One action on the canvas. -/
def Step (canvas canvas' : WorkflowCanvas) : Prop :=
  ∃ layout random action, Allowed canvas action ∧ Fresh random canvas action ∧
    canvas' = action.apply layout random canvas

/-! ### Layout -/

section Layouts

variable {layout : Layout} {random : Random} {canvas : WorkflowCanvas} {path : List String}

/-- Canvases that show the same: the positions apart. -/
structure Shows (canvas canvas' : WorkflowCanvas) : Prop where
  nodes : (canvas'.nodes.map fun node => (node.id, node.draft)) =
    canvas.nodes.map fun node => (node.id, node.draft)
  edges : canvas'.edges = canvas.edges

theorem Shows.map_nodes {canvas canvas' : WorkflowCanvas} (h : Shows canvas canvas') {α : Type}
    (f : String → BuilderNodeDraft → α) :
    (canvas'.nodes.map fun node => f node.id node.draft) =
      canvas.nodes.map fun node => f node.id node.draft := by
  have hmap := congrArg (List.map fun node => f node.1 node.2) h.nodes
  rwa [List.map_map, List.map_map] at hmap

theorem shows_layout {event : String} {nodes : List WorkflowCanvasNode}
    {edges : List WorkflowCanvasEdge} :
    Shows ⟨event, nodes, edges⟩ ⟨event, layoutCanvasGraph layout nodes edges, edges⟩ :=
  ⟨map_layoutCanvasGraph Prod.mk edges, rfl⟩

/-- What is shown on another canvas is the same path. -/
theorem PathOver.shows {canvas' : WorkflowCanvas} (h : PathOver canvas path)
    (hs : Shows canvas canvas') : PathOver canvas' path where
  line := hs.edges ▸ h.line
  nodes := by
    rw [WorkflowCanvas.ids, hs.map_nodes fun id _ => id]
    exact h.nodes
  trigger := by
    obtain ⟨node, hnode, hhead, htype⟩ := h.trigger
    have hpair : (node.id, node.draft) ∈ canvas'.nodes.map fun node => (node.id, node.draft) :=
      hs.nodes ▸ List.mem_map_of_mem hnode
    obtain ⟨node', hnode', heq⟩ := List.mem_map.mp hpair
    obtain ⟨hid, hdraft⟩ := Prod.mk.inj heq
    exact ⟨node', hnode', hid ▸ hhead, hdraft ▸ htype⟩
  branch := hs.edges ▸ h.branch

theorem Distinct.shows {canvas' : WorkflowCanvas} (h : Distinct canvas)
    (hs : Shows canvas canvas') : Distinct canvas' := by
  have hdrafts : canvas'.draftIds = canvas.draftIds := hs.map_nodes fun _ draft => trim draft.id
  refine ⟨?_, hdrafts ▸ h.drafts, hdrafts ▸ h.drafts_ne⟩
  rw [WorkflowCanvas.edgeIds, hs.edges]
  exact h.edges

end Layouts

/-! ### New nodes -/

section Paths

variable {event : String} {nodes : List WorkflowCanvasNode} {edges rest : List WorkflowCanvasEdge}
  {path : List String} {new : WorkflowCanvasNode} {edge : WorkflowCanvasEdge}

theorem head?_append_cons {α : Type} (l : List α) (a : α) (r r' : List α) :
    (l ++ a :: r).head? = (l ++ a :: r').head? := by
  cases l <;> rfl

theorem head?_ne_of_nodup {α : Type} {l r : List α} {a b : α} (h : (l ++ a :: b :: r).Nodup) :
    (l ++ a :: b :: r).head? ≠ some b := by
  cases l with
  | nil =>
      intro hab
      simp [Option.some.inj hab] at h
  | cons c l =>
      intro hcb
      simp [Option.some.inj hcb] at h

/-- A new node on an edge. -/
theorem PathOver.insert (h : PathOver ⟨event, nodes, edges⟩ path)
    (hperm : (edge :: rest).Perm edges) (hnew : new.id ∉ nodes.map fun node => node.id)
    (i j : String) :
    SinglePath ⟨event, nodes ++ [new], rest ++ [buildCanvasEdge edge.source new.id "" i,
      buildCanvasEdge new.id edge.target "" j]⟩ := by
  have hline : IsLine path ((edge.source, edge.target) :: ends rest) :=
    h.line.congr (List.Perm.map (fun edge : WorkflowCanvasEdge => (edge.source, edge.target)) hperm)
  obtain ⟨l, r, rfl⟩ := split_of_mem_steps (hline.perm.mem_iff.mp (List.mem_cons_self ..))
  have hfresh : new.id ∉ l ++ edge.source :: edge.target :: r :=
    fun hmem => hnew (h.nodes.mem_iff.mp hmem)
  refine ⟨l ++ edge.source :: new.id :: edge.target :: r, ?_, ?_, ?_, ?_⟩
  · show IsLine _ (List.map _ (rest ++ _))
    rw [List.map_append]
    exact hline.insert hfresh
  · refine (perm_insert l edge.source new.id _).trans ((h.nodes.cons _).trans ?_)
    show List.Perm _ (List.map _ (nodes ++ [new]))
    rw [List.map_append]
    exact (List.perm_append_singleton _ _).symm
  · obtain ⟨node, hnode, hhead, htype⟩ := h.trigger
    exact ⟨node, List.mem_append_left _ hnode, (head?_append_cons ..).trans hhead, htype⟩
  · intro e he
    rcases List.mem_append.mp he with he | he
    · exact h.branch e (hperm.mem_iff.mp (List.mem_cons_of_mem _ he))
    · rcases List.mem_pair.mp he with rfl | rfl <;> rfl

/-- A new node after the last one. -/
theorem PathOver.concat (h : PathOver ⟨event, nodes, edges⟩ path) {last : String}
    (hmem : last ∈ nodes.map fun node => node.id) (hlast : ∀ edge ∈ edges, edge.source ≠ last)
    (hnew : new.id ∉ nodes.map fun node => node.id) (i : String) :
    SinglePath ⟨event, nodes ++ [new], edges ++ [buildCanvasEdge last new.id "" i]⟩ := by
  obtain ⟨l, rfl⟩ : ∃ l, path = l ++ [last] := by
    apply h.line.eq_concat (h.nodes.mem_iff.mpr hmem)
    intro hsource
    obtain ⟨_, hpair, heq⟩ := List.mem_map.mp hsource
    obtain ⟨edge, hedge, rfl⟩ := List.mem_map.mp hpair
    exact hlast edge hedge heq
  have hfresh : new.id ∉ l ++ [last] := fun hin => hnew (h.nodes.mem_iff.mp hin)
  refine ⟨l ++ [last, new.id], ?_, ?_, ?_, ?_⟩
  · show IsLine _ (List.map _ (edges ++ _))
    rw [List.map_append]
    exact h.line.concat hfresh
  · show List.Perm _ (List.map _ (nodes ++ [new]))
    rw [List.map_append]
    have happend : l ++ [last, new.id] = (l ++ [last]) ++ [new.id] := by simp
    rw [happend]
    exact h.nodes.append_right _
  · obtain ⟨node, hnode, hhead, htype⟩ := h.trigger
    exact ⟨node, List.mem_append_left _ hnode, (head?_append_cons ..).trans hhead, htype⟩
  · intro e he
    rcases List.mem_append.mp he with he | he
    · exact h.branch e he
    · rw [List.mem_singleton.mp he]
      rfl

/-! ### Removed nodes -/

/-- The edges that are left when a node is removed. -/
def edgesWithout (edges : List WorkflowCanvasEdge) (nodeId : String) : List WorkflowCanvasEdge :=
  edges.filter fun edge => edge.source != nodeId && edge.target != nodeId

/-- The one edge into a node of the path. -/
theorem PathOver.incoming (h : PathOver ⟨event, nodes, edges⟩ path) (hedge : edge ∈ edges) :
    edges.filter (fun e => e.target == edge.target) = [edge] ∧
      (edge :: edges.filter fun e => e.target != edge.target).Perm edges := by
  have hnodup : (edges.map fun edge => edge.target).Nodup := by
    have := h.line.nodup_snd
    rwa [ends, List.map_map] at this
  exact ⟨filter_key_eq hnodup hedge, perm_cons_filter_key_ne hnodup hedge⟩

/-- The one edge out of it. -/
theorem PathOver.outgoing (h : PathOver ⟨event, nodes, edges⟩ path) (hedge : edge ∈ edges) :
    edges.filter (fun e => e.source == edge.source) = [edge] ∧
      (edge :: edges.filter fun e => e.source != edge.source).Perm edges := by
  have hnodup : (edges.map fun edge => edge.source).Nodup := by
    have := h.line.nodup_fst
    rwa [ends, List.map_map] at this
  exact ⟨filter_key_eq hnodup hedge, perm_cons_filter_key_ne hnodup hedge⟩

/-- The edge of a step of the path. -/
theorem PathOver.edge_of_step (h : PathOver ⟨event, nodes, edges⟩ path) {a b : String}
    (hstep : (a, b) ∈ steps path) : ∃ edge ∈ edges, edge.source = a ∧ edge.target = b := by
  obtain ⟨edge, hedge, heq⟩ := List.mem_map.mp (h.line.perm.mem_iff.mpr hstep)
  obtain ⟨hsource, htarget⟩ := Prod.mk.inj heq
  exact ⟨edge, hedge, hsource, htarget⟩

/-- The ids that are left. -/
theorem perm_ids_filter (l r : List String) (nodeId : String) (nodes : List WorkflowCanvasNode)
    (hnodes : (l ++ nodeId :: r).Perm (nodes.map fun node => node.id))
    (hnodup : (l ++ nodeId :: r).Nodup) :
    (l ++ r).Perm ((nodes.filter fun node => node.id != nodeId).map fun node => node.id) := by
  have hfilter := hnodes.filter (· != nodeId)
  rw [List.filter_map] at hfilter
  refine List.Perm.trans (List.Perm.of_eq ?_) hfilter
  have hnotMem : nodeId ∉ l ++ r :=
    (List.nodup_cons.mp ((List.perm_middle.nodup_iff).mp hnodup)).1
  rw [List.filter_append, List.filter_cons_of_neg (by simp), ← List.filter_append,
    List.filter_eq_self.mpr]
  intro x hx
  simpa using fun heq : x = nodeId => hnotMem (heq ▸ hx)

/-- The trigger at the head stays. -/
theorem PathOver.trigger_filter {nodeId : String} (h : PathOver ⟨event, nodes, edges⟩ path)
    (hhead : path.head? ≠ some nodeId) :
    ∃ node ∈ nodes.filter fun node => node.id != nodeId,
      path.head? = some node.id ∧ node.draft.type = .trigger := by
  obtain ⟨node, hnode, hid, htype⟩ := h.trigger
  refine ⟨node, List.mem_filter.mpr ⟨hnode, ?_⟩, hid, htype⟩
  simpa using fun heq : node.id = nodeId => hhead (heq ▸ hid)

/-- **A node between two others is taken out of the path.** -/
theorem PathOver.without {l r : List String} {a b nodeId : String}
    (h : PathOver ⟨event, nodes, edges⟩ (l ++ a :: nodeId :: b :: r)) (i : String) :
    (∃ incoming outgoing, edges.filter (fun edge => edge.target == nodeId) = [incoming] ∧
      edges.filter (fun edge => edge.source == nodeId) = [outgoing] ∧
      incoming.source = a ∧ outgoing.target = b) ∧
    PathOver ⟨event, nodes.filter fun node => node.id != nodeId,
      edges.filter (fun edge => edge.source != nodeId && edge.target != nodeId) ++
        [buildCanvasEdge a b "" i]⟩ (l ++ a :: b :: r) := by
  have hnodup := h.line.nodup
  have hsteps : (a, nodeId) ∈ steps (l ++ a :: nodeId :: b :: r) ∧
      (nodeId, b) ∈ steps (l ++ a :: nodeId :: b :: r) := by
    rw [steps_append, steps_cons_cons, steps_cons_cons]
    simp
  -- one edge leads to the node and one away from it, as on every path
  obtain ⟨incoming, hincoming, rfl, rfl⟩ := h.edge_of_step hsteps.1
  obtain ⟨outgoing, houtgoing, hsource, rfl⟩ := h.edge_of_step hsteps.2
  have hne : outgoing.target ≠ incoming.target := by
    intro heq
    rw [heq] at hnodup
    have := (List.nodup_append.mp hnodup).2.1
    simp at this
  obtain ⟨hin, hinPerm⟩ := h.incoming hincoming
  have hout := (h.outgoing houtgoing).1
  rw [hsource] at hout
  have hkeys : (edges.map fun edge => edge.source).Nodup := by
    have := h.line.nodup_fst
    rwa [ends, List.map_map] at this
  -- the other edges have nothing to do with the node
  have hperm : (incoming :: outgoing :: edges.filter fun edge =>
      edge.source != incoming.target && edge.target != incoming.target).Perm edges := by
    have hmem : outgoing ∈ edges.filter fun e => e.target != incoming.target :=
      List.mem_filter.mpr ⟨houtgoing, by simpa using hne⟩
    have hrest := perm_cons_filter_key_ne
      (f := fun edge : WorkflowCanvasEdge => edge.source)
      (hkeys.sublist (List.Sublist.map _ List.filter_sublist)) hmem
    rw [hsource, List.filter_filter] at hrest
    exact (hrest.cons _).trans hinPerm
  refine ⟨⟨incoming, outgoing, hin, hout, rfl, rfl⟩, ?_, ?_, ?_, ?_⟩
  · show IsLine _ (List.map _ (_ ++ _))
    rw [List.map_append]
    refine IsLine.erase (h.line.congr ?_)
    have := hperm.map fun edge => (edge.source, edge.target)
    rwa [List.map_cons, List.map_cons, hsource] at this
  · have hids := perm_ids_filter (l ++ [incoming.source]) (outgoing.target :: r) incoming.target
      nodes (by simpa [WorkflowCanvas.ids] using h.nodes) (by simpa using hnodup)
    simpa [WorkflowCanvas.ids] using hids
  · have hhead := h.trigger_filter (head?_ne_of_nodup hnodup)
    rwa [head?_append_cons l incoming.source _ (outgoing.target :: r)] at hhead
  · intro e he
    rcases List.mem_append.mp he with he | he
    · exact h.branch e (List.mem_of_mem_filter he)
    · rw [List.mem_singleton.mp he]
      rfl

/-- The last node is taken off the path. -/
theorem PathOver.withoutLast {l : List String} {a nodeId : String}
    (h : PathOver ⟨event, nodes, edges⟩ (l ++ [a, nodeId])) :
    edges.filter (fun edge => edge.source == nodeId) = [] ∧
    PathOver ⟨event, nodes.filter fun node => node.id != nodeId,
      edges.filter fun edge => edge.source != nodeId && edge.target != nodeId⟩ (l ++ [a]) := by
  have hnodup := h.line.nodup
  have hstep : (a, nodeId) ∈ steps (l ++ [a, nodeId]) := by
    rw [steps_concat]
    simp
  obtain ⟨incoming, hincoming, rfl, rfl⟩ := h.edge_of_step hstep
  have hin := (h.incoming hincoming).2
  -- no edge starts from the last node
  have hlast : ∀ e ∈ edges, e.source ≠ incoming.target := by
    intro e he heq
    have hmem := (h.line.perm.map Prod.fst).mem_iff.mp
      (List.mem_map_of_mem (List.mem_map_of_mem he))
    rw [map_fst_steps] at hmem
    have hsplit : l ++ [incoming.source, incoming.target] =
        (l ++ [incoming.source]) ++ [incoming.target] := by simp
    rw [hsplit, List.dropLast_concat] at hmem
    rw [hsplit] at hnodup
    exact (List.nodup_append.mp hnodup).2.2 _ hmem _ (List.mem_singleton_self _) heq
  have hfilter : (edges.filter fun edge => edge.source != incoming.target &&
      edge.target != incoming.target) = edges.filter fun e => e.target != incoming.target := by
    apply List.filter_congr
    intro e he
    simp [hlast e he]
  refine ⟨?_, ?_, ?_, ?_, ?_⟩
  · rw [List.filter_eq_nil_iff]
    intro e he
    simpa using hlast e he
  · rw [hfilter]
    refine IsLine.dropLast (h.line.congr ?_)
    exact hin.map fun edge => (edge.source, edge.target)
  · have hids := perm_ids_filter (l ++ [incoming.source]) [] incoming.target nodes
      (by simpa [WorkflowCanvas.ids] using h.nodes) (by simpa using hnodup)
    simpa [WorkflowCanvas.ids] using hids
  · have hhead := h.trigger_filter (head?_ne_of_nodup hnodup)
    rwa [head?_append_cons l incoming.source _ []] at hhead
  · exact fun e he => h.branch e (List.mem_of_mem_filter he)

end Paths

/-! ### Distinct ids -/

/-- Something else than white space is kept. -/
theorem trim_ne_empty {s : String} {c : Char} (hc : c ∈ s.toList) (hspace : ¬ isWhiteSpace c) :
    trim s ≠ "" := by
  intro hempty
  have hnil : (s.toList.dropWhile isWhiteSpace).rdropWhile isWhiteSpace = [] := by
    have := congrArg String.toList hempty
    rwa [trim, String.toList_ofList] at this
  rw [List.rdropWhile_eq_nil_iff] at hnil
  have hrest : s.toList.dropWhile isWhiteSpace = [] := by
    by_contra hne
    have hfirst := List.dropWhile_get_zero_not isWhiteSpace s.toList (List.length_pos_of_ne_nil hne)
    exact hfirst (hnil _ (List.getElem_mem _))
  exact hspace (List.dropWhile_eq_nil_iff.mp hrest c hc)

/-- A new draft has an id that is not blank. -/
theorem createNodeDraft_id_ne (type : WorkflowNodeType) (channel : Option String)
    (random : String) : trim (createNodeDraft type channel random).id ≠ "" := by
  have hspace : ¬ isWhiteSpace '_' := by decide
  refine trim_ne_empty ?_ hspace
  cases type <;> simp [createNodeDraft, StepType.toString]

section Ids

variable {event : String} {nodes : List WorkflowCanvasNode} {edges rest : List WorkflowCanvasEdge}
  {new : WorkflowCanvasNode}

/-- Some edges are gone, others are new. -/
theorem Distinct.replace {newEdges : List WorkflowCanvasEdge} (h : Distinct ⟨event, nodes, edges⟩)
    (hrest : rest.Sublist edges) (hnew : (newEdges.map fun edge => edge.id).Nodup)
    (hfresh : ∀ edge ∈ newEdges, edge.id ∉ edges.map fun edge => edge.id) :
    Distinct ⟨event, nodes, rest ++ newEdges⟩ := by
  refine ⟨?_, h.drafts, h.drafts_ne⟩
  show (List.map _ (rest ++ newEdges)).Nodup
  rw [List.map_append, List.nodup_append]
  refine ⟨h.edges.sublist (hrest.map _), hnew, ?_⟩
  rintro id hid _ hid' rfl
  obtain ⟨edge, hedge, rfl⟩ := List.mem_map.mp hid'
  exact hfresh edge hedge ((hrest.map _).subset hid)

/-- One more draft. -/
theorem Distinct.concat (h : Distinct ⟨event, nodes, edges⟩)
    (hnew : trim new.draft.id ∉ nodes.map fun node => trim node.draft.id)
    (hne : trim new.draft.id ≠ "") : Distinct ⟨event, nodes ++ [new], edges⟩ := by
  have hids : WorkflowCanvas.draftIds ⟨event, nodes ++ [new], edges⟩ =
      WorkflowCanvas.draftIds ⟨event, nodes, edges⟩ ++ [trim new.draft.id] := by
    show List.map _ (nodes ++ [new]) = _
    rw [List.map_append]
    rfl
  refine ⟨h.edges, ?_, ?_⟩
  · rw [hids, List.nodup_append]
    refine ⟨h.drafts, List.nodup_singleton _, ?_⟩
    rintro id hid _ hid' rfl
    exact hnew (List.mem_singleton.mp hid' ▸ hid)
  · rw [hids]
    intro hmem
    rcases List.mem_append.mp hmem with hmem | hmem
    · exact h.drafts_ne hmem
    · exact hne (List.mem_singleton.mp hmem).symm

/-- Some drafts are gone. -/
theorem Distinct.filter (h : Distinct ⟨event, nodes, edges⟩) (p : WorkflowCanvasNode → Bool) :
    Distinct ⟨event, nodes.filter p, edges⟩ where
  edges := h.edges
  drafts := h.drafts.sublist (List.filter_sublist.map _)
  drafts_ne hmem := h.drafts_ne ((List.filter_sublist.map _).subset hmem)

end Ids

/-! ### One action -/

/-- The canvas is one path, and ids tell things apart on it. -/
structure InOrder (canvas : WorkflowCanvas) : Prop where
  path : SinglePath canvas
  distinct : Distinct canvas

/-- A node that is not on the canvas. -/
structure IsNew (canvas : WorkflowCanvas) (new : WorkflowCanvasNode) : Prop where
  node : new.id ∉ canvas.ids
  draft : trim new.draft.id ∉ canvas.draftIds
  draft_ne : trim new.draft.id ≠ ""

section Actions

variable {layout : Layout} {random : Random} {canvas : WorkflowCanvas} {event : String}
  {nodes : List WorkflowCanvasNode} {edges rest : List WorkflowCanvasEdge}
  {new : WorkflowCanvasNode} {edge : WorkflowCanvasEdge}

theorem InOrder.laidOut (h : InOrder ⟨event, nodes, edges⟩) :
    InOrder ⟨event, layoutCanvasGraph layout nodes edges, edges⟩ := by
  obtain ⟨path, hpath⟩ := h.path
  exact ⟨⟨path, hpath.shows shows_layout⟩, h.distinct.shows shows_layout⟩

/-- A new node on an edge. -/
theorem InOrder.insert (h : InOrder ⟨event, nodes, edges⟩) (hnew : IsNew ⟨event, nodes, edges⟩ new)
    (hperm : (edge :: rest).Perm edges) (hrest : rest.Sublist edges) {i j : String}
    (hi : createCanvasEdgeId i ∉ WorkflowCanvas.edgeIds ⟨event, nodes, edges⟩)
    (hj : createCanvasEdgeId j ∉ WorkflowCanvas.edgeIds ⟨event, nodes, edges⟩)
    (hne : createCanvasEdgeId i ≠ createCanvasEdgeId j) :
    InOrder ⟨event, nodes ++ [new], rest ++ [buildCanvasEdge edge.source new.id "" i,
      buildCanvasEdge new.id edge.target "" j]⟩ := by
  obtain ⟨path, hpath⟩ := h.path
  refine ⟨hpath.insert hperm hnew.node i j, ?_⟩
  refine (h.distinct.concat hnew.draft hnew.draft_ne).replace hrest ?_ ?_
  · simpa [buildCanvasEdge] using hne
  · intro e he
    rcases List.mem_pair.mp he with rfl | rfl
    · exact hi
    · exact hj

/-- A new node after the last one. -/
theorem InOrder.concat (h : InOrder ⟨event, nodes, edges⟩) (hnew : IsNew ⟨event, nodes, edges⟩ new)
    {last : String} (hmem : last ∈ nodes.map fun node => node.id)
    (hlast : ∀ edge ∈ edges, edge.source ≠ last) {i : String}
    (hi : createCanvasEdgeId i ∉ WorkflowCanvas.edgeIds ⟨event, nodes, edges⟩) :
    InOrder ⟨event, nodes ++ [new], edges ++ [buildCanvasEdge last new.id "" i]⟩ := by
  obtain ⟨path, hpath⟩ := h.path
  refine ⟨hpath.concat hmem hlast hnew.node i, ?_⟩
  refine (h.distinct.concat hnew.draft hnew.draft_ne).replace (List.Sublist.refl _)
    (List.nodup_singleton _) ?_
  intro e he
  rw [List.mem_singleton.mp he]
  exact hi

@[simp] theorem terminalSource_terminal (last : String) :
    terminalSource ("terminal:" ++ last) = some last := by
  have hdrop : ("terminal:" ++ last).toList.dropPrefix? "terminal:".toList = some last.toList :=
    List.dropPrefix?_eq_some_iff.mpr ⟨_, String.toList_append, by simp⟩
  rw [terminalSource, hdrop, Option.map_some, String.ofList_toList]

/-- A new node is put onto an edge, or after the last node. -/
theorem InOrder.insertNodeOnEdge {edgeId : String} {type : WorkflowNodeType}
    {channel : Option String} (h : InOrder canvas)
    (hallowed : Allowed canvas (.insertNodeOnEdge edgeId type channel))
    (hfresh : Fresh random canvas (.insertNodeOnEdge edgeId type channel)) :
    InOrder (insertNodeOnEdgeAction layout random canvas edgeId type channel) := by
  obtain ⟨event, nodes, edges⟩ := canvas
  have hnew : IsNew ⟨event, nodes, edges⟩
      (buildCanvasNode (createNodeDraft type channel (random 0)) (random 1)) :=
    ⟨hfresh.node, hfresh.draft _ rfl, createNodeDraft_id_ne type channel (random 0)⟩
  unfold insertNodeOnEdgeAction
  rcases hfind : edges.find? (fun edge => edge.id == edgeId) with - | currentEdge
  · -- no edge has this id: it is the terminal edge of the last node
    cases hallowed with
    | onEdge edge hedge =>
        have hnone := List.find?_eq_none.mp hfind edge hedge
        simp at hnone
    | atEnd last hmem hlast =>
        have hany : (nodes.any fun node => node.id == last) = true := by
          obtain ⟨node, hnode, rfl⟩ := List.mem_map.mp hmem
          exact List.any_eq_true.mpr ⟨node, hnode, by simp⟩
        simp only [hfind, terminalSource_terminal, hany, if_true, addConnectedNodeAction]
        exact (h.concat hnew hmem hlast (hfresh.edge 2 (by simp))).laidOut
  · have hmem := List.mem_of_find?_eq_some hfind
    have hid : currentEdge.id = edgeId := by simpa using List.find?_some hfind
    have hperm := perm_cons_filter_key_ne
      (f := fun edge : WorkflowCanvasEdge => edge.id) h.distinct.edges hmem
    rw [hid] at hperm
    simp only [hfind]
    exact (h.insert hnew hperm List.filter_sublist (hfresh.edge 2 (by simp))
      (hfresh.edge 3 (by simp)) hfresh.edges).laidOut

/-- A duplicate follows the node it is made from. -/
theorem InOrder.duplicateNode {nodeId : String} (h : InOrder canvas)
    (hfresh : Fresh random canvas (.duplicateNode nodeId)) :
    InOrder (duplicateNodeAction layout random canvas nodeId) := by
  obtain ⟨event, nodes, edges⟩ := canvas
  unfold duplicateNodeAction
  rcases hfind : nodes.find? (fun node => node.id == nodeId) with - | currentNode
  · simpa only [hfind] using h
  by_cases htype : currentNode.draft.type = .trigger
  · simpa only [hfind, htype, if_true] using h
  simp only [hfind, if_neg htype]
  have hid : currentNode.id = nodeId := by simpa using List.find?_some hfind
  have hmem : nodeId ∈ nodes.map fun node => node.id :=
    hid ▸ List.mem_map_of_mem (List.mem_of_find?_eq_some hfind)
  have hnew : IsNew ⟨event, nodes, edges⟩
      (buildCanvasNode (duplicatedDraft currentNode.draft (random 0)) (random 1)) := by
    refine ⟨hfresh.node, hfresh.draft _ ?_, createNodeDraft_id_ne _ _ (random 0)⟩
    simp only [newDraftId, hfind]
    rfl
  rcases hout : edges.filter (fun edge => edge.source == nodeId) with - | ⟨edge, others⟩
  · -- nothing follows the node
    have hlast : ∀ edge ∈ edges, edge.source ≠ nodeId := by
      intro edge hedge
      simpa using List.filter_eq_nil_iff.mp hout edge hedge
    have hfilter : (edges.filter fun edge => edge.source != nodeId) = edges := by
      rw [List.filter_eq_self]
      intro edge hedge
      simpa using hlast edge hedge
    simp only [hout, hfilter, List.head?_nil, Option.map_none, Option.toList_none, List.append_nil]
    exact (h.concat hnew hmem hlast (hfresh.edge 2 (by simp))).laidOut
  · -- the copy goes between the node and what follows it
    obtain ⟨hedge, hsource⟩ := List.mem_filter.mp (hout ▸ List.mem_cons_self ..)
    rw [beq_iff_eq] at hsource
    subst hsource
    obtain ⟨path, hpath⟩ := h.path
    have hperm := (hpath.outgoing hedge).2
    simp only [hout, List.head?_cons, Option.map_some, Option.toList_some, List.append_assoc]
    exact (h.insert hnew hperm List.filter_sublist (hfresh.edge 2 (by simp))
      (hfresh.edge 3 (by simp)) hfresh.edges).laidOut

/-- What is removed is bridged. -/
theorem InOrder.removeNode {nodeId : String} (h : InOrder canvas)
    (hkind : ∀ node ∈ canvas.nodes, node.id = nodeId → node.draft.type ≠ .trigger)
    (hfresh : Fresh random canvas (.removeNode nodeId)) :
    InOrder (removeNodeAction layout random canvas nodeId) := by
  obtain ⟨event, nodes, edges⟩ := canvas
  obtain ⟨path, hpath⟩ := h.path
  obtain ⟨trigger, htrigger, hhead, htype⟩ := hpath.trigger
  have hne : trigger.id ≠ nodeId := fun heq => hkind trigger htrigger heq htype
  -- the trigger stays
  have hleft : (nodes.filter fun node => node.id != nodeId) ≠ [] :=
    List.ne_nil_of_mem (List.mem_filter.mpr ⟨htrigger, by simpa using hne⟩)
  have hdistinct := h.distinct.filter fun node => node.id != nodeId
  unfold removeNodeAction
  simp only [if_neg hleft]
  by_cases hmem : nodeId ∈ path
  · obtain ⟨before, after, rfl⟩ := List.append_of_mem hmem
    rcases List.eq_nil_or_concat before with rfl | ⟨l, a, rfl⟩
    · exact absurd (Option.some.inj hhead).symm hne
    rw [List.concat_eq_append, List.append_assoc, List.singleton_append] at hpath
    cases after with
    | nil =>
        -- the last node of the path goes with the edge that led to it
        obtain ⟨hout, hrest⟩ := hpath.withoutLast
        have hshort : InOrder ⟨event, nodes.filter fun node => node.id != nodeId,
            edges.filter fun edge => edge.source != nodeId && edge.target != nodeId⟩ := by
          refine ⟨⟨_, hrest⟩, ?_⟩
          rw [← List.append_nil (edges.filter _)]
          exact hdistinct.replace List.filter_sublist List.nodup_nil (by simp)
        simp only [hout]
        split
        · next hcons => cases hcons
        · rw [List.append_nil]
          exact hshort.laidOut
    | cons b r =>
        -- any other leaves two edges, which become one
        obtain ⟨⟨incoming, outgoing, hin, hout, rfl, rfl⟩, hrest⟩ := hpath.without (random 1)
        -- the new edge does not lead from a node to itself
        have hends : incoming.source ≠ outgoing.target := by
          intro heq
          have hnodup := (List.nodup_append.mp hrest.line.nodup).2.1
          simp [heq] at hnodup
        simp only [hin, hout, if_neg hends]
        refine InOrder.laidOut ⟨⟨_, hrest⟩, ?_⟩
        refine hdistinct.replace List.filter_sublist (List.nodup_singleton _) ?_
        intro edge hedge
        rw [List.mem_singleton.mp hedge]
        exact hfresh.edge 1 (by simp)
  · -- there is no such node
    have hnodes : (nodes.filter fun node => node.id != nodeId) = nodes := by
      rw [List.filter_eq_self]
      intro node hnode
      have hne' : node.id ≠ nodeId := fun heq =>
        hmem (hpath.nodes.mem_iff.mpr (heq ▸ List.mem_map_of_mem hnode))
      simpa using hne'
    have hends : ∀ edge ∈ edges, edge.source ≠ nodeId ∧ edge.target ≠ nodeId := by
      intro edge hedge
      have hpair : (edge.source, edge.target) ∈ ends edges := List.mem_map_of_mem hedge
      exact ⟨fun heq => hmem (heq ▸ hpath.line.mem_fst hpair),
        fun heq => hmem (heq ▸ hpath.line.mem_snd hpair)⟩
    have hedges : (edges.filter fun edge => edge.source != nodeId && edge.target != nodeId)
        = edges := by
      rw [List.filter_eq_self]
      intro edge hedge
      simpa using hends edge hedge
    have hin : (edges.filter fun edge => edge.target == nodeId) = [] := by
      rw [List.filter_eq_nil_iff]
      intro edge hedge
      simpa using (hends edge hedge).2
    simp only [hnodes, hedges, hin, List.append_nil]
    exact h.laidOut

/-- An update that keeps the id and the type of a draft. -/
theorem InOrder.updateNodeDraft {nodeId : String} {updater : BuilderNodeDraft → BuilderNodeDraft}
    (h : InOrder canvas) (hid : ∀ draft, (updater draft).id = draft.id)
    (htype : ∀ draft, (updater draft).type = draft.type) :
    InOrder { canvas with nodes := canvas.nodes.map (updatedNode nodeId updater) } := by
  have hnode : ∀ node, (updatedNode nodeId updater node).id = node.id ∧
      (updatedNode nodeId updater node).draft.id = node.draft.id ∧
      (updatedNode nodeId updater node).draft.type = node.draft.type := by
    intro node
    unfold updatedNode
    split
    · exact ⟨rfl, hid _, htype _⟩
    · exact ⟨rfl, rfl, rfl⟩
  have hids : (canvas.nodes.map (updatedNode nodeId updater)).map (fun node => node.id) =
      canvas.ids := by
    rw [List.map_map]
    exact List.map_congr_left fun node _ => (hnode node).1
  have hdrafts : (canvas.nodes.map (updatedNode nodeId updater)).map
      (fun node => trim node.draft.id) = canvas.draftIds := by
    rw [List.map_map]
    exact List.map_congr_left fun node _ => congrArg trim (hnode node).2.1
  obtain ⟨path, hpath⟩ := h.path
  refine ⟨⟨path, hpath.line, ?_, ?_, hpath.branch⟩, h.distinct.edges, ?_, ?_⟩
  · exact hpath.nodes.trans (List.Perm.of_eq hids.symm)
  · obtain ⟨node, hmem, hhead, hkind⟩ := hpath.trigger
    refine ⟨_, List.mem_map_of_mem hmem, ?_, (hnode node).2.2.trans hkind⟩
    rw [(hnode node).1]
    exact hhead
  · rw [WorkflowCanvas.draftIds, hdrafts]
    exact h.distinct.drafts
  · rw [WorkflowCanvas.draftIds, hdrafts]
    exact h.distinct.drafts_ne

end Actions

/-- **One action keeps the canvas in order.** -/
theorem InOrder.step {canvas canvas' : WorkflowCanvas} (h : InOrder canvas)
    (hstep : Step canvas canvas') : InOrder canvas' := by
  obtain ⟨layout, random, action, hallowed, hfresh, rfl⟩ := hstep
  cases hallowed with
  | onEdge edge hedge type channel => exact h.insertNodeOnEdge (.onEdge edge hedge ..) hfresh
  | atEnd last hmem hlast type channel => exact h.insertNodeOnEdge (.atEnd last hmem hlast ..) hfresh
  | duplicate nodeId => exact h.duplicateNode hfresh
  | remove nodeId hkind => exact h.removeNode hkind hfresh
  | update nodeId updater hid htype => exact h.updateNodeDraft hid htype
  | layout => exact h.laidOut

/-- And so does every run of actions. -/
theorem InOrder.run {canvas canvas' : WorkflowCanvas} (h : InOrder canvas)
    (hrun : ReflTransGen Step canvas canvas') : InOrder canvas' := by
  induction hrun with
  | refl => exact h
  | tail _ hstep ih => exact ih.step hstep

/-! ### What is exported -/

/-- The nodes as `buildDraftFromCanvas` orders them first. -/
def ordered (canvas : WorkflowCanvas) : List WorkflowCanvasNode :=
  canvas.nodes.insertionSort fun a b => a.position.notAfter b.position

/-- The nodes of what is exported. -/
theorem mem_exported {canvas : WorkflowCanvas} {node : Node} :
    node ∈ (exported canvas).nodes ↔ ∃ canvasNode ∈ canvas.nodes,
      node = ⟨trim canvasNode.draft.id, canvasNode.draft.type, draftConfig canvasNode.draft⟩ := by
  have hmem : ∀ draft, draft ∈ (buildDraftFromCanvas canvas).nodes ↔
      ∃ canvasNode ∈ canvas.nodes, canvasNode.draft = draft := by
    intro draft
    rw [(perm_buildDraftFromCanvas canvas).mem_iff, List.mem_map]
  simp only [exported, workflowDefinitionFromBuilderDraft, List.mem_map, hmem]
  constructor
  · rintro ⟨draft, ⟨canvasNode, hnode, rfl⟩, rfl⟩
    exact ⟨canvasNode, hnode, rfl⟩
  · rintro ⟨canvasNode, hnode, rfl⟩
    exact ⟨_, ⟨canvasNode, hnode, rfl⟩, rfl⟩

theorem mem_seenNodeIDs_exported {canvas : WorkflowCanvas} {id : String} :
    id ∈ seenNodeIDs (exported canvas) ↔ id ∈ canvas.draftIds := by
  simp only [mem_seenNodeIDs, mem_exported, WorkflowCanvas.draftIds, List.mem_map]
  constructor
  · rintro ⟨_, ⟨canvasNode, hnode, rfl⟩, rfl⟩
    exact ⟨canvasNode, hnode, (trim_trim _).symm⟩
  · rintro ⟨canvasNode, hnode, rfl⟩
    exact ⟨_, ⟨canvasNode, hnode, rfl⟩, trim_trim _⟩

/-- **What is exported from a canvas in order passes.** -/
theorem InOrder.validateEdges_eq_nil {canvas : WorkflowCanvas} (h : InOrder canvas) :
    validateEdges (exported canvas) = [] := by
  obtain ⟨path, hpath⟩ := h.path
  let name (id : String) : String := trim (draftIdOf (ordered canvas) id)
  have hids : canvas.ids.Nodup := hpath.nodes.nodup_iff.mp hpath.line.nodup
  have hordered : ((ordered canvas).map fun node => node.id).Nodup :=
    ((List.perm_insertionSort _ canvas.nodes).map _).nodup_iff.mpr hids
  have hname : ∀ node ∈ canvas.nodes, name node.id = trim node.draft.id := by
    intro node hnode
    exact congrArg trim (draftIdOf_eq hordered ((List.mem_insertionSort _).mpr hnode))
  have hperm : (path.map name).Perm canvas.draftIds := by
    refine (hpath.nodes.map name).trans (List.Perm.of_eq ?_)
    rw [WorkflowCanvas.ids, List.map_map]
    exact List.map_congr_left hname
  -- the path of the canvas is one of the definition, under the trimmed draft ids
  have hline : IsLine (path.map name) ((ends canvas.edges).map (Prod.map name name)) :=
    hpath.line.map (hperm.nodup_iff.mpr h.distinct.drafts)
  have hmem : ∀ {id}, id ∈ path → name id ∈ canvas.draftIds := fun hid =>
    hperm.mem_iff.mp (List.mem_map_of_mem hid)
  have hne : ∀ {id}, id ∈ path → name id ≠ "" := fun hid hblank =>
    h.distinct.drafts_ne (hblank ▸ hmem hid)
  have hedge : ∀ edge ∈ (exported canvas).edges, EdgePasses (seenNodeIDs (exported canvas)) edge := by
    intro edge hedge
    obtain ⟨_, hdraft, rfl⟩ := List.mem_map.mp hedge
    obtain ⟨e, he, rfl⟩ := List.mem_map.mp hdraft
    have hpair : (e.source, e.target) ∈ ends canvas.edges := List.mem_map_of_mem he
    have hsource := hpath.line.mem_fst hpair
    have htarget := hpath.line.mem_snd hpair
    constructor <;> simp only [trim_trim, mem_seenNodeIDs_exported]
    · exact hne hsource
    · exact hne htarget
    · exact hmem hsource
    · exact hmem htarget
    · rw [hpath.branch e he]
      rfl
  -- and its edges are those that are exported
  have hends : edgeEnds (exported canvas) = (ends canvas.edges).map (Prod.map name name) := by
    rw [edgeEnds_eq hedge]
    simp only [exported, edges_workflowDefinitionFromBuilderDraft, buildDraftFromCanvas, ends,
      List.map_map]
    apply List.map_congr_left
    intro edge _
    simp [name, ordered]
  obtain ⟨trigger, htrigger, hhead, htype⟩ := hpath.trigger
  obtain ⟨rest, rfl⟩ : ∃ rest, path = trigger.id :: rest := by
    cases path with
    | nil => cases hhead
    | cons id rest => exact ⟨rest, by rw [Option.some.inj hhead]⟩
  rw [validateEdges_eq_nil_iff]
  refine linear_of_isLine hedge (hends ▸ hline) (fun id => ?_) fun id hid => ?_
  · rw [mem_seenNodeIDs_exported]
    exact hperm.mem_iff.symm
  · symm
    rw [← List.mem_singleton, ← hid, triggerNodeIDs, List.mem_eraseDups, List.mem_map]
    refine ⟨_, List.mem_filter.mpr ⟨mem_exported.mpr ⟨trigger, htrigger, rfl⟩, ?_⟩, ?_⟩
    · simpa using htype
    · rw [hname trigger htrigger, trim_trim]

/-- **The builder keeps a workflow on one path**, and what it exports has no issue with its
edges. -/
theorem singlePath_kept {canvas canvas' : WorkflowCanvas} (hpath : SinglePath canvas)
    (hdistinct : Distinct canvas) (hrun : ReflTransGen Step canvas canvas') :
    SinglePath canvas' ∧ validateEdges (exported canvas') = [] := by
  have h := InOrder.run ⟨hpath, hdistinct⟩ hrun
  exact ⟨h.path, h.validateEdges_eq_nil⟩

namespace Sample

/-- A canvas with a trigger and other nodes, given by their ids and the ids of their drafts. -/
def canvas (trigger : String × String) (others : List (String × String))
    (edges : List WorkflowCanvasEdge) : WorkflowCanvas where
  triggerEvent := "user.signup"
  nodes := ⟨trigger.1, ⟨0, 0⟩, { createNodeDraft .trigger none "" with id := trigger.2 }⟩ ::
    others.map fun other =>
      ⟨other.1, ⟨0, 1⟩, { createNodeDraft .delay none "" with id := other.2 }⟩
  edges := edges

/-- A path of two nodes. -/
def pair : WorkflowCanvas := canvas ("t", "trigger_1") [("x", "delay_x")] [⟨"e", "t", "x", ""⟩]

/-- A path of two nodes whose drafts have ids that are equal when they are trimmed, by the
builder but not by the backend. -/
def twins : WorkflowCanvas := canvas ("t", "a") [("x", "a\uFEFF")] [⟨"e", "t", "x", ""⟩]

/-- A path of three nodes whose edges share an id. -/
def shared : WorkflowCanvas := canvas ("t", "trigger_1") [("x", "delay_x"), ("y", "delay_y")]
  [⟨"e", "t", "x", ""⟩, ⟨"e", "x", "y", ""⟩]

end Sample

theorem singlePath_kept_pair :
    SinglePath (duplicateNodeAction Sample.onOneSpot Sample.random Sample.pair "x") ∧
      validateEdges (exported
        (duplicateNodeAction Sample.onOneSpot Sample.random Sample.pair "x")) = [] := by
  have hpath : SinglePath Sample.pair := ⟨["t", "x"], ⟨by decide, by decide⟩, by decide,
    ⟨_, List.mem_cons_self .., rfl, rfl⟩, by decide⟩
  refine singlePath_kept hpath ⟨by decide, by decide, by decide⟩
    (.single ⟨Sample.onOneSpot, Sample.random, _, .duplicate "x", ?_, rfl⟩)
  refine ⟨by decide, by decide, by decide, fun id h => ?_⟩
  obtain rfl := Option.some.inj h
  decide

/-- Without distinct ids it fails: drafts whose ids are trimmed to the same are taken for one
node, and an insertion on edges that share an id removes both of them. -/
theorem singlePath_not_kept :
    (SinglePath Sample.twins ∧ validateEdges (exported Sample.twins) ≠ []) ∧
      SinglePath Sample.shared ∧
      Step Sample.shared (insertNodeOnEdgeAction Sample.onOneSpot Sample.random Sample.shared "e"
        .delay none) ∧
      ¬ SinglePath (insertNodeOnEdgeAction Sample.onOneSpot Sample.random Sample.shared "e"
        .delay none) := by
  refine ⟨⟨⟨["t", "x"], ⟨by decide, by decide⟩, by decide, ⟨_, List.mem_cons_self .., rfl, rfl⟩,
    by decide⟩, by decide⟩, ⟨["t", "x", "y"], ⟨by decide, by decide⟩, by decide,
    ⟨_, List.mem_cons_self .., rfl, rfl⟩, by decide⟩, ⟨Sample.onOneSpot, Sample.random, _,
    .onEdge ⟨"e", "t", "x", ""⟩ (List.mem_cons_self ..) .delay none, ?_, rfl⟩, ?_⟩
  · refine ⟨by decide, by decide, by decide, fun id h => ?_⟩
    obtain rfl := Option.some.inj h
    decide
  · rintro ⟨path, hpath⟩
    -- four nodes on a line have three edges between them
    have hedges := (hpath.line.perm.map Prod.snd).length_eq
    have hnodes := hpath.nodes.length_eq
    rw [map_snd_steps, List.length_tail, hnodes] at hedges
    revert hedges
    decide

end Iwifunni.Web
