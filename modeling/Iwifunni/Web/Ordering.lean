/-
Iwifunni/Web/Ordering.lean

What the builder accepts is one path.

`validateEdges` looks at the edges from many sides: their ends, their branches, the
start nodes, the degrees, the trigger, cycles, what is reached.  All of it together says
that the nodes can be put in an order such that the edges lead from each to the next:

    order    trigger, x, y, z
    edges    (y, z), (trigger, x), (x, y)       each once, and no others

The checks compare ids trimmed.  So the order is one of nodes, and the edges are the
steps along their trimmed ids (`validateEdges_eq_nil_iff_pathOrder`).
-/
import Iwifunni.Graph.Line
import Iwifunni.Web.Validation

namespace Iwifunni.Web

open Go Workflow Graph Relation

/-! ### Keys -/

/-- The id the checks know a node by. -/
def nodeKey (node : Node) : String := trim node.id

/-- The ends of the edges, trimmed. -/
def trimmedEnds (definition : Definition) : List (String × String) :=
  definition.edges.map fun edge => (trim edge.source, trim edge.target)

/-- An ordering of the nodes such that the edges lead from each to the next.  If there is
one trigger, it is the first. -/
structure PathOrder (definition : Definition) (order : List Node) : Prop where
  perm : order.Perm definition.nodes
  edges : (trimmedEnds definition).Perm (steps (order.map nodeKey))
  trigger : ∀ node, (definition.nodes.filter fun node => node.type = .trigger) = [node] →
    order.head? = some node

/-- The nodes are told apart by their trimmed ids. -/
structure Keyed (definition : Definition) : Prop where
  ne : ∀ node ∈ definition.nodes, nodeKey node ≠ ""
  nodup : (definition.nodes.map nodeKey).Nodup

section

variable {definition : Definition}

theorem Keyed.seenNodeIDs_eq (h : Keyed definition) :
    seenNodeIDs definition = definition.nodes.map nodeKey := eraseDups_eq_self h.nodup

/-- The ids of the triggers, if they are told apart. -/
theorem Keyed.triggerNodeIDs_eq (h : Keyed definition) :
    triggerNodeIDs definition =
      (definition.nodes.filter fun node => node.type = .trigger).map nodeKey :=
  eraseDups_eq_self (h.nodup.sublist (List.filter_sublist.map nodeKey))

theorem Keyed.inj (h : Keyed definition) {node node' : Node} (hnode : node ∈ definition.nodes)
    (hnode' : node' ∈ definition.nodes) (heq : nodeKey node = nodeKey node') : node = node' :=
  List.inj_on_of_nodup_map h.nodup hnode hnode' heq

/-! ### What passes -/

/-- A definition whose edges are a line over its nodes passes. -/
theorem linear_of_isLine {definition : Definition} {start : String} {rest : List String}
    (hedge : ∀ edge ∈ definition.edges, EdgePasses (seenNodeIDs definition) edge)
    (hline : IsLine (start :: rest) (edgeEnds definition))
    (hids : ∀ id, id ∈ seenNodeIDs definition ↔ id ∈ start :: rest)
    (htrigger : ∀ id, triggerNodeIDs definition = [id] → id = start) : Linear definition := by
  have hone : startNodes definition = [start] := by
    have hnodup : (startNodes definition).Nodup := (nodup_eraseDups _).filter _
    apply List.perm_singleton.mp
    refine (List.perm_ext_iff_of_nodup hnodup (List.nodup_singleton _)).mpr fun id => ?_
    -- a node without an edge into it is the head of the line
    have hhead : start ∉ rest := (List.nodup_cons.mp hline.nodup).1
    have hinto : id ∈ (edgeEnds definition).map Prod.snd ↔ id ∈ rest := hline.mem_map_snd
    simp only [startNodes, List.mem_filter, hids, List.mem_cons, List.not_mem_nil, or_false,
      decide_eq_true_eq, List.count_eq_zero, hinto]
    constructor
    · rintro ⟨h | h, hnot⟩
      · exact h
      · exact absurd h hnot
    · rintro rfl
      exact ⟨Or.inl rfl, hhead⟩
  refine ⟨hedge, fun _ => ⟨start, hone⟩, ?_, hline.nodup_fst, hline.nodup_snd, ?_, ?_⟩
  · intro id hid
    rw [htrigger id hid]
    exact hline.head_notMem
  · rintro ⟨id, hcycle⟩
    exact hline.not_transGen_self id hcycle
  · intro id hid x hx
    obtain rfl : start = id := by simpa [hone] using hid
    exact hline.reaches ((hids x).mp hx)

/-- The edges of a definition that passes are a line through the trimmed ids, from the node
nothing leads to. -/
theorem Linear.isLine (h : Linear definition) (hne : seenNodeIDs definition ≠ []) :
    ∃ start rest, startNodes definition = [start] ∧
      IsLine (start :: rest) (edgeEnds definition) ∧
      (start :: rest).Perm (seenNodeIDs definition) := by
  obtain ⟨start, hstart⟩ := h.start hne
  have hmem : start ∈ startNodes definition := hstart ▸ List.mem_singleton_self start
  have hhead : start ∉ (edgeEnds definition).map Prod.snd := by
    have := (List.mem_filter.mp hmem).2
    simpa only [decide_eq_true_eq, List.count_eq_zero] using this
  have hreach : ∀ e ∈ edgeEnds definition,
      ReflTransGen (fun x y => (x, y) ∈ edgeEnds definition) start e.1 := fun e he =>
    h.reaches start hstart e.1 (mem_ids_of_mem_ends he).1
  obtain ⟨rest, hline⟩ := exists_isLine h.nodup_fst h.nodup_snd hhead hreach
  refine ⟨start, rest, hstart, hline, ?_⟩
  refine (List.perm_ext_iff_of_nodup hline.nodup (nodup_eraseDups _)).mpr fun id => ?_
  constructor
  · intro hid
    rcases List.mem_cons.mp hid with rfl | hid
    · exact startNode_mem hmem
    · obtain ⟨e, he, rfl⟩ := List.mem_map.mp (hline.mem_map_snd.mpr hid)
      exact (mem_ids_of_mem_ends he).2
  · intro hid
    rw [List.mem_cons]
    -- the last edge of a path from the start leads into the line
    rcases (h.reaches start hstart id hid).cases_tail with rfl | ⟨x, _, hlead⟩
    · exact Or.inl rfl
    · exact Or.inr (hline.mem_map_snd.mp (List.mem_map_of_mem (f := Prod.snd) hlead))

/-- What passes has an ordering. -/
theorem Linear.pathOrder (h : Linear definition) (hkeyed : Keyed definition)
    (hne : definition.nodes ≠ []) : ∃ order, PathOrder definition order := by
  have hids := hkeyed.seenNodeIDs_eq
  have hsome : seenNodeIDs definition ≠ [] := by
    rw [hids]
    simpa using hne
  obtain ⟨start, rest, hstart, hline, hperm⟩ := h.isLine hsome
  -- the line is a line of keys, which stand for nodes
  rw [hids] at hperm
  obtain ⟨order, hkeys, horder⟩ : ∃ order : List Node, start :: rest = order.map nodeKey ∧
      order.Perm definition.nodes := by
    have hcomp := congrFun (congrFun (List.eq_map_comp_perm nodeKey) (start :: rest))
      definition.nodes
    exact hcomp.mpr hperm
  refine ⟨order, horder, ?_, ?_⟩
  · rw [trimmedEnds, ← edgeEnds_eq h.edge, ← hkeys]
    exact hline.perm
  · intro node htrigger
    have hnode : node ∈ definition.nodes := by
      have : node ∈ definition.nodes.filter fun node => node.type = .trigger :=
        htrigger ▸ List.mem_singleton_self node
      exact (List.mem_filter.mp this).1
    have hone : triggerNodeIDs definition = [nodeKey node] := by
      rw [hkeyed.triggerNodeIDs_eq, htrigger]
      rfl
    have hfirst : nodeKey node ∈ startNodes definition := by
      apply List.mem_filter.mpr
      refine ⟨hids ▸ List.mem_map_of_mem hnode, ?_⟩
      rw [decide_eq_true_eq, List.count_eq_zero]
      exact h.trigger _ hone
    rw [hstart, List.mem_singleton] at hfirst
    cases order with
    | nil => cases hkeys
    | cons head order =>
        obtain ⟨hhead, -⟩ := List.cons.inj hkeys
        have hmem : head ∈ definition.nodes := horder.subset (List.mem_cons_self ..)
        show some head = some node
        rw [hkeyed.inj hmem hnode (hhead.symm.trans hfirst.symm)]

/-- An edge along an ordering, without a branch, passes. -/
theorem PathOrder.edgePasses {order : List Node} (h : PathOrder definition order)
    (hkeyed : Keyed definition) {edge : Edge} (hedge : edge ∈ definition.edges)
    (hbranch : trim edge.branch = "") : EdgePasses (seenNodeIDs definition) edge := by
  have hstep : (trim edge.source, trim edge.target) ∈ steps (order.map nodeKey) :=
    h.edges.mem_iff.mp (List.mem_map_of_mem hedge)
  have hkey : ∀ id ∈ order.map nodeKey, id ∈ seenNodeIDs definition ∧ id ≠ "" := by
    intro id hid
    obtain ⟨node, hnode, rfl⟩ := List.mem_map.mp hid
    have hmem := h.perm.mem_iff.mp hnode
    exact ⟨hkeyed.seenNodeIDs_eq ▸ List.mem_map_of_mem hmem, hkeyed.ne node hmem⟩
  have hsource := hkey _ (List.dropLast_subset _ (fst_mem_of_mem_steps hstep))
  have htarget := hkey _ (List.mem_of_mem_tail (snd_mem_of_mem_steps hstep))
  exact ⟨hsource.2, htarget.2, hsource.1, htarget.1, hbranch⟩

/-- What has an ordering passes. -/
theorem PathOrder.linear {order : List Node} (h : PathOrder definition order)
    (hkeyed : Keyed definition) (hne : definition.nodes ≠ [])
    (hbranch : ∀ edge ∈ definition.edges, trim edge.branch = "") : Linear definition := by
  have hedge : ∀ edge ∈ definition.edges, EdgePasses (seenNodeIDs definition) edge :=
    fun edge hmem => h.edgePasses hkeyed hmem (hbranch edge hmem)
  obtain ⟨first, others, rfl⟩ : ∃ first others, order = first :: others := by
    cases order with
    | nil => exact absurd (List.Perm.nil_eq h.perm).symm hne
    | cons first others => exact ⟨first, others, rfl⟩
  have hperm : ((first :: others).map nodeKey).Perm (seenNodeIDs definition) := by
    rw [hkeyed.seenNodeIDs_eq]
    exact h.perm.map nodeKey
  have hline : IsLine (nodeKey first :: others.map nodeKey) (edgeEnds definition) := by
    refine ⟨?_, ?_⟩
    · exact hperm.nodup_iff.mpr (nodup_eraseDups _)
    · rw [edgeEnds_eq hedge]
      exact h.edges
  refine linear_of_isLine hedge hline (fun id => hperm.mem_iff.symm) fun id hid => ?_
  -- one id of a trigger is one trigger
  rw [hkeyed.triggerNodeIDs_eq] at hid
  obtain ⟨node, hnode, rfl⟩ := List.map_eq_singleton_iff.mp hid
  obtain rfl := Option.some.inj (h.trigger node hnode)
  rfl

/-- **The edges pass if and only if they have no branch and lead along an ordering of all
nodes.** -/
theorem validateEdges_eq_nil_iff_pathOrder (hne : definition.nodes ≠ [])
    (hkeyed : Keyed definition) :
    validateEdges definition = [] ↔
      (∀ edge ∈ definition.edges, trim edge.branch = "") ∧
        ∃ order, PathOrder definition order := by
  rw [validateEdges_eq_nil_iff]
  constructor
  · intro h
    exact ⟨fun edge hedge => (h.edge edge hedge).branch, h.pathOrder hkeyed hne⟩
  · rintro ⟨hbranch, order, horder⟩
    exact horder.linear hkeyed hne hbranch

end

namespace Sample

/-- Two nodes, the second one with spaces around its id, and an edge from one to the other. -/
def spaced : Definition where
  trigger := ⟨"user.signup"⟩
  nodes := [⟨"wait", .delay, none⟩, ⟨" t ", .trigger, none⟩]
  edgeSlice := some [⟨"t", "wait ", ""⟩]

end Sample

theorem validateEdges_eq_nil_iff_pathOrder_spaced :
    validateEdges Sample.spaced = [] ↔
      (∀ edge ∈ Sample.spaced.edges, trim edge.branch = "") ∧
        ∃ order, PathOrder Sample.spaced order :=
  validateEdges_eq_nil_iff_pathOrder (by simp [Sample.spaced]) ⟨by decide, by decide⟩

end Iwifunni.Web
