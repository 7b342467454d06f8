/-
Iwifunni/Workflow/Traversal.lean

Can the engine walk a stored definition?

The validator trims ids and stores them untrimmed; the engine trims the id in a
job and compares it with the ids as they are stored:

    firstStepID    node.id ∉ targets          both untrimmed
    findNode       node.id = trim stepID      one trimmed
    nextNodeIDs    edge.source = node.id      both untrimmed

A first step is always found, because there is no cycle.  From there on the
engine keeps up with the validator exactly on definitions whose reachable part
has no white space around its ids (`WellSpelled`).
-/
import Iwifunni.Workflow.Accepted
import Iwifunni.Workflow.Handling
import Iwifunni.Workflow.Sequential

namespace Iwifunni.Workflow

open Go

/-- An edge without a branch. -/
def Edge.Plain (edge : Edge) : Prop := toLower (trimSpace edge.branch) = ""

instance (edge : Edge) : Decidable edge.Plain := by
  unfold Edge.Plain
  infer_instance

/-- The ids reachable from the first step along the stored edges, whose ends are
attributed to nodes as the validator does it. -/
inductive Reaches (row : Db.Workflow) (d : Definition) : String → Prop
  | first {id} : firstStepID row.definitionJson = .ok (some id) → Reaches row d id
  | next {id edge} : Reaches row d id → edge ∈ d.edges →
      trimSpace edge.source = trimSpace id → Reaches row d edge.target

/-- The engine can walk the definition stored in a row: there is a first step, and
a job for any reachable id finds a node, from which every edge without a branch
leads to a node that is found in turn.  `ProcessStep` trims the id of its job
(`readJob`) and looks it up in the row (`locate`). -/
structure Traversable (row : Db.Workflow) (d : Definition) : Prop where
  first : ∃ id, firstStepID row.definitionJson = .ok (some id)
  found : ∀ id, Reaches row d id → ∃ node, trimSpace id ≠ "" ∧
    locate row (trimSpace id) = .ok (d, node) ∧
    ∀ edge ∈ d.edges, trimSpace edge.source = trimSpace node.id → edge.Plain →
      edge.target ∈ nextNodeIDs d node.id "" ∧
        ∃ next, locate row (trimSpace edge.target) = .ok (d, next)

/-- No white space around the ids of reachable nodes, nor around the sources of their
edges without a branch, unless another edge says the same without it. -/
def WellSpelled (row : Db.Workflow) (d : Definition) : Prop :=
  ∀ id, Reaches row d id →
    (∀ node ∈ d.nodes, trimSpace node.id = trimSpace id → node.id = trimSpace node.id) ∧
    ∀ edge ∈ d.edges, trimSpace edge.source = trimSpace id → edge.Plain →
      edge.source = trimSpace edge.source ∨
        ∃ edge' ∈ d.edges, edge'.source = trimSpace edge.source ∧ edge'.target = edge.target

/-! ### The stored row -/

section Stored

variable {current row : Db.Workflow} {d : Definition}

/-- Only what the validator accepts is stored, and it is stored as it is. -/
theorem withDefinition_ok (h : withDefinition current d = .ok row) :
    Accepted d ∧ row.definitionJson = some (marshalDefinition d) := by
  unfold withDefinition at h
  rcases hv : validateDefinition d with e | u
  · rw [hv] at h
    cases h
  · rw [hv] at h
    cases h
    exact ⟨accepted_of_validateDefinition hv, rfl⟩

theorem locate_stored (hrow : row.definitionJson = some (marshalDefinition d)) (id : String) :
    locate row id = (findNode d id).map fun node => (d, node) := by
  rw [locate, hrow, parseDefinition_marshalDefinition]

theorem findNode_ok {id : String} (h : ∃ node ∈ d.nodes, node.id = id) :
    ∃ node ∈ d.nodes, findNode d id = .ok node := by
  obtain ⟨node, hmem, hid⟩ := h
  have hsome : (d.nodes.find? fun node => node.id == id).isSome := by
    rw [List.find?_isSome]
    exact ⟨node, hmem, beq_iff_eq.mpr hid⟩
  obtain ⟨found, hfound⟩ := Option.isSome_iff_exists.mp hsome
  refine ⟨found, List.mem_of_find?_eq_some hfound, ?_⟩
  rw [findNode, hfound]

theorem mem_nodes_of_findNode {id : String} {node : Node} (h : findNode d id = .ok node) :
    node ∈ d.nodes := by
  unfold findNode at h
  split at h
  · next hfound =>
    cases h
    exact List.mem_of_find?_eq_some hfound
  · cases h

theorem mem_nextNodeIDs {id target : String} :
    target ∈ nextNodeIDs d id "" ↔ ∃ edge ∈ d.edges, edge.source = id ∧ edge.target = target := by
  simp [nextNodeIDs, and_assoc]

/-- **A first step is always found**: some node has no predecessor, so no edge is
stored with its id as its target. -/
theorem firstStepID_stored (hd : Accepted d)
    (hrow : row.definitionJson = some (marshalDefinition d)) :
    ∃ node ∈ d.nodes, firstStepID row.definitionJson = .ok (some node.id) := by
  have hids : d.ids ≠ [] := by
    rw [Definition.ids, Ne, List.map_eq_nil_iff]
    exact hd.nodes
  obtain ⟨n, hn, hsource⟩ := exists_source hd.acyclic hids
  obtain ⟨node, hmem, rfl⟩ := List.mem_map.mp hn
  have hsome : (d.nodes.find? fun node =>
      !(d.edges.map (·.target)).contains node.id).isSome := by
    rw [List.find?_isSome]
    refine ⟨node, hmem, ?_⟩
    rw [Bool.not_eq_true', List.contains_eq_mem, decide_eq_false_iff_not]
    intro htarget
    obtain ⟨edge, hedge, htarget⟩ := List.mem_map.mp htarget
    refine hsource (trimSpace edge.source) (hd.edge edge hedge).1 ?_
    rw [← htarget]
    exact List.mem_map.mpr ⟨edge, hedge, rfl⟩
  obtain ⟨first, hfirst⟩ := Option.isSome_iff_exists.mp hsome
  refine ⟨first, List.mem_of_find?_eq_some hfirst, ?_⟩
  rw [hrow, firstStepID, parseDefinition_marshalDefinition]
  dsimp only
  rw [hfirst, Option.map_some]

/-- Every reachable id is, up to white space, the id of a node. -/
theorem Reaches.mem_ids (hd : Accepted d)
    (hrow : row.definitionJson = some (marshalDefinition d)) {id : String}
    (h : Reaches row d id) : trimSpace id ∈ d.ids := by
  cases h with
  | first hfirst =>
      obtain ⟨node, hmem, hnode⟩ := firstStepID_stored hd hrow
      rw [hnode] at hfirst
      cases hfirst
      exact List.mem_map.mpr ⟨node, hmem, rfl⟩
  | next _ hedge _ => exact (hd.edge _ hedge).2

/-- The trimmed id says which node is meant. -/
theorem Accepted.node_eq (hd : Accepted d) {node node' : Node} (h : node ∈ d.nodes)
    (h' : node' ∈ d.nodes) (hid : trimSpace node.id = trimSpace node'.id) : node = node' :=
  List.inj_on_of_nodup_map hd.nodup h h' hid

/-- **The engine keeps up with the validator exactly on well-spelled definitions.** -/
theorem traversable_iff_wellSpelled (h : withDefinition current d = .ok row) :
    Traversable row d ↔ WellSpelled row d := by
  obtain ⟨hd, hrow⟩ := withDefinition_ok h
  constructor
  · intro htrav id hid
    obtain ⟨found, -, hfound, hedges⟩ := htrav.found id hid
    have hfoundid : found.id = trimSpace id := locate_id hfound
    have htrim : trimSpace found.id = trimSpace id := by
      rw [hfoundid, trimSpace_trimSpace]
    have hmem : found ∈ d.nodes := by
      rw [locate_stored hrow] at hfound
      rcases hf : findNode d (trimSpace id) with e | node
      · rw [hf] at hfound
        cases hfound
      · rw [hf] at hfound
        cases hfound
        exact mem_nodes_of_findNode hf
    refine ⟨fun node hnode hnodeid => ?_, fun edge hedge hsource hplain => ?_⟩
    · have heq := hd.node_eq hnode hmem (hnodeid.trans htrim.symm)
      rw [heq, htrim, hfoundid]
    · obtain ⟨htarget, -⟩ := hedges edge hedge (hsource.trans htrim.symm) hplain
      obtain ⟨edge', hedge', hsource', htarget'⟩ := mem_nextNodeIDs.mp htarget
      refine Or.inr ⟨edge', hedge', ?_, htarget'⟩
      rw [hsource', hfoundid, hsource]
  · intro hspell
    -- the node a reachable id means is stored under the trimmed id
    have hlocate : ∀ id, Reaches row d id → ∃ node, locate row (trimSpace id) = .ok (d, node) := by
      intro id hid
      obtain ⟨node, hmem, hnode⟩ := List.mem_map.mp (hid.mem_ids hd hrow)
      have hspelled := (hspell id hid).1 node hmem hnode
      obtain ⟨found, -, hfound⟩ := findNode_ok ⟨node, hmem, hspelled.trans hnode⟩
      refine ⟨found, ?_⟩
      rw [locate_stored hrow, hfound]
      rfl
    refine ⟨?_, fun id hid => ?_⟩
    · obtain ⟨node, -, hfirst⟩ := firstStepID_stored hd hrow
      exact ⟨node.id, hfirst⟩
    · obtain ⟨found, hfound⟩ := hlocate id hid
      have hfoundid : found.id = trimSpace id := locate_id hfound
      refine ⟨found, ?_, hfound, fun edge hedge hsource hplain => ?_⟩
      · obtain ⟨node, hmem, hnode⟩ := List.mem_map.mp (hid.mem_ids hd hrow)
        rw [← hnode]
        exact hd.id_ne node hmem
      · have hsourceid : trimSpace edge.source = trimSpace id := by
          rw [hsource, hfoundid, trimSpace_trimSpace]
        refine ⟨mem_nextNodeIDs.mpr ?_, hlocate _ (hid.next hedge hsourceid)⟩
        rcases (hspell id hid).2 edge hedge hsourceid hplain with hspelled | hother
        · exact ⟨edge, hedge, hspelled.trans (hsourceid.trans hfoundid.symm), rfl⟩
        · obtain ⟨edge', hedge', hsource', htarget'⟩ := hother
          exact ⟨edge', hedge', hsource'.trans (hsourceid.trans hfoundid.symm), htarget'⟩

end Stored

/-! ### White space around an id -/

/-- A notification with white space before its id. -/
def padded : Definition where
  trigger := ⟨"user.signup"⟩
  nodes := [Sample.notify " mail"]
  edgeSlice := some []

/-- It is accepted and stored, but the job for its only node does not find it. -/
theorem not_traversable_padded :
    withDefinition (Sample.workflow Sample.single) padded = .ok (Sample.workflow padded) ∧
    firstStepID (Sample.workflow padded).definitionJson = .ok (some " mail") ∧
    locate (Sample.workflow padded) (trimSpace " mail") = .error .invalidWorkflow ∧
    ¬ Traversable (Sample.workflow padded) padded := by
  have hstored : (Sample.workflow padded).definitionJson = some (marshalDefinition padded) := rfl
  have hfirst : firstStepID (Sample.workflow padded).definitionJson = .ok (some " mail") := by
    rw [hstored, firstStepID, parseDefinition_marshalDefinition]
    rfl
  have hmissing : locate (Sample.workflow padded) (trimSpace " mail")
      = .error .invalidWorkflow := by
    rw [locate_stored hstored]
    rfl
  refine ⟨by rfl, hfirst, hmissing, fun htrav => ?_⟩
  obtain ⟨node, -, hfound, -⟩ := htrav.found " mail" (.first hfirst)
  rw [hmissing] at hfound
  cases hfound

/-- A workflow of one notification can be walked. -/
theorem traversable_single :
    Traversable (Sample.workflow Sample.single) Sample.single := by
  have hstored : withDefinition (Sample.workflow padded) Sample.single
      = .ok (Sample.workflow Sample.single) := by rfl
  refine (traversable_iff_wellSpelled hstored).mpr ?_
  intro id _
  refine ⟨fun node hnode _ => ?_, fun edge hedge => by cases hedge⟩
  cases List.mem_singleton.mp hnode
  decide

end Iwifunni.Workflow
