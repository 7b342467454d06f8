/-
Iwifunni/Web/Issues.lean

Issues and the nodes they are shown at (`store/builder/selectors.ts`,
`hooks/use-workflow-builder.ts`).

An issue says where it was found by a path.  The ones of a node are

    nodes.3.duration     nodes.3.edges     ...

and a node collects what starts with its own path.  But the path of a node is not only the
start of the paths below it:

    nodes.1              is also a start of        nodes.10.duration

So a node is shown the issues of other nodes, whose index starts with its own.  The first
one with such an index is the eleventh (`attributed_iff`).
-/
import Iwifunni.Web.Canvas
import Iwifunni.Web.Validation

namespace Iwifunni.Web

open Go Workflow

/-! ### Collecting issues -/

/-- `s.startsWith(t)`. -/
def startsWith (s t : String) : Bool := t.toList.isPrefixOf s.toList

/-- The path of the node at an index. -/
def nodePath (index : ℕ) : String := "nodes." ++ Nat.repr index

/-- The issues whose path starts with that of the node at an index. -/
def issuesAt (issues : List WorkflowDefinitionIssue) (index : ℕ) : List WorkflowDefinitionIssue :=
  issues.filter fun issue => startsWith issue.path (nodePath index)

/-- `buildNodeIssuesMap`. -/
def buildNodeIssuesMap (nodes : List BuilderNodeDraft) (issues : List WorkflowDefinitionIssue) :
    List (String × List WorkflowDefinitionIssue) :=
  (nodes.mapIdx fun index draftNode => (draftNode.id, issuesAt issues index)).filter
    fun entry => !entry.2.isEmpty

/-- `nodeIssuesById` of `useWorkflowBuilder`. -/
def nodeIssuesById (currentDraft : WorkflowBuilderDraft) (issues : List WorkflowDefinitionIssue) :
    List (String × List WorkflowDefinitionIssue) :=
  buildNodeIssuesMap currentDraft.nodes issues

/-- `map.get(id) || []`. -/
def issuesOf (map : List (String × List WorkflowDefinitionIssue)) (id : String) :
    List WorkflowDefinitionIssue := (Json.lookup map id).getD []

/-- `findIndex`: -1 if there is none. -/
def indexOf (nodes : List BuilderNodeDraft) (id : String) : Int :=
  match nodes.findIdx? fun node => node.id == id with
  | some index => index
  | none => -1

/-- `findSelectedNodeIndex`. -/
def findSelectedNodeIndex (draftNodes : List BuilderNodeDraft)
    (selectedNode : Option WorkflowCanvasNode) : Int :=
  match selectedNode with
  | some node => indexOf draftNodes node.draft.id
  | none => -1

/-- `getNodeIssueCount`. -/
def getNodeIssueCount (issues : List WorkflowDefinitionIssue) (selectedNodeIndex : Int) :
    List WorkflowDefinitionIssue :=
  if selectedNodeIndex < 0 then [] else issuesAt issues selectedNodeIndex.toNat

/-- `selectedNodeIssues` of `useWorkflowBuilder`. -/
def selectedNodeIssues (currentDraft : WorkflowBuilderDraft)
    (issues : List WorkflowDefinitionIssue) (selectedNode : Option WorkflowCanvasNode) :
    List WorkflowDefinitionIssue :=
  getNodeIssueCount issues (findSelectedNodeIndex currentDraft.nodes selectedNode)

/-! ### Belonging to a node -/

/-- An issue of the node at an index: its path is that of the node, or below it. -/
def Belongs (index : ℕ) (issue : WorkflowDefinitionIssue) : Prop :=
  issue.path = nodePath index ∨ startsWith issue.path (nodePath index ++ ".") = true

instance (index : ℕ) (issue : WorkflowDefinitionIssue) : Decidable (Belongs index issue) :=
  inferInstanceAs (Decidable (_ ∨ _))

/-- Every node is shown the issues that belong to it, on the canvas and when it is
selected. -/
structure Attributed (draft : WorkflowBuilderDraft) (issues : List WorkflowDefinitionIssue) :
    Prop where
  map : ∀ i (h : i < draft.nodes.length),
    issuesOf (buildNodeIssuesMap draft.nodes issues) draft.nodes[i].id =
      issues.filter fun issue => Belongs i issue
  count : ∀ i < draft.nodes.length,
    getNodeIssueCount issues i = issues.filter fun issue => Belongs i issue
  hook : ∀ i (h : i < draft.nodes.length),
    issuesOf (nodeIssuesById draft issues) draft.nodes[i].id =
      issues.filter fun issue => Belongs i issue
  selected : ∀ i (h : i < draft.nodes.length) (node : WorkflowCanvasNode),
    node.draft = draft.nodes[i] →
      selectedNodeIssues draft issues (some node) = issues.filter fun issue => Belongs i issue

/-! ### Paths -/

theorem startsWith_iff {s t : String} : startsWith s t = true ↔ t.toList <+: s.toList :=
  List.isPrefixOf_iff_prefix

/-- Before a character that does not occur in it, a prefix ends. -/
theorem prefix_of_prefix_append_cons {α : Type} {xs ys zs : List α} {c : α} (hc : c ∉ xs)
    (h : xs <+: ys ++ c :: zs) : xs <+: ys := by
  induction xs generalizing ys with
  | nil => exact List.nil_prefix
  | cons x xs ih =>
      rw [List.mem_cons, not_or] at hc
      cases ys with
      | nil =>
          obtain ⟨rfl, -⟩ := List.cons_prefix_cons.mp h
          exact absurd rfl hc.1
      | cons y ys =>
          rw [List.cons_append, List.cons_prefix_cons] at h
          obtain ⟨rfl, h⟩ := h
          exact List.cons_prefix_cons.mpr ⟨rfl, ih hc.2 h⟩

theorem eq_of_append_singleton {α : Type} {xs ys zs : List α} {c : α} (hx : c ∉ xs)
    (hy : c ∉ ys) (h : xs ++ [c] <+: ys ++ c :: zs) : xs = ys := by
  have hle : xs <+: ys := prefix_of_prefix_append_cons hx ((List.prefix_append xs [c]).trans h)
  obtain ⟨more, rfl⟩ := hle
  rw [List.append_assoc, List.prefix_append_right_inj] at h
  cases more with
  | nil => exact (List.append_nil xs).symm
  | cons d more =>
      obtain ⟨rfl, -⟩ := List.cons_prefix_cons.mp h
      exact absurd (List.mem_append_right xs (List.mem_cons_self ..)) hy

/-- There is no point in an index. -/
theorem point_notMem_repr (n : ℕ) : '.' ∉ (Nat.repr n).toList := by
  intro hmem
  rw [Nat.toList_repr] at hmem
  exact absurd (Nat.isDigit_of_mem_toDigits (by omega) (by omega) hmem) (by decide)

theorem repr_inj {m n : ℕ} (h : (Nat.repr m).toList = (Nat.repr n).toList) : m = n := by
  rw [Nat.toList_repr, Nat.toList_repr] at h
  rw [← Nat.ofDigitChars_ten_toDigits (n := m), h, Nat.ofDigitChars_ten_toDigits]

/-- The path of something below a node starts with another node's path if the one's index
starts with the other's. -/
theorem startsWith_nodePath_iff {i k : ℕ} {rest : List Char} :
    startsWith (String.ofList ((nodePath k).toList ++ '.' :: rest)) (nodePath i) = true ↔
      (Nat.repr i).toList <+: (Nat.repr k).toList := by
  rw [startsWith_iff, String.toList_ofList, nodePath, nodePath, String.toList_append,
    String.toList_append, List.append_assoc, List.prefix_append_right_inj]
  constructor
  · exact prefix_of_prefix_append_cons (point_notMem_repr i)
  · exact fun h => h.trans (List.prefix_append _ _)

/-- And it belongs to one node only. -/
theorem belongs_iff {i k : ℕ} {rest : List Char} {message : String} :
    Belongs i ⟨String.ofList ((nodePath k).toList ++ '.' :: rest), message⟩ ↔ i = k := by
  constructor
  · rintro (h | h)
    · -- a path with a point after the index is longer than that of a node
      have hlist := congrArg String.toList h
      simp only [String.toList_ofList, nodePath, String.toList_append, List.append_assoc,
        List.append_cancel_left_eq] at hlist
      have hpoint : '.' ∈ (Nat.repr i).toList := by
        rw [← hlist]
        simp
      exact absurd hpoint (point_notMem_repr i)
    · rw [startsWith_iff, String.toList_ofList, nodePath, nodePath, String.toList_append,
        String.toList_append, String.toList_append, List.append_assoc, List.append_assoc,
        List.prefix_append_right_inj] at h
      exact repr_inj (eq_of_append_singleton (point_notMem_repr i) (point_notMem_repr k) h)
  · rintro rfl
    refine Or.inr ?_
    rw [startsWith_iff, String.toList_ofList, String.toList_append]
    exact (List.prefix_append_right_inj _).mpr (List.cons_prefix_cons.mpr ⟨rfl, List.nil_prefix⟩)

/-- The paths of issues: below a node, or of no node at all. -/
inductive IssuePath : String → Prop
  | below (k : ℕ) (rest : List Char) :
      IssuePath (String.ofList ((nodePath k).toList ++ '.' :: rest))
  | elsewhere (path : String) (h : ∀ i, ¬ (nodePath i).toList <+: path.toList) : IssuePath path

theorem issuePath_field (k : ℕ) {field : String} {rest : List Char}
    (h : field.toList = '.' :: rest) : IssuePath (nodePath k ++ field) := by
  have heq : nodePath k ++ field = String.ofList ((nodePath k).toList ++ '.' :: rest) := by
    rw [← h, ← String.toList_append, String.ofList_toList]
  rw [heq]
  exact .below k rest

theorem issuePath_elsewhere {path : String} (h : ¬ "nodes.".toList <+: path.toList) :
    IssuePath path := by
  refine .elsewhere path fun i hprefix => h (List.IsPrefix.trans ?_ hprefix)
  rw [nodePath, String.toList_append]
  exact List.prefix_append _ _

theorem issuePath_edge (index : ℕ) (field : String) :
    IssuePath ("edges." ++ Nat.repr index ++ field) := by
  apply issuePath_elsewhere
  rw [String.toList_append, String.toList_append]
  intro h
  exact absurd (List.cons_prefix_cons.mp h).1 (by decide)

/-- No index starts with a letter. -/
theorem issuePath_nodes_edges : IssuePath "nodes.edges" := by
  refine .elsewhere _ fun i hprefix => ?_
  have hlist : "nodes.edges".toList = "nodes.".toList ++ "edges".toList := rfl
  rw [nodePath, String.toList_append, hlist, List.prefix_append_right_inj, Nat.toList_repr] at hprefix
  cases hdigits : Nat.toDigits 10 i with
  | nil => exact absurd hdigits Nat.toDigits_ne_nil
  | cons c digits =>
      have hdigit := Nat.isDigit_of_mem_toDigits (by omega) (by omega)
        (hdigits ▸ List.mem_cons_self .. : c ∈ Nat.toDigits 10 i)
      rw [hdigits] at hprefix
      rw [(List.cons_prefix_cons.mp hprefix).1] at hdigit
      exact absurd hdigit (by decide)

/-- So has the path of a node by its id, even of one that is not there. -/
theorem issuePath_nodePathByID (definition : Definition) (id : String) :
    IssuePath (nodePathByID definition id ++ ".edges") := by
  unfold nodePathByID
  rcases hfound : Json.lookup (definition.nodes.mapIdx fun index node =>
      (trim node.id, "nodes." ++ Nat.repr index)) id with - | path
  · rw [hfound]
    exact issuePath_nodes_edges
  · rw [hfound]
    obtain ⟨entry, hentry, rfl⟩ := Option.map_eq_some_iff.mp hfound
    have hmem := List.mem_reverse.mp (List.mem_of_find?_eq_some hentry)
    obtain ⟨index, _, rfl⟩ := List.mem_mapIdx.mp hmem
    exact issuePath_field index (String.toList_ofList (l := '.' :: "edges".toList))

theorem path_of_mem_ite {c : Prop} [Decidable c] {path message : String}
    {issue : WorkflowDefinitionIssue}
    (h : issue ∈ if c then [WorkflowDefinitionIssue.mk path message] else []) :
    issue.path = path := by
  split at h
  · rw [List.mem_singleton.mp h]
  · cases h

/-! ### The paths of `validateWorkflowDefinitionDraft` -/

/-- Those of a config are below the path of its node. -/
theorem issuePath_configIssues {index : ℕ} {node : Node} :
    ∀ issue ∈ configIssues (nodePath index) node, IssuePath issue.path := by
  intro issue hissue
  unfold configIssues at hissue
  split at hissue
  · rw [path_of_mem_ite hissue]
    exact issuePath_field index rfl
  · rcases List.mem_append.mp hissue with hissue | hissue
    · rcases List.mem_append.mp hissue with hissue | hissue
      · rw [path_of_mem_ite hissue]
        exact issuePath_field index rfl
      · rw [path_of_mem_ite hissue]
        exact issuePath_field index rfl
    · rw [path_of_mem_ite hissue]
      exact issuePath_field index rfl
  · rw [List.mem_singleton.mp hissue]
    exact issuePath_field index rfl
  · cases hissue
  · cases hissue

/-- The issues of nodes are at their paths. -/
theorem issuePath_nodeIssues {seen : List String} {index : ℕ} {nodes : List Node} :
    ∀ issue ∈ nodeIssues seen index nodes, IssuePath issue.path := by
  induction nodes generalizing seen index with
  | nil =>
      intro issue hissue
      cases hissue
  | cons node nodes ih =>
      intro issue hissue
      rw [nodeIssues] at hissue
      split at hissue
      · rcases List.mem_cons.mp hissue with rfl | hissue
        · exact issuePath_field index rfl
        · exact ih issue hissue
      · rcases List.mem_append.mp hissue with hissue | hissue
        · rcases List.mem_append.mp hissue with hissue | hissue
          · rw [path_of_mem_ite hissue]
            exact issuePath_field index rfl
          · exact issuePath_configIssues issue hissue
        · exact ih issue hissue

/-- Every issue of the nodes has a path of this kind. -/
theorem issuePath_validateNodes (definition : Definition) :
    ∀ issue ∈ validateNodes definition, IssuePath issue.path := by
  have hnodes : IssuePath "nodes" := issuePath_elsewhere (by decide)
  intro issue hissue
  unfold validateNodes at hissue
  rcases List.mem_append.mp hissue with hissue | hissue
  · rcases List.mem_append.mp hissue with hissue | hissue
    · rcases List.mem_append.mp hissue with hissue | hissue
      · exact path_of_mem_ite hissue ▸ hnodes
      · exact issuePath_nodeIssues issue hissue
    · exact path_of_mem_ite hissue ▸ hnodes
  · exact path_of_mem_ite hissue ▸ hnodes

/-- Those of an edge are below its own path. -/
theorem issuePath_checkEdge {ids : List String} {index : ℕ} {edge : Edge} :
    ∀ issue ∈ (checkEdge ids index edge).1, IssuePath issue.path := by
  intro issue hissue
  have hedge : IssuePath ("edges." ++ Nat.repr index) := by
    have := issuePath_edge index ""
    rwa [String.append_empty] at this
  by_cases hends : trim edge.source = "" ∨ trim edge.target = ""
  · simp only [checkEdge, if_pos hends, List.mem_singleton] at hissue
    exact hissue ▸ hedge
  by_cases hids : trim edge.source ∉ ids ∨ trim edge.target ∉ ids
  · simp only [checkEdge, if_neg hends, if_pos hids, List.mem_singleton] at hissue
    exact hissue ▸ hedge
  by_cases hbranch : trim edge.branch = ""
  · simp only [checkEdge, if_neg hends, if_neg hids, if_pos hbranch] at hissue
    cases hissue
  · simp only [checkEdge, if_neg hends, if_neg hids, if_neg hbranch, List.mem_singleton] at hissue
    exact hissue ▸ issuePath_edge index ".branch"

/-- The paths of the issues with the edges. -/
theorem issuePath_validateEdges (definition : Definition) :
    ∀ issue ∈ validateEdges definition, IssuePath issue.path := by
  have hedges : IssuePath "edges" := issuePath_elsewhere (by decide)
  intro issue hissue
  simp only [validateEdges, List.mem_append, List.mem_flatMap] at hissue
  rcases hissue with (((((⟨checked, hmem, hissue⟩ | hissue) | hissue) | hissue) |
    ⟨id, _, hissue⟩) | hissue) | hissue
  · obtain ⟨index, hindex, rfl⟩ := List.mem_mapIdx.mp hmem
    exact issuePath_checkEdge issue hissue
  · exact path_of_mem_ite hissue ▸ hedges
  · exact path_of_mem_ite hissue ▸ hedges
  · -- the trigger
    split at hissue
    · rw [path_of_mem_ite hissue]
      exact issuePath_nodePathByID ..
    · cases hissue
  · rcases List.mem_append.mp hissue with hissue | hissue
    · rw [path_of_mem_ite hissue]
      exact issuePath_nodePathByID ..
    · rw [path_of_mem_ite hissue]
      exact issuePath_nodePathByID ..
  · exact path_of_mem_ite hissue ▸ hedges
  · split at hissue
    · exact path_of_mem_ite hissue ▸ hedges
    · cases hissue

/-- Every issue is below a node, or not of a node at all. -/
theorem issuePath_validate (definition : Definition) :
    ∀ issue ∈ validateWorkflowDefinitionDraft definition, IssuePath issue.path := by
  intro issue hissue
  rcases List.mem_append.mp hissue with hissue | hissue
  · rcases List.mem_append.mp hissue with hissue | hissue
    · rw [path_of_mem_ite hissue]
      exact issuePath_elsewhere (by decide)
    · exact issuePath_validateNodes definition issue hissue
  · exact issuePath_validateEdges definition issue hissue

/-! ### What a node is shown -/

section

variable {draft : WorkflowBuilderDraft} {issues : List WorkflowDefinitionIssue}

/-- What a node collects and what belongs to it, for one issue. -/
theorem collects_iff {path message : String} {i : ℕ} (h : IssuePath path) :
    (startsWith path (nodePath i) = true ↔ Belongs i ⟨path, message⟩) ↔
      ∀ k, k ≠ i → (Nat.repr i).toList <+: (Nat.repr k).toList → ¬ Belongs k ⟨path, message⟩ := by
  cases h with
  | below k rest =>
      simp only [startsWith_nodePath_iff, belongs_iff]
      constructor
      · rintro hiff k' hne hprefix rfl
        exact hne (hiff.mp hprefix).symm
      · intro hnone
        constructor
        · intro hprefix
          by_contra hne
          exact hnone k (Ne.symm hne) hprefix rfl
        · rintro rfl
          exact List.prefix_rfl
  | elsewhere path helse =>
      have hstart : ∀ k, ¬ startsWith path (nodePath k) = true := fun k hk =>
        helse k (startsWith_iff.mp hk)
      have hbelongs : ∀ k, ¬ Belongs k ⟨path, message⟩ := by
        rintro k (heq | hk)
        · exact helse k (heq ▸ List.prefix_rfl)
        · refine helse k (List.IsPrefix.trans ?_ (startsWith_iff.mp hk))
          rw [String.toList_append]
          exact List.prefix_append _ _
      exact ⟨fun _ k _ _ => hbelongs k, fun _ => iff_of_false (hstart i) (hbelongs i)⟩

/-- A node collects what belongs to it exactly if no issue belongs to a node whose index
starts with its own. -/
theorem issuesAt_eq_iff (hpath : ∀ issue ∈ issues, IssuePath issue.path) {i : ℕ} :
    issuesAt issues i = issues.filter (fun issue => Belongs i issue) ↔
      ∀ k, k ≠ i → (Nat.repr i).toList <+: (Nat.repr k).toList →
        ∀ issue ∈ issues, ¬ Belongs k issue := by
  have hfilter : issuesAt issues i = issues.filter (fun issue => Belongs i issue) ↔
      ∀ issue ∈ issues, (startsWith issue.path (nodePath i) = true ↔ Belongs i issue) := by
    unfold issuesAt
    constructor
    · intro heq issue hissue
      have hmem : issue ∈ issues.filter (fun issue => startsWith issue.path (nodePath i)) ↔
          issue ∈ issues.filter fun issue => Belongs i issue := by rw [heq]
      simpa [List.mem_filter, hissue] using hmem
    · intro hiff
      refine List.filter_congr fun issue hissue => ?_
      rw [Bool.eq_iff_iff, decide_eq_true_eq]
      exact hiff issue hissue
  rw [hfilter]
  constructor
  · intro hall k hne hprefix issue hissue
    exact (collects_iff (hpath issue hissue)).mp (hall issue hissue) k hne hprefix
  · intro hnone issue hissue
    refine (collects_iff (hpath issue hissue)).mpr fun k hne hprefix => ?_
    exact hnone k hne hprefix issue hissue

/-- An id belongs to one index. -/
theorem getElem_inj_of_nodup_map {nodes : List BuilderNodeDraft}
    (hids : (nodes.map fun node => node.id).Nodup) {i j : ℕ} (hi : i < nodes.length)
    (hj : j < nodes.length) (heq : nodes[i].id = nodes[j].id) : i = j := by
  have hi' : i < (nodes.map fun node => node.id).length := by simpa using hi
  have hj' : j < (nodes.map fun node => node.id).length := by simpa using hj
  have hget : (nodes.map fun node => node.id)[i] = (nodes.map fun node => node.id)[j] := by
    simpa using heq
  exact (List.Nodup.getElem_inj_iff hids).mp hget

/-- In the map a node has what it collects. -/
theorem issuesOf_buildNodeIssuesMap {nodes : List BuilderNodeDraft}
    (hids : (nodes.map fun node => node.id).Nodup) {i : ℕ} (h : i < nodes.length) :
    issuesOf (buildNodeIssuesMap nodes issues) nodes[i].id = issuesAt issues i := by
  have hkeys : ((nodes.mapIdx fun index draftNode =>
      (draftNode.id, issuesAt issues index)).map Prod.fst) = nodes.map fun node => node.id := by
    apply List.ext_getElem
    · simp
    · simp
  have hnodup : ((buildNodeIssuesMap nodes issues).map Prod.fst).Nodup := by
    refine List.Nodup.sublist (List.filter_sublist.map Prod.fst) ?_
    rw [hkeys]
    exact hids
  by_cases hnone : issuesAt issues i = []
  · -- a node that collects nothing has no entry
    have hlookup : Json.lookup (buildNodeIssuesMap nodes issues) nodes[i].id = none := by
      rw [Json.lookup, Option.map_eq_none_iff, List.find?_eq_none]
      intro entry hentry
      obtain ⟨hmem, hsome⟩ := List.mem_filter.mp (List.mem_reverse.mp hentry)
      obtain ⟨j, hj, rfl⟩ := List.mem_mapIdx.mp hmem
      intro heq
      have hij : j = i := getElem_inj_of_nodup_map hids hj h (by simpa using heq)
      subst hij
      simp [hnone] at hsome
    rw [issuesOf, hlookup, hnone]
    rfl
  · have hmem : (nodes[i].id, issuesAt issues i) ∈ buildNodeIssuesMap nodes issues := by
      apply List.mem_filter.mpr
      exact ⟨List.mem_mapIdx.mpr ⟨i, h, rfl⟩, by simpa using hnone⟩
    rw [issuesOf, Json.lookup_of_mem hnodup hmem]
    rfl

/-- A node is found at its place. -/
theorem indexOf_eq {nodes : List BuilderNodeDraft}
    (hids : (nodes.map fun node => node.id).Nodup) {i : ℕ} (h : i < nodes.length) :
    indexOf nodes nodes[i].id = i := by
  have hfound : (nodes.findIdx? fun node => node.id == nodes[i].id) = some i := by
    rw [List.findIdx?_eq_some_iff_getElem]
    refine ⟨h, by simp, fun j hj heq => ?_⟩
    have hji : j = i := getElem_inj_of_nodup_map hids (by omega) h (by simpa using heq)
    omega
  unfold indexOf
  rw [hfound]

/-- **Issues are shown at the node they belong to exactly if** no issue belongs to a node
whose index starts with that of another one. -/
theorem attributed_iff {definition : Definition}
    (hids : (draft.nodes.map fun node => node.id).Nodup) :
    Attributed draft (validateWorkflowDefinitionDraft definition) ↔
      ∀ i < draft.nodes.length, ∀ k, k ≠ i →
        (Nat.repr i).toList <+: (Nat.repr k).toList →
          ∀ issue ∈ validateWorkflowDefinitionDraft definition, ¬ Belongs k issue := by
  have hpath := issuePath_validate definition
  have hcount : ∀ (issues : List WorkflowDefinitionIssue) (i : ℕ),
      getNodeIssueCount issues i = issuesAt issues i := by
    intro issues i
    exact if_neg (by omega)
  constructor
  · intro h i hi
    apply (issuesAt_eq_iff hpath).mp
    rw [← hcount]
    exact h.count i hi
  · intro h
    have heq : ∀ i < draft.nodes.length, issuesAt (validateWorkflowDefinitionDraft definition) i =
        (validateWorkflowDefinitionDraft definition).filter fun issue => Belongs i issue :=
      fun i hi => (issuesAt_eq_iff hpath).mpr (h i hi)
    constructor
    case map =>
      intro i hi
      rw [issuesOf_buildNodeIssuesMap hids hi, heq i hi]
    case count =>
      intro i hi
      rw [hcount, heq i hi]
    case hook =>
      intro i hi
      rw [nodeIssuesById, issuesOf_buildNodeIssuesMap hids hi, heq i hi]
    case selected =>
      intro i hi node hnode
      show getNodeIssueCount _ (indexOf draft.nodes node.draft.id) = _
      rw [hnode, indexOf_eq hids hi, hcount, heq i hi]

end

namespace Sample

/-- A trigger and ten delays, the last of them without a duration. -/
def eleven : WorkflowBuilderDraft where
  triggerEvent := "user.signup"
  nodes := createNodeDraft .trigger none "" :: (List.range 10).map fun n =>
    { createNodeDraft .delay none "" with
      id := "delay_" ++ Nat.repr n, duration := if n = 9 then "" else "5m" }
  edges := []

/-- A trigger and a delay without a duration. -/
def two : WorkflowBuilderDraft where
  triggerEvent := "user.signup"
  nodes := [createNodeDraft .trigger none "",
    { createNodeDraft .delay none "" with duration := "" }]
  edges := [⟨"trigger_1", "delay_", ""⟩]

end Sample

/-- The delay has an issue, and it is shown where it belongs. -/
theorem attributed_iff_two :
    (validateWorkflowDefinitionDraft (workflowDefinitionFromBuilderDraft Sample.two)).map
        (·.path) = ["nodes.1.duration"] ∧
    (Attributed Sample.two
        (validateWorkflowDefinitionDraft (workflowDefinitionFromBuilderDraft Sample.two)) ↔
      ∀ i < Sample.two.nodes.length, ∀ k, k ≠ i →
        (Nat.repr i).toList <+: (Nat.repr k).toList →
          ∀ issue ∈ validateWorkflowDefinitionDraft
            (workflowDefinitionFromBuilderDraft Sample.two), ¬ Belongs k issue) :=
  ⟨by decide +kernel, attributed_iff (by decide)⟩

/-- The second of eleven nodes is shown an issue of the last one. -/
theorem shown_elsewhere :
    (Sample.eleven.nodes.map fun node => node.id).Nodup ∧
      ¬ Attributed Sample.eleven
        (validateWorkflowDefinitionDraft (workflowDefinitionFromBuilderDraft Sample.eleven)) := by
  refine ⟨by decide +kernel, fun h => ?_⟩
  have hcount := h.count 1 (by decide)
  revert hcount
  decide +kernel

end Iwifunni.Web
