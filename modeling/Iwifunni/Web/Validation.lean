/-
Iwifunni/Web/Validation.lean

The checks of the builder (`utils/validation`).

The builder checks a definition before it sends it.  Where the backend wants an
acyclic graph, the builder wants one path:

    trigger --> node --> node --> node        no branches, one trigger

Ids are compared trimmed, by `String.prototype.trim`.  An edge with an end that is
blank or unknown is reported and then ignored; an edge with a branch is reported and
counts nevertheless.

`validateEdges_eq_nil_iff` says what it means that the edges pass.
-/
import Iwifunni.Graph.Reach
import Iwifunni.Web.Draft
import Iwifunni.Workflow.Acyclic

namespace Iwifunni.Web

open Go Workflow Relation

/-- `WorkflowDefinitionIssue`. -/
structure WorkflowDefinitionIssue where
  path : String
  message : String
  deriving DecidableEq

/-! ### Durations -/

/-- What `durationPattern` repeats: digits, digits after a point if there is one, and
a unit. -/
structure DurationTerm where
  whole : List Char
  fraction : List Char
  unit : List Char
  deriving DecidableEq

/-- The units of `durationPattern`. -/
def durationUnits : List (List Char) :=
  [['n', 's'], ['u', 's'], ['µ', 's'], ['m', 's'], ['s'], ['m'], ['h']]

/-- The digits after a point, if there is one. -/
def fractionDigits : List Char → List Char
  | '.' :: digits => digits.takeWhile Duration.isDigit
  | _ => []

/-- The longest term at the head, and the rest.  Neither a digit nor a point can be part
of a unit, so there is one way to match at most. -/
def matchTerm (cs : List Char) : Option (DurationTerm × List Char) :=
  let whole := cs.takeWhile Duration.isDigit
  let rest := cs.dropWhile Duration.isDigit
  let fraction := fractionDigits rest
  let rest := rest.drop (if fraction = [] then 0 else fraction.length + 1)
  let unit := rest.takeWhile fun c => !Duration.isDigit c
  if whole ≠ [] ∧ unit ∈ durationUnits then some (⟨whole, fraction, unit⟩, rest.drop unit.length)
  else none

/-- The terms of a text.  Each takes a character at least. -/
def matchTerms : ℕ → List Char → Option (List DurationTerm)
  | _, [] => some []
  | 0, _ :: _ => none
  | fuel + 1, c :: cs => do
      let (term, rest) ← matchTerm (c :: cs)
      let terms ← matchTerms fuel rest
      return term :: terms

/-- The terms of a text `durationPattern` matches. -/
def durationTerms (s : String) : Option (List DurationTerm) :=
  if s = "" then none else matchTerms s.toList.length s.toList

/-! ### `trigger.ts` -/

/-- `validateTrigger`. -/
def validateTrigger (definition : Definition) : List WorkflowDefinitionIssue :=
  if trim definition.trigger.event = "" then
    [⟨"trigger.event", "A trigger event is still required by the current backend event API."⟩]
  else []

/-! ### `nodes.ts` -/

/-- `zeroUUID`. -/
def zeroUUID : String := "00000000-0000-0000-0000-000000000000"

/-- `notificationChannels`. -/
def notificationChannels : List String := ["email", "sms", "push"]

/-- The strings among the channels of a config. -/
def configChannels (config : Option Json) : List String :=
  match configValue config "channels" with
  | some (.arr values) => values.filterMap fun value => asString (some value)
  | _ => []

/-- What `validateNodes` finds in the config of a node. -/
def configIssues (nodePath : String) (node : Node) : List WorkflowDefinitionIssue :=
  match node.type with
  | .delay =>
      let duration := trim ((configString node.config "duration").getD "")
      if durationTerms duration = none then
        [⟨nodePath ++ ".duration",
          "Delay duration must use Go duration syntax like 5m or 1h30m."⟩]
      else []
  | .notification =>
      let templateID := trim ((configString node.config "template_id").getD "")
      let channels := configChannels node.config
      (if templateID ≠ "" ∧ templateID ≠ zeroUUID ∧ !isUuid templateID then
        [⟨nodePath ++ ".template_id", "Notification template ID must be a valid UUID."⟩]
      else []) ++
      (if templateID = "" ∨ templateID = zeroUUID then
        [⟨nodePath ++ ".template_id", "This notification step has no configured template. " ++
          "Open the channel editor to set it up."⟩]
      else []) ++
      (if channels.length ≠ 1 ∨ channels.headD "" ∉ notificationChannels then
        [⟨nodePath ++ ".channels",
          "Notification steps currently require exactly one supported channel."⟩]
      else [])
  | .condition =>
      [⟨nodePath ++ ".type", "Condition steps are not supported in the linear workflow builder."⟩]
  | .trigger | .other _ _ => []

/-- The loop of `validateNodes`, from the node at `index` on. -/
def nodeIssues (seenNodeIDs : List String) (index : ℕ) : List Node → List WorkflowDefinitionIssue
  | [] => []
  | node :: nodes =>
      let nodePath := "nodes." ++ Nat.repr index
      let nodeID := trim node.id
      if nodeID = "" then
        ⟨nodePath ++ ".id", "Node ID is required."⟩ :: nodeIssues seenNodeIDs (index + 1) nodes
      else
        (if nodeID ∈ seenNodeIDs then
          [⟨nodePath ++ ".id", "Duplicate node ID '" ++ nodeID ++ "'."⟩]
        else []) ++
        configIssues nodePath node ++ nodeIssues (nodeID :: seenNodeIDs) (index + 1) nodes

/-- The ids of the trigger nodes. -/
def triggerNodeIDs (definition : Definition) : List String :=
  ((definition.nodes.filter fun node => node.type = .trigger).map fun node =>
    trim node.id).eraseDups

/-- `validateNodes`. -/
def validateNodes (definition : Definition) : List WorkflowDefinitionIssue :=
  let triggers := (triggerNodeIDs definition).filter (· ≠ "")
  (if definition.nodes = [] then [⟨"nodes", "At least one workflow node is required."⟩] else []) ++
  nodeIssues [] 0 definition.nodes ++
  (if triggers.length = 0 then
    [⟨"nodes", "A workflow should start with a trigger node for testing and flow entry."⟩]
  else []) ++
  (if 1 < triggers.length then
    [⟨"nodes", "Linear workflows support exactly one trigger node."⟩]
  else [])

/-! ### `edges.ts` -/

/-- The ids of the nodes, in order. -/
def seenNodeIDs (definition : Definition) : List String :=
  (definition.nodes.map fun node => trim node.id).eraseDups

/-- The path of the last node with an id. -/
def nodePathByID (definition : Definition) (nodeID : String) : String :=
  (Json.lookup (definition.nodes.mapIdx fun index node =>
    (trim node.id, "nodes." ++ Nat.repr index)) nodeID).getD "nodes"

/-- What is wrong with an edge, and its ends if it counts. -/
def checkEdge (ids : List String) (index : ℕ) (edge : Edge) :
    List WorkflowDefinitionIssue × Option (String × String) :=
  let edgePath := "edges." ++ Nat.repr index
  let source := trim edge.source
  let target := trim edge.target
  if source = "" ∨ target = "" then
    ([⟨edgePath, "Each edge must include both a source and target node."⟩], none)
  else if source ∉ ids ∨ target ∉ ids then
    ([⟨edgePath, "Edges must point to nodes that exist in the builder."⟩], none)
  else
    (if trim edge.branch = "" then []
      else [⟨edgePath ++ ".branch",
        "Branching is not supported in the linear workflow builder."⟩], some (source, target))

/-- The ends of the edges that count. -/
def edgeEnds (definition : Definition) : List (String × String) :=
  (definition.edges.mapIdx (checkEdge (seenNodeIDs definition))).filterMap Prod.snd

/-- The nodes without an incoming edge. -/
def startNodes (definition : Definition) : List String :=
  (seenNodeIDs definition).filter fun nodeID =>
    ((edgeEnds definition).map Prod.snd).count nodeID = 0

/-- The search for a cycle, from the nodes in order. -/
def foundCycle (definition : Definition) : Bool :=
  let ends := edgeEnds definition
  (visitAll (visit (targetsOf ends) (ends.length + 2)) (seenNodeIDs definition) ⟨[], []⟩).1

/-- What is reached from a node. -/
def reachable (definition : Definition) (nodeID : String) : List String :=
  Graph.reach (targetsOf (edgeEnds definition)) ((seenNodeIDs definition).length + 1) nodeID []

/-- What is wrong with the number of edges at a node. -/
def degreeIssues (definition : Definition) (nodeID : String) : List WorkflowDefinitionIssue :=
  let path := nodePathByID definition nodeID ++ ".edges"
  (if 1 < ((edgeEnds definition).map Prod.snd).count nodeID then
    [⟨path, "Linear workflows allow only one incoming connection per node."⟩]
  else []) ++
  (if 1 < ((edgeEnds definition).map Prod.fst).count nodeID then
    [⟨path, "Linear workflows allow only one outgoing connection per node."⟩]
  else [])

/-- `validateEdges`. -/
def validateEdges (definition : Definition) : List WorkflowDefinitionIssue :=
  let ids := seenNodeIDs definition
  (definition.edges.mapIdx (checkEdge ids)).flatMap Prod.fst ++
  (if 0 < ids.length ∧ (startNodes definition).length = 0 then
    [⟨"edges", "Workflow graph must have one start node with no incoming edges."⟩]
  else []) ++
  (if 1 < (startNodes definition).length then
    [⟨"edges", "Linear workflows must form a single path with exactly one start node."⟩]
  else []) ++
  (match triggerNodeIDs definition with
    | [triggerNodeID] =>
        if 0 < ((edgeEnds definition).map Prod.snd).count triggerNodeID then
          [⟨nodePathByID definition triggerNodeID ++ ".edges",
            "The trigger node must be the first step in the workflow."⟩]
        else []
    | _ => []) ++
  ids.flatMap (degreeIssues definition) ++
  (if foundCycle definition then [⟨"edges", "Workflow graph cannot contain cycles."⟩] else []) ++
  (match startNodes definition with
    | [startNode] =>
        if (reachable definition startNode).length ≠ ids.length then
          [⟨"edges", "All workflow nodes must belong to one connected linear path."⟩]
        else []
    | _ => [])

/-- `validateWorkflowDefinitionDraft`. -/
def validateWorkflowDefinitionDraft (definition : Definition) : List WorkflowDefinitionIssue :=
  validateTrigger definition ++ validateNodes definition ++ validateEdges definition

/-! ### What the edges are like that pass -/

/-- Without repetitions nothing occurs twice. -/
theorem nodup_eraseDups {α : Type} [BEq α] [LawfulBEq α] (xs : List α) : xs.eraseDups.Nodup := by
  induction h : xs.length using Nat.strong_induction_on generalizing xs with
  | _ n ih =>
      cases xs with
      | nil => exact List.nodup_nil
      | cons x xs =>
          subst h
          rw [List.eraseDups_cons, List.nodup_cons]
          constructor
          · simp
          · refine ih _ ?_ _ rfl
            exact Nat.lt_succ_of_le (List.length_filter_le ..)

theorem eraseDups_eq_self {α : Type} [BEq α] [LawfulBEq α] {xs : List α} (h : xs.Nodup) :
    xs.eraseDups = xs := by
  induction xs with
  | nil => rfl
  | cons x xs ih =>
      obtain ⟨hx, hxs⟩ := List.nodup_cons.mp h
      have hfilter : (xs.filter fun y => !y == x) = xs := by
        rw [List.filter_eq_self]
        intro y hy
        simpa using fun heq : y = x => hx (heq ▸ hy)
      rw [List.eraseDups_cons, hfilter, ih hxs]

theorem mem_seenNodeIDs {definition : Definition} {id : String} :
    id ∈ seenNodeIDs definition ↔ ∃ node ∈ definition.nodes, trim node.id = id := by
  rw [seenNodeIDs, List.mem_eraseDups, List.mem_map]

/-- An edge that passes joins two nodes and has no branch. -/
structure EdgePasses (ids : List String) (edge : Edge) : Prop where
  source_ne : trim edge.source ≠ ""
  target_ne : trim edge.target ≠ ""
  source : trim edge.source ∈ ids
  target : trim edge.target ∈ ids
  branch : trim edge.branch = ""

/-- An edge has no issue exactly if it passes. -/
theorem checkEdge_iff {ids : List String} {index : ℕ} {edge : Edge} :
    (checkEdge ids index edge).1 = [] ↔ EdgePasses ids edge := by
  constructor
  · intro h
    by_cases hends : trim edge.source = "" ∨ trim edge.target = ""
    · simp [checkEdge, hends] at h
    by_cases hids : trim edge.source ∉ ids ∨ trim edge.target ∉ ids
    · simp [checkEdge, hends, hids] at h
    by_cases hbranch : trim edge.branch = ""
    · simp only [not_or, not_not] at hends hids
      exact ⟨hends.1, hends.2, hids.1, hids.2, hbranch⟩
    · simp [checkEdge, hends, hids, hbranch] at h
  · intro h
    unfold checkEdge
    rw [if_neg (not_or.mpr ⟨h.source_ne, h.target_ne⟩),
      if_neg (not_or.mpr ⟨not_not.mpr h.source, not_not.mpr h.target⟩), if_pos h.branch]

theorem checkEdge_snd {ids : List String} {index : ℕ} {edge : Edge} (h : EdgePasses ids edge) :
    (checkEdge ids index edge).2 = some (trim edge.source, trim edge.target) := by
  unfold checkEdge
  rw [if_neg (not_or.mpr ⟨h.source_ne, h.target_ne⟩),
    if_neg (not_or.mpr ⟨not_not.mpr h.source, not_not.mpr h.target⟩)]

theorem filterMap_mapIdx {α β γ : Type} {f : ℕ → α → β × Option γ} {g : α → γ} {xs : List α}
    (h : ∀ i, ∀ x ∈ xs, (f i x).2 = some (g x)) :
    (xs.mapIdx f).filterMap Prod.snd = xs.map g := by
  induction xs generalizing f with
  | nil => rfl
  | cons x xs ih =>
      rw [List.mapIdx_cons, List.filterMap_cons, h 0 x (List.mem_cons_self ..), List.map_cons]
      show g x :: _ = _
      rw [ih fun i y hy => h (i + 1) y (List.mem_cons_of_mem _ hy)]

/-- The ends of edges that all pass. -/
theorem edgeEnds_eq {definition : Definition}
    (h : ∀ edge ∈ definition.edges, EdgePasses (seenNodeIDs definition) edge) :
    edgeEnds definition = definition.edges.map fun edge => (trim edge.source, trim edge.target) :=
  filterMap_mapIdx fun _ _ hedge => checkEdge_snd (h _ hedge)

/-- Edges lead from node to node. -/
theorem mem_ids_of_mem_ends {definition : Definition} {e : String × String}
    (h : e ∈ edgeEnds definition) : e.1 ∈ seenNodeIDs definition ∧ e.2 ∈ seenNodeIDs definition := by
  obtain ⟨checked, hchecked, hends⟩ := List.mem_filterMap.mp h
  obtain ⟨index, hindex, rfl⟩ := List.mem_mapIdx.mp hchecked
  by_cases hblank : trim definition.edges[index].source = "" ∨
      trim definition.edges[index].target = ""
  · simp [checkEdge, hblank] at hends
  by_cases hids : trim definition.edges[index].source ∉ seenNodeIDs definition ∨
      trim definition.edges[index].target ∉ seenNodeIDs definition
  · simp [checkEdge, hblank, hids] at hends
  · simp only [checkEdge, hblank, hids, if_false, Option.some.injEq] at hends
    simp only [not_or, not_not] at hids
    rw [← hends]
    exact hids

/-- The edges of a definition are one path. -/
structure Linear (definition : Definition) : Prop where
  edge : ∀ edge ∈ definition.edges, EdgePasses (seenNodeIDs definition) edge
  start : seenNodeIDs definition ≠ [] → ∃ startNode, startNodes definition = [startNode]
  trigger : ∀ triggerNodeID, triggerNodeIDs definition = [triggerNodeID] →
    triggerNodeID ∉ (edgeEnds definition).map Prod.snd
  nodup_fst : ((edgeEnds definition).map Prod.fst).Nodup
  nodup_snd : ((edgeEnds definition).map Prod.snd).Nodup
  acyclic : ¬ Cyclic (edgeEnds definition)
  reaches : ∀ startNode, startNodes definition = [startNode] →
    ∀ id ∈ seenNodeIDs definition, ReflTransGen (Leads (edgeEnds definition)) startNode id

/-- The search for a cycle finds one if there is one. -/
theorem foundCycle_iff (definition : Definition) :
    foundCycle definition = true ↔ Cyclic (edgeEnds definition) := by
  rcases hall : visitAll (visit (targetsOf (edgeEnds definition))
    ((edgeEnds definition).length + 2)) (seenNodeIDs definition) ⟨[], []⟩ with ⟨found, m⟩
  have hdef : foundCycle definition = found := by
    show (visitAll _ _ _).1 = _
    rw [hall]
  rw [hdef]
  constructor
  · rintro rfl
    exact cyclic_of_visitAll (by omega) hall
  · refine found_of_cyclic (fun n hn => ?_) hall
    obtain ⟨e, he, rfl⟩ := List.mem_map.mp hn
    exact (mem_ids_of_mem_ends he).1

/-- The nodes reached from the start are as many as there are nodes if and only if they
are all the nodes. -/
theorem length_reachable_iff {definition : Definition} {startNode : String}
    (hstart : startNode ∈ seenNodeIDs definition) :
    (reachable definition startNode).length = (seenNodeIDs definition).length ↔
      ∀ id ∈ seenNodeIDs definition, ReflTransGen (Leads (edgeEnds definition)) startNode id := by
  have hvertices : ∀ x ∈ seenNodeIDs definition, ∀ y ∈ targetsOf (edgeEnds definition) x,
      y ∈ seenNodeIDs definition := by
    intro x _ y hy
    exact (mem_ids_of_mem_ends (mem_targetsOf.mp hy)).2
  have hleads : (fun a b => b ∈ targetsOf (edgeEnds definition) a) =
      Leads (edgeEnds definition) := by
    funext a b
    exact propext mem_targetsOf
  have hmem : ∀ x, x ∈ reachable definition startNode ↔
      ReflTransGen (Leads (edgeEnds definition)) startNode x := by
    intro x
    rw [← hleads]
    exact Graph.mem_reach_iff hvertices hstart (Nat.lt_succ_self _)
  -- both lists are without repetitions, and one is part of the other
  have hnodup : (reachable definition startNode).Nodup :=
    Graph.nodup_reach hvertices hstart (Nat.lt_succ_self _)
  have hids : (seenNodeIDs definition).Nodup := nodup_eraseDups _
  have hsubset : reachable definition startNode ⊆ seenNodeIDs definition := by
    intro x hx
    rcases ((hmem x).mp hx).cases_tail with rfl | ⟨y, _, hlead⟩
    · exact hstart
    · exact (mem_ids_of_mem_ends hlead).2
  constructor
  · intro hlength id hid
    have hperm := (List.subperm_of_subset hnodup hsubset).perm_of_length_le hlength.ge
    exact (hmem id).mp (hperm.mem_iff.mpr hid)
  · intro hall
    refine ((List.perm_ext_iff_of_nodup hnodup hids).mpr fun x => ?_).length_eq
    exact ⟨fun hx => hsubset hx, fun hx => (hmem x).mpr (hall x hx)⟩

theorem startNode_mem {definition : Definition} {startNode : String}
    (h : startNode ∈ startNodes definition) : startNode ∈ seenNodeIDs definition :=
  List.mem_of_mem_filter h

/-- No node has two edges on one side. -/
theorem degreeIssues_iff {definition : Definition} :
    (∀ id ∈ seenNodeIDs definition, degreeIssues definition id = []) ↔
      ((edgeEnds definition).map Prod.snd).Nodup ∧ ((edgeEnds definition).map Prod.fst).Nodup := by
  have hdegree : ∀ id, degreeIssues definition id = [] ↔
      ((edgeEnds definition).map Prod.snd).count id ≤ 1 ∧
        ((edgeEnds definition).map Prod.fst).count id ≤ 1 := by
    intro id
    simp [degreeIssues, List.append_eq_nil_iff]
  simp only [hdegree, List.nodup_iff_count_le_one]
  constructor
  · intro h
    -- an id that is not a node has no edges
    refine ⟨fun id => ?_, fun id => ?_⟩
    · by_cases hid : id ∈ (edgeEnds definition).map Prod.snd
      · obtain ⟨e, he, rfl⟩ := List.mem_map.mp hid
        exact (h _ (mem_ids_of_mem_ends he).2).1
      · rw [List.count_eq_zero_of_not_mem hid]
        omega
    · by_cases hid : id ∈ (edgeEnds definition).map Prod.fst
      · obtain ⟨e, he, rfl⟩ := List.mem_map.mp hid
        exact (h _ (mem_ids_of_mem_ends he).1).2
      · rw [List.count_eq_zero_of_not_mem hid]
        omega
  · rintro ⟨hsnd, hfst⟩ id -
    exact ⟨hsnd id, hfst id⟩

/-- **The edges pass if and only if they are one path.** -/
theorem validateEdges_eq_nil_iff (definition : Definition) :
    validateEdges definition = [] ↔ Linear definition := by
  -- the checks of the single edges
  have hchecked : (definition.edges.mapIdx (checkEdge (seenNodeIDs definition))).flatMap Prod.fst
      = [] ↔ ∀ edge ∈ definition.edges, EdgePasses (seenNodeIDs definition) edge := by
    rw [List.flatMap_eq_nil_iff]
    constructor
    · intro h edge hedge
      obtain ⟨index, hindex, rfl⟩ := List.mem_iff_getElem.mp hedge
      exact checkEdge_iff.mp (h _ (List.mem_mapIdx.mpr ⟨index, hindex, rfl⟩))
    · intro h checked hmem
      obtain ⟨index, hindex, rfl⟩ := List.mem_mapIdx.mp hmem
      exact checkEdge_iff.mpr (h _ (List.getElem_mem hindex))
  simp only [validateEdges, List.append_eq_nil_iff, hchecked, List.flatMap_eq_nil_iff,
    degreeIssues_iff]
  constructor
  -- the other six checks, in the order of the source
  · rintro ⟨⟨⟨⟨⟨⟨hedge, hsome⟩, hone⟩, htrigger⟩, hsnd, hfst⟩, hcycle⟩, hreach⟩
    refine ⟨hedge, ?_, ?_, hfst, hsnd, ?_, ?_⟩
    -- there is a start node, and not more than one
    · intro hne
      have hpos : 0 < (seenNodeIDs definition).length := List.length_pos_of_ne_nil hne
      apply List.length_eq_one_iff.mp
      simp only [hpos, true_and, ite_eq_right_iff, reduceCtorEq, imp_false] at hsome hone
      omega
    · intro t ht hmem
      rw [ht] at htrigger
      have hpos := List.count_pos_iff.mpr hmem
      simp only [ite_eq_right_iff, reduceCtorEq, imp_false] at htrigger
      exact htrigger hpos
    · intro hcyclic
      simp [(foundCycle_iff definition).mpr hcyclic] at hcycle
    · intro s hs
      rw [hs] at hreach
      have hmem : s ∈ seenNodeIDs definition := startNode_mem (hs ▸ List.mem_singleton_self s)
      apply (length_reachable_iff hmem).mp
      simpa using hreach
  · intro h
    have hcycle : foundCycle definition = false := by
      rw [← Bool.not_eq_true, foundCycle_iff]
      exact h.acyclic
    refine ⟨⟨⟨⟨⟨⟨h.edge, ?_⟩, ?_⟩, ?_⟩, h.nodup_snd, h.nodup_fst⟩, ?_⟩, ?_⟩
    · rw [if_neg]
      rintro ⟨hpos, hnone⟩
      obtain ⟨s, hs⟩ := h.start (List.ne_nil_of_length_pos hpos)
      rw [hs] at hnone
      cases hnone
    · rw [if_neg]
      intro hmany
      by_cases hnil : seenNodeIDs definition = []
      · simp [startNodes, hnil] at hmany
      · obtain ⟨s, hs⟩ := h.start hnil
        rw [hs, List.length_singleton] at hmany
        omega
    · split
      · next t ht =>
        rw [List.count_eq_zero_of_not_mem (h.trigger t ht)]
        rfl
      · rfl
    · rw [hcycle]
      rfl
    · split
      · next s hs =>
        have hmem : s ∈ seenNodeIDs definition := startNode_mem (hs ▸ List.mem_singleton_self s)
        rw [if_neg (not_not.mpr ((length_reachable_iff hmem).mpr (h.reaches s hs)))]
      · rfl

end Iwifunni.Web
