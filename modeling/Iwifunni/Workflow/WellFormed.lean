/-
Iwifunni/Workflow/WellFormed.lean

`ValidateDefinition` accepts exactly the well-formed acyclic graphs.

`WellFormed` says what a definition has to be like without saying how it is
checked.  Two things in the code are not about well-formedness at all:

* the test for a start node counts the incoming edges of trimmed ids and looks
  them up under ids that are not trimmed.  An id with white space around it has
  none, and without a cycle some node has none anyway, so the test never decides;
* the search for a cycle starts from the keys of a map, in any order, and its
  depth is not bounded.  `searchAll` is that search with the depth as fuel and
  `none` for a search that has not ended:

      searchAll  order₁  fuel₁  =  searchAll  order₂  fuel₂  =  some (hasCycle ends)

  as soon as the fuel exceeds the number of edges.
-/
import Iwifunni.Workflow.Accepted

namespace Iwifunni.Workflow

open Go Relation

/-! ### What is checked of a node -/

/-- The channels of a config name one supported channel. -/
def OneChannel (channels : List String) : Prop :=
  channels ≠ [] ∧ ∃ channel ∈ ["email", "sms", "push"],
    ∀ c ∈ channels, toLower (trimSpace c) = channel

/-- The config rules of each type of node. -/
def ConfigRules (node : Node) : Prop :=
  match node.type with
  | .trigger => True
  | .notification => ∃ config, Json.unmarshal node.config decodeNotificationConfig = .ok config ∧
      OneChannel config.channels ∧
      (trimSpace config.templateID = "" ∨ (UUID.parse (trimSpace config.templateID)).isSome)
  | .delay => ∃ config, Json.unmarshal node.config decodeDelayConfig = .ok config ∧
      (Duration.parse (trimSpace config.duration)).isSome
  | .condition => ∃ config, Json.unmarshal node.config decodeConditionConfig = .ok config ∧
      trimSpace config.field ≠ "" ∧
      toLower (trimSpace config.operator) ∈ allowedConditionOperators
  | .other _ _ => False

/-- The loop of `normalizeChannels` from a result that has one channel. -/
theorem collect_singleton {channel : String} {cs result : List String}
    (hmem : channel ∈ ["email", "sms", "push"]) :
    normalizeChannels.collect [channel] cs = .ok result ∧ result.length = 1 ↔
      result = [channel] ∧ ∀ c ∈ cs, toLower (trimSpace c) = channel := by
  -- a channel that was seen is not dropped
  have hgrows : ∀ (cs seen result : List String),
      normalizeChannels.collect seen cs = .ok result → seen.length ≤ result.length := by
    intro cs
    induction cs with
    | nil =>
        intro seen result h
        simp only [normalizeChannels.collect] at h
        split at h
        · cases h
        · cases h
          exact le_rfl
    | cons c cs ih =>
        intro seen result h
        simp only [normalizeChannels.collect] at h
        split at h
        · split at h
          · exact ih _ _ h
          · have hle := ih _ _ h
            rw [List.length_append, List.length_singleton] at hle
            omega
        · cases h
  induction cs with
  | nil =>
      rw [normalizeChannels.collect, if_neg (List.cons_ne_nil _ _), Except.ok.injEq]
      constructor
      · rintro ⟨rfl, -⟩
        exact ⟨rfl, fun c hc => by cases hc⟩
      · rintro ⟨rfl, -⟩
        exact ⟨rfl, rfl⟩
  | cons c cs ih =>
      simp only [normalizeChannels.collect]
      by_cases hc : toLower (trimSpace c) = channel
      · -- the channel is there already
        rw [hc, if_pos hmem, if_pos (List.mem_singleton_self _), List.forall_mem_cons]
        exact ih.trans (and_congr_right fun _ => ⟨fun h => ⟨hc, h⟩, And.right⟩)
      · constructor
        · rintro ⟨h, hlength⟩
          split at h
          · -- another channel would be the second one
            rw [if_neg (by rwa [List.mem_singleton])] at h
            have hle := hgrows _ _ _ h
            rw [List.length_append, List.length_singleton, List.length_singleton] at hle
            omega
          · cases h
        · rintro ⟨-, hall⟩
          exact absurd (hall c (List.mem_cons_self ..)) hc

/-- `normalizeChannels` finds one channel. -/
theorem oneChannel_iff {channels : List String} :
    (∃ cs, normalizeChannels channels = .ok cs ∧ cs.length = 1) ↔ OneChannel channels := by
  cases channels with
  | nil => simp [normalizeChannels, normalizeChannels.collect, OneChannel]
  | cons c cs =>
      simp only [normalizeChannels, normalizeChannels.collect, List.not_mem_nil, if_false,
        List.nil_append]
      by_cases hmem : toLower (trimSpace c) ∈ ["email", "sms", "push"]
      · simp only [if_pos hmem, collect_singleton hmem]
        constructor
        · rintro ⟨_, -, hall⟩
          exact ⟨List.cons_ne_nil _ _, _, hmem, List.forall_mem_cons.mpr ⟨rfl, hall⟩⟩
        · rintro ⟨-, channel, -, hall⟩
          obtain ⟨rfl, hrest⟩ := List.forall_mem_cons.mp hall
          exact ⟨_, rfl, hrest⟩
      · simp only [if_neg hmem]
        constructor
        · rintro ⟨_, h, -⟩
          cases h
        · rintro ⟨-, channel, hchannel, hall⟩
          rw [hall c (List.mem_cons_self ..)] at hmem
          exact absurd hchannel hmem

/-- **The check of a node is its config rules.** -/
theorem validateNode_iff (node : Node) : validateNode node = .ok () ↔ ConfigRules node := by
  obtain ⟨id, type, config⟩ := node
  cases type with
  | trigger => simp [validateNode, ConfigRules]
  | other name h => simp [validateNode, ConfigRules]
  | notification =>
      simp only [validateNode, ConfigRules]
      rcases Json.unmarshal config decodeNotificationConfig with e | cfg
      · simp
      · simp only [Except.ok.injEq, exists_eq_left', ← oneChannel_iff]
        -- the channels, their number, and the template
        rcases normalizeChannels cfg.channels with e | cs
        · simp
        · by_cases hlength : cs.length = 1
          · simp only [hlength, ne_eq, not_true, if_false, Except.ok.injEq, exists_eq_left',
              true_and]
            rcases UUID.parse (trimSpace cfg.templateID) with - | id
            · by_cases htemplate : trimSpace cfg.templateID = "" <;> simp [htemplate]
            · simp
          · simp [hlength]
  | delay =>
      simp only [validateNode, ConfigRules]
      rcases Json.unmarshal config decodeDelayConfig with e | cfg
      · simp
      · rcases hduration : Duration.parse (trimSpace cfg.duration) with - | duration <;>
          simp [hduration]
  | condition =>
      simp only [validateNode, ConfigRules]
      rcases Json.unmarshal config decodeConditionConfig with e | cfg
      · simp
      · by_cases hfield : trimSpace cfg.field = ""
        · simp [hfield]
        · by_cases hoperator : toLower (trimSpace cfg.operator) ∈ allowedConditionOperators <;>
            simp [hfield, hoperator]

/-! ### Well-formed definitions -/

/-- A definition that is well formed: a graph over the trimmed ids of its nodes, without a
directed cycle. -/
structure WellFormed (d : Definition) : Prop where
  event : trimSpace d.trigger.event ≠ ""
  nodes : d.nodes ≠ []
  id_ne : ∀ node ∈ d.nodes, trimSpace node.id ≠ ""
  nodup : d.ids.Nodup
  config : ∀ node ∈ d.nodes, ConfigRules node
  edge : ∀ edge ∈ d.edges, trimSpace edge.source ∈ d.ids ∧ trimSpace edge.target ∈ d.ids
  acyclic : ∀ id, ¬ TransGen (Leads d.ends) id id

/-- The id of a node plays no part in its check. -/
theorem configRules_id {node : Node} {id : String} :
    ConfigRules { node with id := id } ↔ ConfigRules node := Iff.rfl

/-- Accepted definitions are well-formed. -/
theorem Accepted.wellFormed {d : Definition} (h : Accepted d) : WellFormed d where
  event := h.event
  nodes := h.nodes
  id_ne := h.id_ne
  nodup := h.nodup
  config node hnode := configRules_id.mp ((validateNode_iff _).mp (h.node node hnode))
  edge := h.edge
  acyclic id hid := by
    have hcycle := (hasCycle_iff d.ends).mpr ⟨id, hid⟩
    rw [h.acyclic] at hcycle
    cases hcycle

/-- The loop over nodes that pass their checks. -/
theorem validateNodes_eq (seen : List String) {nodes : List Node}
    (hne : ∀ node ∈ nodes, trimSpace node.id ≠ "")
    (hnode : ∀ node ∈ nodes, validateNode { node with id := trimSpace node.id } = .ok ())
    (hnodup : (seen ++ nodes.map fun node => trimSpace node.id).Nodup) :
    validateNodes seen nodes = .ok (seen ++ nodes.map fun node => trimSpace node.id) := by
  induction nodes generalizing seen with
  | nil => simp [validateNodes]
  | cons node nodes ih =>
      have hfresh : trimSpace node.id ∉ seen := by
        intro hmem
        exact (List.nodup_append.mp hnodup).2.2 _ hmem _ (List.mem_cons_self ..) rfl
      rw [validateNodes, if_neg (hne node (List.mem_cons_self ..)), if_neg hfresh,
        hnode node (List.mem_cons_self ..)]
      have hrest := ih (seen ++ [trimSpace node.id])
        (fun n hn => hne n (List.mem_cons_of_mem _ hn))
        (fun n hn => hnode n (List.mem_cons_of_mem _ hn))
        (by rwa [List.append_assoc])
      rw [List.append_assoc] at hrest
      exact hrest

/-- The loop over edges that join nodes. -/
theorem validateEdges_eq {ids : List String} {edges : List Edge} (hne : "" ∉ ids)
    (hedge : ∀ edge ∈ edges, trimSpace edge.source ∈ ids ∧ trimSpace edge.target ∈ ids) :
    validateEdges ids edges
      = .ok (edges.map fun edge => (trimSpace edge.source, trimSpace edge.target)) := by
  induction edges with
  | nil => rfl
  | cons edge edges ih =>
      obtain ⟨hsource, htarget⟩ := hedge edge (List.mem_cons_self ..)
      have hends : ¬ (trimSpace edge.source = "" ∨ trimSpace edge.target = "") := by
        rintro (h | h)
        · exact hne (h ▸ hsource)
        · exact hne (h ▸ htarget)
      rw [validateEdges, if_neg hends, if_neg (not_not.mpr hsource), if_neg (not_not.mpr htarget),
        ih fun e he => hedge e (List.mem_cons_of_mem _ he)]
      rfl

/-- Without a cycle, the test for a start node succeeds. -/
theorem WellFormed.start {d : Definition} (h : WellFormed d) :
    ∃ node ∈ d.nodes, ∀ edge ∈ d.edges, trimSpace edge.target ≠ node.id := by
  have hcycle : hasCycle d.ends = false := by
    rw [← Bool.not_eq_true, hasCycle_iff]
    rintro ⟨id, hid⟩
    exact h.acyclic id hid
  have hids : d.ids ≠ [] := by
    intro hnil
    exact h.nodes (List.map_eq_nil_iff.mp hnil)
  obtain ⟨id, hmem, hsource⟩ := exists_source hcycle hids
  obtain ⟨node, hnode, rfl⟩ := List.mem_map.mp hmem
  refine ⟨node, hnode, fun edge hedge heq => ?_⟩
  -- a target is trimmed, so the id it equals is trimmed as well
  have htrimmed : trimSpace node.id = trimSpace edge.target := by
    rw [← heq, trimSpace_trimSpace]
  apply hsource _ (h.edge edge hedge).1
  rw [htrimmed]
  exact List.mem_map.mpr ⟨edge, hedge, rfl⟩

/-- Well-formed definitions are accepted. -/
theorem validateDefinition_of_wellFormed {d : Definition} (h : WellFormed d) :
    validateDefinition d = .ok () := by
  have hnodes := validateNodes_eq [] h.id_ne
    (fun node hnode => (validateNode_iff _).mpr (configRules_id.mpr (h.config node hnode)))
    (by rw [List.nil_append]; exact h.nodup)
  have hne : "" ∉ d.ids := by
    intro hmem
    obtain ⟨node, hnode, hid⟩ := List.mem_map.mp hmem
    exact h.id_ne node hnode hid
  have hcycle : ¬ hasCycle d.ends = true := by
    rw [hasCycle_iff]
    rintro ⟨id, hid⟩
    exact h.acyclic id hid
  obtain ⟨node, hnode, hstart⟩ := h.start
  have hany : (!(d.nodes.any fun node => !(d.ends.map (·.2)).contains node.id)) = false := by
    rw [Bool.not_eq_false', List.any_eq_true]
    refine ⟨node, hnode, ?_⟩
    rw [Bool.not_eq_true', List.contains_eq_mem, decide_eq_false_iff_not]
    intro hmem
    obtain ⟨ends, hends, htarget⟩ := List.mem_map.mp hmem
    obtain ⟨edge, hedge, rfl⟩ := List.mem_map.mp hends
    exact hstart edge hedge htarget
  have hends : validateEdges ([] ++ d.nodes.map fun node => trimSpace node.id) d.edges
      = .ok d.ends := validateEdges_eq hne h.edge
  rw [validateDefinition, if_neg h.event, if_neg h.nodes, hnodes]
  simp only [except_ok_bind, hends, hany, hcycle, Bool.false_eq_true, if_false]
  rfl

/-! ### The search, in any order -/

/-- The loop over nodes of a search that may not end. -/
def searchAll (search : String → Marks → Option (Bool × Marks)) :
    List String → Marks → Option (Bool × Marks)
  | [], m => some (false, m)
  | next :: rest, m =>
      match search next m with
      | none => none
      | some (true, m) => some (true, m)
      | some (false, m) => searchAll search rest m

/-- `visit`, as far as `fuel` calls below each other go. -/
def search (adjacency : String → List String) : ℕ → String → Marks → Option (Bool × Marks)
  | 0, _, _ => none
  | fuel + 1, node, m =>
      if node ∈ m.visited then some (false, m)
      else if node ∈ m.visiting then some (true, m)
      else
        match searchAll (search adjacency fuel) (adjacency node)
          { m with visiting := node :: m.visiting } with
        | none => none
        | some (true, m) => some (true, m)
        | some (false, m) => some (false, ⟨m.visiting.erase node, node :: m.visited⟩)

/-- `hasCycle` with the keys of its map in the given order. -/
def hasCycleFrom (order : List String) (fuel : ℕ) (ends : List (String × String)) : Option Bool :=
  (searchAll (search (targetsOf ends) fuel) order ⟨[], []⟩).map (·.1)

/-- The loop agrees with the one that always ends. -/
theorem visitAll_of_searchAll {step : String → Marks → Option (Bool × Marks)}
    {step' : String → Marks → Bool × Marks} (hstep : ∀ n m r, step n m = some r → step' n m = r)
    (ns : List String) (m : Marks) (r : Bool × Marks) (h : searchAll step ns m = some r) :
    visitAll step' ns m = r := by
  induction ns generalizing m with
  | nil =>
      cases h
      rfl
  | cons n ns ih =>
      rw [searchAll] at h
      rcases hs : step n m with - | ⟨found, m₁⟩
      · rw [hs] at h
        cases h
      · rw [hs] at h
        rw [visitAll, hstep n m _ hs]
        cases found with
        | true =>
            cases h
            rfl
        | false => exact ih m₁ h

/-- A search that ends finds what `visit` finds. -/
theorem visit_of_search {adjacency : String → List String} (fuel : ℕ) (n : String) (m : Marks)
    (r : Bool × Marks) (h : search adjacency fuel n m = some r) :
    visit adjacency fuel n m = r := by
  induction fuel generalizing n m r with
  | zero => cases h
  | succ fuel ih =>
      rw [search] at h
      rw [visit]
      by_cases hvisited : n ∈ m.visited
      · rw [if_pos hvisited] at h ⊢
        exact Option.some.inj h
      rw [if_neg hvisited] at h ⊢
      by_cases hvisiting : n ∈ m.visiting
      · rw [if_pos hvisiting] at h ⊢
        exact Option.some.inj h
      rw [if_neg hvisiting] at h ⊢
      rcases hall : searchAll (search adjacency fuel) (adjacency n)
        { m with visiting := n :: m.visiting } with - | ⟨found, m₁⟩
      · rw [hall] at h
        cases h
      · rw [hall] at h
        rw [visitAll_of_searchAll ih _ _ _ hall]
        cases found with
        | true => exact Option.some.inj h
        | false => exact Option.some.inj h

/-- The loop ends if each of its searches does. -/
theorem searchAll_isSome {adjacency : String → List String} {fuel : ℕ} (visiting : List String)
    (ns : List String) (hstep : ∀ n ∈ ns, ∀ m : Marks, m.visiting = visiting →
      (search adjacency fuel n m).isSome) (m : Marks) (hm : m.visiting = visiting) :
    (searchAll (search adjacency fuel) ns m).isSome := by
  induction ns generalizing m with
  | nil => rfl
  | cons n ns ih =>
      rw [searchAll]
      obtain ⟨⟨found, m₁⟩, hs⟩ := Option.isSome_iff_exists.mp
        (hstep n (List.mem_cons_self ..) m hm)
      rw [hs]
      cases found with
      | true => rfl
      | false =>
          -- a search that found nothing is visiting what it was visiting before
          have hkept := (explored_visit fuel n m m₁ (visit_of_search fuel n m _ hs)).1.visiting
          exact ih (fun k hk => hstep k (List.mem_cons_of_mem _ hk)) m₁ (hkept.trans hm)

/-- **The search ends**: the nodes being visited form a path without repetition, which is
no longer than the list of edges. -/
theorem search_isSome {ends : List (String × String)} (fuel : ℕ) (n : String) (m : Marks)
    (hfuel : ends.length < fuel + m.visiting.length) (hnodup : m.visiting.Nodup)
    (htrail : Trail ends m.visiting n) : (search (targetsOf ends) fuel n m).isSome := by
  induction fuel generalizing n m with
  | zero =>
      have hle := htrail.length_le hnodup
      omega
  | succ fuel ih =>
      rw [search]
      split
      · rfl
      split
      · rfl
      next hvisiting =>
      have hall : (searchAll (search (targetsOf ends) fuel) (targetsOf ends n)
          { m with visiting := n :: m.visiting }).isSome := by
        refine searchAll_isSome (n :: m.visiting) _ (fun k hk m' hm' => ?_) _ rfl
        apply ih
        · rw [hm', List.length_cons]
          omega
        · rw [hm']
          exact List.nodup_cons.mpr ⟨hvisiting, hnodup⟩
        · rw [hm']
          exact .cons htrail (mem_targetsOf.mp hk)
      obtain ⟨⟨found, m₁⟩, hr⟩ := Option.isSome_iff_exists.mp hall
      rw [hr]
      cases found with
      | true => rfl
      | false => rfl

/-- **Whatever the order, the search ends with the same answer.** -/
theorem hasCycleFrom_eq {ends : List (String × String)} {order : List String} {fuel : ℕ}
    (horder : ∀ n, n ∈ order ↔ n ∈ ends.map (·.1)) (hfuel : ends.length < fuel) :
    hasCycleFrom order fuel ends = some (hasCycle ends) := by
  have hends : (searchAll (search (targetsOf ends) fuel) order ⟨[], []⟩).isSome := by
    refine searchAll_isSome [] order (fun n _ m hm => ?_) _ rfl
    apply search_isSome
    · omega
    · rw [hm]
      exact List.nodup_nil
    · rw [hm]
      exact .nil n
  obtain ⟨⟨found, m⟩, hr⟩ := Option.isSome_iff_exists.mp hends
  have hall := visitAll_of_searchAll (visit_of_search fuel) order _ _ hr
  have hfound : found = true ↔ Cyclic ends := by
    constructor
    · rintro rfl
      exact cyclic_of_visitAll hfuel hall
    · exact found_of_cyclic (fun n hn => (horder n).mpr hn) hall
  rw [hasCycleFrom, hr, Option.map_some, Option.some.injEq, Bool.eq_iff_iff, hasCycle_iff]
  exact hfound

/-- **The validator accepts exactly the well-formed definitions**, and the search for a
cycle ends on every graph with an answer that does not depend on where it starts. -/
theorem validateDefinition_iff (d : Definition) :
    (validateDefinition d = .ok () ↔ WellFormed d) ∧
      ∀ order fuel, (∀ n, n ∈ order ↔ n ∈ d.ends.map (·.1)) → d.ends.length < fuel →
        hasCycleFrom order fuel d.ends = some (hasCycle d.ends) := by
  refine ⟨⟨fun h => (accepted_of_validateDefinition h).wellFormed,
    validateDefinition_of_wellFormed⟩, ?_⟩
  intro order fuel horder hfuel
  exact hasCycleFrom_eq horder hfuel

end Iwifunni.Workflow
