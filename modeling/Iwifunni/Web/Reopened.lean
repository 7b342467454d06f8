/-
Iwifunni/Web/Reopened.lean

Opening a workflow in the builder and saving it.

    stored definition --builderDraftFromDefinition--> draft
                      --workflowDefinitionFromBuilderDraft--> stored definition

The builder saves without being asked, so what does not survive this is lost.  The
engine looks nodes up by their ids as they are, and reads a config by what the node is
(`settings`); the builder reads the same config in its own way (`builderSettings`) and
writes down what it has read.  So the round trip changes nothing the engine sees exactly
if the two readings agree, nothing is trimmed, there is no payload, and a trigger that
has to be put in front fits there (`reopened_iff`).
-/
import Iwifunni.Web.Agreement
import Iwifunni.Web.Conditions

namespace Iwifunni.Web

open Go Workflow

/-- What is saved of a definition that is opened; one that cannot be opened is not saved. -/
def reopened (d : Definition) : Option Definition :=
  (builderDraftFromDefinition (some d)).map workflowDefinitionFromBuilderDraft

/-- What is saved if the edges are an array. -/
def savedAgain (d : Definition) : Definition :=
  workflowDefinitionFromBuilderDraft (definitionDraft d)

theorem reopened_eq (d : Definition) : reopened d = d.edgeSlice.map fun _ => savedAgain d := by
  simp only [reopened, builderDraftFromDefinition, Option.map_map]
  rfl

/-! ### What a config says -/

/-- What the engine takes from the config of a node. -/
inductive Settings
  | none
  | delay (duration : Option Duration)
  | notification (channels : Except GoError (List String)) (templateID : Option UUID)
  | condition (field operator : String) (value : Json)

/-- The engine's reading of a config. -/
def settings (node : Node) : Except DecodeError Settings :=
  match node.type with
  | .delay => (Json.unmarshal node.config decodeDelayConfig).map fun config =>
      .delay (Duration.parse (trimSpace config.duration))
  | .notification => (Json.unmarshal node.config decodeNotificationConfig).map fun config =>
      .notification (normalizeChannels config.channels) (UUID.parse (trimSpace config.templateID))
  | .condition => (Json.unmarshal node.config decodeConditionConfig).map fun config =>
      .condition (trimSpace config.field) (toLower (trimSpace config.operator)) config.value
  | .trigger | .other _ _ => .ok .none

/-- The builder's reading: strings under exactly these keys, with a default for each, the
first channel only, a template only if it matches `uuidPattern`. -/
def builderSettings (node : Node) : Settings :=
  match node.type with
  | .delay =>
      let duration := (configString node.config "duration").getD "5m"
      .delay (Duration.parse (trimSpace (trim duration)))
  | .notification =>
      let channel := orElse ((firstChannel node.config).getD "") "email"
      let templateID := trim ((configString node.config "template_id").getD "")
      .notification (normalizeChannels [channel])
        (if isUuid templateID then UUID.parse templateID else Option.none)
  | .condition =>
      let field := orElse ((configString node.config "field").getD "data.plan") "data.plan"
      let operator := orElse ((configString node.config "operator").getD "equals") "equals"
      let value := (configString node.config "value").getD ""
      .condition (trimSpace (trim field)) (toLower (trimSpace (trim operator))) (.str (trim value))
  | .trigger | .other _ _ => .none

/-- A node that was opened and saved. -/
def reopenedNode (node : Node) : Node :=
  ⟨trim node.id, node.type, draftConfig (nodeDraft node)⟩

/-- A template is read back if its id matches `uuidPattern`. -/
theorem parse_normalizeImportedTemplateId (value : Option Json) :
    UUID.parse (trimSpace (trim (normalizeImportedTemplateId value))) =
      if isUuid (trim ((asString value).getD "")) then
        UUID.parse (trim ((asString value).getD "")) else Option.none := by
  simp only [normalizeImportedTemplateId]
  by_cases huuid : isUuid (trim ((asString value).getD "")) = true
  · rw [if_pos huuid, if_pos huuid, trim_trim, (parse_of_isUuid huuid).2]
  · rw [if_neg huuid, if_neg huuid]
    decide

/-- **What the builder has read is what it writes.** -/
theorem settings_reopenedNode (node : Node) :
    settings (reopenedNode node) = .ok (builderSettings node) := by
  obtain ⟨id, type, config⟩ := node
  cases type with
  | trigger => rfl
  | other name h => rfl
  | delay =>
      have hdecode := decode_delay (nodeDraft ⟨id, .delay, config⟩) rfl
      simp only [nodeDraft, normalizeNodeDraftForType, if_true] at hdecode
      simp only [settings, reopenedNode, nodeDraft, normalizeNodeDraftForType, if_true, hdecode,
        Except.map, builderSettings]
  | notification =>
      have hdecode := decode_notification (nodeDraft ⟨id, .notification, config⟩) rfl
      have hchannel : orElse ((firstChannel config).getD "") "email" ≠ "" := by
        unfold orElse
        split
        · decide
        · assumption
      simp only [nodeDraft, normalizeNodeDraftForType, if_true, if_neg hchannel] at hdecode
      simp only [settings, reopenedNode, nodeDraft, normalizeNodeDraftForType, if_true, hdecode,
        Except.map, builderSettings, parse_normalizeImportedTemplateId]
      rfl
  | condition =>
      have hdecode := decode_draftConfig (nodeDraft ⟨id, .condition, config⟩) rfl
      simp only [nodeDraft, normalizeNodeDraftForType, if_true] at hdecode
      simp only [settings, reopenedNode, nodeDraft, normalizeNodeDraftForType, if_true, hdecode,
        Except.map, builderSettings]

/-! ### The parts of a saved definition -/

/-- The nodes the builder adds: a trigger, if there is none. -/
def addedNodes (d : Definition) : List Node :=
  if d.nodes.any fun node => node.type == .trigger then []
  else [⟨"trigger_1", .trigger,
    draftConfig { createNodeDraft .trigger none "" with id := "trigger_1" }⟩]

/-- The edges it adds: one from that trigger to the node that was first in the list. -/
def addedEdges (d : Definition) : List Edge :=
  if d.nodes.any fun node => node.type == .trigger then []
  else (d.nodes.head?.map fun node => ⟨"trigger_1", trim node.id, ""⟩).toList

/-- An edge that was opened and saved. -/
def reopenedEdge (edge : Edge) : Edge := ⟨trim edge.source, trim edge.target, trim edge.branch⟩

/-- The nodes that are saved again, behind an added trigger. -/
theorem nodes_savedAgain (d : Definition) :
    (savedAgain d).nodes = addedNodes d ++ d.nodes.map reopenedNode := by
  have hany : ((d.nodes.map nodeDraft).any fun node => node.type == .trigger) =
      d.nodes.any fun node => node.type == .trigger := by
    rw [List.any_map]
    rfl
  simp only [savedAgain, definitionDraft, withTrigger, addedNodes, hany]
  split
  · simp only [workflowDefinitionFromBuilderDraft, List.map_map, List.nil_append]
    rfl
  · simp only [workflowDefinitionFromBuilderDraft, List.map_cons, List.map_map]
    rfl

/-- The edges that are saved again, with the one of an added trigger. -/
theorem edges_savedAgain (d : Definition) :
    (savedAgain d).edges = addedEdges d ++ d.edges.map reopenedEdge := by
  have hany : ((d.nodes.map nodeDraft).any fun node => node.type == .trigger) =
      d.nodes.any fun node => node.type == .trigger := by
    rw [List.any_map]
    rfl
  simp only [savedAgain, definitionDraft, withTrigger, addedEdges, hany]
  split
  · simp only [workflowDefinitionFromBuilderDraft, List.map_map, List.nil_append]
    rfl
  · simp only [workflowDefinitionFromBuilderDraft, List.map_append, List.map_map, List.head?_map]
    have htrigger : trim "trigger_1" = "trigger_1" := by decide
    have hblank : trim "" = "" := by decide
    cases d.nodes with
    | nil => rfl
    | cons node nodes =>
        simp only [List.head?_cons, Option.map_some, Option.toList_some, List.map_cons,
          List.map_nil, htrigger, hblank]
        rfl

/-! ### What has to stay the same -/

/-- The ids of the nodes, as they are. -/
def rawIDs (d : Definition) : List String := d.nodes.map fun node => node.id

/-- The targets of the edges, as they are. -/
def rawTargets (d : Definition) : List String := d.edges.map fun edge => edge.target

/-- An edge as the engine reads it. -/
def readEdge (edge : Edge) : String × String × String :=
  (edge.source, edge.target, toLower (trimSpace edge.branch))

/-- The first step of a stored definition. -/
def firstStep (d : Definition) : Except GoError (Option String) :=
  firstStepID (some (marshalDefinition d))

/-- A definition does what another one does: it has its nodes, its edges apart from edges out
of nodes that were added, its payload, and its first step, before which there may be an added
trigger. -/
structure SameWorkflow (d d' : Definition) : Prop where
  nodes : ∀ node ∈ d.nodes, ∃ node', findNode d' node.id = .ok node' ∧ node'.type = node.type ∧
    settings node' = settings node
  edges : ∃ added, d'.edges.map readEdge = added ++ d.edges.map readEdge ∧
    ∀ edge ∈ added, edge.1 ∉ rawIDs d
  payload : d'.payload = d.payload
  first : firstStep d' = firstStep d ∨ ∃ trigger ∈ d'.nodes, ∃ first,
    trigger.type = .trigger ∧ trigger.id ∉ rawIDs d ∧ firstStep d' = .ok (some trigger.id) ∧
      firstStep d = .ok (some first) ∧ nextNodeIDs d' trigger.id "" = [first]

/-- A trigger fits before the first node of the list: its id is free, and where it comes first
that node came first, and no edge starts from that id. -/
structure TriggerFits (d : Definition) : Prop where
  free : "trigger_1" ∉ rawIDs d
  head : ∀ node, d.nodes.head? = some node →
    (node.id ∈ rawTargets d ↔ "trigger_1" ∈ rawTargets d)
  source : "trigger_1" ∈ rawTargets d ∨ ∀ edge ∈ d.edges, edge.source ≠ "trigger_1"

/-- A definition survives the builder: its edges are an array and not `null`, it has no payload,
nothing in it is trimmed, both sides read its configs alike, and a trigger that is added
fits. -/
structure Survives (d : Definition) : Prop where
  array : d.edgeSlice ≠ none
  payload : d.payload = none
  ids : ∀ node ∈ d.nodes, trim node.id = node.id
  node : ∀ node ∈ d.nodes, settings node = .ok (builderSettings node)
  edge : ∀ edge ∈ d.edges, trim edge.source = edge.source ∧ trim edge.target = edge.target ∧
    toLower (trimSpace (trim edge.branch)) = toLower (trimSpace edge.branch)
  trigger : (∀ node ∈ d.nodes, node.type ≠ .trigger) → TriggerFits d

/-! ### First steps -/

/-- The first of some ids that is not a target. -/
def firstOf (ids targets : List String) : Option String := ids.find? fun id => id ∉ targets

theorem firstOf_of_mem {id : String} {ids targets : List String} (h : id ∈ targets) :
    firstOf (id :: ids) targets = firstOf ids targets :=
  List.find?_cons_of_neg (by simpa using h)

theorem firstOf_of_notMem {id : String} {ids targets : List String} (h : id ∉ targets) :
    firstOf (id :: ids) targets = some id :=
  List.find?_cons_of_pos (by simpa using h)

/-- A target that is there already makes no difference. -/
theorem firstOf_cons_target {id : String} {ids targets : List String} (h : id ∈ targets) :
    firstOf ids (id :: targets) = firstOf ids targets := by
  unfold firstOf
  congr 1
  funext x
  have hmem : x ∈ id :: targets ↔ x ∈ targets := by
    rw [List.mem_cons]
    exact or_iff_right_of_imp fun hx => hx ▸ h
  simp only [hmem]

/-- What `firstOf` finds is one of the ids and not a target. -/
theorem mem_of_firstOf {id : String} {ids targets : List String}
    (h : firstOf ids targets = some id) : id ∈ ids ∧ id ∉ targets :=
  ⟨List.mem_of_find?_eq_some h, by simpa using List.find?_some h⟩

theorem firstStep_eq (d : Definition) : firstStep d = .ok (firstOf (rawIDs d) (rawTargets d)) := by
  have hstored := parseDefinition_marshalDefinition d
  have hstart : (fun node : Node => !(d.edges.map (·.target)).contains node.id) =
      (fun id => decide (id ∉ rawTargets d)) ∘ fun node : Node => node.id := by
    funext node
    show (!(rawTargets d).contains node.id) = decide (node.id ∉ rawTargets d)
    rw [List.contains_eq_mem, decide_not]
  simp only [firstStep, firstStepID, hstored]
  rw [firstOf, rawIDs, List.find?_map, hstart]

section Reopened

variable {d : Definition}

theorem any_trigger_iff : (d.nodes.any fun node => node.type == .trigger) = true ↔
    ∃ node ∈ d.nodes, node.type = .trigger := by
  simp

/-- The id of an added node is always the same. -/
theorem mem_addedNodes {node : Node} (h : node ∈ addedNodes d) :
    node.id = "trigger_1" ∧ node.type = .trigger ∧ ∀ n ∈ d.nodes, n.type ≠ .trigger := by
  unfold addedNodes at h
  split at h
  · cases h
  · next hany =>
    rw [List.mem_singleton.mp h]
    refine ⟨rfl, rfl, fun n hn hty => hany ?_⟩
    exact List.any_eq_true.mpr ⟨n, hn, by simp [hty]⟩

theorem mem_of_findNode {id : String} {node : Node} (h : findNode d id = .ok node) :
    node ∈ d.nodes ∧ node.id = id := by
  unfold findNode at h
  rcases hfind : d.nodes.find? (fun n => n.id == id) with - | found
  · rw [hfind] at h
    cases h
  · rw [hfind] at h
    obtain rfl := Except.ok.inj h
    exact ⟨List.mem_of_find?_eq_some hfind, by simpa using List.find?_some hfind⟩

/-- **A node is found again under its id**, if ids are left alone and the added one is free. -/
theorem findNode_savedAgain (hvalid : (rawIDs d).Nodup)
    (hids : ∀ node ∈ d.nodes, trim node.id = node.id)
    (hfree : (∀ node ∈ d.nodes, node.type ≠ .trigger) → "trigger_1" ∉ rawIDs d) {node : Node}
    (hnode : node ∈ d.nodes) : findNode (savedAgain d) node.id = .ok (reopenedNode node) := by
  unfold findNode
  rcases hfind : (savedAgain d).nodes.find? (fun n => n.id == node.id) with - | found
  · have hmem : reopenedNode node ∈ (savedAgain d).nodes := by
      rw [nodes_savedAgain]
      exact List.mem_append_right _ (List.mem_map_of_mem hnode)
    have hnone := List.find?_eq_none.mp hfind _ hmem
    simp [reopenedNode, hids node hnode] at hnone
  · have hid : found.id = node.id := by simpa using List.find?_some hfind
    have hmem := List.mem_of_find?_eq_some hfind
    rw [nodes_savedAgain] at hmem
    rcases List.mem_append.mp hmem with hadded | hold
    · obtain ⟨htrigger, -, hnone⟩ := mem_addedNodes hadded
      refine absurd (List.mem_map_of_mem hnode) (?_ : node.id ∉ rawIDs d)
      rw [← hid, htrigger]
      exact hfree hnone
    · obtain ⟨n, hn, rfl⟩ := List.mem_map.mp hold
      have hsame : n = node := by
        apply List.inj_on_of_nodup_map hvalid hn hnode
        rw [← hids n hn]
        exact hid
      rw [hfind, hsame]

/-- The ids of an accepted definition are distinct as they are. -/
theorem nodup_rawIDs (h : validateDefinition d = .ok ()) : (rawIDs d).Nodup := by
  have hnodup : ((rawIDs d).map trimSpace).Nodup := by
    rw [rawIDs, List.map_map]
    exact (accepted_of_validateDefinition h).nodup
  exact hnodup.of_map

/-- Nothing is added where there is a trigger. -/
theorem added_of_trigger (h : ∃ node ∈ d.nodes, node.type = .trigger) :
    addedNodes d = [] ∧ addedEdges d = [] := by
  have hany := any_trigger_iff.mpr h
  exact ⟨if_pos hany, if_pos hany⟩

/-- Where there is none, a trigger is, and an edge from it to the first node. -/
theorem added_of_none (hnone : ∀ node ∈ d.nodes, node.type ≠ .trigger) {head : Node}
    {rest : List Node} (hnodes : d.nodes = head :: rest) :
    (∃ trigger, addedNodes d = [trigger] ∧ trigger.id = "trigger_1" ∧ trigger.type = .trigger) ∧
      addedEdges d = [⟨"trigger_1", trim head.id, ""⟩] := by
  have hany : ¬ (d.nodes.any fun node => node.type == .trigger) = true := by
    rw [any_trigger_iff]
    rintro ⟨node, hnode, hty⟩
    exact hnone node hnode hty
  refine ⟨⟨_, if_neg hany, rfl, rfl⟩, ?_⟩
  rw [addedEdges, if_neg hany, hnodes]
  rfl

/-- The ids of what is saved, if they are left alone. -/
theorem rawIDs_savedAgain (hids : ∀ node ∈ d.nodes, trim node.id = node.id) :
    rawIDs (savedAgain d) = (addedNodes d).map (fun node => node.id) ++ rawIDs d := by
  rw [rawIDs, nodes_savedAgain, List.map_append, List.map_map]
  refine congrArg _ (List.map_congr_left fun node hnode => ?_)
  exact hids node hnode

/-- And the targets of its edges. -/
theorem rawTargets_savedAgain (hedge : ∀ edge ∈ d.edges, trim edge.target = edge.target) :
    rawTargets (savedAgain d) = (addedEdges d).map (fun edge => edge.target) ++ rawTargets d := by
  rw [rawTargets, edges_savedAgain, List.map_append, List.map_map]
  refine congrArg _ (List.map_congr_left fun edge hmem => ?_)
  exact hedge edge hmem

theorem nextNodeIDs_blank (id : String) :
    nextNodeIDs d id "" = (d.edges.filter fun edge => edge.source == id).map (·.target) := by
  simp [nextNodeIDs]

/-- **The first step stays first, or the added trigger precedes it.** -/
theorem first_savedAgain (hne : d.nodes ≠ []) (h : Survives d) :
    firstStep (savedAgain d) = firstStep d ∨ ∃ trigger ∈ (savedAgain d).nodes, ∃ first,
      trigger.type = .trigger ∧ trigger.id ∉ rawIDs d ∧
        firstStep (savedAgain d) = .ok (some trigger.id) ∧
        firstStep d = .ok (some first) ∧ nextNodeIDs (savedAgain d) trigger.id "" = [first] := by
  have hids := rawIDs_savedAgain h.ids
  have htargets := rawTargets_savedAgain fun edge hedge => (h.edge edge hedge).2.1
  rw [firstStep_eq, firstStep_eq, hids, htargets]
  -- with a trigger nothing is added
  by_cases htrigger : ∃ node ∈ d.nodes, node.type = .trigger
  · obtain ⟨hnodes, hedges⟩ := added_of_trigger htrigger
    rw [hnodes, hedges]
    exact Or.inl rfl
  -- without one the builder puts a trigger before the first node
  have hnone : ∀ node ∈ d.nodes, node.type ≠ .trigger := fun node hnode hty =>
    htrigger ⟨node, hnode, hty⟩
  obtain ⟨head, rest, hnodes⟩ := List.exists_cons_of_ne_nil hne
  obtain ⟨⟨trigger, hadded, hid, hty⟩, hedges⟩ := added_of_none hnone hnodes
  have hhead : trim head.id = head.id := h.ids head (by rw [hnodes]; simp)
  have hmem : head.id ∈ rawIDs d := List.mem_map_of_mem (by rw [hnodes]; simp)
  obtain ⟨hfree, hfits, hsource⟩ := h.trigger hnone
  have hhead' := hfits head (by rw [hnodes]; rfl)
  rw [hadded, hedges, hhead]
  by_cases hinto : "trigger_1" ∈ rawTargets d
  · -- an edge leads to that id, and so does one to the first node: nothing changes
    refine Or.inl (congrArg _ ?_)
    show firstOf (trigger.id :: rawIDs d) (head.id :: rawTargets d) = _
    rw [hid, firstOf_of_mem (List.mem_cons_of_mem _ hinto), firstOf_cons_target (hhead'.mpr hinto)]
  · -- the trigger comes first
    refine Or.inr ⟨trigger, ?_, head.id, hty, hid ▸ hfree, congrArg _ ?_, congrArg _ ?_, ?_⟩
    · rw [nodes_savedAgain, hadded]
      simp
    · show firstOf (trigger.id :: rawIDs d) (head.id :: rawTargets d) = _
      apply firstOf_of_notMem
      rw [hid, List.mem_cons, not_or]
      exact ⟨fun heq => hfree (heq ▸ hmem), hinto⟩
    · have hraw : rawIDs d = head.id :: rest.map fun node => node.id := by
        rw [rawIDs, hnodes]
        rfl
      rw [hraw]
      exact firstOf_of_notMem fun hin => hinto (hhead'.mp hin)
    · -- no other edge leaves it
      have hother : (d.edges.map reopenedEdge).filter (fun edge => edge.source == "trigger_1")
          = [] := by
        rw [List.filter_eq_nil_iff]
        intro edge hedge
        obtain ⟨e, he, rfl⟩ := List.mem_map.mp hedge
        simpa [reopenedEdge, (h.edge e he).1] using hsource.resolve_left hinto e he
      rw [nextNodeIDs_blank, edges_savedAgain, hedges, hid, List.filter_append, hother, hhead]
      rfl

/-- Where the first step is as it should be, an added trigger fits. -/
theorem triggerFits_of_first {head : Node} {rest : List Node} (hnodes : d.nodes = head :: rest)
    (hnone : ∀ node ∈ d.nodes, node.type ≠ .trigger)
    (hids : ∀ node ∈ d.nodes, trim node.id = node.id)
    (hedge : ∀ edge ∈ d.edges, trim edge.source = edge.source ∧ trim edge.target = edge.target)
    (hfree : "trigger_1" ∉ rawIDs d) (h : SameWorkflow d (savedAgain d)) : TriggerFits d := by
  have hmemids := rawIDs_savedAgain hids
  have htargets := rawTargets_savedAgain fun edge he => (hedge edge he).2
  obtain ⟨⟨added, hadded, hid, -⟩, hedges⟩ := added_of_none hnone hnodes
  have hhead : trim head.id = head.id := hids head (by rw [hnodes]; simp)
  rw [hadded, List.map_singleton, hid] at hmemids
  rw [hedges, List.map_singleton, hhead] at htargets
  have hraw : rawIDs d = head.id :: rest.map fun node => node.id := by
    rw [rawIDs, hnodes]
    rfl
  have hfirst := h.first
  simp only [firstStep_eq, hmemids, htargets, List.singleton_append, Except.ok.injEq] at hfirst
  have hfirst' : head.id ∉ rawTargets d → firstOf (rawIDs d) (rawTargets d) = some head.id := by
    rw [hraw]
    exact firstOf_of_notMem
  by_cases hinto : "trigger_1" ∈ rawTargets d
  · -- the trigger is skipped, so the first node must not have come first
    rw [firstOf_of_mem (List.mem_cons_of_mem _ hinto)] at hfirst
    refine ⟨hfree, fun node hnode => ?_, Or.inl hinto⟩
    obtain rfl : head = node := by simpa [hnodes] using hnode
    refine iff_of_true (not_not.mp fun hhead' => ?_) hinto
    rcases hfirst with hsame | ⟨trigger, -, first, -, hnew, hthere, -⟩
    · rw [hfirst' hhead'] at hsame
      exact (mem_of_firstOf hsame).2 (List.mem_cons_self ..)
    · exact hnew (mem_of_firstOf hthere).1
  · have hne : "trigger_1" ∉ head.id :: rawTargets d := by
      rw [List.mem_cons, not_or]
      refine ⟨fun heq => hfree ?_, hinto⟩
      rw [heq, hraw]
      exact List.mem_cons_self ..
    rw [firstOf_of_notMem hne] at hfirst
    rcases hfirst with hsame | ⟨trigger, -, first, -, -, hthere, hold, hnext⟩
    · exact absurd (mem_of_firstOf hsame.symm).1 hfree
    -- the trigger comes first and leads to the first node only
    rw [nextNodeIDs_blank, edges_savedAgain, hedges, ← Option.some.inj hthere, hhead,
      List.filter_append, List.map_append] at hnext
    obtain ⟨rfl, hothers⟩ := List.cons.inj hnext
    refine ⟨hfree, fun node hnode => ?_, Or.inr fun edge he hsource => ?_⟩
    · obtain rfl : head = node := by simpa [hnodes] using hnode
      exact iff_of_false (mem_of_firstOf hold).2 hinto
    · have hnil := List.filter_eq_nil_iff.mp (List.map_eq_nil_iff.mp hothers) _
        (List.mem_map_of_mem he)
      have htrim := (hedge edge he).1
      rw [hsource] at htrim
      simp [reopenedEdge, hsource, htrim] at hnil

end Reopened

/-- **Opening and saving a workflow keeps what it does**, if and only if it survives the
builder. -/
theorem reopened_iff {d : Definition} (h : validateDefinition d = .ok ()) :
    (∃ d', reopened d = some d' ∧ SameWorkflow d d') ↔ Survives d := by
  have hne : d.nodes ≠ [] := (accepted_of_validateDefinition h).nodes
  obtain ⟨head, rest, hnodes⟩ := List.exists_cons_of_ne_nil hne
  have hpayload : (savedAgain d).payload = none := rfl
  rw [reopened_eq]
  constructor
  · rintro ⟨d', hopened, hsame⟩
    obtain ⟨edges, hedges, rfl⟩ := Option.map_eq_some_iff.mp hopened
    have hids : ∀ node ∈ d.nodes, trim node.id = node.id := by
      intro node hnode
      obtain ⟨found, hfound, -⟩ := hsame.nodes node hnode
      obtain ⟨hmem, hid⟩ := mem_of_findNode hfound
      rw [nodes_savedAgain] at hmem
      rcases List.mem_append.mp hmem with hadded | hold
      · rw [← hid, (mem_addedNodes hadded).1]
        decide
      · obtain ⟨n, -, rfl⟩ := List.mem_map.mp hold
        rw [← hid]
        exact trim_trim n.id
    have hfree : (∀ node ∈ d.nodes, node.type ≠ .trigger) → "trigger_1" ∉ rawIDs d := by
      intro hnone hmem
      obtain ⟨node, hnode, hid⟩ := List.mem_map.mp hmem
      obtain ⟨found, hfound, hty, -⟩ := hsame.nodes node hnode
      obtain ⟨⟨trigger, hadded, htrigger, hkind⟩, -⟩ := added_of_none hnone hnodes
      -- the added trigger is found in its place
      have hfirst : findNode (savedAgain d) node.id = .ok trigger := by
        rw [findNode, nodes_savedAgain, hadded, hid, List.singleton_append,
          List.find?_cons_of_pos (by simp [htrigger])]
      rw [hfirst] at hfound
      rw [← Except.ok.inj hfound, hkind] at hty
      exact hnone node hnode hty.symm
    have hedge : ∀ edge ∈ d.edges, readEdge (reopenedEdge edge) = readEdge edge := by
      obtain ⟨added, hadded, -⟩ := hsame.edges
      rw [edges_savedAgain, List.map_append, List.map_map] at hadded
      have heq := List.append_inj_right' hadded (by simp)
      exact List.map_inj_left.mp heq
    have hends : ∀ edge ∈ d.edges, trim edge.source = edge.source ∧
        trim edge.target = edge.target ∧
        toLower (trimSpace (trim edge.branch)) = toLower (trimSpace edge.branch) := by
      intro edge hmem
      have heq := hedge edge hmem
      simp only [readEdge, reopenedEdge, Prod.mk.injEq] at heq
      exact heq
    refine ⟨by simp [hedges], hsame.payload.symm.trans hpayload, hids, fun node hnode => ?_, hends,
      fun hnone => ?_⟩
    · obtain ⟨found, hfound, -, hsettings⟩ := hsame.nodes node hnode
      rw [findNode_savedAgain (nodup_rawIDs h) hids hfree hnode] at hfound
      rw [← hsettings, ← Except.ok.inj hfound, settings_reopenedNode]
    · exact triggerFits_of_first hnodes hnone hids
        (fun edge he => ⟨(hends edge he).1, (hends edge he).2.1⟩) (hfree hnone) hsame
  · intro hsurvives
    obtain ⟨edges, hedges⟩ := Option.ne_none_iff_exists'.mp hsurvives.array
    refine ⟨_, by rw [hedges, Option.map_some], ?_⟩
    have hfree : (∀ node ∈ d.nodes, node.type ≠ .trigger) → "trigger_1" ∉ rawIDs d :=
      fun hnone => (hsurvives.trigger hnone).free
    refine ⟨fun node hnode => ?_, ⟨(addedEdges d).map readEdge, ?_, ?_⟩,
      hpayload.trans hsurvives.payload.symm, first_savedAgain hne hsurvives⟩
    · refine ⟨_, findNode_savedAgain (nodup_rawIDs h) hsurvives.ids hfree hnode, rfl, ?_⟩
      rw [settings_reopenedNode, hsurvives.node node hnode]
    · rw [edges_savedAgain, List.map_append, List.map_map]
      refine congrArg _ (List.map_congr_left fun edge hmem => ?_)
      obtain ⟨hsource, htarget, hbranch⟩ := hsurvives.edge edge hmem
      simp only [Function.comp_apply, readEdge, reopenedEdge, hsource, htarget, hbranch]
    · intro edge hmem
      by_cases htrigger : ∃ node ∈ d.nodes, node.type = .trigger
      · rw [(added_of_trigger htrigger).2] at hmem
        cases hmem
      · have hnone : ∀ node ∈ d.nodes, node.type ≠ .trigger := fun node hnode hty =>
          htrigger ⟨node, hnode, hty⟩
        rw [(added_of_none hnone hnodes).2] at hmem
        rw [List.mem_singleton.mp hmem]
        exact hfree hnone

namespace Sample

/-- A workflow that waits five minutes, with a payload. -/
def waits (payload : Option Json) : Definition where
  trigger := ⟨"user.signup"⟩
  nodes := [⟨"start", .trigger, none⟩,
    ⟨"wait", .delay, some (.obj [("duration", .str "5m")])⟩]
  edgeSlice := some [⟨"start", "wait", ""⟩]
  payload := payload

end Sample

theorem reopened_waits : ∃ d, reopened (Sample.waits none) = some d ∧
    SameWorkflow (Sample.waits none) d := by
  refine (reopened_iff (by decide +kernel)).mpr ⟨nofun, rfl, by decide, ?_, by decide, ?_⟩
  · intro node hnode
    rcases List.mem_pair.mp hnode with rfl | rfl
    · rfl
    · have hdecode : Json.unmarshal (some (.obj [("duration", .str "5m")])) decodeDelayConfig =
          .ok ⟨"5m"⟩ := rfl
      have hkey : configString (some (.obj [("duration", .str "5m")])) "duration" = some "5m" := rfl
      have htrim : trim "5m" = "5m" := by decide
      simp only [settings, builderSettings, hdecode, hkey, Except.map, Option.getD_some, htrim]
  · intro hnone
    exact absurd rfl (hnone _ (List.mem_cons_self ..))

/-- The payload is lost. -/
theorem waits_payload_lost :
    validateDefinition (Sample.waits (some (.obj [("plan", .str "pro")]))) = .ok () ∧
    ∃ d, reopened (Sample.waits (some (.obj [("plan", .str "pro")]))) = some d ∧
      d.payload = none ∧ ¬ SameWorkflow (Sample.waits (some (.obj [("plan", .str "pro")]))) d := by
  refine ⟨by decide +kernel, _, rfl, rfl, fun h => ?_⟩
  have hpayload : none = some (Json.obj [("plan", .str "pro")]) := h.payload
  cases hpayload

/-- A trigger without edges is accepted, but the builder cannot open it. -/
example : validateDefinition ⟨⟨"user.signup"⟩, [⟨"start", .trigger, none⟩], none, none⟩ = .ok () ∧
    reopened ⟨⟨"user.signup"⟩, [⟨"start", .trigger, none⟩], none, none⟩ = none :=
  ⟨by decide +kernel, rfl⟩

end Iwifunni.Web
