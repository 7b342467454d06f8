/-
Iwifunni/Web/Agreement.lean

What the builder calls valid, and what the backend accepts.

A definition with no issue is one path from its trigger, so the engine starts at the
trigger and gets everywhere.  Whether the backend accepts it is another matter,
because the two sides read strings in their own way:

                        builder                  backend
    white space         U+FEFF, not U+0085       U+0085, not U+FEFF
    duration            any number of digits     less than 2^63 nanoseconds, in 64 bits
    type of a node      not checked              one of four

`taken_iff` says that nothing else can go wrong.
-/
import Iwifunni.Web.Patterns
import Iwifunni.Workflow.Service
import Iwifunni.Workflow.WellFormed

namespace Iwifunni.Web

open Go Workflow Relation

/-! ### Nodes without an issue -/

/-- What the nodes are like that pass: there are some, with ids of their own, and one of them
is a trigger. -/
structure NodesPass (definition : Definition) : Prop where
  nodes : definition.nodes ≠ []
  id_ne : ∀ node ∈ definition.nodes, trim node.id ≠ ""
  nodup : (definition.nodes.map fun node => trim node.id).Nodup
  config : ∀ node ∈ definition.nodes, ∃ path, configIssues path node = []
  trigger : ∃ triggerNodeID, triggerNodeIDs definition = [triggerNodeID]

/-- The loop over nodes that finds nothing. -/
theorem nodeIssues_eq_nil {seen : List String} {index : ℕ} {nodes : List Node}
    (h : nodeIssues seen index nodes = []) :
    (∀ node ∈ nodes, trim node.id ≠ "" ∧ ∃ path, configIssues path node = []) ∧
      (nodes.map fun node => trim node.id).Nodup ∧ ∀ node ∈ nodes, trim node.id ∉ seen := by
  induction nodes generalizing seen index with
  | nil => simp
  | cons node nodes ih =>
      rw [nodeIssues] at h
      split at h
      · cases h
      next hne =>
      simp only [List.append_eq_nil_iff, ite_eq_right_iff, reduceCtorEq, imp_false] at h
      obtain ⟨⟨hseen, hconfig⟩, hrest⟩ := h
      obtain ⟨hall, hnodup, hfresh⟩ := ih hrest
      refine ⟨List.forall_mem_cons.mpr ⟨⟨hne, _, hconfig⟩, hall⟩, ?_,
        List.forall_mem_cons.mpr ⟨hseen, fun n hn hmem => ?_⟩⟩
      · rw [List.map_cons, List.nodup_cons]
        refine ⟨fun hmem => ?_, hnodup⟩
        obtain ⟨n, hn, heq⟩ := List.mem_map.mp hmem
        exact hfresh n hn (heq ▸ List.mem_cons_self ..)
      · exact hfresh n hn (List.mem_cons_of_mem _ hmem)

/-- Nodes without an issue pass, one by one. -/
theorem nodesPass_of_validateNodes {definition : Definition} (h : validateNodes definition = []) :
    NodesPass definition := by
  simp only [validateNodes, List.append_eq_nil_iff, ite_eq_right_iff, reduceCtorEq,
    imp_false] at h
  obtain ⟨⟨⟨hne, hissues⟩, hnone⟩, hmany⟩ := h
  obtain ⟨hall, hnodup, -⟩ := nodeIssues_eq_nil hissues
  -- no trigger has a blank id
  have hfilter : (triggerNodeIDs definition).filter (· ≠ "") = triggerNodeIDs definition := by
    rw [List.filter_eq_self]
    intro id hid
    obtain ⟨node, hnode, rfl⟩ := List.mem_map.mp (List.mem_eraseDups.mp hid)
    simpa using (hall node (List.mem_of_mem_filter hnode)).1
  rw [hfilter] at hnone hmany
  exact ⟨hne, fun node hnode => (hall node hnode).1, hnodup, fun node hnode => (hall node hnode).2,
    List.length_eq_one_iff.mp (by omega)⟩

/-! ### Configs -/

section Configs

variable (node : BuilderNodeDraft)

/-- What the builder reads of a delay. -/
theorem configString_delay (hty : node.type = .delay) :
    configString (draftConfig node) "duration" = some (trim node.duration) := by
  unfold draftConfig
  rw [hty]
  rcases namedConfig_cases node with hnamed | ⟨v, hnamed⟩ <;>
    simp [hnamed, configString, configValue, configFields, Json.lookup, asString]

/-- What the backend reads of a delay. -/
theorem decode_delay (hty : node.type = .delay) :
    Json.unmarshal (draftConfig node) decodeDelayConfig = .ok ⟨trim node.duration⟩ := by
  have hfold : ∀ key ∈ ["name", "duration"], equalFold key "duration" = (key == "duration") := by
    decide
  unfold draftConfig
  rw [hty]
  rcases namedConfig_cases node with hnamed | ⟨v, hnamed⟩ <;>
    simp [hnamed, Json.unmarshal, decodeDelayConfig, Json.structFields, Json.field, Json.toStr,
      hfold]

/-- What the builder reads of a notification. -/
theorem configString_notification (hty : node.type = .notification) :
    configString (draftConfig node) "template_id" = some (trim node.templateId) ∧
      configChannels (draftConfig node) =
        if node.channel = "" then [] else [node.channel] := by
  unfold draftConfig
  rw [hty]
  rcases namedConfig_cases node with hnamed | ⟨v, hnamed⟩ <;> by_cases hchannel : node.channel = ""
    <;> simp [hnamed, hchannel, configString, configChannels, configValue, configFields,
      Json.lookup, asString]

/-- What the backend reads of a notification. -/
theorem decode_notification (hty : node.type = .notification) :
    Json.unmarshal (draftConfig node) decodeNotificationConfig =
      .ok ⟨trim node.templateId, if node.channel = "" then [] else [node.channel]⟩ := by
  have hfold : ∀ key ∈ ["name", "template_id", "channels"], ∀ name ∈ ["template_id", "channels"],
      equalFold key name = (key == name) := by decide
  unfold draftConfig
  rw [hty]
  rcases namedConfig_cases node with hnamed | ⟨v, hnamed⟩ <;> by_cases hchannel : node.channel = ""
    <;> simp [hnamed, hchannel, Json.unmarshal, decodeNotificationConfig, Json.structFields,
      Json.field, Json.toStr, Json.toStrList, Json.toStrs, hfold]

end Configs

/-- The backend reads a draft of a node as the builder does: its type is one of the four, and
a duration is not too long. -/
structure NodeReadAlike (node : BuilderNodeDraft) : Prop where
  type : node.type ∈ [.trigger, .notification, .delay, .condition]
  duration : node.type = .delay → ∀ terms, durationTerms (trim node.duration) = some terms →
    Fits 0 terms

/-- **The config of a node without an issue passes the backend** exactly if both sides read it
alike. -/
theorem configRules_iff {node : BuilderNodeDraft} {path : String} {id : String}
    (h : configIssues path ⟨id, node.type, draftConfig node⟩ = []) :
    ConfigRules ⟨id, node.type, draftConfig node⟩ ↔ NodeReadAlike node := by
  have hone : ∀ channel ∈ notificationChannels, toLower (trimSpace channel) = channel := by decide
  rcases hty : node.type with - | - | - | - | ⟨name, hname⟩
  · -- a trigger has no config of its own
    refine iff_of_true True.intro ⟨by rw [hty]; simp, fun hdelay => ?_⟩
    rw [hty] at hdelay
    cases hdelay
  · -- a notification: its template and its channel are what the patterns allow
    refine iff_of_true ?_ ⟨by rw [hty]; simp, fun hdelay => ?_⟩
    · obtain ⟨htemplate, hchannels⟩ := configString_notification node hty
      simp only [configIssues, hty, htemplate, Option.getD_some, trim_trim, hchannels,
        List.append_eq_nil_iff, ite_eq_right_iff, reduceCtorEq, imp_false, not_or, not_and,
        Bool.not_eq_true', Bool.not_eq_false, not_not] at h
      obtain ⟨⟨huuid, hne, hzero⟩, hlength, hchannel⟩ := h
      obtain ⟨hparse, htrim⟩ := parse_of_isUuid (huuid hne hzero)
      have hblank : node.channel ≠ "" := by
        intro hblank
        rw [if_pos hblank] at hlength
        cases hlength
      rw [if_neg hblank] at hchannel
      refine ⟨_, decode_notification node hty, ?_, Or.inr ?_⟩
      · rw [if_neg hblank]
        refine ⟨List.cons_ne_nil _ _, node.channel, hchannel, fun c hc => ?_⟩
        rw [List.mem_singleton.mp hc]
        exact hone _ hchannel
      · rw [htrim]
        exact hparse
    · rw [hty] at hdelay
      cases hdelay
  · -- a delay
    simp only [configIssues, hty, configString_delay node hty, Option.getD_some, trim_trim,
      ite_eq_right_iff, reduceCtorEq, imp_false] at h
    obtain ⟨terms, hterms⟩ := Option.ne_none_iff_exists'.mp h
    have hread : (Duration.parse (trimSpace (trim node.duration))).isSome ↔ Fits 0 terms := by
      rw [trimSpace_durationTerms hterms]
      exact parse_durationTerms hterms
    constructor
    · rintro ⟨config, hdecode, hparse⟩
      rw [decode_delay node hty] at hdecode
      obtain rfl := Except.ok.inj hdecode
      refine ⟨by rw [hty]; simp, fun _ terms' hterms' => ?_⟩
      rw [hterms] at hterms'
      exact Option.some.inj hterms' ▸ hread.mp hparse
    · intro halike
      exact ⟨_, decode_delay node hty, hread.mpr (halike.duration hty terms hterms)⟩
  · -- a condition has an issue
    simp [configIssues, hty] at h
  · refine iff_of_false (fun hrules => hrules) fun halike => ?_
    have htype := halike.type
    rw [hty] at htype
    simp at htype

/-! ### Graphs under other names -/

/-- A cycle through renamed vertices is one through the vertices, if no two of them got the
same name. -/
theorem cyclic_of_map {f : String → String} {ends : List (String × String)} {ids : List String}
    (hinj : ∀ a ∈ ids, ∀ b ∈ ids, f a = f b → a = b)
    (hends : ∀ e ∈ ends, e.1 ∈ ids ∧ e.2 ∈ ids) (h : Cyclic (ends.map (Prod.map f f))) :
    Cyclic ends := by
  have hlift : ∀ x y, TransGen (Leads (ends.map (Prod.map f f))) x y →
      ∃ a ∈ ids, ∃ b ∈ ids, f a = x ∧ f b = y ∧ TransGen (Leads ends) a b := by
    intro x y hxy
    induction hxy with
    | single hlead =>
        obtain ⟨e, he, heq⟩ := List.mem_map.mp hlead
        obtain ⟨hfst, hsnd⟩ := Prod.mk.inj heq
        exact ⟨e.1, (hends e he).1, e.2, (hends e he).2, hfst, hsnd, .single he⟩
    | tail _ hlead ih =>
        obtain ⟨a, ha, b, hb, hfa, hfb, hab⟩ := ih
        obtain ⟨e, he, heq⟩ := List.mem_map.mp hlead
        obtain ⟨hfst, hsnd⟩ := Prod.mk.inj heq
        obtain rfl := hinj b hb e.1 (hends e he).1 (hfb.trans hfst.symm)
        exact ⟨a, ha, e.2, (hends e he).2, hfa, hsnd, hab.tail he⟩
  obtain ⟨x, hx⟩ := h
  obtain ⟨a, ha, b, hb, hfa, hfb, hab⟩ := hlift x x hx
  obtain rfl := hinj a ha b hb (hfa.trans hfb.symm)
  exact ⟨a, hab⟩

/-! ### The whole definition -/

/-- The backend reads a draft as the builder does. -/
structure ReadAlike (draft : WorkflowBuilderDraft) : Prop where
  event : trimSpace (trim draft.triggerEvent) ≠ ""
  id_ne : ∀ node ∈ draft.nodes, trimSpace (trim node.id) ≠ ""
  nodup : (draft.nodes.map fun node => trimSpace (trim node.id)).Nodup
  node : ∀ node ∈ draft.nodes, NodeReadAlike node

/-- The backend accepts the JSON of a definition, the engine starts it at the trigger, and from
there it gets everywhere. -/
structure Taken (definition : Definition) : Prop where
  accepted : ∃ stored, parseDefinition (some (marshalDefinition definition)) = .ok (some stored) ∧
    validateDefinition stored = .ok ()
  runs : ∃ node ∈ definition.nodes, node.type = .trigger ∧
    firstStepID (some (marshalDefinition definition)) = .ok (some node.id) ∧
    ∀ other ∈ definition.nodes,
      ReflTransGen (fun a b => b ∈ nextNodeIDs definition a "") node.id other.id

section Exported

variable {draft : WorkflowBuilderDraft}

/-- The nodes of an exported definition. -/
theorem mem_nodes_iff {node : Node} :
    node ∈ (workflowDefinitionFromBuilderDraft draft).nodes ↔
      ∃ n ∈ draft.nodes, node = ⟨trim n.id, n.type, draftConfig n⟩ := by
  simp only [workflowDefinitionFromBuilderDraft, List.mem_map, eq_comm]

theorem mem_nodes {n : BuilderNodeDraft} (h : n ∈ draft.nodes) :
    (⟨trim n.id, n.type, draftConfig n⟩ : Node) ∈
      (workflowDefinitionFromBuilderDraft draft).nodes := mem_nodes_iff.mpr ⟨n, h, rfl⟩

/-- Its ids are trimmed. -/
theorem trim_id {node : Node} (h : node ∈ (workflowDefinitionFromBuilderDraft draft).nodes) :
    trim node.id = node.id := by
  obtain ⟨n, -, rfl⟩ := mem_nodes_iff.mp h
  exact trim_trim n.id

/-- So are the ends of its edges. -/
theorem trim_ends {edge : Edge} (h : edge ∈ (workflowDefinitionFromBuilderDraft draft).edges) :
    trim edge.source = edge.source ∧ trim edge.target = edge.target := by
  obtain ⟨e, -, rfl⟩ := List.mem_map.mp h
  exact ⟨trim_trim e.source, trim_trim e.target⟩

theorem edgeEnds_exported (h : Linear (workflowDefinitionFromBuilderDraft draft)) :
    edgeEnds (workflowDefinitionFromBuilderDraft draft) =
      (workflowDefinitionFromBuilderDraft draft).edges.map fun edge =>
        (edge.source, edge.target) := by
  rw [edgeEnds_eq h.edge]
  apply List.map_congr_left
  intro edge hedge
  rw [(trim_ends hedge).1, (trim_ends hedge).2]

/-- A definition without issues: its event, its nodes and its edges pass. -/
theorem passes_of_valid {definition : Definition}
    (h : validateWorkflowDefinitionDraft definition = []) :
    NodesPass definition ∧ Linear definition := by
  simp only [validateWorkflowDefinitionDraft, List.append_eq_nil_iff] at h
  exact ⟨nodesPass_of_validateNodes h.1.2, (validateEdges_eq_nil_iff _).mp h.2⟩

/-- **The engine starts a definition without issues at its trigger and gets everywhere.** -/
theorem runs_of_valid
    (h : validateWorkflowDefinitionDraft (workflowDefinitionFromBuilderDraft draft) = []) :
    ∃ node ∈ (workflowDefinitionFromBuilderDraft draft).nodes, node.type = .trigger ∧
      firstStepID (some (marshalDefinition (workflowDefinitionFromBuilderDraft draft))) =
        .ok (some node.id) ∧
      ∀ other ∈ (workflowDefinitionFromBuilderDraft draft).nodes,
        ReflTransGen (fun a b => b ∈ nextNodeIDs (workflowDefinitionFromBuilderDraft draft) a "")
          node.id other.id := by
  obtain ⟨hnodes, hlinear⟩ := passes_of_valid h
  have hends := edgeEnds_exported hlinear
  generalize hD : workflowDefinitionFromBuilderDraft draft = definition at *
  have htrim : ∀ node ∈ definition.nodes, trim node.id = node.id := by
    subst hD
    exact fun node hnode => trim_id hnode
  have hmem : ∀ node ∈ definition.nodes, node.id ∈ seenNodeIDs definition := fun node hnode =>
    mem_seenNodeIDs.mpr ⟨node, hnode, htrim node hnode⟩
  have hinto : (edgeEnds definition).map Prod.snd = definition.edges.map (·.target) := by
    rw [hends, List.map_map]
    rfl
  -- a node no edge points to is the start node
  have hstart : ∀ node ∈ definition.nodes, node.id ∉ definition.edges.map (·.target) →
      node.id ∈ startNodes definition := by
    intro node hnode hno
    refine List.mem_filter.mpr ⟨hmem node hnode, ?_⟩
    rw [decide_eq_true_eq, hinto]
    exact List.count_eq_zero_of_not_mem hno
  -- and so is the trigger
  obtain ⟨triggerID, htriggers⟩ := hnodes.trigger
  have htrigger : triggerID ∈ triggerNodeIDs definition := htriggers ▸ List.mem_singleton_self _
  obtain ⟨trigger, hfilter, rfl⟩ := List.mem_map.mp (List.mem_eraseDups.mp htrigger)
  obtain ⟨hnode, htype⟩ := List.mem_filter.mp hfilter
  have hhead := hlinear.trigger _ htriggers
  rw [htrim trigger hnode, hinto] at hhead
  obtain ⟨start, hone⟩ := hlinear.start (List.ne_nil_of_mem (hmem trigger hnode))
  have honly : ∀ node ∈ definition.nodes, node.id ∉ definition.edges.map (·.target) →
      node.id = start := fun node hnode hno =>
    List.mem_singleton.mp (hone ▸ hstart node hnode hno)
  refine ⟨trigger, hnode, of_decide_eq_true htype, ?_, fun other hother => ?_⟩
  · have hstored := parseDefinition_marshalDefinition definition
    rcases hfind : definition.nodes.find? (fun node =>
      !(definition.edges.map (·.target)).contains node.id) with - | first
    · have hnone := List.find?_eq_none.mp hfind trigger hnode
      simp only [Bool.not_eq_true', Bool.not_eq_false, List.contains_eq_mem,
        decide_eq_true_eq] at hnone
      exact absurd hnone hhead
    · have hsome := List.find?_some hfind
      simp only [Bool.not_eq_true', List.contains_eq_mem, decide_eq_false_iff_not] at hsome
      have heq := honly first (List.mem_of_find?_eq_some hfind) hsome
      simp only [firstStepID, hstored, hfind, Option.map_some]
      rw [heq, honly trigger hnode hhead]
  · have hreach := hlinear.reaches start hone other.id (hmem other hother)
    rw [honly trigger hnode hhead]
    refine hreach.lift id fun a b hab => ?_
    have hpair : (a, b) ∈ definition.edges.map fun edge => (edge.source, edge.target) := hends ▸ hab
    obtain ⟨edge, hedge, heq⟩ := List.mem_map.mp hpair
    obtain ⟨rfl, rfl⟩ := Prod.mk.inj heq
    exact List.mem_map.mpr ⟨edge, List.mem_filter.mpr ⟨hedge, by simp⟩, rfl⟩

/-- **The backend accepts a definition without issues** exactly if both sides read it alike. -/
theorem accepted_iff
    (h : validateWorkflowDefinitionDraft (workflowDefinitionFromBuilderDraft draft) = []) :
    validateDefinition (workflowDefinitionFromBuilderDraft draft) = .ok () ↔ ReadAlike draft := by
  obtain ⟨hnodes, hlinear⟩ := passes_of_valid h
  have hids : (workflowDefinitionFromBuilderDraft draft).ids =
      draft.nodes.map fun node => trimSpace (trim node.id) := by
    simp only [Definition.ids, workflowDefinitionFromBuilderDraft, List.map_map]
    rfl
  constructor
  · intro hvalid
    have hwell := (accepted_of_validateDefinition hvalid).wellFormed
    refine ⟨hwell.event, fun node hnode => ?_, hids ▸ hwell.nodup, fun node hnode => ?_⟩
    · have hne := hwell.id_ne _ (mem_nodes hnode)
      exact hne
    · have hmem := mem_nodes hnode
      obtain ⟨path, hpath⟩ := hnodes.config _ hmem
      exact (configRules_iff hpath).mp (hwell.config _ hmem)
  · intro halike
    apply validateDefinition_of_wellFormed
    have hends := edgeEnds_exported hlinear
    -- an id the builder knows is one the backend knows
    have hmem : ∀ id ∈ seenNodeIDs (workflowDefinitionFromBuilderDraft draft),
        trimSpace id ∈ (workflowDefinitionFromBuilderDraft draft).ids := by
      intro id hid
      obtain ⟨node, hnode, rfl⟩ := mem_seenNodeIDs.mp hid
      rw [trim_id hnode]
      exact List.mem_map_of_mem hnode
    refine ⟨halike.event, hnodes.nodes, ?_, hids ▸ halike.nodup, ?_, ?_, ?_⟩
    · intro node hnode
      obtain ⟨n, hn, rfl⟩ := mem_nodes_iff.mp hnode
      exact halike.id_ne n hn
    · intro node hnode
      obtain ⟨path, hpath⟩ := hnodes.config node hnode
      obtain ⟨n, hn, rfl⟩ := mem_nodes_iff.mp hnode
      exact (configRules_iff hpath).mpr (halike.node n hn)
    · intro edge hedge
      obtain ⟨hsource, htarget⟩ := trim_ends hedge
      have hpass := hlinear.edge edge hedge
      exact ⟨hmem _ (hsource ▸ hpass.source), hmem _ (htarget ▸ hpass.target)⟩
    · rintro id hcycle
      apply hlinear.acyclic
      refine cyclic_of_map (f := trimSpace) ?_ (fun e he => mem_ids_of_mem_ends he) ?_
      · -- ids that are equal to the backend belong to one node
        intro a ha b hb heq
        obtain ⟨x, hx, rfl⟩ := mem_seenNodeIDs.mp ha
        obtain ⟨y, hy, rfl⟩ := mem_seenNodeIDs.mp hb
        rw [trim_id hx, trim_id hy] at heq
        have hxy : x = y := List.inj_on_of_nodup_map (hids ▸ halike.nodup :
          (workflowDefinitionFromBuilderDraft draft).ids.Nodup) hx hy heq
        rw [hxy]
      · refine ⟨id, ?_⟩
        rw [hends, List.map_map]
        exact hcycle

end Exported

/-- **What the builder calls valid the backend takes**, if and only if both sides read it
alike. -/
theorem taken_iff {draft : WorkflowBuilderDraft}
    (h : validateWorkflowDefinitionDraft (workflowDefinitionFromBuilderDraft draft) = []) :
    Taken (workflowDefinitionFromBuilderDraft draft) ↔ ReadAlike draft := by
  have hstored := parseDefinition_marshalDefinition (workflowDefinitionFromBuilderDraft draft)
  rw [← accepted_iff h]
  constructor
  · intro htaken
    obtain ⟨stored, hparse, hvalid⟩ := htaken.accepted
    rw [hstored] at hparse
    exact Option.some.inj (Except.ok.inj hparse) ▸ hvalid
  · intro hvalid
    exact ⟨⟨_, hstored, hvalid⟩, runs_of_valid h⟩

namespace Sample

/-- A draft with a delay after the trigger. -/
def waiting (duration : String) : WorkflowBuilderDraft where
  triggerEvent := "user.signup"
  nodes := [createNodeDraft .trigger none "",
    { createNodeDraft .delay none "0.wait" with duration := duration }]
  edges := [⟨"trigger_1", "delay_wait", ""⟩]

end Sample

theorem taken_waiting : Taken (workflowDefinitionFromBuilderDraft (Sample.waiting "1h30m")) := by
  refine (taken_iff (by decide +kernel)).mpr ⟨by decide, by decide, by decide, ?_⟩
  have hterms : durationTerms (trim "1h30m") =
      some [⟨['1'], [], ['h']⟩, ⟨['3', '0'], [], ['m']⟩] := by
    decide +kernel
  intro node hnode
  rcases List.mem_pair.mp hnode with rfl | rfl
  · exact ⟨by decide, fun hdelay => by cases hdelay⟩
  · refine ⟨by decide, fun _ terms h => ?_⟩
    obtain rfl := Option.some.inj (hterms.symm.trans h)
    decide

/-- A delay of more nanoseconds than 63 bits hold. -/
theorem waiting_not_taken :
    validateWorkflowDefinitionDraft
      (workflowDefinitionFromBuilderDraft (Sample.waiting "9999999999h")) = [] ∧
    validateDefinition (workflowDefinitionFromBuilderDraft (Sample.waiting "9999999999h")) =
      .error .invalidWorkflow ∧
    ¬ Taken (workflowDefinitionFromBuilderDraft (Sample.waiting "9999999999h")) := by
  have hrefused : validateDefinition
      (workflowDefinitionFromBuilderDraft (Sample.waiting "9999999999h")) =
        .error .invalidWorkflow := by decide +kernel
  refine ⟨by decide +kernel, hrefused, fun htaken => ?_⟩
  obtain ⟨stored, hparse, hvalid⟩ := htaken.accepted
  rw [parseDefinition_marshalDefinition] at hparse
  rw [← Option.some.inj (Except.ok.inj hparse), hrefused] at hvalid
  cases hvalid

end Iwifunni.Web
