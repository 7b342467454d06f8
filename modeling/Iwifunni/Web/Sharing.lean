/-
Iwifunni/Web/Sharing.lean

Whose template is it?

A node refers to its template by id.  The first autosave of a node takes the template with
the name "workflow node channel", or makes one; later ones change the template with the
id, wherever it came from.  So two nodes that refer to one template change each other's
mails, and there are two ways to get there:

    two nodes of one name in workflows of one name      upsertTemplate finds the other's
    a node that is duplicated after it was saved         the copy has the id

Here a node is given by the id of its workflow and its own, and every place in which a
template is mentioned is looked through: what is stored, what the pages have loaded, and
what is on its way.  No step makes two nodes mention one template, except these two
(`Unshared.step`), and as long as they do not, no mail is changed by the editor of
another node (`separate_of_run`).
-/
import Iwifunni.Web.Autosave
import Iwifunni.Web.Conditions
import Iwifunni.Web.Graph

namespace Iwifunni.Web

open Go Db Workflow Workflow.Admin Effect Effect.Prog

/-! ### Mentions -/

/-- The text gives the id of the template, in one of the ways it is read: by the handlers, by
the engine, by the builder, and by the engine after the builder. -/
def Means (text : String) (t : UUID) : Prop :=
  ∃ x ∈ [text, trimSpace text, trim text, trimSpace (trim text)], UUID.parse x = some t

/-- The config of the notification node has the template under a key that Go takes for
`template_id`. -/
structure NodeMentions (node : Node) (t : UUID) : Prop where
  notification : node.type = .notification
  entry : ∃ f ∈ configFields node.config, equalFold f.1 "template_id" = true ∧
    ∃ text, f.2 = .str text ∧ Means text t

/-- The text in which an autosave has a template id. -/
def Task.text : Task → String
  | .calling templateId _ _ => templateId
  | .saving savedTemplateId => savedTemplateId

/-- The texts in which an editor has template ids. -/
def ChannelEditor.texts (e : ChannelEditor) : List String :=
  e.templateId :: e.tasks.map Task.text

/-- A definition mentions the template at the node. -/
def DefinitionMentions (d : Definition) (t : UUID) (nodeId : String) : Prop :=
  ∃ node ∈ d.nodes, node.id = nodeId ∧ NodeMentions node t

/-- A stored workflow mentions the template at the node. -/
def StoredMentions (environmentID : UUID) (rows : Rows) (t id : UUID) (nodeId : String) : Prop :=
  ∃ row ∈ rows, row.environmentID = environmentID ∧ row.id = id ∧
    ∃ d, (workflowFromRecord row).definition = some d ∧ DefinitionMentions d t nodeId

/-- An editor mentions the template: at the nodes it has loaded, and at its own. -/
def ChannelEditor.Mentions (e : ChannelEditor) (t : UUID) (nodeId : String) : Prop :=
  DefinitionMentions e.definition t nodeId ∨
    (e.node.id = nodeId ∧ ∃ text ∈ e.texts, Means text t)

/-- The builder mentions the template at a node it would save. -/
def BuilderPage.Mentions (b : BuilderPage) (t : UUID) (nodeId : String) : Prop :=
  ∃ node ∈ b.canvas.nodes, trim node.draft.id = nodeId ∧ Means node.draft.templateId t

/-- Somewhere the node of the workflow is said to have the template. -/
def Desk.Mentions (environmentID : UUID) (s : Desk) (t id : UUID) (nodeId : String) : Prop :=
  StoredMentions environmentID s.rows t id nodeId ∨
    (∃ page e, s.editors page = some e ∧ e.workflow.id = id ∧ e.Mentions t nodeId) ∨
    ∃ page b, s.builders page = some b ∧ b.workflow.id = id ∧ b.Mentions t nodeId

/-- No two nodes are said to have one template. -/
def Unshared (environmentID : UUID) (s : Desk) : Prop :=
  ∀ t id nodeId id' nodeId', s.Mentions environmentID t id nodeId →
    s.Mentions environmentID t id' nodeId' → id = id' ∧ nodeId = nodeId'

/-- The notification node sends the template. -/
def Sends (node : Node) (t : UUID) : Prop :=
  node.type = .notification ∧ ∃ channel, notificationTarget node = .ok (channel, t)

/-! ### What a text means -/

section Means

variable {text : String} {t : UUID}

theorem not_means_empty : ¬ Means "" t := by
  rintro ⟨x, hx, hparse⟩
  have hempty : x = "" := by
    have hall : ∀ y ∈ ["", trimSpace "", trim "", trimSpace (trim "")], y = "" := by decide
    exact hall x hx
  rw [hempty] at hparse
  cases hparse

/-- Trimming adds no meaning. -/
theorem means_of_trim (h : Means (trim text) t) : Means text t := by
  obtain ⟨x, hx, hparse⟩ := h
  rw [trim_trim] at hx
  refine ⟨x, ?_, hparse⟩
  simp only [List.mem_cons, List.not_mem_nil, or_false] at hx ⊢
  rcases hx with h | h | h | h
  · exact Or.inr (Or.inr (Or.inl h))
  · exact Or.inr (Or.inr (Or.inr h))
  · exact Or.inr (Or.inr (Or.inl h))
  · exact Or.inr (Or.inr (Or.inr h))

theorem isWhiteSpace_hexDigit (d : Fin 16) : isWhiteSpace (UUID.hexDigit d) = false := by
  revert d
  decide

/-- The text of an id means the id. -/
theorem eq_of_means_toString {u : UUID} (h : Means u.toString t) : t = u := by
  have htrim : trim u.toString = u.toString := by
    apply trim_eq_self
    intro c hc
    have hmem : c ∈ u.chars := by simpa only [UUID.toString, String.toList_ofList] using hc
    rcases UUID.mem_chars hmem with rfl | ⟨d, rfl⟩
    · decide
    · exact isWhiteSpace_hexDigit d
  obtain ⟨x, hx, hparse⟩ := h
  have hx' : x = u.toString := by
    simpa [htrim] using hx
  rw [hx', UUID.parse_toString] at hparse
  exact (Option.some.inj hparse).symm

end Means

/-! ### What a page passes on -/

section Pages

variable {t : UUID} {nodeId : String} {d : Definition}

/-- What is found in a config is one of its entries. -/
theorem mem_of_configValue {config : Option Json} {key : String} {v : Json}
    (h : configValue config key = some v) : (key, v) ∈ configFields config := by
  obtain ⟨entry, hentry, rfl⟩ := Option.map_eq_some_iff.mp h
  have hkey : entry.1 = key := by simpa using List.find?_some hentry
  have hmem := List.mem_reverse.mp (List.mem_of_find?_eq_some hentry)
  rw [← hkey]
  exact hmem

/-- The template an editor or the builder reads is mentioned. -/
theorem nodeMentions_of_configString {node : Node} (htype : node.type = .notification)
    (h : Means ((configString node.config "template_id").getD "") t) : NodeMentions node t := by
  rcases hs : configString node.config "template_id" with - | text
  · rw [hs] at h
    exact absurd h not_means_empty
  rw [hs] at h
  have hvalue : configValue node.config "template_id" = some (.str text) := by
    unfold configString asString at hs
    split at hs
    · next text' hvalue => rw [hvalue, Option.some.inj hs]
    · cases hs
  exact ⟨htype, _, mem_of_configValue hvalue, equalFold_refl _, text, rfl, h⟩

/-- A string that is decoded is the zero value or one of the entries. -/
theorem mem_of_field {fields : List (String × Json)} {key old text : String}
    (h : Json.field fields key old Json.toStr = .ok text) :
    text = old ∨ ∃ f ∈ fields, equalFold f.1 key = true ∧ f.2 = .str text := by
  induction fields generalizing old with
  | nil => exact Or.inl (Except.ok.inj h).symm
  | cons f fields ih =>
      obtain ⟨name, v⟩ := f
      have hlater : (∃ f ∈ fields, equalFold f.1 key = true ∧ f.2 = .str text) →
          ∃ f ∈ (name, v) :: fields, equalFold f.1 key = true ∧ f.2 = .str text := by
        rintro ⟨f, hf, hkey⟩
        exact ⟨f, List.mem_cons_of_mem _ hf, hkey⟩
      by_cases hkey : equalFold name key = true
      · have hfield : (Json.toStr old v).bind (fun old => Json.field fields key old Json.toStr) =
            .ok text := by
          rw [← h]
          simp only [Json.field, List.filter_cons, hkey, if_true, List.foldlM_cons]
          rfl
        cases v with
        | null => exact (ih hfield).imp_right hlater
        | str s =>
            rcases ih hfield with rfl | hlate
            · exact Or.inr ⟨_, List.mem_cons_self .., hkey, rfl⟩
            · exact Or.inr (hlater hlate)
        | _ => cases hfield
      · rw [Json.field_cons_of_ne (Bool.eq_false_iff.mpr hkey)] at h
        exact (ih h).imp_right hlater

/-- The template of a config that can be read is empty or stands in one of its entries. -/
theorem mem_of_decoded {config : Option Json} {decoded : NotificationConfig}
    (h : Json.unmarshal config decodeNotificationConfig = .ok decoded) :
    decoded.templateID = "" ∨ ∃ f ∈ configFields config,
      equalFold f.1 "template_id" = true ∧ f.2 = .str decoded.templateID := by
  rcases config with - | v
  · cases h
  have hread : decodeNotificationConfig v = .ok decoded := h
  unfold decodeNotificationConfig at hread
  rcases hfields : v.structFields "workflow.NotificationConfig" with err | fields
  · rw [hfields] at hread
    cases hread
  rw [hfields, except_ok_bind] at hread
  rcases htemplate : Json.field fields "template_id" "" Json.toStr with err | templateID
  · rw [htemplate] at hread
    cases hread
  rw [htemplate, except_ok_bind] at hread
  rcases hchannels : Json.field fields "channels" [] fun _ => Json.toStrList with err | channels
  · rw [hchannels] at hread
    cases hread
  rw [hchannels, except_ok_bind] at hread
  obtain rfl := Except.ok.inj hread
  have hsame : configFields (some v) = fields := by
    cases v with
    | null => exact Except.ok.inj hfields
    | obj entries => exact Except.ok.inj hfields
    | _ => cases hfields
  rw [hsame]
  exact mem_of_field htemplate

/-- **A node mentions what it sends.** -/
theorem nodeMentions_of_sends {node : Node} (h : Sends node t) : NodeMentions node t := by
  obtain ⟨htype, channel, htarget⟩ := h
  refine ⟨htype, ?_⟩
  unfold notificationTarget at htarget
  split at htarget
  · cases htarget
  next config hread =>
  split at htarget
  · split at htarget
    · next templateID hparse =>
      obtain rfl := (Prod.mk.inj (Except.ok.inj htarget)).2
      have htext : Means config.templateID templateID :=
        ⟨trimSpace config.templateID, List.mem_cons_of_mem _ (List.mem_cons_self ..), hparse⟩
      rcases mem_of_decoded hread with hempty | ⟨f, hf, hkey, hstr⟩
      · rw [hempty] at htext
        exact absurd htext not_means_empty
      · exact ⟨f, hf, hkey, config.templateID, hstr, htext⟩
    · cases htarget
  · cases htarget

/-- An editor that is opened mentions what its definition does. -/
theorem mentions_of_load {parse : String → Option Json} {workflow : WorkflowItem}
    {pageNode : String} {e : ChannelEditor}
    (hload : ChannelEditor.load parse workflow pageNode = some e) (h : e.Mentions t nodeId) :
    DefinitionMentions e.definition t nodeId := by
  unfold ChannelEditor.load at hload
  split at hload
  · cases hload
  next definition hdefinition =>
  split at hload
  · cases hload
  next node hnode =>
  split at hload
  · cases hload
  next hpage =>
  obtain rfl := Option.some.inj hload
  rcases h with h | ⟨hid, text, htext, hmeans⟩
  · exact h
  · obtain rfl := List.mem_singleton.mp htext
    have htype : node.type = .notification := by
      by_contra hne
      exact hpage (Or.inr hne)
    exact ⟨node, List.mem_of_find?_eq_some hnode, hid, nodeMentions_of_configString htype hmeans⟩

/-- The entries of a config with template and channels set. -/
theorem mem_linkedConfig {config : Option Json} {savedTemplateId channel : String}
    {f : String × Json}
    (h : f ∈ configFields (some (linkedConfig config savedTemplateId channel))) :
    f ∈ configFields config ∨ f = ("template_id", .str savedTemplateId) ∨ f.1 = "channels" := by
  obtain ⟨key, v⟩ := f
  have hset := (Record.mem_set _ _).mp h
  split at hset
  · next hkey => exact Or.inr (Or.inr hkey)
  have hset' := (Record.mem_set _ _).mp hset
  split at hset'
  · next hkey =>
    rw [hkey, hset']
    exact Or.inr (Or.inl rfl)
  · left
    rw [← Record.get_eq_some_iff, Record.get_ofEntries] at hset'
    exact @mem_of_configValue (some (.obj (configFields config))) key v hset'

/-- **An editor sends what it mentions.** -/
theorem mentions_of_updatedDefinition {e : ChannelEditor} {savedTemplateId : String}
    (hsaving : .saving savedTemplateId ∈ e.tasks)
    (h : DefinitionMentions (e.updatedDefinition savedTemplateId) t nodeId) :
    e.Mentions t nodeId := by
  obtain ⟨node', hnode', hid, hmentions⟩ := h
  obtain ⟨node, hnode, rfl⟩ := List.mem_map.mp hnode'
  unfold ChannelEditor.linkedNode at hid hmentions
  split at hmentions
  · next hself =>
    rw [if_pos hself] at hid
    obtain ⟨htype, f, hf, hkey, text, htext, hmeans⟩ := hmentions
    rcases mem_linkedConfig hf with hold | rfl | hchannels
    · exact Or.inl ⟨node, hnode, hid, htype, f, hold, hkey, text, htext, hmeans⟩
    · obtain rfl := Json.str.inj htext
      refine Or.inr ⟨hself.symm.trans hid, _, ?_, hmeans⟩
      exact List.mem_cons_of_mem _ (List.mem_map.mpr ⟨_, hsaving, rfl⟩)
    · rw [hchannels] at hkey
      exact absurd hkey (by decide)
  · next hother =>
    rw [if_neg hother] at hid
    exact Or.inl ⟨node, hnode, hid, hmentions⟩

/-! ### What the builder does with templates -/

/-- A layout moves nodes, and leaves their drafts alone. -/
theorem mem_layoutCanvasGraph {layout : Layout} {nodes : List WorkflowCanvasNode}
    {edges : List WorkflowCanvasEdge} {node : WorkflowCanvasNode}
    (h : node ∈ layoutCanvasGraph layout nodes edges) : ∃ old ∈ nodes, node.draft = old.draft := by
  obtain ⟨old, hold, rfl⟩ := List.mem_map.mp h
  exact ⟨old, hold, rfl⟩

/-- The draft of a node that is opened mentions what the node does. -/
theorem mentions_of_nodeDraft {node : Node} (h : Means (nodeDraft node).templateId t) :
    NodeMentions node t := by
  have htemplate : (nodeDraft node).templateId =
      if node.type = .notification then
        normalizeImportedTemplateId (configValue node.config "template_id") else "" := by
    simp only [nodeDraft, normalizeNodeDraftForType]
  rw [htemplate] at h
  split at h
  · next htype =>
    apply nodeMentions_of_configString htype
    unfold normalizeImportedTemplateId at h
    dsimp only at h
    split at h
    · exact means_of_trim h
    · exact absurd h not_means_empty
  · exact absurd h not_means_empty

/-- A builder is open on the workflow it has loaded. -/
theorem workflow_of_builderLoad {layout : Layout} {random : Random} {workflow : WorkflowItem}
    {b : BuilderPage} (hload : BuilderPage.load layout random workflow = some b) :
    b.workflow = workflow := by
  obtain ⟨draft, -, rfl⟩ := Option.map_eq_some_iff.mp hload
  rfl

/-- **A builder that is opened mentions what its definition does**, if no id is trimmed. -/
theorem mentions_of_builderLoad {layout : Layout} {random : Random} {workflow : WorkflowItem}
    {b : BuilderPage} (hload : BuilderPage.load layout random workflow = some b)
    (htrim : ∀ d, workflow.definition = some d → ∀ node ∈ d.nodes, trim node.id = node.id)
    (h : b.Mentions t nodeId) :
    ∃ d, workflow.definition = some d ∧ DefinitionMentions d t nodeId := by
  obtain ⟨draft, hopened, rfl⟩ := Option.map_eq_some_iff.mp hload
  obtain ⟨cnode, hcnode, hid, hmeans⟩ := h
  obtain ⟨old, hold, hdraft⟩ := mem_layoutCanvasGraph hcnode
  have hmem : old.draft ∈ draft.nodes := by
    rw [← map_draft_canvasNodes random 0 draft.nodes]
    exact List.mem_map_of_mem hold
  rw [hdraft] at hid hmeans
  rcases hd : workflow.definition with - | d
  · rw [hd] at hopened
    obtain rfl := Option.some.inj hopened
    rw [List.mem_singleton.mp hmem] at hmeans
    exact absurd hmeans not_means_empty
  rw [hd] at hopened
  obtain ⟨edges, -, rfl⟩ := Option.map_eq_some_iff.mp hopened
  -- the trigger that is put in front has no template
  have hnodes : old.draft.templateId = "" ∨ old.draft ∈ d.nodes.map nodeDraft := by
    change old.draft ∈ (withTrigger _).nodes at hmem
    unfold withTrigger at hmem
    split at hmem
    · exact Or.inr hmem
    · rcases List.mem_cons.mp hmem with heq | hmem
      · left
        rw [heq]
        rfl
      · exact Or.inr hmem
  rcases hnodes with hempty | hnodes
  · rw [hempty] at hmeans
    exact absurd hmeans not_means_empty
  · obtain ⟨node, hnode, heq⟩ := List.mem_map.mp hnodes
    rw [← heq] at hid hmeans
    have hid' := (htrim d hd node hnode).symm.trans hid
    exact ⟨d, rfl, node, hnode, hid', mentions_of_nodeDraft hmeans⟩

/-- **The builder sends what it mentions.** -/
theorem mentions_of_builderDefinition {b : BuilderPage} (h : DefinitionMentions b.definition t nodeId) :
    b.Mentions t nodeId := by
  obtain ⟨node, hnode, hid, htype, f, hf, hkey, text, htext, hmeans⟩ := h
  obtain ⟨draft, hdraft, rfl⟩ := List.mem_map.mp hnode
  have hcanvas := (perm_buildDraftFromCanvas b.canvas).mem_iff.mp hdraft
  obtain ⟨cnode, hcnode, rfl⟩ := List.mem_map.mp hcanvas
  refine ⟨cnode, hcnode, hid, means_of_trim ?_⟩
  have hnotification : cnode.draft.type = .notification := htype
  have hfields : configFields (draftConfig cnode.draft) = namedConfig cnode.draft ++
      [("template_id", .str (trim cnode.draft.templateId)), ("channels", .arr
        (if cnode.draft.channel = "" then [] else [.str cnode.draft.channel]))] := by
    unfold draftConfig
    rw [hnotification]
    rfl
  have hf' : f ∈ configFields (draftConfig cnode.draft) := hf
  rw [hfields, List.mem_append] at hf'
  rcases hf' with hname | htemplate
  · rcases namedConfig_cases cnode.draft with hnil | ⟨v, hnamed⟩
    · rw [hnil] at hname
      cases hname
    · rw [hnamed] at hname
      obtain rfl := List.mem_singleton.mp hname
      have hkey' : equalFold "name" "template_id" = true := hkey
      exact absurd hkey' (by decide)
  · rcases List.mem_cons.mp htemplate with rfl | hchannels
    · obtain rfl := Json.str.inj htext
      exact hmeans
    · obtain rfl := List.mem_singleton.mp hchannels
      have hkey' : equalFold "channels" "template_id" = true := hkey
      exact absurd hkey' (by decide)

/-- What is edited is a name or a duration, and what is duplicated has no template yet. -/
def StoreAction.KeepsTemplates (canvas : WorkflowCanvas) : StoreAction → Prop
  | .updateNodeDraft _ updater => ∀ draft, (updater draft).id = draft.id ∧
      (updater draft).templateId = draft.templateId
  | .duplicateNode nodeId => ∀ node ∈ canvas.nodes, node.id = nodeId → node.draft.templateId = ""
  | _ => True

/-- A node that is added to a canvas with a layout is one without a template. -/
theorem mem_added {layout : Layout} {nodes : List WorkflowCanvasNode}
    {edges : List WorkflowCanvasEdge} {new node : WorkflowCanvasNode}
    (hnew : new.draft.templateId = "") (h : node ∈ layoutCanvasGraph layout (nodes ++ [new]) edges)
    (hmeans : Means node.draft.templateId t) : ∃ old ∈ nodes, node.draft = old.draft := by
  obtain ⟨old, hold, hdraft⟩ := mem_layoutCanvasGraph h
  rcases List.mem_append.mp hold with hold | hold
  · exact ⟨old, hold, hdraft⟩
  · rw [hdraft, List.mem_singleton.mp hold, hnew] at hmeans
    exact absurd hmeans not_means_empty

/-- **An action gives no node a template.** -/
theorem mem_apply {layout : Layout} {random : Random} {canvas : WorkflowCanvas}
    {action : StoreAction} (hkeeps : action.KeepsTemplates canvas) {node : WorkflowCanvasNode}
    (h : node ∈ (action.apply layout random canvas).nodes)
    (hmeans : Means node.draft.templateId t) :
    ∃ old ∈ canvas.nodes, old.draft.id = node.draft.id ∧ Means old.draft.templateId t := by
  -- most actions only move or drop nodes
  have hsame : (∃ old ∈ canvas.nodes, node.draft = old.draft) →
      ∃ old ∈ canvas.nodes, old.draft.id = node.draft.id ∧ Means old.draft.templateId t := by
    rintro ⟨old, hold, hdraft⟩
    exact ⟨old, hold, congrArg _ hdraft.symm, hdraft ▸ hmeans⟩
  have hself : node ∈ canvas.nodes →
      ∃ old ∈ canvas.nodes, old.draft.id = node.draft.id ∧ Means old.draft.templateId t :=
    fun hold => hsame ⟨node, hold, rfl⟩
  cases action with
  | setTriggerEvent value => exact hself h
  | addConnectedNode sourceNodeId type channel => exact hsame (mem_added rfl h hmeans)
  | insertNodeOnEdge edgeId type channel =>
      change node ∈ (insertNodeOnEdgeAction layout random canvas edgeId type channel).nodes at h
      unfold insertNodeOnEdgeAction at h
      split at h
      · split at h
        · exact hself h
        · split at h
          · exact hsame (mem_added rfl h hmeans)
          · exact hself h
      · exact hsame (mem_added rfl h hmeans)
  | updateNodeDraft nodeId updater =>
      obtain ⟨old, hold, rfl⟩ := List.mem_map.mp h
      unfold updatedNode at hmeans ⊢
      split at hmeans
      · next hid =>
        -- a change of type clears the template
        obtain ⟨hdraft, htemplate⟩ := hkeeps old.draft
        rw [if_pos hid]
        refine ⟨old, hold, hdraft.symm, ?_⟩
        change Means (if (updater old.draft).type = .notification then
          (updater old.draft).templateId else "") t at hmeans
        split at hmeans
        · exact htemplate ▸ hmeans
        · exact absurd hmeans not_means_empty
      · next hid =>
        rw [if_neg hid]
        exact ⟨old, hold, rfl, hmeans⟩
  | duplicateNode nodeId =>
      change node ∈ (duplicateNodeAction layout random canvas nodeId).nodes at h
      unfold duplicateNodeAction at h
      split at h
      · exact hself h
      next currentNode hcurrent =>
      split at h
      · exact hself h
      refine hsame (mem_added ?_ h hmeans)
      -- the copy would have the template of its original
      have hid : currentNode.id = nodeId := by simpa using List.find?_some hcurrent
      have hempty := hkeeps currentNode (List.mem_of_find?_eq_some hcurrent) hid
      show (if currentNode.draft.type = .notification then currentNode.draft.templateId else "") = ""
      rw [hempty, ite_self]
  | removeNode nodeId =>
      obtain ⟨old, hold, hdraft⟩ := mem_layoutCanvasGraph h
      change old ∈ ite _ _ _ at hold
      split at hold
      · rw [hdraft, List.mem_singleton.mp hold] at hmeans
        exact absurd hmeans not_means_empty
      · exact hsame ⟨old, (List.mem_filter.mp hold).1, hdraft⟩
  | onNodesChange move =>
      obtain ⟨old, hold, hmoved⟩ := List.mem_filterMap.mp h
      obtain ⟨position, -, rfl⟩ := Option.map_eq_some_iff.mp hmoved
      exact hsame ⟨old, hold, rfl⟩
  | onEdgesChange keep => exact hself h
  | connectNodes source target =>
      change node ∈ (ite _ _ _ : WorkflowCanvas).nodes at h
      split at h
      · exact hself h
      · exact hself h
  | updateEdgeBranch edgeId => exact hself h
  | removeEdge edgeId =>
      change node ∈ (ite _ _ _ : WorkflowCanvas).nodes at h
      split at h
      · exact hself h
      · exact hself h
  | autoLayout => exact hsame (mem_layoutCanvasGraph h)

end Pages

/-! ### What is stored -/

section Stored

variable {environmentID : UUID} {t id : UUID} {nodeId : String} {rows rows' : Rows}

/-- After an update a workflow mentions what it did, or what was sent. -/
theorem mentions_of_updates {workflow : WorkflowItem} {d : Definition}
    {out : Except GoError WorkflowRow} (h : Updates environmentID workflow d rows out rows')
    (hm : StoredMentions environmentID rows' t id nodeId) :
    StoredMentions environmentID rows t id nodeId ∨
      (workflow.id = id ∧ DefinitionMentions d t nodeId) := by
  rcases updates_cases h with rfl | ⟨arg, -, hid, -, hjson, rfl⟩
  · exact Or.inl hm
  obtain ⟨row', hrow', henvironment, hrowid, d', hd', hmentions⟩ := hm
  obtain ⟨row, hrow, rfl⟩ := List.mem_map.mp hrow'
  by_cases hsel : (Op.updateDefinition arg).selects row = true
  · right
    rw [if_pos hsel] at hrowid hd'
    rw [definition_sets hjson] at hd'
    obtain rfl := Option.some.inj hd'
    refine ⟨?_, hmentions⟩
    have htarget := selects_iff.mp hsel
    rw [← hid, ← hrowid, sets_id]
    exact congrArg Prod.fst (Option.some.inj htarget)
  · rw [if_neg hsel] at henvironment hrowid hd'
    exact Or.inl ⟨row, hrow, henvironment, hrowid, d', hd', hmentions⟩

end Stored

/-! ### Templates and what is in them -/

section Content

variable {environmentID newID savedID t : UUID} {e : ChannelEditor} {templateId subject html : String}
  {templates templates' : List TemplateRow}

/-- The subject and the body of a template. -/
def contentOf (environmentID t : UUID) (templates : List TemplateRow) :
    Option (Option String × String) :=
  (templates.find? fun row => row.id == t && row.environmentID == environmentID).map fun row =>
    (row.subject, row.body)

/-- Changing other templates does not change the content of one. -/
theorem contentOf_map {p : TemplateRow → Prop} [DecidablePred p] {subject : Option String}
    {body : String} (h : ∀ row ∈ templates, row.id = t → ¬ p row) :
    contentOf environmentID t (templates.map fun row =>
      if p row then { row with subject := subject, body := body } else row) =
        contentOf environmentID t templates := by
  unfold contentOf
  rw [List.find?_map, Option.map_map]
  have hkey : ((fun row : TemplateRow => row.id == t && row.environmentID == environmentID) ∘
      fun row => if p row then { row with subject := subject, body := body } else row) =
        fun row => row.id == t && row.environmentID == environmentID := by
    funext row
    show ((ite _ _ _ : TemplateRow).id == t && (ite _ _ _ : TemplateRow).environmentID == _) = _
    split
    · rfl
    · rfl
  rw [hkey]
  rcases hfind : templates.find? fun row => row.id == t && row.environmentID == environmentID
    with - | row
  · rw [hfind]
    rfl
  rw [hfind]
  have hid : row.id = t := by
    have hfound := List.find?_some hfind
    rw [Bool.and_eq_true, beq_iff_eq] at hfound
    exact hfound.1
  have hnot := h row (List.mem_of_find?_eq_some hfind) hid
  rw [Option.map_some, Option.map_some]
  show some ((ite _ _ _ : TemplateRow).subject, (ite _ _ _ : TemplateRow).body) = _
  rw [if_neg hnot]

/-- **What a template call changes**: the template whose id it answers; if the page has no id
yet, also whatever has the name. -/
theorem contentOf_saveTemplate
    (h : e.saveTemplate newID environmentID templateId subject html templates =
      some (savedID, templates')) (hsaved : t ≠ savedID)
    (hkeyed : templateId = "" → ∀ row ∈ templates,
      row.keyed environmentID e.templateName e.channel = true → row.id ≠ t) :
    contentOf environmentID t templates' = contentOf environmentID t templates := by
  unfold ChannelEditor.saveTemplate at h
  dsimp only at h
  split at h
  · cases h
  split at h
  · next hempty =>
    split at h
    · have hupsert := Option.some.inj h
      unfold upsertTemplate at hupsert
      split at hupsert
      · obtain ⟨-, rfl⟩ := Prod.mk.inj hupsert
        exact contentOf_map fun row hrow hid hkey => hkeyed hempty row hrow hkey hid
      · obtain ⟨rfl, rfl⟩ := Prod.mk.inj hupsert
        unfold contentOf
        rw [List.find?_append, List.find?_cons_of_neg, List.find?_nil, Option.or_none]
        simpa using fun heq : newID = t => absurd heq.symm hsaved
    · cases h
  · split at h
    · cases h
    · split at h
      · obtain ⟨rfl, rfl⟩ := Prod.mk.inj (Option.some.inj h)
        refine contentOf_map fun row hrow hid hkey => hsaved ?_
        exact hid.symm.trans hkey.1
      · cases h

/-- The id a template call answers: the one the page has, the one of a template with the name,
or a new one. -/
theorem savedID_cases (h : e.saveTemplate newID environmentID templateId subject html templates =
      some (savedID, templates')) :
    (templateId ≠ "" ∧ UUID.parse templateId = some savedID) ∨
      (templateId = "" ∧ (savedID = newID ∨ ∃ row ∈ templates,
        row.keyed environmentID e.templateName e.channel = true ∧ row.id = savedID)) := by
  unfold ChannelEditor.saveTemplate at h
  dsimp only at h
  split at h
  · cases h
  split at h
  -- without an id the template is created, or found by its name and channel
  · next hempty =>
    right
    refine ⟨hempty, ?_⟩
    split at h
    · have hupsert := Option.some.inj h
      unfold upsertTemplate at hupsert
      split at hupsert
      · next row hrow =>
        have hid := (Prod.mk.inj hupsert).1
        exact Or.inr ⟨row, List.mem_of_find?_eq_some hrow, List.find?_some hrow, hid⟩
      · exact Or.inl (Prod.mk.inj hupsert).1.symm
    · cases h
  -- with one it is updated in place
  · next hne =>
    left
    refine ⟨hne, ?_⟩
    split at h
    · cases h
    · next savedID' hparse =>
      split at h
      · rw [hparse, (Prod.mk.inj (Option.some.inj h)).1]
      · cases h

end Content

/-! ### The condition -/

/-- A step that gives no node a template of another one:

* an editor whose node has no template finds none with its name, unless it is mentioned at
  this node only; and a new template has an id that nobody has mentioned;
* a node that is duplicated has no template yet, and edits leave templates alone;
* the builder opens definitions whose ids it does not trim. -/
def Turn.Apart (environmentID : UUID) (turn : Turn) : Prop :=
  match turn.action with
  | .saveTemplate page newID => ∀ e, turn.before.editors page = some e →
      (∀ id nodeId, ¬ turn.before.Mentions environmentID newID id nodeId) ∧
        ((∃ subject html, Task.calling "" subject html ∈ e.tasks) →
          ∀ row ∈ turn.before.templates, row.keyed environmentID e.templateName e.channel = true →
            ∀ id nodeId, turn.before.Mentions environmentID row.id id nodeId →
              id = e.workflow.id ∧ nodeId = e.node.id)
  | .edit page action => ∀ b, turn.before.builders page = some b →
      action.KeepsTemplates b.canvas
  | .openBuilder _ => ∀ row ∈ turn.before.rows, row.environmentID = environmentID →
      ∀ d, (workflowFromRecord row).definition = some d → ∀ node ∈ d.nodes, trim node.id = node.id
  | _ => True

/-- Every mention is one from before, or it is at this node, and so were all mentions of its
template. -/
def MentionsOnly (environmentID : UUID) (s s' : Desk) (id₀ : UUID) (nodeId₀ : String) : Prop :=
  ∀ t id nodeId, s'.Mentions environmentID t id nodeId → s.Mentions environmentID t id nodeId ∨
    (id = id₀ ∧ nodeId = nodeId₀ ∧
      ∀ id' nodeId', s.Mentions environmentID t id' nodeId' → id' = id₀ ∧ nodeId' = nodeId₀)

section Steps

variable {parse : String → Option Json} {layout : Layout} {environmentID t id : UUID}
  {nodeId : String} {s s' : Desk}

/-- What a page mentions that was put there is mentioned by the page, or was before. -/
theorem mentions_setEditor {e : ChannelEditor} {page : ℕ}
    (h : (s.setEditor page e).Mentions environmentID t id nodeId) :
    s.Mentions environmentID t id nodeId ∨ (e.workflow.id = id ∧ e.Mentions t nodeId) := by
  rcases h with h | ⟨page', e', hpage, hid, hm⟩ | h
  · exact Or.inl (Or.inl h)
  · rcases editors_setEditor hpage with rfl | hold
    · exact Or.inr ⟨hid, hm⟩
    · exact Or.inl (Or.inr (Or.inl ⟨page', e', hold, hid, hm⟩))
  · exact Or.inl (Or.inr (Or.inr h))

/-- A page that is set mentions what it held before or holds now. -/
theorem mentions_setBuilder {b : BuilderPage} {page : ℕ}
    (h : (s.setBuilder page b).Mentions environmentID t id nodeId) :
    s.Mentions environmentID t id nodeId ∨ (b.workflow.id = id ∧ b.Mentions t nodeId) := by
  rcases h with h | h | ⟨page', b', hpage, hid, hm⟩
  · exact Or.inl (Or.inl h)
  · exact Or.inl (Or.inr (Or.inl h))
  · by_cases hsame : page' = page
    · subst hsame
      obtain rfl : b = b' := by simpa [Desk.setBuilder] using hpage
      exact Or.inr ⟨hid, hm⟩
    · refine Or.inl (Or.inr (Or.inr ⟨page', b', ?_, hid, hm⟩))
      simpa [Desk.setBuilder, Function.update_of_ne hsame] using hpage

/-- An editor whose texts mean no more than before mentions nothing new. -/
theorem mentions_of_texts {e e' : ChannelEditor} (hdefinition : e'.definition = e.definition)
    (hnode : e'.node = e.node)
    (htexts : ∀ text ∈ e'.texts, Means text t → ∃ old ∈ e.texts, Means old t)
    (h : e'.Mentions t nodeId) : e.Mentions t nodeId := by
  rcases h with h | ⟨hid, text, htext, hmeans⟩
  · exact Or.inl (hdefinition ▸ h)
  · exact Or.inr ⟨hnode ▸ hid, htexts text htext hmeans⟩

/-- A row that is found is one of the environment. -/
theorem mem_of_rowOf {row : WorkflowRow} {rows : Rows} (h : rowOf environmentID id rows = some row) :
    row ∈ rows ∧ row.id = id ∧ row.environmentID = environmentID := by
  have hkey : row.id = id ∧ row.environmentID = environmentID := by
    simpa using List.find?_some h
  exact ⟨List.mem_of_find?_eq_some h, hkey⟩

/-- An editor that is there mentions what it did. -/
theorem mentions_page {e e' : ChannelEditor} {page : ℕ}
    (h : (s.setEditor page e').Mentions environmentID t id nodeId) (hpage : s.editors page = some e)
    (hworkflow : e'.workflow = e.workflow) (hmono : e'.Mentions t nodeId → e.Mentions t nodeId) :
    s.Mentions environmentID t id nodeId := by
  rcases mentions_setEditor h with hold | ⟨hid, hm⟩
  · exact hold
  · exact Or.inr (Or.inl ⟨page, e, hpage, hworkflow ▸ hid, hmono hm⟩)

/-- An editor that has done some of its tasks mentions nothing new. -/
theorem mentions_of_tasks {e : ChannelEditor} {tasks : List Task} (htasks : tasks ⊆ e.tasks)
    (h : ({ e with tasks := tasks } : ChannelEditor).Mentions t nodeId) : e.Mentions t nodeId := by
  rcases h with h | ⟨hid, text, htext, hmeans⟩
  · exact Or.inl h
  · refine Or.inr ⟨hid, text, ?_, hmeans⟩
    exact List.cons_subset_cons _ (List.map_subset _ htasks) htext

/-- A task that is begun has the text of the page. -/
theorem mentions_of_calling {e : ChannelEditor} {subject html : String}
    (h : ({ e with tasks := .calling e.templateId subject html :: e.tasks } :
      ChannelEditor).Mentions t nodeId) : e.Mentions t nodeId := by
  rcases h with h | ⟨hid, text, htext, hmeans⟩
  · exact Or.inl h
  · refine Or.inr ⟨hid, text, ?_, hmeans⟩
    have htext' : text ∈ e.templateId :: e.templateId :: e.tasks.map Task.text := htext
    show text ∈ e.templateId :: e.tasks.map Task.text
    rcases List.mem_cons.mp htext' with rfl | htext'
    · exact List.mem_cons_self ..
    · exact htext'

/-- The tasks that are left. -/
theorem append_subset {before after : List Task} {task : Task} :
    before ++ after ⊆ before ++ task :: after :=
  ((List.sublist_cons_self task after).append_left before).subset

/-- Tables that are put in place of others: a mention is on a page, or in the tables. -/
theorem mentions_setRows {rows : Rows}
    (h : ({ s with rows := rows } : Desk).Mentions environmentID t id nodeId) :
    StoredMentions environmentID rows t id nodeId ∨ s.Mentions environmentID t id nodeId := by
  rcases h with h | h
  · exact Or.inl h
  · exact Or.inr (Or.inr h)

/-- An update puts nothing into the tables that the page that sent it did not mention. -/
theorem mentions_of_sent {workflow : WorkflowItem} {d : Definition} {rows : Rows}
    {out : Except GoError WorkflowRow} (hrun : Updates environmentID workflow d s.rows out rows)
    (hsent : workflow.id = id → DefinitionMentions d t nodeId →
      s.Mentions environmentID t id nodeId)
    (h : ({ s with rows := rows } : Desk).Mentions environmentID t id nodeId) :
    s.Mentions environmentID t id nodeId := by
  rcases mentions_setRows h with hstored | hold
  · rcases mentions_of_updates hrun hstored with hstored | ⟨hid, hd⟩
    · exact Or.inl hstored
    · exact hsent hid hd
  · exact hold

/-- **What a template call puts into words**: the id of the template, at the node. -/
theorem mentionsOnly_saveTemplate {e : ChannelEditor} {page : ℕ} {before after : List Task}
    {templateId subject html : String} {newID savedID : UUID} {templates : List TemplateRow}
    (hpage : s.editors page = some e)
    (htasks : e.tasks = before ++ .calling templateId subject html :: after)
    (hsaved : e.saveTemplate newID environmentID templateId subject html s.templates =
      some (savedID, templates))
    (hapart : Turn.Apart environmentID ⟨s, .saveTemplate page newID, s'⟩) :
    MentionsOnly environmentID s ({ s with templates := templates }.setEditor page { e with
      templateId := if templateId = "" then savedID.toString else e.templateId
      tasks := before ++ Task.saving savedID.toString :: after }) e.workflow.id e.node.id := by
  intro t id nodeId h
  obtain ⟨hnew, hname⟩ := hapart e hpage
  rcases mentions_setEditor h with hold | ⟨hid, hm⟩
  · exact Or.inl hold
  rcases hm with hm | ⟨hnode, text, htext, hmeans⟩
  · exact Or.inl (Or.inr (Or.inl ⟨page, e, hpage, hid, Or.inl hm⟩))
  have hmine : ∀ {u}, (∃ text ∈ e.texts, Means text u) →
      s.Mentions environmentID u e.workflow.id e.node.id := fun htext =>
    Or.inr (Or.inl ⟨page, e, hpage, rfl, Or.inr ⟨rfl, htext⟩⟩)
  obtain rfl : e.workflow.id = id := hid
  obtain rfl : e.node.id = nodeId := hnode
  -- the only new text is the id the call has answered
  have hcases : text ∈ e.texts ∨ text = savedID.toString := by
    rcases List.mem_cons.mp htext with rfl | htext
    · show ite _ _ _ ∈ e.texts ∨ ite _ _ _ = _
      split
      · exact Or.inr rfl
      · exact Or.inl (List.mem_cons_self ..)
    · obtain ⟨task, htask, rfl⟩ := List.mem_map.mp htext
      rcases List.mem_append.mp htask with hbefore | hafter
      · left
        apply List.mem_cons_of_mem
        rw [htasks]
        exact List.mem_map_of_mem (List.mem_append_left _ hbefore)
      · rcases List.mem_cons.mp hafter with rfl | hafter
        · exact Or.inr rfl
        · left
          apply List.mem_cons_of_mem
          rw [htasks]
          exact List.mem_map_of_mem (List.mem_append_right _ (List.mem_cons_of_mem _ hafter))
  rcases hcases with htext | rfl
  · exact Or.inl (hmine ⟨text, htext, hmeans⟩)
  obtain rfl := eq_of_means_toString hmeans
  have hcalling : .calling templateId subject html ∈ e.tasks := by
    rw [htasks]
    exact List.mem_append_right _ (List.mem_cons_self ..)
  -- it was asked for, is drawn, or belongs to a row of the same key
  rcases savedID_cases hsaved with ⟨-, hparse⟩ | ⟨rfl, rfl | ⟨row, hrow, hkey, rfl⟩⟩
  · left
    refine hmine ⟨templateId, List.mem_cons_of_mem _ (List.mem_map.mpr ⟨_, hcalling, rfl⟩), ?_⟩
    exact ⟨templateId, List.mem_cons_self .., hparse⟩
  · exact Or.inr ⟨rfl, rfl, fun id' nodeId' h' => absurd h' (hnew id' nodeId')⟩
  · exact Or.inr ⟨rfl, rfl, hname ⟨subject, html, hcalling⟩ row hrow hkey⟩

/-- Nothing new is put into words. -/
theorem mentionsOnly_of_mono
    (h : ∀ t id nodeId, s'.Mentions environmentID t id nodeId →
      s.Mentions environmentID t id nodeId) (id₀ : UUID) (nodeId₀ : String) :
    MentionsOnly environmentID s s' id₀ nodeId₀ :=
  fun t id nodeId hm => Or.inl (h t id nodeId hm)

/-- **What a step puts into words**: nothing new, but for a template that an editor has saved. -/
theorem mentionsOnly_step {a : Action} (hstep : Desk.Step parse layout environmentID s a s')
    (hapart : Turn.Apart environmentID ⟨s, a, s'⟩) :
    ∃ id₀ nodeId₀, MentionsOnly environmentID s s' id₀ nodeId₀ := by
  -- most steps put nothing new into words
  have hmono : (∀ t id nodeId, s'.Mentions environmentID t id nodeId →
      s.Mentions environmentID t id nodeId) →
        ∃ id₀ nodeId₀, MentionsOnly environmentID s s' id₀ nodeId₀ :=
    fun h => ⟨.ofDigit 0, "", mentionsOnly_of_mono h _ _⟩
  cases hstep with
  | @openEditor page id' row nodeId' e hrow hload =>
      refine hmono fun t id nodeId h => ?_
      rcases mentions_setEditor h with hold | ⟨hid, hm⟩
      · exact hold
      have hworkflow := workflow_of_load hload
      obtain ⟨hmem, -, henvironment⟩ := mem_of_rowOf hrow
      refine Or.inl ⟨row, hmem, henvironment, ?_, e.definition, ?_, mentions_of_load hload hm⟩
      · rw [← hid, hworkflow]
        rfl
      · rw [← hworkflow]
        exact e.loaded
  | @setPayload page e payload hpage =>
      refine hmono fun t id nodeId h => ?_
      exact mentions_page h hpage rfl fun hm => hm
  | @autosave page e subject html hpage =>
      refine hmono fun t id nodeId h => ?_
      exact mentions_page h hpage rfl mentions_of_calling
  | @saveTemplate page e before after templateId subject html newID savedID templates hpage htasks
      hsaved =>
      exact ⟨_, _, mentionsOnly_saveTemplate hpage htasks hsaved hapart⟩
  | @taskFails page e before after task newID hpage htasks =>
      refine hmono fun t id nodeId h => ?_
      refine mentions_page h hpage rfl (mentions_of_tasks ?_)
      rw [htasks]
      exact append_subset
  | @saveDefinition page e before after savedTemplateId out rows hpage htasks hrun =>
      refine hmono fun t id nodeId h => ?_
      -- what is sent was a task of the page before
      have htext : Task.saving savedTemplateId ∈ e.tasks := by
        rw [htasks]
        exact List.mem_append_right _ (List.mem_cons_self ..)
      have hsent : e.workflow.id = id →
          DefinitionMentions (e.updatedDefinition savedTemplateId) t nodeId →
            s.Mentions environmentID t id nodeId := fun hid hd =>
        Or.inr (Or.inl ⟨page, e, hpage, hid, mentions_of_updatedDefinition htext hd⟩)
      rcases mentions_setEditor h with hold | ⟨hid, hm⟩
      · exact mentions_of_sent hrun hsent hold
      · refine Or.inr (Or.inl ⟨page, e, hpage, hid, mentions_of_tasks ?_ hm⟩)
        rw [htasks]
        exact append_subset
  | @openBuilder page id' row b random hrow hload =>
      refine hmono fun t id nodeId h => ?_
      rcases mentions_setBuilder h with hold | ⟨hid, hm⟩
      · exact hold
      obtain ⟨hmem, -, henvironment⟩ := mem_of_rowOf hrow
      rw [workflow_of_builderLoad hload] at hid
      obtain ⟨d, hd, hm⟩ := mentions_of_builderLoad hload (hapart row hmem henvironment) hm
      exact Or.inl ⟨row, hmem, henvironment, hid, d, hd, hm⟩
  | @edit page b random action hpage =>
      refine hmono fun t id nodeId h => ?_
      rcases mentions_setBuilder h with hold | ⟨hid, node, hnode, hnodeId, hmeans⟩
      · exact hold
      obtain ⟨old, hold, hsame, hmeans⟩ := mem_apply (hapart b hpage) hnode hmeans
      refine Or.inr (Or.inr ⟨page, b, hpage, hid, old, hold, ?_, hmeans⟩)
      rw [hsame]
      exact hnodeId
  | @setup page b name description hpage =>
      refine hmono fun t id nodeId h => ?_
      rcases mentions_setBuilder h with hold | ⟨hid, hm⟩
      · exact hold
      · exact Or.inr (Or.inr ⟨page, b, hpage, hid, hm⟩)
  | @autosaveBuilder page b out rows hpage hrun =>
      refine hmono fun t id nodeId h => ?_
      have hsent : b.workflow.id = id → DefinitionMentions b.definition t nodeId →
          s.Mentions environmentID t id nodeId := fun hid hd =>
        Or.inr (Or.inr ⟨page, b, hpage, hid, mentions_of_builderDefinition hd⟩)
      rcases mentions_setBuilder h with hold | ⟨hid, hm⟩
      · exact mentions_of_sent hrun hsent hold
      cases out with
      | error err => exact Or.inr (Or.inr ⟨page, b, hpage, hid, hm⟩)
      | ok row => exact Or.inr (Or.inr ⟨page, b, hpage, (updates_id hrun).symm.trans hid, hm⟩)

/-- Every mention that is new is at one node, so no two nodes come to share a template. -/
theorem Unshared.step {a : Action} (hunshared : Unshared environmentID s)
    (hstep : Desk.Step parse layout environmentID s a s')
    (hapart : Turn.Apart environmentID ⟨s, a, s'⟩) : Unshared environmentID s' := by
  obtain ⟨id₀, nodeId₀, honly⟩ := mentionsOnly_step hstep hapart
  intro t id nodeId id' nodeId' h h'
  rcases honly t id nodeId h with hold | ⟨rfl, rfl, hall⟩
  · rcases honly t id' nodeId' h' with hold' | ⟨rfl, rfl, hall'⟩
    · exact hunshared t id nodeId id' nodeId' hold hold'
    · exact hall' id nodeId hold
  · rcases honly t id' nodeId' h' with hold' | ⟨rfl, rfl, -⟩
    · obtain ⟨rfl, rfl⟩ := hall id' nodeId' hold'
      exact ⟨rfl, rfl⟩
    · exact ⟨rfl, rfl⟩

/-! ### The mails of other nodes -/

/-- A template call of an editor leaves alone what the other nodes send, and no other step
changes a template. -/
def Turn.Separate (environmentID : UUID) (turn : Turn) : Prop :=
  match turn.action with
  | .saveTemplate page _ => ∀ e, turn.before.editors page = some e →
      ∀ row ∈ turn.before.rows, row.environmentID = environmentID →
        ∀ d, (workflowFromRecord row).definition = some d → ∀ node ∈ d.nodes,
          ¬ (row.id = e.workflow.id ∧ node.id = e.node.id) → ∀ t, Sends node t →
            contentOf environmentID t turn.after.templates =
              contentOf environmentID t turn.before.templates
  | _ => turn.after.templates = turn.before.templates

/-- A template call whose template is mentioned at its own node only. -/
theorem separate_saveTemplate {e : ChannelEditor} {page : ℕ} {before after : List Task}
    {templateId subject html : String} {newID savedID : UUID} {templates : List TemplateRow}
    (hunshared : Unshared environmentID s) (hpage : s.editors page = some e)
    (htasks : e.tasks = before ++ .calling templateId subject html :: after)
    (hsaved : e.saveTemplate newID environmentID templateId subject html s.templates =
      some (savedID, templates))
    (hapart : Turn.Apart environmentID ⟨s, .saveTemplate page newID, s'⟩)
    (hm : s.Mentions environmentID t id nodeId)
    (hother : ¬ (id = e.workflow.id ∧ nodeId = e.node.id)) :
    contentOf environmentID t templates = contentOf environmentID t s.templates := by
  obtain ⟨hnew, hname⟩ := hapart e hpage
  have hcalling : .calling templateId subject html ∈ e.tasks := by
    rw [htasks]
    exact List.mem_append_right _ (List.mem_cons_self ..)
  apply contentOf_saveTemplate hsaved
  · rintro rfl
    rcases savedID_cases hsaved with ⟨-, hparse⟩ | ⟨rfl, rfl | ⟨row, hrow, hkey, rfl⟩⟩
    · have hmine : s.Mentions environmentID t e.workflow.id e.node.id := by
        refine Or.inr (Or.inl ⟨page, e, hpage, rfl, Or.inr ⟨rfl, templateId, ?_, ?_⟩⟩)
        · exact List.mem_cons_of_mem _ (List.mem_map.mpr ⟨_, hcalling, rfl⟩)
        · exact ⟨templateId, List.mem_cons_self .., hparse⟩
      exact hother (hunshared t id nodeId _ _ hm hmine)
    · exact hnew id nodeId hm
    · exact hother (hname ⟨subject, html, hcalling⟩ row hrow hkey id nodeId hm)
  · rintro rfl row hrow hkey rfl
    exact hother (hname ⟨subject, html, hcalling⟩ row hrow hkey id nodeId hm)

/-- One step keeps the contents of the workflows apart. -/
theorem separate_step {a : Action} (hunshared : Unshared environmentID s)
    (hstep : Desk.Step parse layout environmentID s a s')
    (hapart : Turn.Apart environmentID ⟨s, a, s'⟩) : Turn.Separate environmentID ⟨s, a, s'⟩ := by
  cases hstep with
  | @saveTemplate page e before after templateId subject html newID savedID templates hpage htasks
      hsaved =>
      intro e' hpage' row hrow henvironment d hd node hnode hother t hsends
      obtain rfl : e = e' := Option.some.inj (hpage.symm.trans hpage')
      refine separate_saveTemplate hunshared hpage htasks hsaved hapart ?_ hother
      exact Or.inl ⟨row, hrow, henvironment, rfl, d, hd, node, hnode, rfl,
        nodeMentions_of_sends hsends⟩
  | taskFails => exact fun _ _ _ _ _ _ _ _ _ _ _ _ => rfl
  | _ => exact rfl

/-- **Nodes that are kept apart do not change each other's mails**: if no two nodes mention one
template to begin with, and every step keeps nodes apart, then in a run of any length no
editor changes what another node sends. -/
theorem separate_of_run {s₀ : Desk} {turns : List Turn} (h₀ : Unshared environmentID s₀)
    (h : Desk.Run parse layout environmentID (Turn.Apart environmentID) s₀ turns s) :
    ∀ turn ∈ turns, turn.Separate environmentID := by
  have hboth : Unshared environmentID s ∧ ∀ turn ∈ turns, turn.Separate environmentID := by
    induction h with
    | nil => exact ⟨h₀, fun turn hturn => absurd hturn List.not_mem_nil⟩
    | snoc _ hapart hstep ih =>
        obtain ⟨hunshared, hseparate⟩ := ih
        refine ⟨hunshared.step hstep hapart, fun turn hturn => ?_⟩
        rcases List.mem_append.mp hturn with hold | hnew
        · exact hseparate turn hold
        · obtain rfl := List.mem_singleton.mp hnew
          exact separate_step hunshared hstep hapart
  exact hboth.2

end Steps

/-! ### Nodes of one name -/

namespace Sample

variable {t id : UUID} {nodeId : String} {s : Desk} {e : ChannelEditor}

/-- No template is mentioned anywhere. -/
def Blank (s : Desk) : Prop :=
  ∀ t id nodeId, ¬ s.Mentions environmentID t id nodeId

theorem Blank.unshared (h : Blank s) : Unshared environmentID s :=
  fun t id nodeId _ _ hm => absurd hm (h t id nodeId)

theorem Blank.setEditor (h : Blank s) (he : ∀ t nodeId, ¬ e.Mentions t nodeId) (page : ℕ) :
    Blank (s.setEditor page e) := by
  intro t id nodeId hm
  rcases mentions_setEditor hm with hold | ⟨-, hm⟩
  · exact h t id nodeId hold
  · exact he t nodeId hm

/-- The table with one workflow, and no page. -/
def deskOf (row : WorkflowRow) : Desk := ⟨[row], [], fun _ => none, fun _ => none⟩

/-- No config has an entry for a template. -/
def NoEntry (d : Definition) : Prop :=
  ∀ node ∈ d.nodes, ∀ f ∈ configFields node.config, equalFold f.1 "template_id" = false

theorem NoEntry.not_mentions {d : Definition} (h : NoEntry d) : ¬ DefinitionMentions d t nodeId := by
  rintro ⟨node, hnode, -, -, f, hf, hkey, -⟩
  rw [h node hnode f hf] at hkey
  cases hkey

theorem blank_deskOf {row : WorkflowRow} {d : Definition}
    (hd : (workflowFromRecord row).definition = some d) (h : NoEntry d) : Blank (deskOf row) := by
  rintro t id nodeId (⟨row', hrow', -, -, d', hd', hm⟩ | ⟨page, e, he, -⟩ | ⟨page, b, hb, -⟩)
  · obtain rfl := List.mem_singleton.mp hrow'
    obtain rfl := Option.some.inj (hd.symm.trans hd')
    exact h.not_mentions hm
  · cases he
  · cases hb

theorem not_mentions_editor {row : WorkflowRow} {d : Definition} {nodeId' : String}
    (hd : (workflowFromRecord row).definition = some d) (h : NoEntry d)
    (he : (ChannelEditor.load parse (workflowFromRecord row) nodeId').isSome) :
    ¬ (editor row nodeId' he).Mentions t nodeId := by
  intro hm
  have hload := load_editor he
  have hloaded := (editor row nodeId' he).loaded
  rw [workflow_of_load hload, hd] at hloaded
  rw [Option.some.inj hloaded] at h
  exact h.not_mentions (mentions_of_load hload hm)

theorem definition_row : (workflowFromRecord row).definition = some twoMails := by
  show (parseDefinition (some (marshalDefinition twoMails))).toOption.join = some twoMails
  rw [parseDefinition_marshalDefinition]
  rfl

theorem noEntry_twoMails : NoEntry twoMails := by
  unfold NoEntry
  decide

/-- A page of the editor that has begun an autosave. -/
def begun (e : ChannelEditor) (subject html : String) : ChannelEditor :=
  { e with tasks := .calling e.templateId subject html :: e.tasks }

theorem not_mentions_first : ¬ first.Mentions t nodeId :=
  not_mentions_editor definition_row noEntry_twoMails _

theorem not_mentions_second : ¬ second.Mentions t nodeId :=
  not_mentions_editor definition_row noEntry_twoMails _

theorem blank_closed : Blank closed := blank_deskOf definition_row noEntry_twoMails

theorem blank_opened : Blank opened :=
  (blank_closed.setEditor (fun _ _ => not_mentions_first) 0).setEditor
    (fun _ _ => not_mentions_second) 1

/-- Two mails in a row, with the name the builder gives them. -/
def namesakes : Definition where
  trigger := ⟨"user.signup"⟩
  nodes := [⟨"start", .trigger, none⟩,
    ⟨"first", .notification, some (.obj
      [("name", .str (buildDefaultNodeName .notification "email")),
        ("channels", .arr [.str "email"])])⟩,
    ⟨"second", .notification, some (.obj
      [("name", .str (buildDefaultNodeName .notification "email")),
        ("channels", .arr [.str "email"])])⟩]
  edgeSlice := some [⟨"start", "first", ""⟩, ⟨"first", "second", ""⟩]

def namesakeRow : WorkflowRow := { row with definitionJson := some (marshalDefinition namesakes) }

theorem definition_namesakeRow : (workflowFromRecord namesakeRow).definition = some namesakes := by
  show (parseDefinition (some (marshalDefinition namesakes))).toOption.join = some namesakes
  rw [parseDefinition_marshalDefinition]
  rfl

theorem noEntry_namesakes : NoEntry namesakes := by
  unfold NoEntry
  decide

def firstNamesake : ChannelEditor := editor namesakeRow "first" (by decide)

def secondNamesake : ChannelEditor := editor namesakeRow "second" (by decide)

/-- The template of the first mail, and what the second one makes of it. -/
def namesakeTemplate (subject html : String) : List TemplateRow :=
  [⟨⟨.ofDigit 5, environmentID, "email", some subject, html, true⟩,
    "Welcome Email notification email"⟩]

def namesakesOpened : Desk :=
  ((deskOf namesakeRow).setEditor 0 firstNamesake).setEditor 1 secondNamesake

def namesakeSaved : Rows :=
  (update firstNamesake.workflow (firstNamesake.updatedDefinition (UUID.ofDigit 5).toString)
    [namesakeRow]).2

/-- The first mail is saved, and the second one is about to be. -/
def namesakesBefore : Desk :=
  (namesakesOpened.saved 0 firstNamesake (.ofDigit 5) (namesakeTemplate "Hi" "<p>Hi</p>")
    namesakeSaved).setEditor 1 (begun secondNamesake "Bye" "<p>Bye</p>")

def namesakesAfter : Desk :=
  { namesakesBefore with templates := namesakeTemplate "Bye" "<p>Bye</p>" }.setEditor 1
    { begun secondNamesake "Bye" "<p>Bye</p>" with
      templateId := (UUID.ofDigit 5).toString
      tasks := [.saving (UUID.ofDigit 5).toString] }

/-- What the notification node with the id sends. -/
def sent (nodeId : String) (d : Definition) : Option UUID :=
  (d.nodes.find? fun node => node.id == nodeId && node.type == .notification).bind fun node =>
    (notificationTarget node).toOption.map (·.2)

/-- What a node sends stands in its config. -/
theorem sends_of_sent {nodeId : String} {d : Definition} (h : sent nodeId d = some t) :
    ∃ node ∈ d.nodes, node.id = nodeId ∧ Sends node t := by
  obtain ⟨node, hfind, hsent⟩ := Option.bind_eq_some_iff.mp h
  have hkey : node.id = nodeId ∧ node.type = .notification := by
    simpa using List.find?_some hfind
  refine ⟨node, List.mem_of_find?_eq_some hfind, hkey.1, hkey.2, ?_⟩
  rcases htarget : notificationTarget node with err | ⟨channel, t'⟩
  · rw [htarget] at hsent
    cases hsent
  · rw [htarget] at hsent
    obtain rfl := Option.some.inj hsent
    exact ⟨channel, rfl⟩

/-- The second mail is saved over the first one. -/
theorem not_separate_namesakes : ¬ Turn.Separate environmentID
    ⟨namesakesBefore, .saveTemplate 1 (.ofDigit 6), namesakesAfter⟩ := by
  intro h
  have hstored : ((storedDefinition environmentID namesakeRow.id namesakeSaved).bind
      (sent "first")) = some (.ofDigit 5) := by decide +kernel
  obtain ⟨d, hd, hsent⟩ := Option.bind_eq_some_iff.mp hstored
  obtain ⟨found, hfound, hd⟩ := Option.bind_eq_some_iff.mp hd
  obtain ⟨hmem, -, henvironment⟩ := mem_of_rowOf hfound
  obtain ⟨node, hnode, hid, hsends⟩ := sends_of_sent hsent
  have hpage : namesakesBefore.editors 1 = some (begun secondNamesake "Bye" "<p>Bye</p>") := rfl
  have hother : ¬ (found.id = (begun secondNamesake "Bye" "<p>Bye</p>").workflow.id ∧
      node.id = (begun secondNamesake "Bye" "<p>Bye</p>").node.id) := by
    rintro ⟨-, hsame⟩
    rw [hid] at hsame
    revert hsame
    decide
  have heq := h _ hpage found hmem henvironment d hd node hnode hother _ hsends
  revert heq
  decide

end Sample

/-- Two mails of different names. -/
theorem separate_of_run_first : ∃ turns,
    Desk.Run Sample.parse Sample.onOneSpot Sample.environmentID (Turn.Apart Sample.environmentID)
      Sample.closed turns
      (Sample.opened.saved 0 Sample.first (.ofDigit 5) Sample.firstTemplate Sample.firstSaved) ∧
    ∀ turn ∈ turns, turn.Separate Sample.environmentID := by
  have hopen₀ := @Desk.Step.openEditor Sample.parse Sample.onOneSpot Sample.environmentID
    Sample.closed 0 Sample.row.id Sample.row "first" Sample.first rfl
    (Sample.load_editor (by decide))
  have hopen₁ := @Desk.Step.openEditor Sample.parse Sample.onOneSpot Sample.environmentID
    (Sample.closed.setEditor 0 Sample.first) 1 Sample.row.id Sample.row "second" Sample.second rfl
    (Sample.load_editor (by decide))
  have hopened := ((@Desk.Run.nil _ _ _ (Turn.Apart Sample.environmentID) Sample.closed).snoc
    (by exact True.intro) hopen₀).snoc (by exact True.intro) hopen₁
  have hblank := Sample.blank_opened.setEditor (e := Sample.begun Sample.first "Hi" "<p>Hi</p>")
    (fun _ _ hm => Sample.not_mentions_first (mentions_of_calling hm)) 0
  obtain ⟨turns, hrun, -⟩ := @Desk.Run.autosave Sample.parse Sample.onOneSpot Sample.environmentID
    (.ofDigit 5) (.ofDigit 5) Sample.closed Sample.opened (Turn.Apart Sample.environmentID) _ 0
    Sample.first "Hi" "<p>Hi</p>" Sample.firstTemplate _ Sample.firstSaved hopened rfl rfl
    (Sample.updates_update _ _ _) True.intro
    (fun e _ => ⟨hblank _, fun _ row hrow => absurd hrow List.not_mem_nil⟩) True.intro
  exact ⟨turns, hrun, separate_of_run Sample.blank_closed.unshared hrun⟩

/-- **The second mail replaces the first one**: two nodes with the name the builder gives them,
in a workflow without templates. -/
theorem second_replaces_first : Unshared Sample.environmentID (Sample.deskOf Sample.namesakeRow) ∧
    ∃ turns, Desk.Run Sample.parse Sample.onOneSpot Sample.environmentID (fun _ => True)
      (Sample.deskOf Sample.namesakeRow) turns Sample.namesakesAfter ∧
    ∃ turn ∈ turns, ¬ turn.Separate Sample.environmentID := by
  have hopen₀ := @Desk.Step.openEditor Sample.parse Sample.onOneSpot Sample.environmentID
    (Sample.deskOf Sample.namesakeRow) 0 Sample.namesakeRow.id Sample.namesakeRow "first"
    Sample.firstNamesake rfl (Sample.load_editor (by decide))
  have hopen₁ := @Desk.Step.openEditor Sample.parse Sample.onOneSpot Sample.environmentID
    ((Sample.deskOf Sample.namesakeRow).setEditor 0 Sample.firstNamesake) 1 Sample.namesakeRow.id
    Sample.namesakeRow "second" Sample.secondNamesake rfl (Sample.load_editor (by decide))
  have hopened := ((@Desk.Run.nil _ _ _ (fun _ => True) (Sample.deskOf Sample.namesakeRow)).snoc
    True.intro hopen₀).snoc True.intro hopen₁
  obtain ⟨turns, hrun, -⟩ := @Desk.Run.autosave Sample.parse Sample.onOneSpot Sample.environmentID
    (.ofDigit 5) (.ofDigit 5) _ Sample.namesakesOpened (fun _ => True) _ 0 Sample.firstNamesake
    "Hi" "<p>Hi</p>" (Sample.namesakeTemplate "Hi" "<p>Hi</p>") _ Sample.namesakeSaved hopened rfl
    rfl (Sample.updates_update _ _ _) True.intro True.intro True.intro
  have hbegin := @Desk.Step.autosave Sample.parse Sample.onOneSpot Sample.environmentID
    (Sample.namesakesOpened.saved 0 Sample.firstNamesake (.ofDigit 5)
      (Sample.namesakeTemplate "Hi" "<p>Hi</p>") Sample.namesakeSaved) 1 Sample.secondNamesake
    "Bye" "<p>Bye</p>" rfl
  have hsave := @Desk.Step.saveTemplate Sample.parse Sample.onOneSpot Sample.environmentID
    Sample.namesakesBefore 1 (Sample.begun Sample.secondNamesake "Bye" "<p>Bye</p>") [] [] ""
    "Bye" "<p>Bye</p>" (.ofDigit 6) (.ofDigit 5) (Sample.namesakeTemplate "Bye" "<p>Bye</p>") rfl
    rfl rfl
  refine ⟨?_, _, (hrun.snoc True.intro hbegin).snoc True.intro hsave, _,
    List.mem_append_right _ (List.mem_singleton.mpr rfl), Sample.not_separate_namesakes⟩
  exact (Sample.blank_deskOf Sample.definition_namesakeRow Sample.noEntry_namesakes).unshared

end Iwifunni.Web
