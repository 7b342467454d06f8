/-
Iwifunni/Web/Settled.lean

Saving a draft and loading it again.

    draft --workflowDefinitionFromBuilderDraft--> definition
          <-------builderDraftFromDefinition-----

The first time this may change a draft: ids and settings are trimmed, a node gets a name
if it has none, a template that is no UUID is dropped, a trigger is put in front.  What
comes back is settled (`Settled`): there is nothing left to trim, to fill in or to drop.
A settled draft comes back as it is, so the second time nothing changes
(`resave_resave`), and autosave, which compares signatures, has nothing to do.
-/
import Mathlib.Logic.Function.Iterate
import Iwifunni.Web.Agreement

namespace Iwifunni.Web

open Go Workflow

/-- A draft that is saved and loaded again. -/
def resave (draft : WorkflowBuilderDraft) : Option WorkflowBuilderDraft :=
  builderDraftFromDefinition (some (workflowDefinitionFromBuilderDraft draft))

/-- The same of a node. -/
def resaveNode (node : BuilderNodeDraft) : BuilderNodeDraft :=
  nodeDraft ⟨trim node.id, node.type, draftConfig node⟩

/-- The same of an edge. -/
def resaveEdge (edge : BuilderEdgeDraft) : BuilderEdgeDraft :=
  ⟨trim edge.source, trim edge.target, trim edge.branch⟩

/-! ### Signatures -/

/-- A hexadecimal digit, as `JSON.stringify` writes it. -/
def hexDigit (n : ℕ) : Char := if n < 10 then Char.ofNat ('0'.toNat + n) else
  Char.ofNat ('a'.toNat + (n - 10))

/-- A character of a string literal, as `JSON.stringify` writes it. -/
def stringifyChar (c : Char) : List Char :=
  if c = '"' then ['\\', '"']
  else if c = '\\' then ['\\', '\\']
  else if c = '\x08' then ['\\', 'b']
  else if c = '\x0c' then ['\\', 'f']
  else if c = '\n' then ['\\', 'n']
  else if c = '\r' then ['\\', 'r']
  else if c = '\t' then ['\\', 't']
  else if c.toNat < 0x20 then
    ['\\', 'u', '0', '0', hexDigit (c.toNat / 16), hexDigit (c.toNat % 16)]
  else [c]

/-- `JSON.stringify`, of a string. -/
def stringifyString (s : String) : String :=
  "\"" ++ String.ofList (s.toList.flatMap stringifyChar) ++ "\""

/-- `JSON.stringify`, of an array whose elements are written already. -/
def stringifyArray (elements : List String) : String :=
  "[" ++ String.intercalate "," elements ++ "]"

/-- `JSON.stringify`, of an object whose values are written already. -/
def stringifyObject (fields : List (String × String)) : String :=
  "\x7b" ++ String.intercalate "," (fields.map fun field =>
    stringifyString field.1 ++ ":" ++ field.2) ++ "\x7d"

/-- `JSON.stringify`, of the draft of a node. -/
def stringifyNode (node : BuilderNodeDraft) : String :=
  stringifyObject
    [("id", stringifyString node.id),
      ("name", stringifyString node.name),
      ("type", stringifyString node.type.toString),
      ("duration", stringifyString node.duration),
      ("templateId", stringifyString node.templateId),
      ("channel", stringifyString node.channel),
      ("field", stringifyString node.field),
      ("operator", stringifyString node.operator),
      ("value", stringifyString node.value)]

/-- `JSON.stringify`, of the draft of an edge. -/
def stringifyEdge (edge : BuilderEdgeDraft) : String :=
  stringifyObject
    [("source", stringifyString edge.source),
      ("target", stringifyString edge.target),
      ("branch", stringifyString edge.branch)]

/-- `JSON.stringify`, of a draft that was loaded. -/
def stringifyDraft (draft : WorkflowBuilderDraft) : String :=
  stringifyObject
    [("triggerEvent", stringifyString draft.triggerEvent),
      ("nodes", stringifyArray (draft.nodes.map stringifyNode)),
      ("edges", stringifyArray (draft.edges.map stringifyEdge))]

/-- `buildSaveSignature`. -/
def buildSaveSignature (definitionSignature workflowName workflowDescription : String) : String :=
  stringifyObject
    [("definitionSignature", stringifyString definitionSignature),
      ("workflowName", stringifyString workflowName),
      ("workflowDescription", stringifyString workflowDescription)]

/-! ### Settled nodes -/

attribute [ext] BuilderNodeDraft

/-- A draft of a node that has nothing to be trimmed, filled in or dropped, and the
defaults for what its type does not use. -/
structure SettledNode (node : BuilderNodeDraft) : Prop where
  id : trim node.id = node.id
  name : trim node.name = node.name
  name_ne : node.name ≠ ""
  duration : if node.type = .delay then trim node.duration = node.duration
    else node.duration = "5m"
  templateId : if node.type = .notification then
      normalizeImportedTemplateId (some (.str node.templateId)) = node.templateId
    else node.templateId = ""
  channel : if node.type = .notification then node.channel ≠ "" else node.channel = ""
  field : if node.type = .condition then trim node.field = node.field ∧ node.field ≠ ""
    else node.field = "data.plan"
  operator : if node.type = .condition then trim node.operator = node.operator ∧
      node.operator ≠ ""
    else node.operator = "equals"
  value : if node.type = .condition then trim node.value = node.value else node.value = "pro"

theorem orElse_ne {a b : String} (hb : b ≠ "") : orElse a b ≠ "" := by
  unfold orElse
  split
  · exact hb
  · assumption

theorem orElse_eq {a : String} (b : String) (ha : a ≠ "") : orElse a b = a := if_neg ha

/-- The defaults have nothing to be trimmed. -/
theorem trim_orElse {a b : String} (hb : trim b = b) : trim (orElse (trim a) b) = orElse (trim a) b := by
  unfold orElse
  split
  · exact hb
  · exact trim_trim a

theorem trim_buildDefaultNodeName (type : WorkflowNodeType) (channel : String) :
    trim (buildDefaultNodeName type channel) = buildDefaultNodeName type channel ∧
      buildDefaultNodeName type channel ≠ "" := by
  have hnames : ∀ name ∈ ["Test trigger", "Delay step", "Condition step", "SMS notification",
      "Push notification", "Email notification", "Workflow step"],
      trim name = name ∧ name ≠ "" := by decide
  apply hnames
  unfold buildDefaultNodeName
  repeat' split
  all_goals simp

/-- A template is dropped once. -/
theorem normalizeImportedTemplateId_idem (value : Option Json) :
    normalizeImportedTemplateId (some (.str (trim (normalizeImportedTemplateId value)))) =
      normalizeImportedTemplateId value := by
  have htrim : ∀ s, normalizeImportedTemplateId (some (.str s)) =
      if isUuid (trim s) then trim s else "" := fun s => rfl
  rw [htrim, trim_trim]
  unfold normalizeImportedTemplateId
  by_cases huuid : isUuid (trim ((asString value).getD ""))
  · simp only [if_pos huuid, trim_trim]
  · simp only [if_neg huuid]
    rfl

theorem normalizeImportedTemplateId_trim (s : String) :
    normalizeImportedTemplateId (some (.str (trim s))) =
      normalizeImportedTemplateId (some (.str s)) := by
  show (if isUuid (trim (trim s)) then trim (trim s) else "") = _
  rw [trim_trim]
  rfl

/-! ### What is read back -/

theorem configName_draftConfig (node : BuilderNodeDraft) :
    configName (draftConfig node) = if trim node.name = "" then none else some (trim node.name) := by
  obtain ⟨id, name, type, duration, templateId, channel, field, operator, value⟩ := node
  by_cases hname : trim name = ""
  · cases type <;>
      simp [draftConfig, bareConfig, namedConfig, hname, configName, configString, configValue,
        configFields, Json.lookup, asString]
  · cases type <;>
      simp [draftConfig, bareConfig, namedConfig, hname, configName, configString, configValue,
        configFields, Json.lookup, asString]

/-- What the builder reads of a notification. -/
theorem firstChannel_notification (node : BuilderNodeDraft) (hty : node.type = .notification) :
    (firstChannel (draftConfig node)).getD "" = node.channel ∧
      normalizeImportedTemplateId (configValue (draftConfig node) "template_id") =
        normalizeImportedTemplateId (some (.str node.templateId)) := by
  rw [← normalizeImportedTemplateId_trim]
  unfold draftConfig
  rw [hty]
  rcases namedConfig_cases node with hnamed | ⟨v, hnamed⟩ <;> by_cases hchannel : node.channel = ""
    <;> simp [hnamed, hchannel, firstChannel, configValue, configFields, Json.lookup, asString]

/-- What the builder reads of a condition. -/
theorem configString_condition (node : BuilderNodeDraft) (hty : node.type = .condition) :
    configString (draftConfig node) "field" = some (trim node.field) ∧
      configString (draftConfig node) "operator" = some (trim node.operator) ∧
      configString (draftConfig node) "value" = some (trim node.value) := by
  unfold draftConfig
  rw [hty]
  rcases namedConfig_cases node with hnamed | ⟨v, hnamed⟩ <;>
    simp [hnamed, configString, configValue, configFields, Json.lookup, asString]

/-- The channel of a node that is no notification is not read. -/
theorem firstChannel_of_ne (node : BuilderNodeDraft) (hty : node.type ≠ .notification) :
    firstChannel (draftConfig node) = none := by
  rcases namedConfig_cases node with hnamed | ⟨v, hnamed⟩ <;> cases htype : node.type <;>
    simp [draftConfig, bareConfig, htype, hnamed, firstChannel, configValue, configFields,
      Json.lookup] at hty ⊢

/-- What a draft is saved and loaded as, field by field. -/
theorem resaveNode_eq (node : BuilderNodeDraft) :
    resaveNode node =
      { id := trim node.id
        name := if trim node.name = "" then
            buildDefaultNodeName node.type (if node.type = .notification then node.channel else "")
          else trim node.name
        type := node.type
        duration := if node.type = .delay then trim node.duration else "5m"
        templateId := if node.type = .notification then
            normalizeImportedTemplateId (some (.str node.templateId)) else ""
        channel := if node.type = .notification then orElse node.channel "email" else ""
        field := if node.type = .condition then orElse (trim node.field) "data.plan"
          else "data.plan"
        operator := if node.type = .condition then orElse (trim node.operator) "equals"
          else "equals"
        value := if node.type = .condition then trim node.value else "pro" } := by
  have hchannel : (firstChannel (draftConfig node)).getD "" =
      if node.type = .notification then node.channel else "" := by
    split
    · next hty => exact (firstChannel_notification node hty).1
    · next hty =>
        rw [firstChannel_of_ne node hty]
        rfl
  -- each setting is read for the type it belongs to only
  simp only [resaveNode, nodeDraft, normalizeNodeDraftForType]
  apply BuilderNodeDraft.ext
  case id => rfl
  case name =>
    dsimp only
    rw [configName_draftConfig, hchannel]
    split
    · rfl
    · rfl
  case type => rfl
  case duration =>
    refine if_ctx_congr Iff.rfl (fun hty => ?_) fun _ => rfl
    rw [configString_delay node hty, Option.getD_some]
  case templateId =>
    refine if_ctx_congr Iff.rfl (fun hty => ?_) fun _ => rfl
    exact (firstChannel_notification node hty).2
  case channel =>
    refine if_ctx_congr Iff.rfl (fun hty => ?_) fun _ => rfl
    rw [(firstChannel_notification node hty).1]
  case field =>
    refine if_ctx_congr Iff.rfl (fun hty => ?_) fun _ => rfl
    rw [(configString_condition node hty).1, Option.getD_some]
  case operator =>
    refine if_ctx_congr Iff.rfl (fun hty => ?_) fun _ => rfl
    rw [(configString_condition node hty).2.1, Option.getD_some]
  case value =>
    refine if_ctx_congr Iff.rfl (fun hty => ?_) fun _ => rfl
    rw [(configString_condition node hty).2.2, Option.getD_some]

/-! ### Settled after one pass -/

/-- What comes back is settled. -/
theorem settledNode_resaveNode (node : BuilderNodeDraft) : SettledNode (resaveNode node) := by
  -- each field is written for its own type of node only, and trimmed there
  rw [resaveNode_eq]
  constructor
  case id => exact trim_trim _
  case name =>
    show trim (ite _ _ _) = ite _ _ _
    split
    · exact (trim_buildDefaultNodeName ..).1
    · exact trim_trim _
  case name_ne =>
    show ite _ _ _ ≠ ""
    split
    · exact (trim_buildDefaultNodeName ..).2
    · assumption
  case duration =>
    by_cases hty : node.type = .delay
    · simp only [hty, if_true, trim_trim]
    · simp only [if_neg hty]
  case templateId =>
    by_cases hty : node.type = .notification
    · simp only [hty, if_true]
      rw [← normalizeImportedTemplateId_trim]
      exact normalizeImportedTemplateId_idem _
    · simp only [if_neg hty]
  case channel =>
    by_cases hty : node.type = .notification
    · simp only [hty, if_true]
      exact orElse_ne (by decide)
    · simp only [if_neg hty]
  case field =>
    by_cases hty : node.type = .condition
    · simp only [hty, if_true]
      exact ⟨trim_orElse (by decide), orElse_ne (by decide)⟩
    · simp only [if_neg hty]
  case operator =>
    by_cases hty : node.type = .condition
    · simp only [hty, if_true]
      exact ⟨trim_orElse (by decide), orElse_ne (by decide)⟩
    · simp only [if_neg hty]
  case value =>
    by_cases hty : node.type = .condition
    · simp only [hty, if_true, trim_trim]
    · simp only [if_neg hty]

/-- What is settled comes back as it is. -/
theorem SettledNode.resaveNode_eq_self {node : BuilderNodeDraft} (h : SettledNode node) :
    resaveNode node = node := by
  have hname : trim node.name ≠ "" := by
    rw [h.name]
    exact h.name_ne
  -- field by field: a field of another type of node is cleared, the others are trimmed
  rw [resaveNode_eq]
  apply BuilderNodeDraft.ext
  case id => exact h.id
  case name => exact (if_neg hname).trans h.name
  case type => rfl
  case duration =>
    show ite _ _ _ = _
    have := h.duration
    split at this
    · next hty => rw [if_pos hty, this]
    · next hty => rw [if_neg hty, this]
  case templateId =>
    show ite _ _ _ = _
    have := h.templateId
    split at this
    · next hty => rw [if_pos hty, this]
    · next hty => rw [if_neg hty, this]
  case channel =>
    show ite _ _ _ = _
    have := h.channel
    split at this
    · next hty => rw [if_pos hty, orElse_eq _ this]
    · next hty => rw [if_neg hty, this]
  case field =>
    show ite _ _ _ = _
    have := h.field
    split at this
    · next hty => rw [if_pos hty, this.1, orElse_eq _ this.2]
    · next hty => rw [if_neg hty, this]
  case operator =>
    show ite _ _ _ = _
    have := h.operator
    split at this
    · next hty => rw [if_pos hty, this.1, orElse_eq _ this.2]
    · next hty => rw [if_neg hty, this]
  case value =>
    show ite _ _ _ = _
    have := h.value
    split at this
    · next hty => rw [if_pos hty, this]
    · next hty => rw [if_neg hty, this]

/-- A draft that has nothing to be trimmed or filled in, and a trigger. -/
structure Settled (draft : WorkflowBuilderDraft) : Prop where
  event : trim draft.triggerEvent = draft.triggerEvent
  node : ∀ node ∈ draft.nodes, SettledNode node
  edge : ∀ edge ∈ draft.edges, resaveEdge edge = edge
  trigger : (draft.nodes.any fun node => node.type == .trigger) = true

/-- What is loaded: the builder has written an array of edges, so it can open what it wrote. -/
def resaved (draft : WorkflowBuilderDraft) : WorkflowBuilderDraft :=
  withTrigger ⟨trim draft.triggerEvent, draft.nodes.map resaveNode, draft.edges.map resaveEdge⟩

theorem resave_eq (draft : WorkflowBuilderDraft) : resave draft = some (resaved draft) := by
  unfold resave builderDraftFromDefinition definitionDraft workflowDefinitionFromBuilderDraft
  simp only [Option.map_some, Definition.edges, Option.getD_some, List.map_map]
  rfl

theorem resaveEdge_idem (edge : BuilderEdgeDraft) :
    resaveEdge (resaveEdge edge) = resaveEdge edge := by
  simp only [resaveEdge, trim_trim]

/-- The trigger that is put in front is settled. -/
theorem settledNode_trigger :
    SettledNode { createNodeDraft .trigger none "" with id := "trigger_1" } := by
  constructor <;> decide

/-- What was loaded is settled once it is saved. -/
theorem settled_withTrigger {draft : WorkflowBuilderDraft}
    (hevent : trim draft.triggerEvent = draft.triggerEvent)
    (hnode : ∀ node ∈ draft.nodes, SettledNode node)
    (hedge : ∀ edge ∈ draft.edges, resaveEdge edge = edge) : Settled (withTrigger draft) := by
  unfold withTrigger
  split
  · next htrigger => exact ⟨hevent, hnode, hedge, htrigger⟩
  refine ⟨hevent, ?_, ?_, rfl⟩
  · intro node hmem
    rcases List.mem_cons.mp hmem with rfl | hmem
    · exact settledNode_trigger
    · exact hnode node hmem
  · intro edge hmem
    rcases List.mem_append.mp hmem with hnew | hold
    · rw [Option.mem_toList, Option.map_eq_some_iff] at hnew
      obtain ⟨first, hfirst, rfl⟩ := hnew
      have hid := (hnode first (List.mem_of_mem_head? hfirst)).id
      show BuilderEdgeDraft.mk (trim "trigger_1") (trim first.id) (trim "") = _
      rw [hid]
      rfl
    · exact hedge edge hold

theorem settled_resaved (draft : WorkflowBuilderDraft) : Settled (resaved draft) := by
  apply settled_withTrigger
  · exact trim_trim _
  · intro node hmem
    obtain ⟨old, _, rfl⟩ := List.mem_map.mp hmem
    exact settledNode_resaveNode old
  · intro edge hmem
    obtain ⟨old, _, rfl⟩ := List.mem_map.mp hmem
    exact resaveEdge_idem old

/-- What is settled comes back as it is. -/
theorem Settled.resave_eq_self {draft : WorkflowBuilderDraft} (h : Settled draft) :
    resave draft = some draft := by
  have hnodes : draft.nodes.map resaveNode = draft.nodes :=
    (List.map_congr_left fun node hmem => (h.node node hmem).resaveNode_eq_self).trans
      (List.map_id _)
  have hedges : draft.edges.map resaveEdge = draft.edges :=
    (List.map_congr_left fun edge hmem => h.edge edge hmem).trans (List.map_id _)
  rw [resave_eq, resaved, hnodes, hedges, h.event]
  exact congrArg some (if_pos h.trigger)

/-- **A draft settles after one pass**: from then on, saving and loading it any number of times
gives the same draft, the same definition and the same signature. -/
theorem resave_settles (draft : WorkflowBuilderDraft) :
    ∃ settled, resave draft = some settled ∧ resave settled = some settled ∧
      ∀ n : ℕ, ∃ again, (fun loaded => loaded.bind resave)^[n] (some settled) = some again ∧
        workflowDefinitionFromBuilderDraft again = workflowDefinitionFromBuilderDraft settled ∧
        ∀ name description : String,
          buildSaveSignature (stringifyDraft again) name description =
            buildSaveSignature (stringifyDraft settled) name description := by
  have hfixed : resave (resaved draft) = some (resaved draft) :=
    (settled_resaved draft).resave_eq_self
  refine ⟨_, resave_eq draft, hfixed, fun n => ⟨resaved draft, ?_, rfl, fun _ _ => rfl⟩⟩
  exact Function.iterate_fixed hfixed n

end Iwifunni.Web
