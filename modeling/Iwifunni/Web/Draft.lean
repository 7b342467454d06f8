/-
Iwifunni/Web/Draft.lean

The drafts of the workflow builder (`features/workflows/draft`).

The builder does not edit a definition but a draft: a flat record for each node,
with the fields of all types of nodes.

    definition  --builderDraftFromDefinition-->  draft
    definition  <--workflowDefinitionFromBuilderDraft--  draft

A draft has no place for the payload of a definition, nor for the keys of a config
the builder does not know.  What it has a place for is trimmed on the way back.

Nodes, edges and definitions are those of the backend: both sides exchange them as
JSON, where an absent branch and an empty one are written alike.
-/
import Mathlib.Data.List.DropRight
import Iwifunni.Workflow.Definition

namespace Iwifunni.Web

open Go Workflow

/-! ### Strings -/

/-- What `String.prototype.trim` takes for white space. -/
def isWhiteSpace (c : Char) : Bool :=
  (0x09 ≤ c.toNat && c.toNat ≤ 0x0d) || (0x2000 ≤ c.toNat && c.toNat ≤ 0x200a) ||
    c.toNat ∈ [0x20, 0xa0, 0x1680, 0x2028, 0x2029, 0x202f, 0x205f, 0x3000, 0xfeff]

/-- `String.prototype.trim`. -/
def trim (s : String) : String :=
  String.ofList ((s.toList.dropWhile isWhiteSpace).rdropWhile isWhiteSpace)

/-- `a || b`. -/
def orElse (a b : String) : String := if a = "" then b else a

/-- Trimming leaves nothing to trim. -/
@[simp] theorem trim_trim (s : String) : trim (trim s) = trim s := by
  have hhead : ∀ cs : List Char, (cs.dropWhile isWhiteSpace).rdropWhile isWhiteSpace
      = ((cs.dropWhile isWhiteSpace).rdropWhile isWhiteSpace).dropWhile isWhiteSpace := by
    intro cs
    symm
    rw [List.dropWhile_eq_self_iff]
    intro hpos hspace
    -- a first character that is kept is the first one that was not dropped
    have hkept := List.rdropWhile_prefix isWhiteSpace (l := cs.dropWhile isWhiteSpace)
    have hne : cs.dropWhile isWhiteSpace ≠ [] := by
      intro hnil
      rw [hnil] at hpos
      exact absurd hpos (by simp)
    have hfirst := List.dropWhile_get_zero_not isWhiteSpace cs (List.length_pos_of_ne_nil hne)
    apply hfirst
    rw [← hspace]
    congr 1
    exact (hkept.getElem hpos).symm
  show String.ofList (((String.ofList _).toList.dropWhile isWhiteSpace).rdropWhile _) = _
  rw [String.toList_ofList, ← hhead, List.rdropWhile_idempotent, trim]

/-! ### Nodes -/

/-- `WorkflowNodeType`. -/
abbrev WorkflowNodeType : Type := StepType

/-- `BuilderNodeDraft`. -/
structure BuilderNodeDraft where
  id : String
  name : String
  type : WorkflowNodeType
  duration : String
  templateId : String
  channel : String
  field : String
  operator : String
  value : String
  deriving DecidableEq

/-- `BuilderEdgeDraft`. -/
structure BuilderEdgeDraft where
  source : String
  target : String
  branch : String
  deriving DecidableEq

/-- `WorkflowBuilderDraft`. -/
structure WorkflowBuilderDraft where
  triggerEvent : String
  nodes : List BuilderNodeDraft
  edges : List BuilderEdgeDraft

/-- `buildDefaultNodeName`. -/
def buildDefaultNodeName (type : WorkflowNodeType) (channel : String) : String :=
  match type with
  | .trigger => "Test trigger"
  | .delay => "Delay step"
  | .condition => "Condition step"
  | .notification =>
      if channel = "sms" then "SMS notification"
      else if channel = "push" then "Push notification"
      else "Email notification"
  | .other _ _ => "Workflow step"

/-- The values `Math.random().toString(36)` has during one action, each used once. -/
abbrev Random : Type := ℕ → String

/-- `s.slice(start, stop)`. -/
def slice (s : String) (start stop : ℕ) : String :=
  String.ofList ((s.toList.take stop).drop start)

/-- `createNodeDraft`, with the random number it uses. -/
def createNodeDraft (type : WorkflowNodeType) (channel : Option String) (random : String) :
    BuilderNodeDraft where
  id :=
    match type with
    | .trigger => "trigger_1"
    | .notification => orElse (channel.getD "") "email" ++ "_" ++ slice random 2 6
    | _ => type.toString ++ "_" ++ slice random 2 6
  name := buildDefaultNodeName type (channel.getD "")
  type := type
  duration := "5m"
  templateId := ""
  channel := if type = .notification then orElse (channel.getD "") "email" else ""
  field := "data.plan"
  operator := "equals"
  value := "pro"

/-! ### `normalize.ts` -/

/-- The characters of a UUID, one position after the other. -/
def uuidPattern : List (Char → Bool) :=
  let hex (c : Char) : Bool := c.isDigit || (c.toLower ∈ ['a', 'b', 'c', 'd', 'e', 'f'])
  let dash (c : Char) : Bool := c == '-'
  let version (c : Char) : Bool := c ∈ ['1', '2', '3', '4', '5']
  let variant (c : Char) : Bool := c.toLower ∈ ['8', '9', 'a', 'b']
  List.replicate 8 hex ++ [dash] ++ List.replicate 4 hex ++ [dash] ++
    [version] ++ List.replicate 3 hex ++ [dash] ++
    [variant] ++ List.replicate 3 hex ++ [dash] ++ List.replicate 12 hex

/-- `uuidPattern.test`. -/
def isUuid (s : String) : Bool :=
  s.toList.length == uuidPattern.length && (s.toList.zipWith (fun c p => p c) uuidPattern).all id

/-- A value that is a string. -/
def asString : Option Json → Option String
  | some (.str s) => some s
  | _ => none

/-- `normalizeImportedTemplateId`. -/
def normalizeImportedTemplateId (value : Option Json) : String :=
  let templateId := trim ((asString value).getD "")
  if isUuid templateId then templateId else ""

/-- `normalizeNodeDraftForType`. -/
def normalizeNodeDraftForType (draft : BuilderNodeDraft) (type : WorkflowNodeType) :
    BuilderNodeDraft where
  id := draft.id
  name := draft.name
  type := type
  duration := if type = .delay then draft.duration else "5m"
  templateId := if type = .notification then draft.templateId else ""
  channel := if type = .notification then orElse draft.channel "email" else ""
  field := if type = .condition then orElse draft.field "data.plan" else "data.plan"
  operator := if type = .condition then orElse draft.operator "equals" else "equals"
  value := if type = .condition then draft.value else "pro"

/-! ### From a definition -/

/-- The properties of a config. -/
def configFields : Option Json → List (String × Json)
  | some (.obj fields) => fields
  | _ => []

/-- `config[key]`. -/
def configValue (config : Option Json) (key : String) : Option Json :=
  Json.lookup (configFields config) key

/-- `config[key]` if it is a string. -/
def configString (config : Option Json) (key : String) : Option String :=
  asString (configValue config key)

/-- `config.channels[0]`, if it is a string. -/
def firstChannel (config : Option Json) : Option String :=
  match configValue config "channels" with
  | some (.arr (first :: _)) => asString (some first)
  | _ => none

/-- The name a config gives to its node, if it gives one. -/
def configName (config : Option Json) : Option String :=
  ((configString config "name").map trim).filter (· != "")

/-- The draft of a node. -/
def nodeDraft (node : Node) : BuilderNodeDraft :=
  let channel := (firstChannel node.config).getD ""
  normalizeNodeDraftForType
    { id := node.id
      name := (configName node.config).getD (buildDefaultNodeName node.type channel)
      type := node.type
      duration := (configString node.config "duration").getD "5m"
      templateId := normalizeImportedTemplateId (configValue node.config "template_id")
      channel := channel
      field := (configString node.config "field").getD "data.plan"
      operator := (configString node.config "operator").getD "equals"
      value := (configString node.config "value").getD "" }
    node.type

/-- `createDefaultWorkflowBuilderDraft`. -/
def createDefaultWorkflowBuilderDraft : WorkflowBuilderDraft where
  triggerEvent := "user.signup"
  nodes := [{ createNodeDraft .trigger none "" with id := "trigger_1", name := "Test trigger" }]
  edges := []

/-- Put a trigger before the nodes of a draft that has none. -/
def withTrigger (draft : WorkflowBuilderDraft) : WorkflowBuilderDraft :=
  if draft.nodes.any fun node => node.type == .trigger then draft
  else { draft with
    nodes := { createNodeDraft .trigger none "" with id := "trigger_1" } :: draft.nodes
    edges := (draft.nodes.head?.map fun node => ⟨"trigger_1", node.id, ""⟩).toList ++ draft.edges }

/-- The draft of a definition, whose edges are an array. -/
def definitionDraft (definition : Definition) : WorkflowBuilderDraft :=
  withTrigger
    { triggerEvent := definition.trigger.event
      nodes := definition.nodes.map nodeDraft
      edges := definition.edges.map fun edge => ⟨edge.source, edge.target, edge.branch⟩ }

/-- `builderDraftFromDefinition`: it throws if the edges are `null`, for there is no `map` to
call. -/
def builderDraftFromDefinition : Option Definition → Option WorkflowBuilderDraft
  | none => some createDefaultWorkflowBuilderDraft
  | some definition => definition.edgeSlice.map fun _ => definitionDraft definition

/-! ### To a definition -/

/-- The name of a draft, as a property. -/
def namedConfig (node : BuilderNodeDraft) : List (String × Json) :=
  if trim node.name = "" then [] else [("name", .str (trim node.name))]

/-- There is one property at most. -/
theorem namedConfig_cases (node : BuilderNodeDraft) :
    namedConfig node = [] ∨ ∃ v, namedConfig node = [("name", v)] := by
  unfold namedConfig
  split
  · exact Or.inl rfl
  · exact Or.inr ⟨_, rfl⟩

/-- The config of a node without settings. -/
def bareConfig (node : BuilderNodeDraft) : Option Json :=
  if namedConfig node = [] then none else some (.obj (namedConfig node))

/-- The config `workflowDefinitionFromBuilderDraft` makes of a draft. -/
def draftConfig (node : BuilderNodeDraft) : Option Json :=
  match node.type with
  | .delay => some (.obj (namedConfig node ++ [("duration", .str (trim node.duration))]))
  | .notification => some (.obj (namedConfig node ++
      [("template_id", .str (trim node.templateId)),
        ("channels", .arr (if node.channel = "" then [] else [.str node.channel]))]))
  | .condition => some (.obj (namedConfig node ++
      [("field", .str (trim node.field)), ("operator", .str (trim node.operator)),
        ("value", .str (trim node.value))]))
  | .trigger | .other _ _ => bareConfig node

/-- `workflowDefinitionFromBuilderDraft`. -/
def workflowDefinitionFromBuilderDraft (draft : WorkflowBuilderDraft) : Definition where
  trigger := ⟨trim draft.triggerEvent⟩
  nodes := draft.nodes.map fun node => ⟨trim node.id, node.type, draftConfig node⟩
  edgeSlice :=
    some (draft.edges.map fun edge => ⟨trim edge.source, trim edge.target, trim edge.branch⟩)

@[simp] theorem edges_workflowDefinitionFromBuilderDraft (draft : WorkflowBuilderDraft) :
    (workflowDefinitionFromBuilderDraft draft).edges =
      draft.edges.map fun edge => ⟨trim edge.source, trim edge.target, trim edge.branch⟩ := rfl

end Iwifunni.Web
