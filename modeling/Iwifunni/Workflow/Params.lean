/-
Iwifunni/Workflow/Params.lean

From the input of `Create` and `Update` to the parameters of a statement
(`service.go`).

A workflow is either a definition or, in the older form, a list of channels with
a template for each.  A definition is stored together with the channels and
templates its notification nodes mention.
-/
import Iwifunni.Workflow.Service

namespace Iwifunni.Workflow

open Go Db

/-! ### Inputs and parameters -/

structure CreateInput where
  environmentID : UUID
  key : String
  name : String
  description : Option String
  channels : List String
  templateIDs : List (String × String)
  definition : Option Definition

structure UpdateInput where
  id : UUID
  environmentID : UUID
  key : String
  name : String
  description : Option String
  channels : List String
  templateIDs : List (String × String)
  isActive : Bool
  definition : Option Definition

/-- The parameters `CreateWorkflow` and `UpdateWorkflow` have in common. -/
structure WorkflowParams where
  id : UUID
  environmentID : UUID
  key : String
  name : String
  description : Option String
  channels : List String
  templateIDs : Json

/-- The parameters of `CreateWorkflowDefinition` and of `UpdateWorkflowDefinition`,
which have the same columns. -/
structure WorkflowDefinitionParams extends WorkflowParams where
  status : WorkflowStatus
  version : Int32
  triggerEvent : Option String
  definitionJson : Json

/-- A row of `workflows`. -/
structure WorkflowRow extends WorkflowRecord where
  description : Option String
  isActive : Bool
  version : Int32

/-! ### Normalization -/

/-- `workflowKeyPattern`. -/
def isWorkflowKey (key : String) : Bool :=
  !key.toList.isEmpty && key.toList.all fun c => c.isAlphanum || c == '_' || c == '-'

/-- The checks on key and name both forms share. -/
def normalizeKeyAndName (key name : String) : Except GoError (String × String) :=
  let normalizedKey := trimSpace key
  let normalizedName := trimSpace name
  if normalizedKey = "" ∨ normalizedName = "" ∨ isWorkflowKey normalizedKey = false then
    .error .invalidWorkflow
  else .ok (normalizedKey, normalizedName)

/-- A `map[string]string` as JSON. -/
def stringMapJson (m : List (String × String)) : Json :=
  .obj (m.map fun f => (f.1, .str f.2))

/-- `normalizeTemplateIDs`, up to the encoding. -/
def normalizeTemplateIDs (channels : List String) :
    List (String × String) → List (String × String) →
      Except GoError (List (String × String))
  | normalized, [] => .ok normalized
  | normalized, (channel, templateID) :: rest =>
      let normalizedChannel := toLower (trimSpace channel)
      let normalizedTemplateID := trimSpace templateID
      if normalizedChannel ∉ channels then .error .invalidWorkflow
      else if normalizedTemplateID = "" then normalizeTemplateIDs channels normalized rest
      else if UUID.parse normalizedTemplateID = none then .error .invalidWorkflow
      else normalizeTemplateIDs channels
        (Json.insert normalized normalizedChannel normalizedTemplateID) rest

/-- `normalizeWorkflowInput`, with the identifiers of the row. -/
def buildParams (id environmentID : UUID) (key name : String) (description : Option String)
    (channels : List String) (templateIDs : List (String × String)) :
    Except GoError WorkflowParams := do
  let (normalizedKey, normalizedName) ← normalizeKeyAndName key name
  let normalizedChannels ← normalizeChannels channels
  let normalizedTemplateIDs ← normalizeTemplateIDs normalizedChannels [] templateIDs
  return {
    id := id
    environmentID := environmentID
    key := normalizedKey
    name := normalizedName
    description := description.bind trimOptional
    channels := normalizedChannels
    templateIDs := stringMapJson normalizedTemplateIDs }

/-! ### What a definition mentions -/

/-- The config of a notification node, if it can be read. -/
def notificationConfig (node : Node) : Option NotificationConfig :=
  if node.type = .notification then
    (Json.unmarshal node.config decodeNotificationConfig).toOption
  else none

/-- The configs of the notification nodes. -/
def notificationConfigs (definition : Definition) : List NotificationConfig :=
  definition.nodes.filterMap notificationConfig

/-- Add a channel that is not there yet. -/
def addChannel (result : List String) (ch : String) : List String :=
  if ch = "" ∨ ch ∈ result then result else result ++ [ch]

/-- `channelsFromDefinition`. -/
def channelsFromDefinition (definition : Definition) : List String :=
  (notificationConfigs definition).foldl
    (fun result cfg => cfg.channels.foldl addChannel result) []

/-- Link a channel that is not linked yet. -/
def linkChannel (templateID : String) (result : List (String × String)) (ch : String) :
    List (String × String) :=
  if ch = "" ∨ (Json.lookup result ch).isSome then result else Json.insert result ch templateID

/-- The loop of `templateIDsFromDefinition`. -/
def templateIDsFromDefinition (definition : Definition) : List (String × String) :=
  (notificationConfigs definition).foldl
    (fun result cfg =>
      if cfg.templateID = "" then result
      else cfg.channels.foldl (linkChannel cfg.templateID) result) []

/-- `normalizeWorkflowDefinitionInput`, with the columns taken from the definition. -/
def buildDefinitionParams (id environmentID : UUID) (version : Int32) (key name : String)
    (description : Option String) (definition : Definition) :
    Except GoError WorkflowDefinitionParams := do
  let (normalizedKey, normalizedName) ← normalizeKeyAndName key name
  validateDefinition definition
  return {
    id := id
    environmentID := environmentID
    key := normalizedKey
    name := normalizedName
    description := description.bind trimOptional
    channels := channelsFromDefinition definition
    templateIDs := stringMapJson (templateIDsFromDefinition definition)
    status := .active
    version := version
    triggerEvent := trimOptional definition.trigger.event
    definitionJson := marshalDefinition definition }

/-! ### The four builders -/

/-- `buildCreateParams`. -/
def buildCreateParams (id : UUID) (input : CreateInput) : Except GoError WorkflowParams :=
  buildParams id input.environmentID input.key input.name input.description input.channels
    input.templateIDs

/-- `buildUpdateParams`, without `IsActive`. -/
def buildUpdateParams (input : UpdateInput) : Except GoError WorkflowParams :=
  buildParams input.id input.environmentID input.key input.name input.description
    input.channels input.templateIDs

/-- `buildCreateDefinitionParams`. -/
def buildCreateDefinitionParams (id : UUID) (input : CreateInput) (definition : Definition) :
    Except GoError WorkflowDefinitionParams :=
  buildDefinitionParams id input.environmentID 1 input.key input.name input.description
    definition

/-- `buildUpdateDefinitionParams`. -/
def buildUpdateDefinitionParams (current : WorkflowRow) (input : UpdateInput)
    (definition : Definition) : Except GoError WorkflowDefinitionParams :=
  buildDefinitionParams current.id current.environmentID current.version input.key input.name
    input.description definition

/-- What is stored with a definition. -/
theorem buildDefinitionParams_ok {id environmentID : UUID} {version : Int32}
    {key name : String} {description : Option String} {definition : Definition}
    {arg : WorkflowDefinitionParams}
    (h : buildDefinitionParams id environmentID version key name description definition
      = .ok arg) :
    validateDefinition definition = .ok () ∧
      arg.channels = channelsFromDefinition definition ∧
      arg.templateIDs = stringMapJson (templateIDsFromDefinition definition) ∧
      arg.definitionJson = marshalDefinition definition ∧ arg.status = .active := by
  unfold buildDefinitionParams at h
  rcases hk : normalizeKeyAndName key name with e | ⟨normalizedKey, normalizedName⟩
  · rw [hk] at h
    cases h
  rw [hk] at h
  dsimp only [except_ok_bind] at h
  rcases hv : validateDefinition definition with e | u
  · rw [hv] at h
    cases h
  · rw [hv] at h
    cases h
    exact ⟨rfl, rfl, rfl, rfl, rfl⟩

end Iwifunni.Workflow
