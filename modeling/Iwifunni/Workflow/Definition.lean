/-
Iwifunni/Workflow/Definition.lean

Workflow definitions (`models.go`, `validator.go`): a graph of typed nodes, its
JSON form, and `ValidateDefinition`.

The ids of a definition are compared in two ways.  The validator trims them;
the engine compares them as they are:

    validator   trim source, trim target, trim node id (but not in the search
                for a start node)
    engine      node.ID == stepID,  edge.Source == node.ID

`parseDefinition_marshalDefinition` says that what is stored is what was
validated.
-/
import Iwifunni.Go.Duration
import Iwifunni.Types

namespace Iwifunni.Workflow

open Go

/-! ### Nodes and edges -/

/-- `WorkflowStepType`: the four types the engine knows, and any other string a
document may contain. -/
inductive StepType
  | trigger
  | notification
  | delay
  | condition
  | other (name : String)
      (unknown : name ∉ ["trigger", "notification", "delay", "condition"])
  deriving DecidableEq

namespace StepType

def toString : StepType → String
  | trigger => "trigger"
  | notification => "notification"
  | delay => "delay"
  | condition => "condition"
  | other name _ => name

def ofString (s : String) : StepType :=
  if s = "trigger" then trigger
  else if s = "notification" then notification
  else if s = "delay" then delay
  else if s = "condition" then condition
  else if h : s ∉ ["trigger", "notification", "delay", "condition"] then other s h
  else trigger

@[simp] theorem ofString_toString (t : StepType) : ofString t.toString = t := by
  cases t with
  | other name h =>
      have h' := h
      simp only [List.mem_cons, List.not_mem_nil, or_false, not_or] at h'
      simp only [toString, ofString, h'.1, h'.2.1, h'.2.2.1, h'.2.2.2, if_false]
      exact dif_pos h
  | _ => rfl

end StepType

structure Trigger where
  event : String

structure Node where
  id : String
  type : StepType
  config : Option Json

structure Edge where
  source : String
  target : String
  branch : String
  deriving DecidableEq

structure Definition where
  trigger : Trigger
  nodes : List Node
  /-- `Edges`: Go's nil slice, which is stored as `null`, is `none`. -/
  edgeSlice : Option (List Edge)
  payload : Option Json := none

/-- The edges, as a loop over the slice meets them. -/
def Definition.edges (d : Definition) : List Edge := d.edgeSlice.getD []

structure NotificationConfig where
  templateID : String
  channels : List String

structure DelayConfig where
  duration : String

structure ConditionConfig where
  field : String
  operator : String
  /-- `any`; a missing or `null` value is Go's nil. -/
  value : Json

/-! ### Decoding -/

def decodeNotificationConfig (v : Json) : Except DecodeError NotificationConfig := do
  let fs ← v.structFields "workflow.NotificationConfig"
  let templateID ← Json.field fs "template_id" "" Json.toStr
  let channels ← Json.field fs "channels" [] fun _ => Json.toStrList
  return ⟨templateID, channels⟩

def decodeDelayConfig (v : Json) : Except DecodeError DelayConfig := do
  let fs ← v.structFields "workflow.DelayConfig"
  let duration ← Json.field fs "duration" "" Json.toStr
  return ⟨duration⟩

def decodeConditionConfig (v : Json) : Except DecodeError ConditionConfig := do
  let fs ← v.structFields "workflow.ConditionConfig"
  let field ← Json.field fs "field" "" Json.toStr
  let operator ← Json.field fs "operator" "" Json.toStr
  let value ← Json.field fs "value" .null fun _ v => .ok v
  return ⟨field, operator, value⟩

def decodeTrigger (v : Json) : Except DecodeError Trigger := do
  let fs ← v.structFields "workflow.Trigger"
  let event ← Json.field fs "event" "" Json.toStr
  return ⟨event⟩

def decodeNode (v : Json) : Except DecodeError Node := do
  let fs ← v.structFields "workflow.Node"
  let id ← Json.field fs "id" "" Json.toStr
  let type ← Json.field fs "type" "" Json.toStr
  let config ← Json.field fs "config" none fun _ v => .ok (some v)
  return ⟨id, .ofString type, config⟩

def decodeEdge (v : Json) : Except DecodeError Edge := do
  let fs ← v.structFields "workflow.Edge"
  let source ← Json.field fs "source" "" Json.toStr
  let target ← Json.field fs "target" "" Json.toStr
  let branch ← Json.field fs "branch" "" Json.toStr
  return ⟨source, target, branch⟩

/-- Decode the elements of a slice. -/
def decodeAll (decode : Json → Except DecodeError α) : List Json → Except DecodeError (List α)
  | [] => .ok []
  | v :: vs => do
      let a ← decode v
      let as ← decodeAll decode vs
      return a :: as

/-- A slice, nil for `null`. -/
def decodeSlice (type : String) (decode : Json → Except DecodeError α) :
    Json → Except DecodeError (Option (List α))
  | .null => .ok none
  | .arr vs => (decodeAll decode vs).map some
  | v => .error (v.typeError type)

def decodeDefinition (v : Json) : Except DecodeError Definition := do
  let fs ← v.structFields "workflow.Definition"
  let trigger ← Json.field fs "trigger" ⟨""⟩ fun _ => decodeTrigger
  let nodes ← Json.field fs "nodes" none fun _ => decodeSlice "[]workflow.Node" decodeNode
  let edges ← Json.field fs "edges" none fun _ => decodeSlice "[]workflow.Edge" decodeEdge
  let payload ← Json.field fs "payload" none fun _ v => .ok (some v)
  -- without nodes a definition is refused, so a nil slice of them is not kept apart
  return ⟨trigger, nodes.getD [], edges, payload⟩

/-- `parseDefinition`: an empty column, `{}` and `null` hold no definition. -/
def parseDefinition (raw : Option Json) : Except DecodeError (Option Definition) :=
  match raw with
  | none => .ok none
  | some (.obj []) => .ok none
  | some .null => .ok none
  | some v => (decodeDefinition v).map some

/-! ### Encoding -/

/-- A field that is left out when it is empty. -/
def optionalField (name : String) (value : Option Json) : List (String × Json) :=
  (value.map fun v => (name, v)).toList

def nodeJson (n : Node) : Json :=
  .obj ([("id", .str n.id), ("type", .str n.type.toString)] ++ optionalField "config" n.config)

def edgeJson (e : Edge) : Json :=
  .obj ([("source", .str e.source), ("target", .str e.target)] ++
    optionalField "branch" (if e.branch = "" then none else some (.str e.branch)))

/-- A slice of edges: `null` if it is nil. -/
def edgesJson : Option (List Edge) → Json
  | none => .null
  | some edges => .arr (edges.map edgeJson)

/-- `marshalDefinition`. -/
def marshalDefinition (d : Definition) : Json :=
  .obj ([("trigger", .obj [("event", .str d.trigger.event)]),
    ("nodes", .arr (d.nodes.map nodeJson)), ("edges", edgesJson d.edgeSlice)] ++
    optionalField "payload" d.payload)

theorem decodeAll_map {α : Type} {decode : Json → Except DecodeError α} {encode : α → Json}
    (h : ∀ a, decode (encode a) = .ok a) (as : List α) :
    decodeAll decode (as.map encode) = .ok as := by
  induction as with
  | nil => rfl
  | cons a as ih =>
      simp only [List.map_cons, decodeAll, h a, ih]
      rfl

theorem decodeSlice_map {α : Type} {decode : Json → Except DecodeError α} {encode : α → Json}
    (type : String) (h : ∀ a, decode (encode a) = .ok a) (as : List α) :
    decodeSlice type decode (.arr (as.map encode)) = .ok (some as) := by
  rw [decodeSlice, decodeAll_map h]
  rfl

/-- The Go field names of definitions are distinct up to case. -/
theorem equalFold_fieldNames :
    ["trigger", "nodes", "edges", "payload", "id", "type", "config", "source", "target",
      "branch"].Pairwise fun a b => equalFold a b = false ∧ equalFold b a = false := by
  decide

theorem decodeTrigger_json (t : Trigger) :
    decodeTrigger (.obj [("event", .str t.event)]) = .ok t := by
  simp only [decodeTrigger, Json.structFields, except_ok_bind, Json.field_cons_self,
    Json.toStr, Json.field_nil]
  rfl

/-- A node is read back. -/
theorem decodeNode_nodeJson (n : Node) : decodeNode (nodeJson n) = .ok n := by
  obtain ⟨id, type, config⟩ := n
  have hne := equalFold_fieldNames
  simp only [List.pairwise_cons, List.mem_cons, List.not_mem_nil, or_false, forall_eq_or_imp,
    forall_eq] at hne
  cases config <;>
    simp only [decodeNode, nodeJson, optionalField, Option.map_none, Option.map_some,
      Option.toList_none, Option.toList_some, List.cons_append, List.nil_append,
      Json.structFields, except_ok_bind, Json.field_cons_self, Json.field_nil, Json.toStr,
      Json.field_cons_of_ne, hne, StepType.ofString_toString] <;>
    rfl

/-- An edge is read back. -/
theorem decodeEdge_edgeJson (e : Edge) : decodeEdge (edgeJson e) = .ok e := by
  obtain ⟨source, target, branch⟩ := e
  have hne := equalFold_fieldNames
  simp only [List.pairwise_cons, List.mem_cons, List.not_mem_nil, or_false, forall_eq_or_imp,
    forall_eq] at hne
  by_cases h : branch = ""
  · subst h
    simp only [decodeEdge, edgeJson, if_true, optionalField, Option.map_none,
      Option.toList_none, List.cons_append, List.nil_append, Json.structFields,
      except_ok_bind, Json.field_cons_self, Json.field_nil, Json.toStr, Json.field_cons_of_ne,
      hne]
    rfl
  · simp only [decodeEdge, edgeJson, h, if_false, optionalField, Option.map_some,
      Option.toList_some, List.cons_append, List.nil_append, Json.structFields,
      except_ok_bind, Json.field_cons_self, Json.field_nil, Json.toStr, Json.field_cons_of_ne,
      hne]
    rfl

theorem decodeSlice_edgesJson (type : String) (edges : Option (List Edge)) :
    decodeSlice type decodeEdge (edgesJson edges) = .ok edges := by
  cases edges with
  | none => rfl
  | some edges => exact decodeSlice_map type decodeEdge_edgeJson edges

/-- **A definition is read back**, its edges null or not. -/
theorem decodeDefinition_marshalDefinition (d : Definition) :
    decodeDefinition (marshalDefinition d) = .ok d := by
  obtain ⟨trigger, nodes, edges, payload⟩ := d
  have hne := equalFold_fieldNames
  simp only [List.pairwise_cons, List.mem_cons, List.not_mem_nil, or_false, forall_eq_or_imp,
    forall_eq] at hne
  cases payload <;>
    simp only [decodeDefinition, marshalDefinition, optionalField, Option.map_none,
      Option.map_some, Option.toList_none, Option.toList_some, List.cons_append,
      List.nil_append, Json.structFields, except_ok_bind, Json.field_cons_self,
      Json.field_nil, Json.field_cons_of_ne, hne, decodeTrigger_json, decodeSlice_edgesJson,
      decodeSlice_map _ decodeNode_nodeJson] <;>
    rfl

/-- **What is stored is what was validated**: a definition is read back from its
JSON form as it was. -/
theorem parseDefinition_marshalDefinition (d : Definition) :
    parseDefinition (some (marshalDefinition d)) = .ok (some d) := by
  have h : parseDefinition (some (marshalDefinition d))
      = (decodeDefinition (marshalDefinition d)).map some := rfl
  rw [h, decodeDefinition_marshalDefinition]
  rfl

/-! ### Validation -/

/-- `normalizeChannels`. -/
def normalizeChannels (channels : List String) : Except GoError (List String) :=
  collect [] channels
where
  /-- The loop, with the result so far. -/
  collect (result : List String) : List String → Except GoError (List String)
    | [] => if result = [] then .error .invalidWorkflow else .ok result
    | c :: cs =>
        let normalized := toLower (trimSpace c)
        if normalized ∈ ["email", "sms", "push"] then
          if normalized ∈ result then collect result cs
          else collect (result ++ [normalized]) cs
        else .error .invalidWorkflow

/-- `allowedConditionOperators`. -/
def allowedConditionOperators : List String :=
  ["equals", "not_equals", "contains", "exists"]

/-- `validateNode`. -/
def validateNode (node : Node) : Except GoError Unit :=
  match node.type with
  | .trigger => .ok ()
  | .notification =>
      match Json.unmarshal node.config decodeNotificationConfig with
      | .error _ => .error .invalidWorkflow
      | .ok config =>
          match normalizeChannels config.channels with
          | .error _ => .error .invalidWorkflow
          | .ok channels =>
              if channels.length ≠ 1 then .error .invalidWorkflow
              else
                let id := trimSpace config.templateID
                if id ≠ "" ∧ UUID.parse id = none then .error .invalidWorkflow else .ok ()
  | .delay =>
      match Json.unmarshal node.config decodeDelayConfig with
      | .error _ => .error .invalidWorkflow
      | .ok config =>
          if Duration.parse (trimSpace config.duration) = none then .error .invalidWorkflow
          else .ok ()
  | .condition =>
      match Json.unmarshal node.config decodeConditionConfig with
      | .error _ => .error .invalidWorkflow
      | .ok config =>
          if trimSpace config.field = "" then .error .invalidWorkflow
          else if toLower (trimSpace config.operator) ∉ allowedConditionOperators then
            .error .invalidWorkflow
          else .ok ()
  | .other _ _ => .error .invalidWorkflow

/-- The loop of `ValidateDefinition` over the nodes: the trimmed ids in order. -/
def validateNodes (seen : List String) : List Node → Except GoError (List String)
  | [] => .ok seen
  | node :: nodes => do
      let nodeID := trimSpace node.id
      if nodeID = "" then .error .invalidWorkflow
      if nodeID ∈ seen then .error .invalidWorkflow
      validateNode { node with id := nodeID }
      validateNodes (seen ++ [nodeID]) nodes

/-- The loop over the edges: their trimmed ends in order. -/
def validateEdges (nodesByID : List String) : List Edge → Except GoError (List (String × String))
  | [] => .ok []
  | edge :: edges => do
      let source := trimSpace edge.source
      let target := trimSpace edge.target
      if source = "" ∨ target = "" then .error .invalidWorkflow
      if source ∉ nodesByID then .error .invalidWorkflow
      if target ∉ nodesByID then .error .invalidWorkflow
      let rest ← validateEdges nodesByID edges
      return (source, target) :: rest

/-- The two sets of `hasCycle`. -/
structure Marks where
  visiting : List String
  visited : List String

/-- Visit nodes in order until one of them closes a cycle. -/
def visitAll (visit : String → Marks → Bool × Marks) : List String → Marks → Bool × Marks
  | [], m => (false, m)
  | next :: rest, m =>
      match visit next m with
      | (true, m) => (true, m)
      | (false, m) => visitAll visit rest m

/-- `visit`, with the call depth as fuel.  Every call below another one adds a
node to `visiting`, so the depth stays under the number of nodes; running out is
reported as a cycle. -/
def visit (adjacency : String → List String) : ℕ → String → Marks → Bool × Marks
  | 0, _, m => (true, m)
  | fuel + 1, node, m =>
      if node ∈ m.visited then (false, m)
      else if node ∈ m.visiting then (true, m)
      else
        match visitAll (visit adjacency fuel) (adjacency node)
          { m with visiting := node :: m.visiting } with
        | (true, m) => (true, m)
        | (false, m) => (false, ⟨m.visiting.erase node, node :: m.visited⟩)

/-- `hasCycle`: the ends of the edges, sources in order of appearance. -/
def hasCycle (ends : List (String × String)) : Bool :=
  let adjacency (n : String) := (ends.filter fun e => e.1 == n).map (·.2)
  (visitAll (visit adjacency (ends.length + 2)) (ends.map (·.1)) ⟨[], []⟩).1

/-- `ValidateDefinition`. -/
def validateDefinition (definition : Definition) : Except GoError Unit := do
  if trimSpace definition.trigger.event = "" then .error .invalidWorkflow
  if definition.nodes = [] then .error .invalidWorkflow
  let nodesByID ← validateNodes [] definition.nodes
  let ends ← validateEdges nodesByID definition.edges
  -- the incoming edges are counted under the trimmed target
  let hasStartNode := definition.nodes.any fun node => !(ends.map (·.2)).contains node.id
  if !hasStartNode then .error .invalidWorkflow
  if hasCycle ends then .error .invalidWorkflow

end Iwifunni.Workflow
