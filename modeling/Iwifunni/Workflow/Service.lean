/-
Iwifunni/Workflow/Service.lean

`TriggerEvent` and the storing of definitions (`service.go`).

For every active workflow of the event, `TriggerEvent` creates an execution with
status 'queued' and then hands its first step to the queue; the first error ends
the loop.
-/
import Iwifunni.Workflow.Runtime

namespace Iwifunni.Workflow

open Go Db Effect Effect.Prog

/-! ### Triggering -/

structure TriggerEventInput where
  event : String
  subscriberID : String
  /-- `none` is the nil map. -/
  data : Option (List (String × Json))

/-- `firstStepID`: the first node no edge points to. -/
def firstStepID (rawDefinition : Option Json) : Except GoError (Option String) :=
  match parseDefinition rawDefinition with
  | .error text => .error (.other text)
  | .ok none => .ok none
  | .ok (some definition) =>
      .ok ((definition.nodes.find? fun node =>
        !(definition.edges.map (·.target)).contains node.id).map (·.id))

/-- The payload an execution keeps of its event. -/
def triggerPayload (eventName subscriberID : String)
    (data : Option (List (String × Json))) : Json :=
  .obj [("data", (data.map Json.obj).getD .null), ("event", .str eventName),
    ("subscriber_id", .str subscriberID)]

/-- The subscriber of an event: none given, or an identifier. -/
def readSubscriberID (raw : String) : Option (Option UUID) :=
  if raw = "" then some none else (UUID.parse raw).map some

/-- The loop of `TriggerEvent` over the workflows. -/
def startExecutions (s : Service) (environmentID : UUID) (subscriber : Option UUID)
    (payload : Json) : List Db.Workflow → Act (List WorkflowExecution)
  | [] => ret []
  | workflow :: rest =>
      match firstStepID workflow.definitionJson with
      | .error e => fail e
      | .ok nextStepID => do
          let id ← perform Op.newUUID
          let execution ← perform (Op.createExecution {
            id := id
            workflowID := workflow.id
            environmentID := environmentID
            subscriberID := subscriber
            status := .queued
            currentStepID := nextStepID
            triggerPayload := some payload })
          match nextStepID with
          | some stepID =>
              if s.producer then
                perform (Op.enqueueWorkflowStep {
                  environmentID := environmentID.toString
                  executionID := execution.id.toString
                  workflowID := workflow.id.toString
                  stepID := stepID })
              else ret ()
          | none => ret ()
          let executions ← startExecutions s environmentID subscriber payload rest
          ret (execution :: executions)

/-- `TriggerEvent`. -/
def triggerEvent (s : Service) (environmentID : UUID) (input : TriggerEventInput) :
    Act (List WorkflowExecution) :=
  let eventName := trimSpace input.event
  if eventName = "" then fail .invalidWorkflowEvent
  else match readSubscriberID (trimSpace input.subscriberID) with
    | none => fail .invalidWorkflowEvent
    | some subscriber => do
        let workflows ← perform (Op.getActiveByTriggerEvent environmentID eventName)
        startExecutions s environmentID subscriber
          (triggerPayload eventName (trimSpace input.subscriberID) input.data) workflows

/-! ### Storing definitions -/

/-- `trimOptional` of a string that is there. -/
def trimOptional (value : String) : Option String :=
  let trimmed := trimSpace value
  if trimmed = "" then none else some trimmed

/-- `normalizeWorkflowDefinitionInput` and `buildUpdateDefinitionParams`, for the
columns the engine reads. -/
def withDefinition (current : Db.Workflow) (definition : Definition) :
    Except GoError Db.Workflow := do
  validateDefinition definition
  return { current with
    status := .active
    triggerEvent := trimOptional definition.trigger.event
    definitionJson := some (marshalDefinition definition) }

end Iwifunni.Workflow
