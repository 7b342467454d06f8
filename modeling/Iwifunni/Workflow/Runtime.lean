/-
Iwifunni/Workflow/Runtime.lean

The step handlers of the workflow engine (`runtime.go`), as programs over the
calls they make to the repository, the queue, the clock and the generator of
identifiers.

`processStep` looks up the execution and its definition, writes the step row and
the execution row to 'running', and hands over to the handler of the node's
type.  A handler ends in one of three ways:

    completeCurrentAndDispatchNext   step 'completed', successors enqueued
    handleDelayStep                  successors scheduled, step 'completed'
    failCurrentStep                  step 'failed', execution 'failed', error

Template rendering (`text/template`) is a parameter of the service.
-/
import Iwifunni.Effect.Prog
import Iwifunni.Workflow.Definition

namespace Iwifunni.Workflow

open Go Db Effect Effect.Prog

/-! ### Calls -/

/-- The calls of the workflow service: `workflowRepository`,
`workflowStepProducer`, `time.Now` and `uuid.New`. -/
inductive Op
  | getExecutionByID (id environmentID : UUID)
  | getByID (id environmentID : UUID)
  | getSubscriberByID (id environmentID : UUID)
  | getTemplateByID (id environmentID : UUID)
  | getStepExecution (executionID : UUID) (stepID : String)
  | createStepExecution (arg : CreateWorkflowStepExecutionParams)
  | updateStepExecutionState (arg : UpdateWorkflowStepExecutionStateParams)
  | updateExecutionState (id environmentID : UUID) (status : Status)
      (currentStepID : Option String) (completedAt failedAt : Option Time)
  | getActiveByTriggerEvent (environmentID : UUID) (triggerEvent : String)
  | createExecution (arg : CreateWorkflowExecutionParams)
  | enqueue (job : NotificationJob)
  | enqueueWorkflowStep (job : WorkflowStepJob)
  | enqueueWorkflowStepIn (job : WorkflowStepJob) (delay : Duration)
  | now
  | newUUID

/-- The answer of a call that succeeds. -/
abbrev Op.Res : Op → Type
  | getExecutionByID _ _ => WorkflowExecution
  | getByID _ _ => Db.Workflow
  | getSubscriberByID _ _ => Subscriber
  | getTemplateByID _ _ => Template
  | getStepExecution _ _ => WorkflowStepExecution
  | createStepExecution _ => WorkflowStepExecution
  | updateStepExecutionState _ => WorkflowStepExecution
  | updateExecutionState _ _ _ _ _ _ => WorkflowExecution
  | getActiveByTriggerEvent _ _ => List Db.Workflow
  | createExecution _ => WorkflowExecution
  | enqueue _ => Unit
  | enqueueWorkflowStep _ => Unit
  | enqueueWorkflowStepIn _ _ => Unit
  | now => Time
  | newUUID => UUID

/-- A program of the workflow service. -/
abbrev Act (α : Type) : Type := Prog Op.Res GoError α

/-- The workflow service: is a producer configured, how templates are rendered
(subject and body, or the text of an error), and how often the producer has a
job retried (`QUEUE_MAX_RETRY`). -/
structure Service where
  producer : Bool
  render : String → String → List (String × Json) → Except String (String × String)
  maxRetry : ℕ := 5

/-! ### Definitions at run time -/

/-- `findNode`. -/
def findNode (definition : Definition) (nodeID : String) : Except GoError Node :=
  match definition.nodes.find? fun node => node.id == nodeID with
  | some node => .ok node
  | none => .error .invalidWorkflow

/-- `nextNodeIDs`: the targets of the edges of a node, in order; with a branch
given, an edge with another branch is left out. -/
def nextNodeIDs (definition : Definition) (nodeID branch : String) : List String :=
  (definition.edges.filter fun edge =>
    let edgeBranch := toLower (trimSpace edge.branch)
    edge.source == nodeID &&
      !(branch != "" && edgeBranch != "" && edgeBranch != branch)).map (·.target)

/-- `lookupField`. -/
def lookupField (payload : List (String × Json)) (field : String) : Option Json :=
  (split (trimSpace field) '.').foldlM
    (fun current part => match current with
      | .obj fields => Json.lookup fields part
      | _ => none)
    (Json.obj payload)

/-- `evaluateCondition`. -/
def evaluateCondition (triggerPayload : Option Json) (config : ConditionConfig) :
    Except GoError Bool :=
  let payload : Except DecodeError (List (String × Json)) := match triggerPayload with
    | none => .ok []
    | some v => Json.toMap v
  match payload with
  | .error text => .error (.other text)
  | .ok payload =>
      let value := lookupField payload config.field
      let operator := toLower (trimSpace config.operator)
      if operator = "exists" then .ok value.isSome
      else if operator = "equals" then
        .ok (match value with
          | some value => sprint value == sprint config.value
          | none => false)
      else if operator = "not_equals" then
        .ok (match value with
          | some value => sprint value != sprint config.value
          | none => true)
      else if operator = "contains" then
        .ok (match value with
          | some value => contains (toLower (sprint value)) (toLower (sprint config.value))
          | none => false)
      else .error .invalidWorkflow

/-- `firstNonEmpty`. -/
def firstNonEmpty (primary fallback : Option Json) : Option Json :=
  primary.or fallback

/-! ### Notification contents -/

/-- `buildRuntimeRenderVariables`. -/
def buildRuntimeRenderVariables (triggerPayload : Option Json) (subscriber : Subscriber) :
    Except GoError (List (String × Json)) :=
  let contact (name : String) (value : Option String) (vars : List (String × Json)) :=
    match value with
    | some v => Json.insert vars name (.str (trimSpace v))
    | none => vars
  let vars : List (String × Json) :=
    [("subscriber_id", .str subscriber.id.toString), ("name", .str subscriber.name),
      ("tags", .arr (subscriber.tags.map .str)), ("reference", .str subscriber.id.toString)]
  let vars := contact "email" subscriber.email vars
  let vars := contact "phone" subscriber.phone vars
  let vars := contact "push_token" subscriber.pushToken vars
  match triggerPayload with
  | none => .ok vars
  | some v =>
      match Json.toMap v with
      | .error text => .error (.other text)
      | .ok payload =>
          let vars := match Json.lookup payload "event" with
            | some (.str event) => Json.insert vars "event" (.str event)
            | _ => vars
          match Json.lookup payload "data" with
          | some (.obj data) =>
              .ok (data.foldl (fun vars f => Json.insert vars f.1 f.2)
                (Json.insert vars "data" (.obj data)))
          | _ => .ok vars

/-- `renderRuntimeChannelContent`. -/
def renderRuntimeChannelContent (s : Service) (template : Template) (fallbackTitle : String)
    (vars : List (String × Json)) : Except GoError ChannelContent :=
  match s.render (template.subject.getD "") template.body vars with
  | .error text => .error (.other text)
  | .ok (subject, body) =>
      let title := trimSpace subject
      .ok ⟨if title = "" then fallbackTitle else title, body⟩

/-- `buildRuntimeRecipient`. -/
def buildRuntimeRecipient (subscriber : Subscriber) (channel : String) :
    Except GoError Recipient :=
  let target (value : Option String) := trimSpace (value.getD "")
  let reference := subscriber.id.toString
  if channel = "email" then
    if target subscriber.email = "" then .error (.other "subscriber has no email target")
    else .ok { reference := reference, email := target subscriber.email }
  else if channel = "sms" then
    if target subscriber.phone = "" then .error (.other "subscriber has no phone target")
    else .ok { reference := reference, phoneNumber := target subscriber.phone }
  else if channel = "push" then
    if target subscriber.pushToken = "" then .error (.other "subscriber has no push target")
    else .ok { reference := reference, pushTokens := [target subscriber.pushToken] }
  else .error (.other "unsupported notification channel")

/-- What a notification node's config says: its one channel and its template. -/
def notificationTarget (node : Node) : Except GoError (String × UUID) :=
  match Json.unmarshal node.config decodeNotificationConfig with
  | .error _ => .error .invalidWorkflow
  | .ok config =>
      match normalizeChannels config.channels with
      | .ok [channel] =>
          match UUID.parse (trimSpace config.templateID) with
          | some templateID => .ok (channel, templateID)
          | none => .error (.other "workflow notification step requires a valid template_id")
      | _ => .error
          (.other "workflow notification step currently supports exactly one channel")

/-- The part of `handleNotificationStep` between reading the template and
enqueueing: content and recipient. -/
def notificationContent (s : Service) (execution : WorkflowExecution) (node : Node)
    (channel : String) (subscriber : Subscriber) (template : Template) :
    Except GoError (ChannelContent × Recipient) :=
  if !template.isActive then .error (.other "workflow notification template is inactive")
  else if template.channel ≠ channel then
    .error (.other "workflow notification template channel mismatch")
  else do
    let vars ← buildRuntimeRenderVariables execution.triggerPayload subscriber
    let content ← renderRuntimeChannelContent s template node.id vars
    let recipient ← buildRuntimeRecipient subscriber channel
    return (content, recipient)

/-- The job a notification node hands to the queue. -/
def notificationJob (execution : WorkflowExecution) (node : Node) (channel : String)
    (subscriber : Subscriber) (content : ChannelContent) (recipient : Recipient)
    (jobID : UUID) : NotificationJob where
  jobID := jobID.toString
  projectID := execution.environmentID.toString
  workflowID := execution.workflowID.toString
  subscriberID := subscriber.id.toString
  title := content.title
  message := content.message
  channels := some [channel]
  channelContent := [(channel, content)]
  recipient := recipient
  metadata := [("workflow_execution_id", execution.id.toString),
    ("workflow_step_id", node.id), ("subscriber_id", subscriber.id.toString)]

/-! ### Ending a step -/

/-- The job for a node of an execution. -/
def stepJob (execution : WorkflowExecution) (stepID : String) : WorkflowStepJob where
  environmentID := execution.environmentID.toString
  executionID := execution.id.toString
  workflowID := execution.workflowID.toString
  stepID := stepID

def producerNotConfigured : GoError := .other "workflow step producer is not configured"

/-- `failCurrentStep`. -/
def failCurrentStep (execution : WorkflowExecution) (stepExecution : WorkflowStepExecution)
    (cause : GoError) : Act Unit := do
  let nowTs ← perform Op.now
  let _ ← perform (Op.updateStepExecutionState {
    executionID := execution.id
    stepID := stepExecution.stepID
    status := .failed
    attempts := stepExecution.attempts
    inputJson := stepExecution.inputJson
    outputJson := stepExecution.outputJson
    errorJson := some (.obj [("error", .str cause.text)])
    startedAt := stepExecution.startedAt
    failedAt := some nowTs })
  let _ ← perform (Op.updateExecutionState execution.id execution.environmentID .failed
    (some stepExecution.stepID) none (some nowTs))
  fail cause

/-- The write that completes a step row. -/
def completedStep (execution : WorkflowExecution) (stepExecution : WorkflowStepExecution)
    (node : Node) (output : Option Json) (nowTs : Time) :
    UpdateWorkflowStepExecutionStateParams where
  executionID := execution.id
  stepID := node.id
  status := .completed
  attempts := stepExecution.attempts
  inputJson := stepExecution.inputJson
  outputJson := output
  startedAt := stepExecution.startedAt
  completedAt := some nowTs

/-- The loop over the successors in `completeCurrentAndDispatchNext`. -/
def dispatchNext (execution : WorkflowExecution) : List String → Act Unit
  | [] => ret ()
  | nextStepID :: rest => do
      perform (Op.enqueueWorkflowStep (stepJob execution nextStepID))
      dispatchNext execution rest

/-- `completeCurrentAndDispatchNext`. -/
def completeCurrentAndDispatchNext (s : Service) (execution : WorkflowExecution)
    (stepExecution : WorkflowStepExecution) (node : Node) (nextNodes : List String)
    (output : Option Json) : Act Unit := do
  let nowTs ← perform Op.now
  let _ ← perform (Op.updateStepExecutionState
    (completedStep execution stepExecution node output nowTs))
  match nextNodes with
  | [] => do
      let _ ← perform (Op.updateExecutionState execution.id execution.environmentID .completed
        none (some nowTs) none)
      ret ()
  | nextCurrentStepID :: rest =>
      if s.producer then do
        dispatchNext execution (nextCurrentStepID :: rest)
        let _ ← perform (Op.updateExecutionState execution.id execution.environmentID .queued
          (some nextCurrentStepID) none none)
        ret ()
      else fail producerNotConfigured

/-! ### The handlers -/

/-- `handleNotificationStep`. -/
def handleNotificationStep (s : Service) (execution : WorkflowExecution)
    (stepExecution : WorkflowStepExecution) (definition : Definition) (node : Node) :
    Act Unit :=
  let failWith := failCurrentStep execution stepExecution
  match execution.subscriberID with
  | none => failWith (.other "workflow notification step requires subscriber_id")
  | some subscriberID =>
  if !s.producer then failWith (.other "workflow step producer is not configured") else
  match notificationTarget node with
  | .error e => failWith e
  | .ok (channel, templateID) => do
  match ← ask (Op.getSubscriberByID subscriberID execution.environmentID) with
  | .error e => failWith e
  | .ok subscriber => do
  match ← ask (Op.getTemplateByID templateID execution.environmentID) with
  | .error e => failWith e
  | .ok template => do
  match notificationContent s execution node channel subscriber template with
  | .error e => failWith e
  | .ok (content, recipient) => do
  let jobID ← perform Op.newUUID
  let job := notificationJob execution node channel subscriber content recipient jobID
  match ← ask (Op.enqueue job) with
  | .error e => failWith e
  | .ok _ =>
      completeCurrentAndDispatchNext s execution stepExecution node
        (nextNodeIDs definition node.id "")
        (some (.obj [("channel", .str channel), ("notification_job_id", .str job.jobID)]))

/-- The loop of `handleDelayStep` over the successors: the error of the first
enqueue that fails. -/
def scheduleNext (execution : WorkflowExecution) (duration : Duration) :
    List String → Act (Except GoError Unit)
  | [] => ret (.ok ())
  | nextStepID :: rest => do
      match ← ask (Op.enqueueWorkflowStepIn (stepJob execution nextStepID) duration) with
      | .error e => ret (.error e)
      | .ok _ => scheduleNext execution duration rest

/-- The duration of a delay node. -/
def delayDuration (node : Node) : Except GoError Duration :=
  match Json.unmarshal node.config decodeDelayConfig with
  | .error _ => .error .invalidWorkflow
  | .ok config =>
      match Duration.parse (trimSpace config.duration) with
      | some duration => .ok duration
      | none => .error .invalidWorkflow

/-- `handleDelayStep`. -/
def handleDelayStep (s : Service) (execution : WorkflowExecution)
    (stepExecution : WorkflowStepExecution) (definition : Definition) (node : Node) :
    Act Unit :=
  let failWith := failCurrentStep execution stepExecution
  match delayDuration node with
  | .error e => failWith e
  | .ok duration =>
  match nextNodeIDs definition node.id "" with
  | [] => completeCurrentAndDispatchNext s execution stepExecution node [] none
  | nextCurrentStepID :: rest =>
  if !s.producer then failWith producerNotConfigured else do
  match ← scheduleNext execution duration (nextCurrentStepID :: rest) with
  | .error e => failWith e
  | .ok _ => do
      let nowTs ← perform Op.now
      let metadata := Json.obj [("duration", .str duration.toString),
        ("next_steps", .arr ((nextCurrentStepID :: rest).map .str))]
      let _ ← perform (Op.updateStepExecutionState
        (completedStep execution stepExecution node (some metadata) nowTs))
      let _ ← perform (Op.updateExecutionState execution.id execution.environmentID .queued
        (some nextCurrentStepID) none none)
      ret ()

/-- The outcome of a condition node on a payload. -/
def conditionOutcome (node : Node) (triggerPayload : Option Json) : Except GoError Bool :=
  match Json.unmarshal node.config decodeConditionConfig with
  | .error _ => .error .invalidWorkflow
  | .ok config => evaluateCondition triggerPayload config

/-- The name of the branch an outcome selects. -/
def branchName (matched : Bool) : String := if matched then "true" else "false"

/-- `handleConditionStep`. -/
def handleConditionStep (s : Service) (execution : WorkflowExecution)
    (stepExecution : WorkflowStepExecution) (definition : Definition) (node : Node) :
    Act Unit :=
  match conditionOutcome node execution.triggerPayload with
  | .error e => failCurrentStep execution stepExecution e
  | .ok matched =>
      let branch := branchName matched
      let nextNodes := nextNodeIDs definition node.id branch
      let metadata := Json.obj [("branch", .str branch), ("matched", .bool matched),
        ("next_steps", .arr (nextNodes.map .str))]
      completeCurrentAndDispatchNext s execution stepExecution node nextNodes (some metadata)

/-- The dispatch of `ProcessStep` on the type of the node. -/
def handleStep (s : Service) (execution : WorkflowExecution)
    (stepExecution : WorkflowStepExecution) (definition : Definition) (node : Node) :
    Act Unit :=
  match node.type with
  | .trigger =>
      completeCurrentAndDispatchNext s execution stepExecution node
        (nextNodeIDs definition node.id "") none
  | .delay => handleDelayStep s execution stepExecution definition node
  | .condition => handleConditionStep s execution stepExecution definition node
  | .notification => handleNotificationStep s execution stepExecution definition node
  | .other _ _ => failCurrentStep execution stepExecution .invalidWorkflow

/-! ### ProcessStep -/

/-- The fields of a job, read. -/
structure StepRef where
  environmentID : UUID
  executionID : UUID
  workflowID : UUID
  stepID : String

/-- The checks at the start of `ProcessStep`. -/
def readJob (job : WorkflowStepJob) : Option StepRef := do
  let environmentID ← UUID.parse (trimSpace job.environmentID)
  let executionID ← UUID.parse (trimSpace job.executionID)
  let workflowID ← UUID.parse (trimSpace job.workflowID)
  let stepID := trimSpace job.stepID
  if stepID = "" then none else some ⟨environmentID, executionID, workflowID, stepID⟩

/-- The definition of a workflow and one of its nodes. -/
def locate (workflow : Db.Workflow) (stepID : String) : Except GoError (Definition × Node) :=
  match parseDefinition workflow.definitionJson with
  | .ok (some definition) => (findNode definition stepID).map fun node => (definition, node)
  | _ => .error .invalidWorkflow

/-- The write that puts a new step row to 'running'. -/
def createdStep (execution : WorkflowExecution) (node : Node) (nowTs : Time) (id : UUID) :
    CreateWorkflowStepExecutionParams where
  id := id
  executionID := execution.id
  stepID := node.id
  stepType := node.type.toString
  status := .running
  attempts := 1
  inputJson := node.config
  startedAt := some nowTs

/-- The write that puts an existing step row to 'running' again. -/
def retriedStep (execution : WorkflowExecution) (node : Node)
    (stepExecution : WorkflowStepExecution) (nowTs : Time) :
    UpdateWorkflowStepExecutionStateParams where
  executionID := execution.id
  stepID := node.id
  status := .running
  attempts := stepExecution.attempts + 1
  inputJson := firstNonEmpty stepExecution.inputJson node.config
  outputJson := stepExecution.outputJson
  errorJson := none
  startedAt := some nowTs

/-- The step row of an attempt: created, or taken over from an earlier one. -/
def openStep (execution : WorkflowExecution) (node : Node) : Act WorkflowStepExecution := do
  let nowTs ← perform Op.now
  match ← ask (Op.getStepExecution execution.id node.id) with
  | .error .noRows => do
      let id ← perform Op.newUUID
      perform (Op.createStepExecution (createdStep execution node nowTs id))
  | .error e => fail e
  | .ok stepExecution =>
      perform (Op.updateStepExecutionState (retriedStep execution node stepExecution nowTs))

/-- `ProcessStep`. -/
def processStep (s : Service) (job : WorkflowStepJob) : Act Unit :=
  match readJob job with
  | none => fail .invalidWorkflowEvent
  | some ref => do
      let execution ← perform (Op.getExecutionByID ref.executionID ref.environmentID)
      let workflow ← perform (Op.getByID ref.workflowID ref.environmentID)
      match locate workflow ref.stepID with
      | .error e => fail e
      | .ok (definition, node) => do
          let stepExecution ← openStep execution node
          let _ ← perform (Op.updateExecutionState execution.id ref.environmentID .running
            (some node.id) none none)
          handleStep s execution stepExecution definition node

end Iwifunni.Workflow
