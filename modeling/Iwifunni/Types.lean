/-
Iwifunni/Types.lean

The records that travel between the parts of the service: the jobs of the queue
and the database rows more than one module reads.  Go maps are lists of pairs,
a nullable column is an `Option`.  Columns that no modelled function reads
(timestamps of creation, versions, tags of other features) are left out.
-/
import Iwifunni.Go.Json
import Iwifunni.Go.Uuid

namespace Iwifunni

open Go

/-! ### Errors -/

/-- The error values the service tells apart; every other error is a text. -/
inductive GoError
  /-- `workflow.ErrInvalidWorkflow` -/
  | invalidWorkflow
  /-- `workflow.ErrInvalidWorkflowEvent` -/
  | invalidWorkflowEvent
  /-- `pgx.ErrNoRows` -/
  | noRows
  /-- `notification.ErrInvalidSendRequest`, with the message it wraps -/
  | invalidSend (message : String)
  /-- `subscriber.ErrInvalidSubscriber` -/
  | invalidSubscriber
  /-- `integration.unsupportedProviderError` -/
  | unsupportedProvider (name : String)
  /-- `catalog.ValidationError` -/
  | validation (message : String)
  | other (text : String)
  deriving DecidableEq

/-- `err.Error()`. -/
def GoError.text : GoError → String
  | invalidWorkflow => "invalid workflow"
  | invalidWorkflowEvent => "invalid workflow event"
  | noRows => "no rows in result set"
  | invalidSend message => "invalid notification request: " ++ message
  | invalidSubscriber => "invalid subscriber"
  | unsupportedProvider name =>
      if name = "" then "unsupported provider" else "unsupported provider: " ++ name
  | validation message => message
  | other text => text

/-! ### Jobs -/

structure ChannelContent where
  title : String
  message : String
  deriving DecidableEq

structure SkippedChannel where
  channel : String
  reason : String
  deriving DecidableEq

/-- Subscriber identification and field overrides of an API request. -/
structure SubscriberTo where
  subscriberID : String
  firstName : String
  lastName : String
  email : String
  phone : String
  push : String
  deriving DecidableEq

structure Recipient where
  email : String := ""
  phoneNumber : String := ""
  pushTokens : List String := []
  reference : String := ""
  deriving DecidableEq

structure NotificationJob where
  jobID : String
  projectID : String := ""
  workflowID : String := ""
  subscriberID : String := ""
  title : String := ""
  message : String := ""
  /-- `none` is the nil slice. -/
  channels : Option (List String) := none
  channelContent : List (String × ChannelContent) := []
  skippedChannels : List SkippedChannel := []
  isTest : Bool := false
  isSystemUser : Bool := false
  recipient : Recipient := {}
  metadata : List (String × String) := []
  toSubscriber : Option SubscriberTo := none
  deriving DecidableEq

/-- `NotificationJob.ContentForChannel`. -/
def NotificationJob.contentForChannel (j : NotificationJob) (channel : String) :
    ChannelContent :=
  (Json.lookup j.channelContent channel).getD ⟨j.title, j.message⟩

structure WorkflowStepJob where
  environmentID : String
  executionID : String
  workflowID : String
  stepID : String
  deriving DecidableEq

/-! ### Rows -/

namespace Db

/-- An instant; a `pgtype.Timestamptz` is an `Option Time`. -/
abbrev Time : Type := ℕ

/-- A row of `subscribers`. -/
structure Subscriber where
  id : UUID
  environmentID : UUID
  name : String
  firstName : Option String
  lastName : Option String
  email : Option String
  phone : Option String
  pushToken : Option String
  channels : List String
  status : Option Json
  tags : List String
  preferences : Option Json
  metadata : Option Json
  deletedAt : Option Time := none

/-- The parameters of `CreateSubscriber` and of `UpdateSubscriber`, which have
the same columns. -/
structure SubscriberParams where
  id : UUID
  environmentID : UUID
  name : String
  firstName : Option String
  lastName : Option String
  email : Option String
  phone : Option String
  pushToken : Option String
  channels : List String
  status : Option Json
  tags : List String
  preferences : Option Json
  metadata : Option Json

/-- A row of `users`. -/
structure User where
  id : UUID
  email : String
  firstName : String
  lastName : String

/-- A row of `templates`. -/
structure Template where
  id : UUID
  environmentID : UUID
  channel : String
  subject : Option String
  body : String
  isActive : Bool

/-- The status of a notification. -/
inductive NotificationStatus
  | queued
  | pending
  | sent
  | failed
  | partialFailed
  | partialSkipped
  | skipped
  deriving DecidableEq

/-- A row of `notifications`; `recipient` and `metadata` stand for their JSON
forms, and every row is written with a job id. -/
structure Notification where
  id : UUID
  jobID : String
  environmentID : UUID
  title : String
  message : String
  channels : List String
  recipient : Recipient
  metadata : List (String × String)
  status : NotificationStatus
  isTest : Bool
  createdAt : Time
  updatedAt : Time

/-- The status of a delivery attempt. -/
inductive AttemptStatus
  | sent
  | failed
  | skipped
  deriving DecidableEq

/-- A row of `delivery_attempts`. -/
structure DeliveryAttempt where
  id : UUID
  notificationID : UUID
  channel : String
  destination : String
  status : AttemptStatus
  errorMessage : Option String
  attemptedAt : Time

/-- A row of `integrations`. -/
structure Integration where
  id : UUID
  environmentID : UUID
  name : String
  channel : String
  credentials : Option Json
  config : Option Json
  isActive : Bool
  isPrimary : Bool

/-- The status of an execution or of a step row. -/
inductive Status
  | queued
  | running
  | retrying
  | completed
  | failed
  deriving DecidableEq

/-- The status of a workflow. -/
inductive WorkflowStatus
  | draft
  | active
  | paused
  | archived
  deriving DecidableEq

/-- A row of `workflows`. -/
structure Workflow where
  id : UUID
  environmentID : UUID
  status : WorkflowStatus
  triggerEvent : Option String
  definitionJson : Option Json

/-- A row of `workflows`, with the columns only notifications read. -/
structure WorkflowRecord extends Workflow where
  name : String
  key : String
  channels : List String
  templateIDs : Option Json

/-- A row of `workflow_executions`. -/
structure WorkflowExecution where
  id : UUID
  workflowID : UUID
  environmentID : UUID
  subscriberID : Option UUID
  status : Status
  currentStepID : Option String
  triggerPayload : Option Json
  completedAt : Option Time := none
  failedAt : Option Time := none

structure CreateWorkflowExecutionParams where
  id : UUID
  workflowID : UUID
  environmentID : UUID
  subscriberID : Option UUID
  status : Status
  currentStepID : Option String
  triggerPayload : Option Json

/-- A row of `workflow_step_executions`. -/
structure WorkflowStepExecution where
  id : UUID
  executionID : UUID
  stepID : String
  stepType : String
  status : Status
  attempts : Int32
  inputJson : Option Json
  outputJson : Option Json
  errorJson : Option Json
  startedAt : Option Time
  completedAt : Option Time
  failedAt : Option Time

structure CreateWorkflowStepExecutionParams where
  id : UUID
  executionID : UUID
  stepID : String
  stepType : String
  status : Status
  attempts : Int32
  inputJson : Option Json := none
  outputJson : Option Json := none
  errorJson : Option Json := none
  startedAt : Option Time := none
  completedAt : Option Time := none
  failedAt : Option Time := none

structure UpdateWorkflowStepExecutionStateParams where
  executionID : UUID
  stepID : String
  status : Status
  attempts : Int32
  inputJson : Option Json := none
  outputJson : Option Json := none
  errorJson : Option Json := none
  startedAt : Option Time := none
  completedAt : Option Time := none
  failedAt : Option Time := none

end Db

end Iwifunni
