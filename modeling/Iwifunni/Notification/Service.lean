/-
Iwifunni/Notification/Service.lean

`notification.Service.PrepareJob` (`service.go`, `workflow.go`): from a request to
the job that is handed to the queue.

    resolveToAndBuildRecipient   "to" names a subscriber, which is updated or created
    prepareWorkflowJob           channels, contents and recipient from the workflow
    direct sends                 channels and recipient from the request

A nil dereference is an error without a message of the service's own.  Template
rendering (`text/template`) and decryption (`crypto/aes`) are parameters.
-/
import Iwifunni.Store
import Iwifunni.Workflow.Definition

namespace Iwifunni.Notification

open Go Db Effect Effect.Prog Store

/-- The notification service: how templates are rendered (subject and body, or the
text of an error), and what it delivers with. -/
structure Service where
  render : String → String → List (String × Json) → Except String (String × String)
  decrypt : String → String → Except String Json
  encryptionKey : String
  /-- Is a webhook dispatcher configured? -/
  dispatcher : Bool

/-- A panic. -/
def nilDereference : GoError := .other "invalid memory address or nil pointer dereference"

/-! ### Subscribers named by "to" -/

/-- `ptr.StrPtr`. -/
def strPtr (s : String) : Option String := if s = "" then none else some s

/-- `ptr.Coalesce`. -/
def coalesce (a : String) (b : Option String) : String := if a = "" then b.getD "" else a

/-- `deriveSubscriberChannels`. -/
def deriveSubscriberChannels (email phone pushToken : Option String) : List String :=
  (if email.isSome then ["email"] else []) ++ (if phone.isSome then ["sms"] else []) ++
    (if pushToken.isSome then ["push"] else [])

/-- The status of a subscriber that is created or updated on a send. -/
def subscribedStatus : Json :=
  .obj [("email", .str "subscribed"), ("push", .str "subscribed"), ("sms", .str "subscribed")]

/-- Does "to" bring any field to update? -/
def hasUpdates (target : SubscriberTo) : Bool :=
  trimSpace target.firstName != "" || trimSpace target.lastName != "" ||
    trimSpace target.email != "" || trimSpace target.phone != "" || trimSpace target.push != ""

/-- The parameters of the update in `findOrUpdateSubscriber`. -/
def sendTimeUpdate (target : SubscriberTo) (name : String) (sub : Subscriber) :
    SubscriberParams :=
  let field (value : String) (old : Option String) := strPtr (coalesce (trimSpace value) old)
  let email := field target.email sub.email
  let phone := field target.phone sub.phone
  let push := field target.push sub.pushToken
  { id := sub.id
    environmentID := sub.environmentID
    name := if trimSpace target.firstName ≠ "" ∨ trimSpace target.lastName ≠ "" then name
      else sub.name
    firstName := field target.firstName sub.firstName
    lastName := field target.lastName sub.lastName
    email := email
    phone := phone
    pushToken := push
    channels := deriveSubscriberChannels email phone push
    status := some subscribedStatus
    tags := sub.tags
    metadata := sub.metadata
    preferences := sub.preferences }

/-- `findOrUpdateSubscriber`. -/
def findOrUpdateSubscriber (projectID : UUID) (target : SubscriberTo) (name : String)
    (subscriberID : UUID) : Act Subscriber := do
  let sub ← perform (Op.getSubscriberByID subscriberID projectID)
  if hasUpdates target then perform (Op.updateSubscriber (sendTimeUpdate target name sub))
  else ret sub

/-- The row created for a "to" without a known subscriber. -/
def createdSubscriber (projectID id : UUID) (target : SubscriberTo) (name : String) :
    SubscriberParams :=
  let email := strPtr (trimSpace target.email)
  let phone := strPtr (trimSpace target.phone)
  let push := strPtr (trimSpace target.push)
  { id := id
    environmentID := projectID
    name := name
    firstName := strPtr (trimSpace target.firstName)
    lastName := strPtr (trimSpace target.lastName)
    email := email
    phone := phone
    pushToken := push
    channels := deriveSubscriberChannels email phone push
    status := some subscribedStatus
    tags := []
    metadata := some (.obj [])
    preferences := some (.obj []) }

/-- The creation in `resolveSubscriberFromTo`. -/
def createSubscriberFromTo (projectID : UUID) (target : SubscriberTo) (name : String) :
    Act Subscriber := do
  let id ← perform Op.newUUID
  perform (Op.createSubscriber (createdSubscriber projectID id target name))

/-- The name of a subscriber on a send. -/
def sendTimeName (target : SubscriberTo) (workflowName : String) : String :=
  let name := trimSpace (trimSpace target.firstName ++ " " ++ trimSpace target.lastName)
  if name = "" then workflowName else name

/-- The outcome of `findOrUpdateSubscriber` inside `resolveSubscriberFromTo`: a row
that is not there is created. -/
def orCreate (create : Act Subscriber) : Act Subscriber → Act Subscriber
  | .ret sub => ret sub
  | .fail .noRows => create
  | .fail e => fail e
  | .call op k => .call op fun r => orCreate create (k r)

/-- `resolveSubscriberFromTo`. -/
def resolveSubscriberFromTo (projectID : String) (target : SubscriberTo)
    (workflowName : String) : Act Subscriber :=
  match UUID.parse projectID with
  | none => fail (.invalidSend "invalid project_id")
  | some projectID =>
      let name := sendTimeName target workflowName
      let create := createSubscriberFromTo projectID target name
      if target.subscriberID = "" then create
      else match UUID.parse target.subscriberID with
        | none => fail (.invalidSend "invalid subscriber_id in to field")
        | some subscriberID =>
            orCreate create (findOrUpdateSubscriber projectID target name subscriberID)

/-- `resolveToAndBuildRecipient`. -/
def resolveToAndBuildRecipient (prepared : NotificationJob) (target : SubscriberTo) :
    Act NotificationJob := do
  let sub ← resolveSubscriberFromTo prepared.projectID target prepared.workflowID
  let r := prepared.recipient
  ret { prepared with
    subscriberID := sub.id.toString
    recipient := {
      email := match sub.email with
        | some email => trimSpace email
        | none => r.email
      phoneNumber := match sub.phone with
        | some phone => trimSpace phone
        | none => r.phoneNumber
      pushTokens := match sub.pushToken with
        | some push => [trimSpace push]
        | none => r.pushTokens
      reference := sub.id.toString } }

/-! ### Workflow sends: the workflow and the subscriber -/

structure WorkflowJobIDs where
  projectID : UUID
  workflowID : UUID
  subscriberID : UUID

/-- `parseWorkflowJobIDs`. -/
def parseWorkflowJobIDs (prepared : NotificationJob) : Except GoError WorkflowJobIDs :=
  if prepared.projectID = "" then
    .error (.invalidSend "workflow-based sends require project-scoped authentication")
  else match UUID.parse prepared.projectID with
    | none => .error (.invalidSend "invalid project_id")
    | some projectID => match UUID.parse prepared.workflowID with
      | none => .error (.invalidSend "invalid workflow_id")
      | some workflowID => match UUID.parse prepared.subscriberID with
        | none => .error (.invalidSend "invalid subscriber_id")
        | some subscriberID => .ok ⟨projectID, workflowID, subscriberID⟩

/-- Fetch a row; one that is not there gets a message. -/
def fetch (op : Op) (missing : String) : Act op.Res := do
  match ← ask op with
  | .ok row => ret row
  | .error .noRows => fail (.other (missing ++ ": " ++ GoError.noRows.text))
  | .error e => fail e

/-- `getWorkflowByID`. -/
def getWorkflowByID (workflowID projectID : UUID) : Act WorkflowRecord :=
  fetch (.getWorkflowByID workflowID projectID) "workflow not found"

/-- The stand-in for a system user. -/
def userSubscriber (user : User) (userID : UUID) : Subscriber where
  id := userID
  environmentID := UUID.ofDigit 0
  name :=
    let name := trimSpace (user.firstName ++ " " ++ user.lastName)
    if name = "" then user.email else name
  firstName := none
  lastName := none
  email := some user.email
  phone := none
  pushToken := none
  channels := []
  status := none
  tags := []
  preferences := none
  metadata := none

/-- `resolveWorkflowSubscriber`: the subscriber, and the job, whose subscriber id is
replaced for a system user. -/
def resolveWorkflowSubscriber (prepared : NotificationJob) (ids : WorkflowJobIDs) :
    Act (Subscriber × NotificationJob) :=
  if prepared.isSystemUser then
    match prepared.toSubscriber with
    | none => fail nilDereference
    | some target => match UUID.parse target.subscriberID with
      | none => fail (.invalidSend "invalid subscriber_id for system user")
      | some userID => do
          let user ← fetch (.getUserByID userID) "user not found"
          ret (userSubscriber user userID,
            { prepared with subscriberID := userID.toString })
  else do
    let sub ← fetch (.getSubscriberByID ids.subscriberID ids.projectID) "subscriber not found"
    ret (sub, prepared)

/-! ### Workflow sends: channels and templates -/

/-- Decode a `map[string]string`; the column never holds `null`. -/
def decodeStringMap (v : Json) : Except DecodeError (List (String × String)) := do
  let fields ← v.toMap
  fields.mapM fun f => do
    let value ← Json.toStr "" f.2
    return (f.1, value)

/-- `parseWorkflowTemplateIDs`. -/
def parseWorkflowTemplateIDs (raw : Option Json) : Except DecodeError (List (String × String)) :=
  match raw with
  | none => .ok []
  | some v => decodeStringMap v

structure DefNode where
  type : String
  config : Option Json

/-- Decode a `defNode`. -/
def decodeDefNode (v : Json) : Except DecodeError DefNode := do
  let fs ← v.structFields "notification.defNode"
  let type ← Json.field fs "type" "" Json.toStr
  let config ← Json.field fs "config" none fun _ v => .ok (some v)
  return ⟨type, config⟩

/-- Decode a `workflowDef`. -/
def decodeWorkflowDef (v : Json) : Except DecodeError (List DefNode) := do
  let fs ← v.structFields "notification.workflowDef"
  Json.field fs "nodes" [] fun _ v => match v with
    | .null => .ok []
    | .arr vs => Workflow.decodeAll decodeDefNode vs
    | v => .error (v.typeError "[]notification.defNode")

/-- The channels and template ids a notification node adds. -/
def addNodeChannels (config : Workflow.NotificationConfig)
    (acc : List String × List (String × String)) : List String × List (String × String) :=
  config.channels.foldl (fun acc channel =>
    (if channel ∈ acc.1 then acc.1 else acc.1 ++ [channel],
      if config.templateID ≠ "" ∧ (Json.lookup acc.2 channel).getD "" = "" then
        Json.insert acc.2 channel config.templateID
      else acc.2)) acc

/-- `extractChannelsAndTemplatesFromWorkflow`. -/
def extractChannelsAndTemplatesFromWorkflow (workflow : WorkflowRecord) :
    List String × List (String × String) :=
  let templateIDs := match parseWorkflowTemplateIDs workflow.templateIDs with
    | .ok templateIDs => templateIDs
    | .error _ => []
  match Json.unmarshal workflow.definitionJson decodeWorkflowDef with
  | .error _ => (workflow.channels, templateIDs)
  | .ok nodes => nodes.foldl (fun acc node =>
      if node.type = "notification" then
        match Json.unmarshal node.config Workflow.decodeNotificationConfig with
        | .ok config => addNodeChannels config acc
        | .error _ => acc
      else acc) (workflow.channels, templateIDs)

/-- `filterRequestedChannels`. -/
def filterRequestedChannels (channels : List String) (requested : Option (List String)) :
    List String :=
  match requested with
  | none => channels
  | some requested => channels.filter (· ∈ requested)

/-! ### Workflow sends: one channel -/

structure SubscriberChannelStatus where
  email : String
  sms : String
  push : String

/-- A string field, with every value of another kind passed over. -/
def lenientString (fields : List (String × Json)) (name : String) : String :=
  (fields.filter fun f => equalFold f.1 name).foldl
    (fun old f => match f.2 with
      | .str s => s
      | _ => old) ""

/-- `parseSubscriberChannelStatus`: errors are ignored, and leave the other fields
as they are. -/
def parseSubscriberChannelStatus (raw : Option Json) : SubscriberChannelStatus :=
  match raw with
  | some (.obj fields) => ⟨lenientString fields "email", lenientString fields "sms",
      lenientString fields "push"⟩
  | _ => ⟨"", "", ""⟩

/-- The status of a channel, as far as `skipReasonForSubscriberChannel` looks. -/
def channelStatus (channel : String) (status : SubscriberChannelStatus) : String :=
  if channel = "email" then trimSpace status.email
  else if channel = "sms" then trimSpace status.sms
  else if channel = "push" then trimSpace status.push
  else ""

/-- `skipReasonForSubscriberChannel`. -/
def skipReasonForSubscriberChannel (channel : String) (status : SubscriberChannelStatus) :
    Option String :=
  if channelStatus channel status = "unsubscribed" then
    some "subscriber is unsubscribed for this channel"
  else if channelStatus channel status = "bounced" then
    some "subscriber is bounced for this channel"
  else none

/-- `appendRecipientChannel`: the recipient, or the reason to skip. -/
def appendRecipientChannel (recipient : Recipient) (subscriber : Subscriber)
    (channel : String) : Except String Recipient :=
  let target (value : Option String) := trimSpace (value.getD "")
  if channel = "email" then
    if target subscriber.email = "" then .error "subscriber has no email target"
    else .ok { recipient with email := target subscriber.email }
  else if channel = "sms" then
    if target subscriber.phone = "" then .error "subscriber has no phone target"
    else .ok { recipient with phoneNumber := target subscriber.phone }
  else if channel = "push" then
    if target subscriber.pushToken = "" then .error "subscriber has no push target"
    else .ok { recipient with pushTokens := [target subscriber.pushToken] }
  else .ok recipient

/-- `buildWorkflowRenderVariables`. -/
def buildWorkflowRenderVariables (metadata : List (String × String)) (subscriber : Subscriber) :
    List (String × Json) :=
  let contact (name : String) (value : Option String) (vars : List (String × Json)) :=
    match value with
    | some v => Json.insert vars name (.str (trimSpace v))
    | none => vars
  let vars := metadata.map fun f => (f.1, Json.str f.2)
  let vars := Json.insert vars "metadata" (.obj (metadata.map fun f => (f.1, Json.str f.2)))
  let vars := Json.insert vars "subscriber_id" (.str subscriber.id.toString)
  let vars := Json.insert vars "name" (.str subscriber.name)
  let vars := Json.insert vars "tags" (.arr (subscriber.tags.map .str))
  let vars := Json.insert vars "reference" (.str subscriber.id.toString)
  let vars := contact "email" subscriber.email vars
  let vars := contact "phone" subscriber.phone vars
  contact "push_token" subscriber.pushToken vars

/-- `renderWorkflowChannelContent`. -/
def renderWorkflowChannelContent (s : Service) (template : Template) (fallbackTitle : String)
    (vars : List (String × Json)) : Except String ChannelContent :=
  match s.render (template.subject.getD "") template.body vars with
  | .error text => .error text
  | .ok (subject, body) =>
      .ok ⟨if trimSpace subject = "" then fallbackTitle else trimSpace subject, body⟩

/-- What has been prepared so far. -/
structure Delivery where
  channels : List String := []
  content : List (String × ChannelContent) := []
  skipped : List SkippedChannel := []
  recipient : Recipient

/-- Skip a channel. -/
def Delivery.skip (d : Delivery) (channel reason : String) : Delivery :=
  { d with skipped := d.skipped ++ [⟨channel, reason⟩] }

/-- A channel whose template has been found. -/
def Delivery.add (s : Service) (workflow : WorkflowRecord) (subscriber : Subscriber)
    (vars : List (String × Json)) (channel : String) (template : Template) (d : Delivery) :
    Except GoError Delivery :=
  if !template.isActive then .ok (d.skip channel "linked template is inactive")
  else if template.channel ≠ channel then .ok (d.skip channel "linked template channel mismatch")
  else match appendRecipientChannel d.recipient subscriber channel with
    | .error reason => .ok (d.skip channel reason)
    | .ok recipient =>
        match renderWorkflowChannelContent s template workflow.name vars with
        | .error text => .error
            (.invalidSend ("failed to render " ++ channel ++ " template: " ++ text))
        | .ok content => .ok { d with
            channels := d.channels ++ [channel]
            content := Json.insert d.content channel content
            recipient := recipient }

/-- One round of the loop of `prepareWorkflowDelivery`. -/
def prepareChannel (s : Service) (projectID : UUID) (workflow : WorkflowRecord)
    (subscriber : Subscriber) (templateIDs : List (String × String))
    (vars : List (String × Json)) (channel : String) (d : Delivery) : Act Delivery :=
  match skipReasonForSubscriberChannel channel
      (parseSubscriberChannelStatus subscriber.status) with
  | some reason => ret (d.skip channel reason)
  | none =>
  let templateIDValue := trimSpace ((Json.lookup templateIDs channel).getD "")
  if templateIDValue = "" then ret (d.skip channel "workflow channel has no linked template")
  else match UUID.parse templateIDValue with
  | none => fail (.invalidSend "workflow template mapping contains an invalid template id")
  | some templateID => do
  match ← ask (Op.getTemplateByID templateID projectID) with
  | .error .noRows => ret (d.skip channel "linked template not found")
  | .error e => fail e
  | .ok template => ofExcept (d.add s workflow subscriber vars channel template)

/-- The loop of `prepareWorkflowDelivery`. -/
def prepareChannels (s : Service) (projectID : UUID) (workflow : WorkflowRecord)
    (subscriber : Subscriber) (templateIDs : List (String × String))
    (vars : List (String × Json)) : List String → Delivery → Act Delivery
  | [], d => ret d
  | channel :: rest, d => do
      let d ← prepareChannel s projectID workflow subscriber templateIDs vars channel d
      prepareChannels s projectID workflow subscriber templateIDs vars rest d

/-- `prepareWorkflowDelivery`. -/
def prepareWorkflowDelivery (s : Service) (projectID : UUID) (workflow : WorkflowRecord)
    (subscriber : Subscriber) (prepared : NotificationJob) : Act Delivery :=
  match parseWorkflowTemplateIDs workflow.templateIDs with
  | .error _ => fail (.invalidSend "workflow template mapping is invalid")
  | .ok templateIDs =>
      prepareChannels s projectID workflow subscriber templateIDs
        (buildWorkflowRenderVariables prepared.metadata subscriber) workflow.channels
        { recipient := { reference := subscriber.id.toString } }

/-- `enrichMetadata`. -/
def enrichMetadata (metadata : List (String × String)) (workflow : WorkflowRecord)
    (subscriber : Subscriber) : List (String × String) :=
  Json.insert (Json.insert (Json.insert metadata "workflow_id" workflow.id.toString)
    "workflow_key" workflow.key) "subscriber_id" subscriber.id.toString

/-- The part of `prepareWorkflowJob` after both rows have been read. -/
def prepareForSubscriber (s : Service) (projectID : UUID) (workflow : WorkflowRecord)
    (subscriber : Subscriber) (prepared : NotificationJob) : Act NotificationJob := do
  let (channels, templateIDs) := extractChannelsAndTemplatesFromWorkflow workflow
  let channels := filterRequestedChannels channels prepared.channels
  let workflow := { workflow with
    channels := channels
    templateIDs := if templateIDs.isEmpty then workflow.templateIDs
      else some (.obj (templateIDs.map fun f => (f.1, .str f.2))) }
  let d ← prepareWorkflowDelivery s projectID workflow subscriber prepared
  ret { prepared with
    channels := some d.channels
    channelContent := d.content
    skippedChannels := d.skipped
    recipient := d.recipient
    metadata := enrichMetadata prepared.metadata workflow subscriber }

/-- `prepareWorkflowJob`. -/
def prepareWorkflowJob (s : Service) (prepared : NotificationJob) : Act NotificationJob :=
  match parseWorkflowJobIDs prepared with
  | .error e => fail e
  | .ok ids => do
      let workflow ← getWorkflowByID ids.workflowID ids.projectID
      let (subscriber, prepared) ← resolveWorkflowSubscriber prepared ids
      prepareForSubscriber s ids.projectID workflow subscriber prepared

/-! ### Direct sends -/

/-- `normalizeChannels`. -/
def normalizeChannels (channels : List String) : List String :=
  channels.foldl (fun result channel =>
    let normalized := toLower (trimSpace channel)
    if normalized ∈ ["email", "sms", "push"] ∧ normalized ∉ result then result ++ [normalized]
    else result) []

/-- `validateRecipientForChannels`. -/
def validateRecipientForChannels (recipient : Recipient) : List String → Except GoError Unit
  | [] => .ok ()
  | channel :: rest =>
      if channel = "email" ∧ trimSpace recipient.email = "" then
        .error (.invalidSend "email recipient is required for email channel")
      else if channel = "sms" ∧ trimSpace recipient.phoneNumber = "" then
        .error (.invalidSend "phone_number is required for sms channel")
      else if channel = "push" ∧ recipient.pushTokens = [] then
        .error (.invalidSend "push_tokens are required for push channel")
      else validateRecipientForChannels recipient rest

/-- The end of `PrepareJob`: a direct send. -/
def prepareDirectJob (prepared : NotificationJob) : Except GoError NotificationJob :=
  if prepared.title = "" ∨ prepared.message = "" then
    .error (.invalidSend "title and message are required")
  else
    let channels := normalizeChannels (prepared.channels.getD [])
    if channels = [] then .error (.invalidSend "at least one channel is required")
    else do
      validateRecipientForChannels prepared.recipient channels
      return { prepared with channels := some channels }

/-- The part of `PrepareJob` after "to" has been resolved. -/
def prepareResolved (s : Service) (prepared : NotificationJob) : Act NotificationJob :=
  if prepared.workflowID ≠ "" ∧ prepared.subscriberID ≠ "" then
    if prepared.projectID = "" then
      fail (.invalidSend "workflow-based sends require project-scoped authentication")
    else prepareWorkflowJob s prepared
  else ofExcept (prepareDirectJob prepared)

/-- The trimmed job. -/
def trimJob (job : NotificationJob) : NotificationJob :=
  { job with
    title := trimSpace job.title
    message := trimSpace job.message
    workflowID := trimSpace job.workflowID
    subscriberID := trimSpace job.subscriberID }

/-- `PrepareJob`. -/
def prepareJob (s : Service) (job : NotificationJob) : Act NotificationJob :=
  match job.toSubscriber with
  | none => prepareResolved s (trimJob job)
  | some target => do
      let prepared ← resolveToAndBuildRecipient (trimJob job) target
      prepareResolved s prepared

/-! ### The calls of a send to a known subscriber -/

section Calls

variable {P : Op → Prop} {s : Service} {projectID : UUID} {workflow : WorkflowRecord}
  {subscriber : Subscriber}

theorem calls_fetch {op : Op} {missing : String} (h : P op) : Calls P (fetch op missing) := by
  refine (calls_ask h).bind ?_
  rintro (e | row)
  · cases e <;> exact calls_fail _
  · exact calls_ret _

/-- Only linked templates are read. -/
theorem calls_prepareChannels (templateIDs : List (String × String))
    (hP : ∀ channel id,
      UUID.parse (trimSpace ((Json.lookup templateIDs channel).getD "")) = some id →
      trimSpace ((Json.lookup templateIDs channel).getD "") ≠ "" →
      P (.getTemplateByID id projectID))
    (vars : List (String × Json)) (channels : List String) (d : Delivery) :
    Calls P (prepareChannels s projectID workflow subscriber templateIDs vars channels d) := by
  induction channels generalizing d with
  | nil => exact calls_ret _
  | cons channel rest ih =>
      refine Calls.bind ?_ ih
      unfold prepareChannel
      split
      · exact calls_ret _
      · dsimp only
        split
        · exact calls_ret _
        · next hne =>
          split
          · exact calls_fail _
          · next id hid =>
            refine (calls_ask (hP channel id hid hne)).bind ?_
            rintro (e | template)
            · cases e <;> first | exact calls_ret _ | exact calls_fail _
            · exact calls_ofExcept _

/-- Once the rows are known, only templates are read. -/
theorem calls_prepareForSubscriber
    (hP : ∀ id environmentID, P (.getTemplateByID id environmentID)) (job : NotificationJob) :
    Calls P (prepareForSubscriber s projectID workflow subscriber job) := by
  refine Calls.bind ?_ fun _ => calls_ret _
  unfold prepareWorkflowDelivery
  split
  · exact calls_fail _
  · exact calls_prepareChannels _ (fun _ _ _ _ => hP ..) ..

/-- The calls after "to" has been resolved.  A system user is not looked up among the
subscribers. -/
theorem calls_afterTo {job : NotificationJob}
    (hworkflow : ∀ id environmentID, P (.getWorkflowByID id environmentID))
    (huser : ∀ id, P (.getUserByID id))
    (hsubscriber : job.isSystemUser = false →
      ∀ id environmentID, P (.getSubscriberByID id environmentID))
    (htemplate : ∀ id environmentID, P (.getTemplateByID id environmentID)) :
    Calls P (prepareResolved s job) := by
  unfold prepareResolved
  split
  · split
    · exact calls_fail _
    · unfold prepareWorkflowJob
      split
      · exact calls_fail _
      · refine (calls_fetch (hworkflow ..)).bind fun _ => Calls.bind ?_ ?_
        · unfold resolveWorkflowSubscriber
          split
          · split
            · exact calls_fail _
            · split
              · exact calls_fail _
              · exact (calls_fetch (huser _)).bind fun _ => calls_ret _
          · next hsys =>
            apply Calls.bind
            · exact calls_fetch (hsubscriber (Bool.eq_false_iff.mpr hsys) ..)
            · exact fun _ => calls_ret _
        · exact fun _ => calls_prepareForSubscriber htemplate _
  · exact calls_ofExcept _

end Calls

end Iwifunni.Notification
