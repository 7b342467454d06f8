/-
Iwifunni/Notification/Delivery.lean

`Service.Send` and `CreateQueuedNotification` (`service.go`, `delivery.go`).

`send` writes the notification row under its job id, delivers one channel after
the other, and writes the final status.  Errors of a single channel are counted,
not returned:

    upsert 'pending'  ->  skipped channels  ->  channels  ->  final status  ->  webhook

A row that comes back from the upsert with a final status ends the delivery.
-/
import Iwifunni.Notification.Service

namespace Iwifunni.Notification

open Go Db Effect Effect.Prog Store

/-! ### Statuses -/

/-- `finalNotificationStatus`. -/
def finalNotificationStatus (successCount failureCount skippedCount : ℕ) :
    NotificationStatus :=
  if successCount = 0 ∧ failureCount = 0 ∧ 0 < skippedCount then .skipped
  else if 0 < successCount ∧ failureCount = 0 ∧ 0 < skippedCount then .partialSkipped
  else if 0 < successCount ∧ failureCount = 0 then .sent
  else if 0 < successCount then .partialFailed
  else .failed

/-- `isTerminalNotificationStatus`. -/
def isTerminalNotificationStatus : NotificationStatus → Bool
  | .sent | .failed | .partialFailed | .partialSkipped | .skipped => true
  | .queued | .pending => false

/-- A delivery ends in a final status. -/
@[simp] theorem isTerminal_final (successCount failureCount skippedCount : ℕ) :
    isTerminalNotificationStatus
      (finalNotificationStatus successCount failureCount skippedCount) = true := by
  unfold finalNotificationStatus
  repeat' split
  all_goals rfl

/-! ### Delivery attempts -/

/-- Write a delivery attempt. -/
def recordAttempt (notificationID : UUID) (channel destination : String)
    (status : AttemptStatus) (errorMessage : Option String) : Act Unit := do
  let id ← perform Op.newUUID
  let nowTs ← perform Op.now
  perform (Op.insertDeliveryAttempt {
    id := id
    notificationID := notificationID
    channel := channel
    destination := destination
    status := status
    errorMessage := errorMessage
    attemptedAt := nowTs })

/-- `recordSkipped`. -/
def recordSkipped (notificationID : UUID) (channel reason : String) : Act Unit :=
  recordAttempt notificationID channel "" .skipped (some reason)

/-- `recordSuccess`. -/
def recordSuccess (notificationID : UUID) (channel destination : String) : Act Unit :=
  recordAttempt notificationID channel destination .sent none

/-- `recordFailed`: an attempt that cannot be written is passed over, and the error
of the attempt handed on. -/
def recordFailed (notificationID : UUID) (channel destination : String)
    (attemptErr : GoError) : Act (Option GoError) := do
  let _ ← (recordAttempt notificationID channel destination .failed
    (some attemptErr.text)).outcome
  ret (some attemptErr)

/-! ### One channel -/

/-- The providers of `registry.NewDefault`. -/
def registeredProviders : List String :=
  ["smtp", "sendgrid", "brevo", "brevo-sms", "termii", "twilio", "fcm", "webpush",
    "demo-email", "demo-sms"]

/-- `buildProjectProviderConfig`: the config, with the decrypted credentials merged
into it. -/
def buildProjectProviderConfig (s : Service) (provider : Integration) :
    Except GoError (Option Json) :=
  match Json.unmarshal provider.credentials (Json.toStr "") with
  | .error _ => .ok provider.config
  | .ok encrypted =>
      if trimSpace encrypted = "" then .ok provider.config
      else if trimSpace s.encryptionKey = "" then
        .error (.other "integration encryption key is not configured")
      else match s.decrypt encrypted s.encryptionKey with
        | .error text =>
            .error (.other ("failed to decrypt integration credentials: " ++ text))
        | .ok decrypted =>
            let stored : Except DecodeError (List (String × Json)) := match provider.config with
              | none => .ok []
              | some v => v.toMap
            match stored with
            | .error text => .error (.other ("invalid provider config: " ++ text))
            | .ok merged => match decrypted.toMap with
              | .error text =>
                  .error (.other ("invalid decrypted provider credentials: " ++ text))
              | .ok credentials => .ok (some (.obj
                  (credentials.foldl (fun merged f => Json.insert merged f.1 f.2) merged)))

/-- The attempts a provider reports, written one after the other. -/
def recordAttempts (notificationID : UUID) (channel : String) :
    List ProviderAttempt → Act Unit
  | [] => ret ()
  | a :: rest => do
      let _ ← (match a.err with
        | some e => do
            let _ ← recordFailed notificationID channel a.destination e
            ret ()
        | none => recordSuccess notificationID channel a.destination).outcome
      recordAttempts notificationID channel rest

/-- `deliverProjectChannel`: the error it returns, if any. -/
def deliverProjectChannel (s : Service) (projectID notificationID : UUID) (channel : String)
    (job : NotificationJob) : Act (Option GoError) := do
  let failWith (text : String) := recordFailed notificationID channel "" (.other text)
  match ← ask (Op.listByChannel projectID channel) with
  | .error e => failWith ("no active provider for channel " ++ channel ++ ": " ++ e.text)
  | .ok providers =>
  match providers.find? fun r => r.isActive && registeredProviders.contains r.name with
  | none => failWith ("no active provider for channel " ++ channel)
  | some provider =>
  match buildProjectProviderConfig s provider with
  | .error e => recordFailed notificationID channel "" e
  | .ok config => do
      let (attempts, err) ← perform (Op.send provider.name job config)
      recordAttempts notificationID channel attempts
      match err with
      | some e => recordFailed notificationID channel "" e
      | none => ret none

/-! ### The delivery of a job -/

/-- The counts of a delivery. -/
structure Tally where
  successCount : ℕ := 0
  failureCount : ℕ := 0
  deliveryErrors : List String := []

/-- The loop of `send` over the skipped channels. -/
def recordSkippedChannels (notificationID : UUID) : List SkippedChannel → Act Unit
  | [] => ret ()
  | skipped :: rest => do
      let _ ← (recordSkipped notificationID skipped.channel skipped.reason).outcome
      recordSkippedChannels notificationID rest

/-- Count the error a channel returned. -/
def Tally.add (reportErrors : Bool) (channel : String) (t : Tally) : Option GoError → Tally
  | none => { t with successCount := t.successCount + 1 }
  | some e => { t with
      failureCount := t.failureCount + 1
      deliveryErrors := if reportErrors then t.deliveryErrors ++ [channel ++ ": " ++ e.text]
        else t.deliveryErrors }

/-- The loop of `send` over the channels. -/
def deliverChannels (s : Service) (projectID notificationID : UUID) (job : NotificationJob)
    (reportErrors : Bool) : List String → Tally → Act Tally
  | [], t => ret t
  | channel :: rest, t => do
      let err ← deliverProjectChannel s projectID notificationID channel job
      deliverChannels s projectID notificationID job reportErrors rest
        (t.add reportErrors channel err)

/-- The name of the webhook event for a final status. -/
def webhookEvent (status : NotificationStatus) : String :=
  if status = .failed ∨ status = .skipped then "notification.failed" else "notification.sent"

/-- The part of `send` after the upsert. -/
def deliverJob (s : Service) (projectID : UUID) (notification : Notification)
    (job : NotificationJob) (reportErrors : Bool) : Act (UUID × Option GoError) :=
  if isTerminalNotificationStatus notification.status then ret (notification.id, none)
  else do
    recordSkippedChannels notification.id job.skippedChannels
    let t ← deliverChannels s projectID notification.id job reportErrors
      (job.channels.getD []) {}
    let status := finalNotificationStatus t.successCount t.failureCount
      job.skippedChannels.length
    let nowTs ← perform Op.now
    match ← ask (Op.updateStatus notification.id status nowTs) with
    | .error e => ret (notification.id, some e)
    | .ok _ => do
        if s.dispatcher then do
          let timestamp ← perform Op.now
          perform (Op.dispatch projectID (webhookEvent status) notification.id timestamp)
        else ret ()
        if reportErrors && !t.deliveryErrors.isEmpty then
          ret (notification.id, some (.other (join "; " t.deliveryErrors)))
        else ret (notification.id, none)

/-- The row `send` and `CreateQueuedNotification` upsert. -/
def notificationRow (job : NotificationJob) (projectID id : UUID)
    (status : NotificationStatus) (nowTs : Time) : Notification where
  id := id
  jobID := job.jobID
  environmentID := projectID
  title := job.title
  message := job.message
  channels := job.channels.getD []
  recipient := job.recipient
  metadata := job.metadata
  status := status
  isTest := job.isTest
  createdAt := nowTs
  updatedAt := nowTs

/-- `send`: the notification id and the error it returns; failing stands for an
error with the nil id.  The job is changed in place by trimming its id. -/
def send (s : Service) (job : NotificationJob) (reportErrors : Bool) :
    Act (Option UUID × Option GoError) :=
  let job := { job with jobID := trimSpace job.jobID }
  if job.jobID = "" then fail (.invalidSend "job_id is required")
  else do
    let nowTs ← perform Op.now
    if job.projectID = "" then ret (none, none)
    else match UUID.parse job.projectID with
      | none => fail (.other "invalid project_id")
      | some projectID => do
          let id ← perform Op.newUUID
          let notification ← perform (Op.upsertByProjectJob
            (notificationRow job projectID id .pending nowTs))
          let (notificationID, err) ← deliverJob s projectID notification job reportErrors
          ret (some notificationID, err)

/-- `Service.Send`. -/
def Service.send (s : Service) (job : NotificationJob) : Act Unit := do
  let (_, err) ← Notification.send s job false
  match err with
  | some e => fail e
  | none => ret ()

/-- `CreateQueuedNotification`. -/
def createQueuedNotification (job : NotificationJob) (notificationID : UUID) : Act Unit := do
  let nowTs ← perform Op.now
  match UUID.parse job.projectID with
  | none => fail (.other "invalid UUID")
  | some projectID => do
      let _ ← perform (Op.upsertByProjectJob
        (notificationRow job projectID notificationID .queued nowTs))
      ret ()

end Iwifunni.Notification
