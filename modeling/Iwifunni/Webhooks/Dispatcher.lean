/-
Iwifunni/Webhooks/Dispatcher.lean

Webhooks (`webhooks/dispatcher.go`, `webhooks/worker.go`).

    Dispatch     one job for each active webhook that lists the event
    Execute      look at the webhook again, post the payload, record what has come of it
    handle       tell the queue whether the job is to be tried again

An attempt is classified three times: by the status of its `webhook_deliveries` row, by
whether the error of `Execute` wraps `ErrInvalidWebhookJob`, and by whether `handle` joins
it with `SkipRetry`.
-/
import Iwifunni.Effect.Prog
import Iwifunni.Go.Quote
import Iwifunni.Types

namespace Iwifunni.Webhooks

open Go Db Effect Effect.Prog

/-! ### Records -/

/-- A row of `webhooks`. -/
structure Webhook where
  id : UUID
  environmentID : UUID
  url : String
  secret : String
  events : List String
  isActive : Bool
  deriving DecidableEq

/-- The status of a webhook delivery. -/
inductive DeliveryStatus
  | sent
  | failed
  deriving DecidableEq

/-- A row of `webhook_deliveries`. -/
structure WebhookDelivery where
  id : UUID
  webhookID : UUID
  event : String
  payload : List UInt8
  status : DeliveryStatus
  responseCode : Option ℤ
  errorMessage : Option String
  attemptedAt : Time
  deriving DecidableEq

structure WebhookDeliveryJob where
  jobID : String := ""
  webhookID : String
  projectID : String
  event : String
  payload : List UInt8
  deriving DecidableEq

structure EventPayload where
  event : String
  notificationID : String := ""
  environmentID : String
  reason : String := ""
  timestamp : String

/-- The errors of the module, as far as they are told apart. -/
inductive WebhookError
  /-- `invalidWebhookJob(message)`, which wraps `ErrInvalidWebhookJob` -/
  | invalidWebhookJob (message : String)
  /-- `pgx.ErrNoRows` -/
  | noRows
  /-- `errors.Join(asynq.SkipRetry, err)` -/
  | skipRetry (err : WebhookError)
  | other (text : String)
  deriving DecidableEq

namespace WebhookError

/-- `err.Error()`. -/
def text : WebhookError → String
  | invalidWebhookJob message => "invalid webhook delivery job: " ++ message
  | noRows => "no rows in result set"
  | skipRetry err => "skip retry for the task\n" ++ err.text
  | other text => text

/-- `errors.Is(err, ErrInvalidWebhookJob)`. -/
def isInvalidWebhookJob : WebhookError → Bool
  | invalidWebhookJob _ => true
  | skipRetry err => err.isInvalidWebhookJob
  | _ => false

/-- `errors.Is(err, asynq.SkipRetry)`. -/
def isSkipRetry : WebhookError → Bool
  | skipRetry _ => true
  | _ => false

end WebhookError

open WebhookError

/-! ### HTTP -/

/-- A POST of a payload with its headers. -/
structure Request where
  url : String
  contentType : String
  signature : String
  body : List UInt8
  deriving DecidableEq

/-- The final response; a status line has three digits. -/
structure Response where
  statusCode : ℕ
  three : statusCode < 1000
  deriving DecidableEq

/-- The conversion to `int32`. -/
def int32 (n : ℤ) : ℤ := n.bmod (2 ^ 32)

theorem int32_statusCode (resp : Response) : int32 resp.statusCode = resp.statusCode := by
  have hthree := resp.three
  rw [int32, Int.bmod_eq_of_le] <;> omega

/-! ### Calls -/

inductive Op
  | listActiveWebhooksForEvent (environmentID : UUID) (event : String)
  | getWebhookByID (id environmentID : UUID)
  | insertWebhookDelivery (arg : WebhookDelivery)
  | enqueueWebhook (job : WebhookDeliveryJob)
  /-- `http.NewRequestWithContext`, a POST -/
  | newRequest (url : String) (body : List UInt8)
  /-- `client.Do` -/
  | clientDo (req : Request)
  | newUUID
  | now

/-- The answer of a call that succeeds. -/
abbrev Op.Res : Op → Type
  | listActiveWebhooksForEvent _ _ => List Webhook
  | getWebhookByID _ _ => Webhook
  | insertWebhookDelivery _ => Unit
  | enqueueWebhook _ => Unit
  | newRequest _ _ => Unit
  | clientDo _ => Response
  | newUUID => UUID
  | now => Time

abbrev Act (α : Type) : Type := Prog Op.Res WebhookError α

/-! ### Dispatching -/

structure Dispatcher where
  /-- Is there a queue producer? -/
  enqueuer : Bool
  /-- The HMAC with SHA-256, of a key and a message. -/
  hmacSHA256 : List UInt8 → List UInt8 → List UInt8

/-- The bytes of a text. -/
def bytes (s : String) : List UInt8 := s.toList.flatMap String.utf8EncodeChar

/-- One field of a JSON object; with `omitempty` an empty text is left out. -/
def jsonField (name value : String) (omitempty : Bool) : List String :=
  if omitempty = true ∧ value = "" then [] else [quote name ++ ":" ++ quote value]

/-- `json.Marshal(payload)`; a struct of texts is never refused. -/
def EventPayload.marshal (p : EventPayload) : List UInt8 :=
  let fields := jsonField "event" p.event false ++
    jsonField "notification_id" p.notificationID true ++
    jsonField "environment_id" p.environmentID false ++
    jsonField "reason" p.reason true ++
    jsonField "timestamp" p.timestamp false
  bytes ("\x7b" ++ join "," fields ++ "\x7d")

/-- The loop of `Dispatch`; a job that is not enqueued is logged. -/
def enqueueAll (environmentID : UUID) (event : String) (payload : List UInt8) :
    List Webhook → Act Unit
  | [] => ret ()
  | wh :: rest => do
      let _ ← ask (Op.enqueueWebhook {
        webhookID := wh.id.toString
        projectID := environmentID.toString
        event := event
        payload := payload })
      enqueueAll environmentID event payload rest

/-- `Dispatch`. -/
def dispatch (d : Dispatcher) (environmentID : UUID) (event : String) (payload : EventPayload) :
    Act Unit :=
  if d.enqueuer = false then ret ()
  else do
    match ← ask (Op.listActiveWebhooksForEvent environmentID event) with
    | .error _ => ret ()
    | .ok webhooks => enqueueAll environmentID event payload.marshal webhooks

/-! ### Executing -/

def hexEncode (bs : List UInt8) : String :=
  String.ofList (bs.flatMap fun b => [Nat.digitChar (b.toNat / 16), Nat.digitChar (b.toNat % 16)])

def sign (d : Dispatcher) (payload : List UInt8) (secret : String) : String :=
  hexEncode (d.hmacSHA256 (bytes secret) payload)

/-- `containsEvent`. -/
def containsEvent (events : List String) (event : String) : Bool :=
  events.any fun candidate => trimSpace candidate == event

/-- `recordDelivery`; an INSERT that fails is logged. -/
def recordDelivery (webhookID : UUID) (event : String) (payload : List UInt8)
    (status : DeliveryStatus) (responseCode : Option ℤ) (errMsg : String) : Act Unit := do
  let id ← perform Op.newUUID
  let attemptedAt ← perform Op.now
  let _ ← ask (Op.insertWebhookDelivery {
    id := id
    webhookID := webhookID
    event := event
    payload := payload
    status := status
    responseCode := responseCode
    errorMessage := if errMsg = "" then none else some errMsg
    attemptedAt := attemptedAt })
  ret ()

/-- The end of `deliver`, once the endpoint has answered. -/
def answered (wh : Webhook) (event : String) (payload : List UInt8) (code : ℤ) : Act Unit := do
  let status := if code < 200 ∨ 300 ≤ code then DeliveryStatus.failed else .sent
  let errMsg := if code < 200 ∨ 300 ≤ code then "unexpected status code: " ++ code.repr else ""
  recordDelivery wh.id event payload status (some code) errMsg
  if status = .sent then ret ()
  else if 400 ≤ code ∧ code < 500 then fail (invalidWebhookJob errMsg)
  else fail (.other errMsg)

/-- `deliver`. -/
def deliver (d : Dispatcher) (wh : Webhook) (event : String) (payload : List UInt8) :
    Act Unit := do
  let sig := sign d payload wh.secret
  match ← ask (Op.newRequest wh.url payload) with
  | .error err => do
      recordDelivery wh.id event payload .failed none ("create request: " ++ err.text)
      fail (invalidWebhookJob "failed to create request")
  | .ok () => do
      match ← ask (Op.clientDo {
        url := wh.url
        contentType := "application/json"
        signature := "sha256=" ++ sig
        body := payload }) with
      | .error err => do
          recordDelivery wh.id event payload .failed none ("http error: " ++ err.text)
          fail (.other ("webhook request failed: " ++ err.text))
      | .ok resp => answered wh event payload (int32 resp.statusCode)

/-- The end of `Execute`, once the webhook has been found. -/
def executeFound (d : Dispatcher) (wh : Webhook) (event : String) (payload : List UInt8) :
    Act Unit :=
  if wh.isActive = false then do
    recordDelivery wh.id event payload .failed none "webhook is inactive"
    fail (invalidWebhookJob "webhook is inactive")
  else if containsEvent wh.events event = false then do
    recordDelivery wh.id event payload .failed none "webhook is not subscribed to event"
    fail (invalidWebhookJob "webhook is not subscribed to event")
  else deliver d wh event payload

/-- `Execute`, once the webhook has been read. -/
def executeRead (d : Dispatcher) (event : String) (payload : List UInt8) :
    Except WebhookError Webhook → Act Unit
  | .error .noRows => fail (invalidWebhookJob "webhook not found")
  | .error err => fail err
  | .ok wh => executeFound d wh event payload

/-- `Execute`. -/
def execute (d : Dispatcher) : Option WebhookDeliveryJob → Act Unit
  | none => fail (invalidWebhookJob "webhook delivery payload is required")
  | some job =>
      let event := trimSpace job.event
      let projectID := trimSpace job.projectID
      let webhookID := trimSpace job.webhookID
      if event = "" ∨ projectID = "" ∨ webhookID = "" ∨ job.payload = [] then
        fail (invalidWebhookJob "webhook_id, project_id, event, and payload are required")
      else
        match UUID.parse projectID with
        | none => fail (invalidWebhookJob "invalid project_id")
        | some environmentID =>
            match UUID.parse webhookID with
            | none => fail (invalidWebhookJob "invalid webhook_id")
            | some webhookID => do
                let row ← ask (Op.getWebhookByID webhookID environmentID)
                executeRead d event job.payload row

/-! ### The worker -/

/-- `Worker.handle`, of what `json.Unmarshal` makes of the payload of a task. -/
def handle (d : Dispatcher) : Except String WebhookDeliveryJob → Act Unit
  | .error text => fail (.skipRetry (.other ("invalid webhook job payload: " ++ text)))
  | .ok job => do
      match ← (execute d (some job)).outcome with
      | .error err => if err.isInvalidWebhookJob = true then fail (.skipRetry err) else fail err
      | .ok () => ret ()

/-- The queue tries a job again if its handler has failed without `SkipRetry`. -/
def Retried (out : Except WebhookError Unit) : Prop := ∃ err, out = .error err ∧ err.isSkipRetry = false

instance (out : Except WebhookError Unit) : Decidable (Retried out) :=
  match out with
  | .ok () => isFalse (by rintro ⟨err, h, -⟩; cases h)
  | .error err =>
      if h : err.isSkipRetry = false then isTrue ⟨err, rfl, h⟩
      else isFalse (by rintro ⟨err', he, herr⟩; cases he; exact h herr)

/-! ### The database, the queue and the endpoints -/

structure World where
  webhooks : List Webhook
  deliveries : List WebhookDelivery
  queue : List WebhookDeliveryJob

namespace World

/-- `ListActiveWebhooksForEvent`: the database compares the texts as they are. -/
def listActive (w : World) (environmentID : UUID) (event : String) : List Webhook :=
  w.webhooks.filter fun wh =>
    wh.environmentID == environmentID && wh.isActive && wh.events.contains event

/-- `GetWebhookByID`. -/
def webhookByID (w : World) (id environmentID : UUID) : Option Webhook :=
  w.webhooks.find? fun wh => wh.id == id && wh.environmentID == environmentID

def getWebhook (w : World) (id environmentID : UUID) : Except WebhookError Webhook :=
  match w.webhookByID id environmentID with
  | some wh => .ok wh
  | none => .error .noRows

def record (w : World) (row : WebhookDelivery) : World :=
  { w with deliveries := w.deliveries ++ [row] }

/-- `EnqueueWebhook` puts in a job id where there is none. -/
def enqueue (w : World) (job : WebhookDeliveryJob) (jobID : String) : World :=
  { w with queue := w.queue ++ [{ job with jobID := if job.jobID = "" then jobID else job.jobID }] }

end World

/-- The calls that may fail. -/
def Op.fallible : Op → Bool
  | newUUID | now => false
  | _ => true

/-- `Call op w r w'`: the call may be answered by `r` and leave the world `w'`. -/
inductive Call : (op : Op) → World → Except WebhookError op.Res → World → Prop
  | list (environmentID event w) :
      Call (.listActiveWebhooksForEvent environmentID event) w
        (.ok (w.listActive environmentID event)) w
  | get (id environmentID w) :
      Call (.getWebhookByID id environmentID) w (w.getWebhook id environmentID) w
  | insert (arg w) : Call (.insertWebhookDelivery arg) w (.ok ()) (w.record arg)
  | enqueue (job w jobID) : Call (.enqueueWebhook job) w (.ok ()) (w.enqueue job jobID)
  | newRequest (url body w) : Call (.newRequest url body) w (.ok ()) w
  | clientDo (req w resp) : Call (.clientDo req) w (.ok resp) w
  | newUUID (w id) : Call .newUUID w (.ok id) w
  | now (w t) : Call .now w (.ok t) w
  | fault {op} (h : op.fallible = true) (w) (text : String) : Call op w (.error (.other text)) w

/-! ### Single runs -/

/-- What a run does not decide itself: which urls are refused, and what is answered. -/
structure Outside where
  refuses : String → Option String := fun _ => none
  responds : Request → Except String Response

/-- The answer to a call when no statement fails. -/
def Outside.answer (o : Outside) : (op : Op) → World → Except WebhookError op.Res × World
  | .listActiveWebhooksForEvent environmentID event, w => (.ok (w.listActive environmentID event), w)
  | .getWebhookByID id environmentID, w => (w.getWebhook id environmentID, w)
  | .insertWebhookDelivery arg, w => (.ok (), w.record arg)
  | .enqueueWebhook job, w => (.ok (), w.enqueue job "job")
  | .newRequest url _, w => match o.refuses url with
    | some text => (.error (.other text), w)
    | none => (.ok (), w)
  | .clientDo req, w => match o.responds req with
    | .error text => (.error (.other text), w)
    | .ok resp => (.ok resp, w)
  | .newUUID, w => (.ok (UUID.ofDigit 0), w)
  | .now, w => (.ok 0, w)

/-- Circumstances answer as database, queue and endpoint may. -/
theorem Outside.call_answer (o : Outside) (op : Op) (w : World) :
    Call op w (o.answer op w).1 (o.answer op w).2 := by
  cases op with
  | listActiveWebhooksForEvent => apply Call.list
  | getWebhookByID => apply Call.get
  | insertWebhookDelivery => apply Call.insert
  | enqueueWebhook => apply Call.enqueue
  | newRequest url body =>
      simp only [answer]
      split
      · exact .fault rfl ..
      · exact .newRequest ..
  | clientDo req =>
      simp only [answer]
      split
      · exact .fault rfl ..
      · exact .clientDo ..
  | newUUID => apply Call.newUUID
  | now => apply Call.now

end Iwifunni.Webhooks
