/-
Iwifunni/Webhooks/Recorded.lean

One row for each attempt, and a retry exactly where one can help.

    the endpoint               row       error of Execute         retried
    is not asked               failed    ErrInvalidWebhookJob     no
    cannot be reached          failed    another                  yes
    answers 2xx                sent      none                     no
    answers 4xx                failed    ErrInvalidWebhookJob     no
    answers anything else      failed    another                  yes

`Ends` is this table.  The subscription is tested by the database when a job is made and by
`containsEvent` when it is executed; the second test trims both sides, so it passes
whenever the first one did.  A job without an event or a payload is turned away before the
webhook is looked at, and leaves no row.
-/
import Iwifunni.Webhooks.Dispatcher

namespace Iwifunni.Webhooks

open Go Db Effect Effect.Prog WebhookError

/-! ### What a log says -/

/-- The statements on the database. -/
def Op.onStore : Op → Bool
  | listActiveWebhooksForEvent _ _ | getWebhookByID _ _ | insertWebhookDelivery _ => true
  | _ => false

/-- No statement on the database has failed. -/
def Served (log : List (Answered Op.Res WebhookError)) : Prop :=
  ∀ op text, op.onStore = true → (⟨op, .error (.other text)⟩ : Answered Op.Res WebhookError) ∉ log

/-- What has come back from an endpoint. -/
def reply : Answered Op.Res WebhookError → Option (Except WebhookError Response)
  | ⟨.clientDo _, r⟩ => some r
  | _ => none

/-- What has come back from the endpoints, in order. -/
def replies (log : List (Answered Op.Res WebhookError)) : List (Except WebhookError Response) :=
  log.filterMap reply

/-- The status code is one of success. -/
def Response.Success (resp : Response) : Prop := 200 ≤ resp.statusCode ∧ resp.statusCode < 300

/-- The status code blames the request. -/
def Response.Rejection (resp : Response) : Prop := 400 ≤ resp.statusCode ∧ resp.statusCode < 500

section Log

variable {log log' : List (Answered Op.Res WebhookError)}

theorem Served.mono (h : Served log) (hlog : ∀ c ∈ log', c ∈ log) : Served log' :=
  fun op text hop hmem => h op text hop (hlog _ hmem)

theorem Served.tail {c : Answered Op.Res WebhookError} (h : Served (c :: log)) : Served log :=
  h.mono fun _ hc => List.mem_cons_of_mem _ hc

theorem Served.left (h : Served (log ++ log')) : Served log :=
  h.mono fun _ hc => List.mem_append_left _ hc

@[simp] theorem replies_append : replies (log ++ log') = replies log ++ replies log' :=
  List.filterMap_append ..

/-- Calls that post nothing bring nothing back. -/
theorem replies_eq_nil (h : ∀ c ∈ log, ∀ req, c.1 ≠ .clientDo req) : replies log = [] := by
  refine List.filterMap_eq_nil_iff.mpr ?_
  rintro ⟨op, r⟩ hc
  cases op with
  | clientDo req => exact absurd rfl (h _ hc req)
  | _ => rfl

end Log

/-! ### Recording -/

/-- One row is recorded. -/
def Records (w w' : World) (webhookID : UUID) (event : String) (payload : List UInt8)
    (status : DeliveryStatus) : Prop :=
  ∃ row : WebhookDelivery, w' = w.record row ∧ row.webhookID = webhookID ∧ row.event = event ∧
    row.payload = payload ∧ row.status = status

/-- A call that cannot fail does not change anything either. -/
theorem call_infallible {op : Op} {r : Except WebhookError op.Res} {w w' : World}
    (h : Call op w r w') (hop : op.fallible = false) : (∃ a, r = .ok a) ∧ w' = w := by
  cases h with
  | newUUID => exact ⟨⟨_, rfl⟩, rfl⟩
  | now => exact ⟨⟨_, rfl⟩, rfl⟩
  | fault hfallible =>
      rw [hop] at hfallible
      cases hfallible
  | _ => cases hop

theorem runs_infallible {β : Type} {op : Op} {f : op.Res → Act β} {w w' : World} {log}
    {out : Except WebhookError β} (h : Runs Call (perform op >>= f) w log (ofExcept out) w')
    (hop : op.fallible = false) :
    ∃ a log', log = ⟨op, .ok a⟩ :: log' ∧ Runs Call (f a) w log' (ofExcept out) w' := by
  rcases runs_perform_bind h with ⟨e, -, hcall, -⟩ | ⟨a, w₁, log', rfl, hcall, h'⟩
  · obtain ⟨⟨a, ha⟩, -⟩ := call_infallible hcall hop
    cases ha
  · obtain ⟨-, rfl⟩ := call_infallible hcall hop
    exact ⟨a, log', rfl, h'⟩

section Attempt

variable {d : Dispatcher} {wh : Webhook} {webhookID : UUID} {event : String}
  {payload : List UInt8} {w w' : World} {log : List (Answered Op.Res WebhookError)}
  {out : Except WebhookError Unit}

/-- Recording, and what follows it. -/
theorem runs_recordDelivery {β : Type} {status : DeliveryStatus} {responseCode : Option ℤ}
    {errMsg : String} {f : Unit → Act β} {out : Except WebhookError β}
    (h : Runs Call (recordDelivery webhookID event payload status responseCode errMsg >>= f)
      w log (ofExcept out) w')
    (hserved : Served log) :
    ∃ w₁ log₁ log₂, log = log₁ ++ log₂ ∧ Records w w₁ webhookID event payload status ∧
      replies log₁ = [] ∧ Runs Call (f ()) w₁ log₂ (ofExcept out) w' := by
  rw [recordDelivery, bind_assoc] at h
  obtain ⟨id, log₁, rfl, h₁⟩ := runs_infallible h rfl
  rw [bind_assoc] at h₁
  obtain ⟨attemptedAt, log₂, rfl, h₂⟩ := runs_infallible h₁ rfl
  rw [bind_assoc] at h₂
  obtain ⟨r, w₁, log₃, rfl, hcall, h₃⟩ := runs_ask_bind h₂
  refine ⟨w₁, [⟨.newUUID, .ok id⟩, ⟨.now, .ok attemptedAt⟩, ⟨.insertWebhookDelivery _, r⟩], log₃,
    rfl, ?_, rfl, h₃⟩
  cases hcall with
  | insert => exact ⟨_, rfl, rfl, rfl, rfl, rfl⟩
  | fault _ _ text => exact absurd (List.mem_cons_self ..) (hserved.tail.tail _ text rfl)

/-- An attempt that ends with recording a failure. -/
theorem runs_recordFailed {errMsg : String} {err : WebhookError}
    (h : Runs Call (recordDelivery webhookID event payload .failed none errMsg >>= fun _ => fail err)
      w log (ofExcept out) w')
    (hserved : Served log) :
    Records w w' webhookID event payload .failed ∧ replies log = [] ∧ out = .error err := by
  obtain ⟨w₁, log₁, log₂, rfl, hrecords, hreplies, h⟩ := runs_recordDelivery h hserved
  obtain ⟨rfl, hout, rfl⟩ := runs_fail h
  exact ⟨hrecords, by simpa using hreplies, ofExcept_injective hout⟩

/-! ### How an attempt ends -/

/-- The replies of the endpoint, the status recorded, and what `Execute` returns. -/
inductive Ends : List (Except WebhookError Response) → DeliveryStatus →
    Except WebhookError Unit → Prop
  | unasked (message) : Ends [] .failed (.error (invalidWebhookJob message))
  | unreachable (err text) : Ends [.error err] .failed (.error (.other text))
  | sent {resp} (h : resp.Success) : Ends [.ok resp] .sent (.ok ())
  | rejected {resp} (h : resp.Rejection) (message) :
      Ends [.ok resp] .failed (.error (invalidWebhookJob message))
  | unexpected {resp} (h : ¬ resp.Success) (h' : ¬ resp.Rejection) (text) :
      Ends [.ok resp] .failed (.error (.other text))

/-- An answer is recorded with its status. -/
theorem runs_answered {resp : Response}
    (h : Runs Call (answered wh event payload (int32 resp.statusCode)) w log (ofExcept out) w')
    (hserved : Served log) :
    ∃ status, Records w w' wh.id event payload status ∧ Ends (.ok resp :: replies log) status out := by
  rw [int32_statusCode, answered] at h
  obtain ⟨w₁, log₁, log₂, rfl, hrecords, hreplies, h⟩ := runs_recordDelivery h hserved
  rw [replies_append, hreplies, List.nil_append]
  by_cases hcode : (resp.statusCode : ℤ) < 200 ∨ 300 ≤ (resp.statusCode : ℤ)
  · have hsuccess : ¬ resp.Success := by
      rintro ⟨hlow, hhigh⟩
      omega
    simp only [if_pos hcode, reduceCtorEq, if_false] at h hrecords
    refine ⟨.failed, ?_⟩
    by_cases hrejection : 400 ≤ (resp.statusCode : ℤ) ∧ (resp.statusCode : ℤ) < 500
    · rw [if_pos hrejection] at h
      obtain ⟨rfl, hout, rfl⟩ := runs_fail h
      obtain rfl : out = .error _ := ofExcept_injective hout
      exact ⟨hrecords, .rejected (by rw [Response.Rejection]; omega) _⟩
    · rw [if_neg hrejection] at h
      obtain ⟨rfl, hout, rfl⟩ := runs_fail h
      obtain rfl : out = .error _ := ofExcept_injective hout
      exact ⟨hrecords, .unexpected hsuccess (by rw [Response.Rejection]; omega) _⟩
  · simp only [if_neg hcode, if_true] at h hrecords
    obtain ⟨rfl, hout, rfl⟩ := runs_ret h
    obtain rfl : out = .ok () := ofExcept_injective hout
    exact ⟨.sent, hrecords, .sent (by rw [Response.Success]; omega)⟩

/-- A delivery is recorded once. -/
theorem runs_deliver (h : Runs Call (deliver d wh event payload) w log (ofExcept out) w')
    (hserved : Served log) :
    ∃ status, Records w w' wh.id event payload status ∧ Ends (replies log) status out := by
  obtain ⟨r, w₁, log₁, rfl, hcall₁, h₁⟩ := runs_ask_bind h
  have hw₁ : w₁ = w := by cases hcall₁ <;> rfl
  subst hw₁
  rcases r with err | ⟨⟩
  · obtain ⟨hrecords, hreplies, rfl⟩ := runs_recordFailed h₁ hserved.tail
    refine ⟨.failed, hrecords, ?_⟩
    rw [show replies (_ :: log₁) = replies log₁ from rfl, hreplies]
    exact .unasked _
  · obtain ⟨r, w₂, log₂, rfl, hcall₂, h₂⟩ := runs_ask_bind h₁
    have hw₂ : w₂ = w₁ := by cases hcall₂ <;> rfl
    subst hw₂
    rcases r with err | resp
    · obtain ⟨hrecords, hreplies, rfl⟩ := runs_recordFailed h₂ hserved.tail.tail
      refine ⟨.failed, hrecords, ?_⟩
      rw [show replies (_ :: _ :: log₂) = .error err :: replies log₂ from rfl, hreplies]
      exact .unreachable ..
    · exact runs_answered h₂ hserved.tail.tail

/-- The webhook has been found. -/
theorem runs_executeFound
    (h : Runs Call (executeFound d wh event payload) w log (ofExcept out) w')
    (hserved : Served log) :
    ∃ status, Records w w' wh.id event payload status ∧ Ends (replies log) status out := by
  unfold executeFound at h
  split at h
  · obtain ⟨hrecords, hreplies, rfl⟩ := runs_recordFailed h hserved
    exact ⟨.failed, hrecords, hreplies ▸ .unasked _⟩
  · split at h
    · obtain ⟨hrecords, hreplies, rfl⟩ := runs_recordFailed h hserved
      exact ⟨.failed, hrecords, hreplies ▸ .unasked _⟩
    · exact runs_deliver h hserved

end Attempt

/-! ### Jobs for a webhook -/

/-- The ids of a job are those of a webhook. -/
structure Names (job : WebhookDeliveryJob) (wh : Webhook) : Prop where
  project : UUID.parse (trimSpace job.projectID) = some wh.environmentID
  webhook : UUID.parse (trimSpace job.webhookID) = some wh.id

/-- A job has an event and a payload. -/
structure Filled (job : WebhookDeliveryJob) : Prop where
  event : trimSpace job.event ≠ ""
  payload : job.payload ≠ []

/-- A job with its ids is looked up. -/
theorem execute_eq {d : Dispatcher} {wh : Webhook} {job : WebhookDeliveryJob}
    (hnames : Names job wh) (hfilled : Filled job) :
    execute d (some job) = ask (Op.getWebhookByID wh.id wh.environmentID) >>=
      executeRead d (trimSpace job.event) job.payload := by
  have hne : ∀ {t : String} {id : UUID}, UUID.parse t = some id → t ≠ "" := by
    rintro t id h rfl
    cases h
  simp only [execute]
  rw [if_neg (by simp [hfilled.event, hfilled.payload, hne hnames.project, hne hnames.webhook])]
  simp only [hnames.project, hnames.webhook]

section Jobs

variable {d : Dispatcher} {wh : Webhook} {job : WebhookDeliveryJob} {w w' : World}
  {log : List (Answered Op.Res WebhookError)} {out : Except WebhookError Unit}

/-- A job for a webhook that exists: the webhook is read, and then the attempt is made. -/
theorem runs_execute (hnames : Names job wh) (hfilled : Filled job)
    (hfound : w.webhookByID wh.id wh.environmentID = some wh)
    (h : Runs Call (execute d (some job)) w log (ofExcept out) w') (hserved : Served log) :
    ∃ log', log = ⟨.getWebhookByID wh.id wh.environmentID, .ok wh⟩ :: log' ∧
      Runs Call (executeFound d wh (trimSpace job.event) job.payload) w log' (ofExcept out) w' := by
  rw [execute_eq hnames hfilled] at h
  obtain ⟨r, w₁, log', rfl, hcall, h₁⟩ := runs_ask_bind h
  have hr : r = .ok wh ∧ w₁ = w := by
    cases hcall with
    | get =>
        rw [World.getWebhook, hfound]
        exact ⟨rfl, rfl⟩
    | fault _ _ text => exact absurd (List.mem_cons_self ..) (hserved _ text rfl)
  obtain ⟨rfl, rfl⟩ := hr
  exact ⟨log', rfl, h₁⟩

/-! ### Retries -/

/-- What `handle` makes of the outcome of `Execute`. -/
def verdict : Except WebhookError Unit → Except WebhookError Unit
  | .error err => .error (if err.isInvalidWebhookJob = true then .skipRetry err else err)
  | .ok () => .ok ()

/-- The worker returns its verdict on what the dispatcher returned. -/
theorem runs_handle (h : Runs Call (handle d (.ok job)) w log (ofExcept out) w') :
    ∃ r, Runs Call (execute d (some job)) w log (ofExcept r) w' ∧ out = verdict r := by
  obtain ⟨r, w₁, log₁, log₂, rfl, hexecute, h₁⟩ := runs_outcome_bind h
  have hend : log₂ = [] ∧ w' = w₁ ∧ out = verdict r := by
    rcases r with err | ⟨⟩
    · by_cases hinvalid : err.isInvalidWebhookJob = true
      · simp only [if_pos hinvalid] at h₁
        obtain ⟨hlog, hout, hw⟩ := runs_fail h₁
        have hskip : out = .error (.skipRetry err) := ofExcept_injective hout
        exact ⟨hlog, hw, by rw [hskip, verdict, if_pos hinvalid]⟩
      · simp only [if_neg hinvalid] at h₁
        obtain ⟨hlog, hout, hw⟩ := runs_fail h₁
        have hretry : out = .error err := ofExcept_injective hout
        exact ⟨hlog, hw, by rw [hretry, verdict, if_neg hinvalid]⟩
    · obtain ⟨hlog, hout, hw⟩ := runs_ret h₁
      exact ⟨hlog, hw, ofExcept_injective hout⟩
  obtain ⟨rfl, rfl, rfl⟩ := hend
  rw [List.append_nil]
  exact ⟨r, hexecute, rfl⟩

/-- The endpoint has answered that it took the payload. -/
def Delivered (log : List (Answered Op.Res WebhookError)) : Prop :=
  ∃ resp, .ok resp ∈ replies log ∧ resp.Success

/-- The endpoint has not been reached, or has answered with a code that says neither that
it took the payload nor that the request is to blame. -/
def Transient (log : List (Answered Op.Res WebhookError)) : Prop :=
  (∃ err, .error err ∈ replies log) ∨
    ∃ resp, .ok resp ∈ replies log ∧ ¬ resp.Success ∧ ¬ resp.Rejection

/-- A row says sent exactly if the endpoint has taken it. -/
theorem Ends.sent_iff {status : DeliveryStatus} (h : Ends (replies log) status out) :
    status = .sent ↔ Delivered log := by
  rw [Delivered]
  generalize replies log = rs at h
  cases h with
  | unasked | unreachable => simp
  | sent h => simp [h]
  | rejected h =>
      simp only [reduceCtorEq, false_iff]
      rintro ⟨resp, hmem, hsuccess⟩
      cases List.mem_singleton.mp hmem
      exact absurd h.1 (by have := hsuccess.2; omega)
  | unexpected h => simpa using h

/-- A job is retried exactly if the failure may pass. -/
theorem Ends.retried_iff {status : DeliveryStatus} (h : Ends (replies log) status out) :
    Retried (verdict out) ↔ Transient log := by
  rw [Transient]
  generalize replies log = rs at h
  cases h with
  | unasked => simp [Retried, verdict, isInvalidWebhookJob, isSkipRetry]
  | unreachable => simp [Retried, verdict, isInvalidWebhookJob, isSkipRetry]
  | sent h => simp [Retried, verdict, h]
  | rejected h => simp [Retried, verdict, isInvalidWebhookJob, isSkipRetry, h]
  | unexpected h h' => simp [Retried, verdict, isInvalidWebhookJob, isSkipRetry, h, h']

/-- An active webhook that has the event is posted to. -/
theorem posts_executeFound {event : String} {payload : List UInt8} (hactive : wh.isActive = true)
    (hevent : containsEvent wh.events event = true)
    (h : Runs Call (executeFound d wh event payload) w log (ofExcept out) w') :
    ∃ r, (⟨.newRequest wh.url payload, r⟩ : Answered Op.Res WebhookError) ∈ log := by
  rw [executeFound, if_neg (by simp [hactive]), if_neg (by simp [hevent])] at h
  obtain ⟨r, w₁, log₁, rfl, -, -⟩ := runs_ask_bind h
  exact ⟨r, List.mem_cons_self ..⟩

end Jobs

/-! ### Dispatched jobs -/

theorem bytes_ne_nil {s : String} (h : s ≠ "") : bytes s ≠ [] := by
  rcases hs : s.toList with - | ⟨c, cs⟩
  · exact absurd (String.toList_inj.mp (hs.trans rfl)) h
  · have hsize := c.utf8Size_pos
    rw [← String.length_utf8EncodeChar] at hsize
    rw [bytes, hs, List.flatMap_cons]
    exact List.append_ne_nil_of_left_ne_nil (List.ne_nil_of_length_pos hsize) _

theorem marshal_ne_nil (p : EventPayload) : p.marshal ≠ [] := by
  refine bytes_ne_nil fun h => ?_
  have htext := congrArg String.toList h
  simp at htext

/-- An event that a webhook lists is found again, whatever is around it. -/
theorem containsEvent_trimSpace {events : List String} {event : String} (h : event ∈ events) :
    containsEvent events (trimSpace event) = true :=
  List.any_eq_true.mpr ⟨event, h, beq_self_eq_true _⟩

/-- A job of `Dispatch` for a webhook. -/
structure JobOf (wh : Webhook) (event : String) (payload : List UInt8)
    (job : WebhookDeliveryJob) : Prop where
  webhookID : job.webhookID = wh.id.toString
  projectID : job.projectID = wh.environmentID.toString
  event : job.event = event
  payload : job.payload = payload

theorem JobOf.names {wh : Webhook} {event : String} {payload : List UInt8}
    {job : WebhookDeliveryJob} (h : JobOf wh event payload job) : Names job wh where
  project := by rw [h.projectID, UUID.parse_trimSpace_toString]
  webhook := by rw [h.webhookID, UUID.parse_trimSpace_toString]

section Dispatch

variable {d : Dispatcher} {environmentID : UUID} {event : String} {w w' : World}
  {log : List (Answered Op.Res WebhookError)}

theorem mem_listActive {wh : Webhook} :
    wh ∈ w.listActive environmentID event ↔
      wh ∈ w.webhooks ∧ wh.environmentID = environmentID ∧ wh.isActive = true ∧
        event ∈ wh.events := by
  simp [World.listActive, and_assoc]

/-- The jobs of an event, one for each webhook. -/
theorem runs_enqueueAll {payload : List UInt8} {whs : List Webhook} {out : Except WebhookError Unit}
    (h : Runs Call (enqueueAll environmentID event payload whs) w log (ofExcept out) w')
    (henv : ∀ wh ∈ whs, wh.environmentID = environmentID) :
    ∃ jobs, w'.queue = w.queue ++ jobs ∧ ∀ job ∈ jobs, ∃ wh ∈ whs, JobOf wh event payload job := by
  induction whs generalizing w log with
  | nil =>
      obtain ⟨-, -, rfl⟩ := runs_ret h
      exact ⟨[], by simp, by simp⟩
  | cons wh rest ih =>
      obtain ⟨r, w₁, log₁, rfl, hcall, h₁⟩ := runs_ask_bind h
      obtain ⟨jobs, hqueue, hjobs⟩ := ih h₁ fun wh' hwh' => henv wh' (List.mem_cons_of_mem _ hwh')
      have hrest : ∀ job ∈ jobs, ∃ wh' ∈ wh :: rest, JobOf wh' event payload job := by
        intro job hjob
        obtain ⟨wh', hwh', hof⟩ := hjobs job hjob
        exact ⟨wh', List.mem_cons_of_mem _ hwh', hof⟩
      cases hcall with
      | enqueue job w jobID =>
          refine ⟨_ :: jobs, by rw [hqueue, World.enqueue, List.append_assoc]; rfl, ?_⟩
          rintro job (- | ⟨-, hjob⟩)
          · exact ⟨wh, List.mem_cons_self .., rfl, by rw [henv wh (List.mem_cons_self ..)], rfl, rfl⟩
          · exact hrest job hjob
      | fault => exact ⟨jobs, hqueue, hrest⟩

/-- What `Dispatch` puts into the queue. -/
theorem runs_dispatch {payload : EventPayload} {out : Except WebhookError Unit}
    (h : Runs Call (dispatch d environmentID event payload) w log (ofExcept out) w') :
    ∃ jobs, w'.queue = w.queue ++ jobs ∧
      ∀ job ∈ jobs, ∃ wh ∈ w.listActive environmentID event, JobOf wh event payload.marshal job := by
  unfold dispatch at h
  split at h
  · obtain ⟨-, -, rfl⟩ := runs_ret h
    exact ⟨[], by simp, by simp⟩
  · obtain ⟨r, w₁, log₁, rfl, hcall, h₁⟩ := runs_ask_bind h
    cases hcall with
    | list => exact runs_enqueueAll h₁ fun wh hwh => (mem_listActive.mp hwh).2.1
    | fault =>
        obtain ⟨-, -, rfl⟩ := runs_ret h₁
        exact ⟨[], by simp, by simp⟩

end Dispatch

/-! ### Records and retries -/

/-- **Webhook deliveries.**  Executing a job that has an event and a payload, for a webhook
that exists, leaves one row, whose status is 'sent' if and only if the endpoint has answered
2xx; the queue tries the job again if and only if the endpoint could not be reached or its
final answer is neither 2xx nor 4xx; and a job of `Dispatch` for an event that is not blank
is posted to its webhook as long as the webhook is as it was. -/
theorem execute_records (d : Dispatcher) :
    (∀ {job wh w log out w'}, Names job wh → Filled job →
      w.webhookByID wh.id wh.environmentID = some wh →
      Runs Call (execute d (some job)) w log (ofExcept out) w' → Served log →
        ∃ status, Records w w' wh.id (trimSpace job.event) job.payload status ∧
          (status = .sent ↔ Delivered log)) ∧
    (∀ {job wh w log out w'}, Names job wh → Filled job →
      w.webhookByID wh.id wh.environmentID = some wh →
      Runs Call (handle d (.ok job)) w log (ofExcept out) w' → Served log →
        (Retried out ↔ Transient log)) ∧
    (∀ {environmentID event payload w log out w'}, trimSpace event ≠ "" →
      Runs Call (dispatch d environmentID event payload) w log (ofExcept out) w' →
        ∃ jobs, w'.queue = w.queue ++ jobs ∧ ∀ job ∈ jobs,
          ∃ wh ∈ w.webhooks, Names job wh ∧ ∀ {v log out v'},
            v.webhookByID wh.id wh.environmentID = some wh →
            Runs Call (execute d (some job)) v log (ofExcept out) v' → Served log →
              ∃ r, (⟨.newRequest wh.url job.payload, r⟩ : Answered Op.Res WebhookError) ∈ log) := by
  have hends : ∀ {job wh w log out w'}, Names job wh → Filled job →
      w.webhookByID wh.id wh.environmentID = some wh →
      Runs Call (execute d (some job)) w log (ofExcept out) w' → Served log →
        ∃ status, Records w w' wh.id (trimSpace job.event) job.payload status ∧
          Ends (replies log) status out := by
    intro job wh w log out w' hnames hfilled hfound h hserved
    obtain ⟨log', rfl, h'⟩ := runs_execute hnames hfilled hfound h hserved
    obtain ⟨status, hrecords, hend⟩ := runs_executeFound h' hserved.tail
    -- reading the webhook brings nothing back from an endpoint
    exact ⟨status, hrecords, hend⟩
  refine ⟨?_, ?_, ?_⟩
  · intro job wh w log out w' hnames hfilled hfound h hserved
    obtain ⟨status, hrecords, hend⟩ := hends hnames hfilled hfound h hserved
    exact ⟨status, hrecords, hend.sent_iff⟩
  · intro job wh w log out w' hnames hfilled hfound h hserved
    obtain ⟨r, hexecute, rfl⟩ := runs_handle h
    obtain ⟨status, -, hend⟩ := hends hnames hfilled hfound hexecute hserved
    exact hend.retried_iff
  · intro environmentID event payload w log out w' hevent h
    obtain ⟨jobs, hqueue, hjobs⟩ := runs_dispatch h
    refine ⟨jobs, hqueue, fun job hjob => ?_⟩
    obtain ⟨wh, hwh, hof⟩ := hjobs job hjob
    obtain ⟨hmem, -, hactive, hlisted⟩ := mem_listActive.mp hwh
    refine ⟨wh, hmem, hof.names, ?_⟩
    intro v log' out' v' hfound hexecute hserved
    have hfilled : Filled job := by
      refine ⟨?_, ?_⟩
      · rw [hof.event]
        exact hevent
      · rw [hof.payload]
        exact marshal_ne_nil _
    obtain ⟨log'', rfl, h'⟩ := runs_execute hof.names hfilled hfound hexecute hserved
    have hcontains : containsEvent wh.events (trimSpace job.event) = true := by
      rw [hof.event]
      exact containsEvent_trimSpace hlisted
    obtain ⟨r, hr⟩ := posts_executeFound hactive hcontains h'
    exact ⟨r, List.mem_cons_of_mem _ hr⟩

/-- The webhook of an environment, for one event. -/
def hook (event : String) : Webhook where
  id := .ofDigit 2
  environmentID := .ofDigit 1
  url := "https://example.com/hooks/notify"
  secret := "top-secret"
  events := [event]
  isActive := true

def hooked (event : String) : World := ⟨[hook event], [], []⟩

/-- A dispatcher with a queue; the HMAC is that of the payload below. -/
def dispatcher : Dispatcher where
  enqueuer := true
  hmacSHA256 _ _ := [
    0x2f, 0xc8, 0x84, 0x9d, 0xdf, 0xd6, 0xee, 0x7a, 0x1f, 0xf3, 0x08, 0x37, 0x0a, 0xe5, 0x29,
    0x86, 0xe8, 0xb9, 0xbc, 0x6d, 0x2c, 0xaf, 0x66, 0x2a, 0xed, 0x72, 0x9b, 0xda, 0x7b, 0x4c,
    0x03, 0xbd]

def occurred (event : String) : EventPayload where
  event := event
  environmentID := (UUID.ofDigit 1).toString
  timestamp := "2026-01-05T10:00:00Z"

/-- The job `Dispatch` makes for the webhook. -/
def hookJob (event : String) : WebhookDeliveryJob where
  jobID := "job"
  webhookID := (UUID.ofDigit 2).toString
  projectID := (UUID.ofDigit 1).toString
  event := event
  payload := (occurred event).marshal

def busy : Response := ⟨503, by decide⟩

/-- An endpoint that is not available. -/
def unavailable : Outside where
  responds _ := .ok busy

theorem names_hook (event : String) : Names (hookJob event) (hook event) where
  project := UUID.parse_trimSpace_toString _
  webhook := UUID.parse_trimSpace_toString _

theorem filled_hook {event : String} (h : trimSpace event ≠ "") : Filled (hookJob event) := by
  constructor
  · simpa only [hookJob] using h
  · simpa only [hookJob] using marshal_ne_nil (occurred event)

theorem found_hook (event : String) :
    (hooked event).webhookByID (hook event).id (hook event).environmentID = some (hook event) := by
  simp [World.webhookByID, hooked]

/-- A single run of a program of the module. -/
def Outside.run (o : Outside) (p : Act Unit) (w : World) :
    List (Answered Op.Res WebhookError) × Except WebhookError Unit × World :=
  p.drive o.answer w

theorem Outside.runs_run (o : Outside) (p : Act Unit) (w : World) :
    Runs Call p w (o.run p w).1 (ofExcept (o.run p w).2.1) (o.run p w).2.2 :=
  runs_drive o.call_answer p w

/-- Without faults no statement fails. -/
theorem Outside.served_run (o : Outside) (p : Act Unit) (w : World) : Served (o.run p w).1 := by
  intro op text hop hmem
  obtain ⟨w', hw'⟩ := mem_drive hmem
  cases op with
  | listActiveWebhooksForEvent => cases hw'
  | insertWebhookDelivery => cases hw'
  | getWebhookByID id environmentID =>
      simp only [answer, World.getWebhook] at hw'
      split at hw' <;> cases hw'
  | _ => cases hop

/-- What is sent to the webhook. -/
def dispatched (event : String) : Act Unit :=
  dispatch dispatcher (.ofDigit 1) event (occurred event)

/-- An endpoint that is not available: its row is there, and the job is tried again. -/
theorem execute_records_unavailable :
    (∃ status, Records (hooked "notification.sent")
        (unavailable.run (execute dispatcher (some (hookJob "notification.sent")))
          (hooked "notification.sent")).2.2
        (hook "notification.sent").id (trimSpace (hookJob "notification.sent").event)
        (hookJob "notification.sent").payload status ∧ status ≠ .sent) ∧
      Retried (unavailable.run (handle dispatcher (.ok (hookJob "notification.sent")))
        (hooked "notification.sent")).2.1 ∧
      ∃ jobs, (unavailable.run (dispatched "notification.sent")
        (hooked "notification.sent")).2.2.queue = (hooked "notification.sent").queue ++ jobs := by
  have hevent : trimSpace "notification.sent" ≠ "" := by decide +kernel
  have hnames := names_hook "notification.sent"
  have hfilled := filled_hook hevent
  have hfound := found_hook "notification.sent"
  obtain ⟨hrow, hretry, hdispatch⟩ := execute_records dispatcher
  refine ⟨?_, ?_, ?_⟩
  · obtain ⟨status, hrecords, hstatus⟩ := hrow hnames hfilled hfound
      (unavailable.runs_run _ _) (unavailable.served_run _ _)
    refine ⟨status, hrecords, fun hsent => ?_⟩
    -- the endpoint answers once, with a 503
    have hreplies : replies (unavailable.run (execute dispatcher
        (some (hookJob "notification.sent"))) (hooked "notification.sent")).1 = [.ok busy] := by
      decide +kernel
    obtain ⟨resp, hresp, hsuccess⟩ := hstatus.mp hsent
    rw [hreplies] at hresp
    cases List.mem_singleton.mp hresp
    exact absurd hsuccess.2 (by decide)
  · have hreplies : replies (unavailable.run (handle dispatcher
        (.ok (hookJob "notification.sent"))) (hooked "notification.sent")).1 = [.ok busy] := by
      decide +kernel
    have hiff := hretry hnames hfilled hfound (unavailable.runs_run _ _)
      (unavailable.served_run _ _)
    -- which is neither a success nor final
    refine hiff.mpr ?_
    rw [Transient, hreplies]
    refine Or.inr ⟨_, List.mem_singleton_self _, ?_, ?_⟩
    · exact fun h => absurd h.2 (by decide)
    · exact fun h => absurd h.2 (by decide)
  · have hrun := unavailable.runs_run (dispatched "notification.sent") (hooked "notification.sent")
    rw [dispatched] at hrun
    obtain ⟨jobs, hqueue, -⟩ := hdispatch hevent hrun
    exact ⟨jobs, hqueue⟩

/-- **An event that is blank**: a webhook may list it, and then a job is made for it, but
the job is turned away without a row, and nothing is posted. -/
theorem execute_records_blank :
    (unavailable.run (dispatched " ") (hooked " ")).2.2.queue = [hookJob " "] ∧
      Names (hookJob " ") (hook " ") ∧
      (hooked " ").webhookByID (hook " ").id (hook " ").environmentID = some (hook " ") ∧
      unavailable.run (execute dispatcher (some (hookJob " "))) (hooked " ") =
        ([], .error (invalidWebhookJob "webhook_id, project_id, event, and payload are required"),
          hooked " ") := by
  have hblank : trimSpace (hookJob " ").event = "" := by decide +kernel
  have hexecute : execute dispatcher (some (hookJob " ")) =
      fail (invalidWebhookJob "webhook_id, project_id, event, and payload are required") := by
    simp only [execute]
    rw [if_pos (Or.inl hblank)]
  refine ⟨?_, names_hook _, found_hook _, by rw [hexecute, Outside.run, drive_fail]⟩
  decide +kernel

end Iwifunni.Webhooks
