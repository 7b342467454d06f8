/-
Iwifunni/Webhooks/Isolation.lean

Webhooks of several environments, with dispatches, deliveries and changes to the webhooks
going on at once (`webhooks/dispatcher.go`, `webhooks/service.go`).

    dispatch E event p   ──►  queue: ⟨webhook, E, event, p⟩  ──►  deliver, any number of times
                                                                   get (webhook, E)
    create wh, delete id E  ─────────────────────────────────►     post p to wh.url

A job carries ids only, and the webhook is looked up once more when the job is delivered.
So whatever is posted is an event of an environment, in its own words, sent to an address
that the same environment registered for it and signed with the secret of that webhook
(`posts_routed`); and what is looked up after the webhook was deleted is not posted
(`posts_before_delete`).
-/
import Iwifunni.Effect.History
import Iwifunni.Webhooks.Recorded

namespace Iwifunni.Webhooks

open Go Db Effect Effect.Prog

/-! ### The system -/

/-- What the servers and the worker do. -/
inductive Activity
  /-- `Dispatch` -/
  | dispatch (environmentID : UUID) (event : String) (payload : EventPayload)
  /-- a job that the queue delivers -/
  | deliver (job : WebhookDeliveryJob)

/-- `Service.Create` and `Service.Delete`: one statement each. -/
inductive Change
  | create (wh : Webhook)
  | delete (id environmentID : UUID)

/-- The DELETE of a webhook makes it inactive. -/
def Webhook.deleted (id environmentID : UUID) (wh : Webhook) : Webhook :=
  if wh.id = id ∧ wh.environmentID = environmentID then { wh with isActive := false } else wh

/-- The statement of a change; a new webhook is active, and its id is new. -/
def Change.Answers : Change → World → World → Prop
  | create wh, w, w' => wh.isActive = true ∧ (∀ old ∈ w.webhooks, old.id ≠ wh.id) ∧
      w' = { w with webhooks := w.webhooks ++ [wh] }
  | delete id environmentID, w, w' =>
      w' = { w with webhooks := w.webhooks.map (Webhook.deleted id environmentID) }

section System

variable (d : Dispatcher)

def Activity.program : Activity → Act Unit
  | .dispatch environmentID event payload => Webhooks.dispatch d environmentID event payload
  | .deliver job => handle d (.ok job)

/-- A job is delivered if it was enqueued. -/
def Activity.Due : Activity → World → Prop
  | .dispatch _ _ _, _ => True
  | .deliver job, w => job ∈ w.queue

/-- The system.  The queue delivers what was enqueued, in any order and as often as it likes. -/
def hooks : Machine World Activity Change Op.Res WebhookError Unit where
  body := Activity.program d
  spawn l w w' := w' = w ∧ l.Due w
  sem := Call
  close _ _ w w' := w' = w
  lose _ w w' := w' = w
  env := Change.Answers

end System

/-! ### What the programs do -/

section Programs

variable {d : Dispatcher}

/-- The calls of a dispatch: what it enqueues are jobs of its own event. -/
def Dispatches (environmentID : UUID) (event : String) (payload : EventPayload) : Op → Prop
  | .enqueueWebhook job => job.projectID = environmentID.toString ∧ job.event = event ∧
      job.payload = payload.marshal
  | .listActiveWebhooksForEvent _ _ => True
  | _ => False

/-- Dispatching enqueues, and does nothing else. -/
theorem calls_enqueueAll {environmentID : UUID} {event : String} {payload : EventPayload}
    (whs : List Webhook) :
    Calls (Dispatches environmentID event payload)
      (enqueueAll environmentID event payload.marshal whs) := by
  induction whs with
  | nil => exact True.intro
  | cons wh whs ih =>
      apply (calls_ask (E := WebhookError) ?_).bind
      · exact fun _ => ih
      · exact ⟨rfl, rfl, rfl⟩

theorem calls_dispatch (environmentID : UUID) (event : String) (payload : EventPayload) :
    Calls (Dispatches environmentID event payload) (dispatch d environmentID event payload) := by
  rw [dispatch]
  split_ifs
  · exact True.intro
  · refine ⟨True.intro, ?_⟩
    rintro (e | whs)
    · exact True.intro
    · exact calls_enqueueAll whs

/-- The statements that note what has become of a delivery. -/
def Notes : Op → Prop
  | .insertWebhookDelivery _ | .newUUID | .now => True
  | _ => False

theorem calls_recordDelivery (id : UUID) (event : String) (payload : List UInt8)
    (status : DeliveryStatus) (responseCode : Option ℤ) (errMsg : String) :
    Calls Notes (recordDelivery id event payload status responseCode errMsg) := by
  refine (calls_perform True.intro).bind fun _ => ?_
  refine (calls_perform True.intro).bind fun _ => ?_
  exact (calls_ask True.intro).bind fun _ => True.intro

theorem calls_answered (wh : Webhook) (event : String) (payload : List UInt8) (code : ℤ) :
    Calls Notes (answered wh event payload code) := by
  refine (calls_recordDelivery ..).bind fun _ => ?_
  split_ifs <;> exact True.intro

/-- The post of a payload to a webhook. -/
def Webhook.post (d : Dispatcher) (wh : Webhook) (payload : List UInt8) : Request where
  url := wh.url
  contentType := "application/json"
  signature := "sha256=" ++ sign d payload wh.secret
  body := payload

/-- When a job may post: its webhook was read before, and was active and subscribed. -/
def Allowed (d : Dispatcher) (job : WebhookDeliveryJob) (tr : List (Answered Op.Res WebhookError))
    (op : Op) : Prop :=
  (∀ req, op = .clientDo req → ∃ wh environmentID id,
    UUID.parse (trimSpace job.projectID) = some environmentID ∧
    ⟨.getWebhookByID id environmentID, .ok wh⟩ ∈ tr ∧ wh.isActive = true ∧
    containsEvent wh.events (trimSpace job.event) = true ∧ req = wh.post d job.payload) ∧
  ∀ job', op ≠ .enqueueWebhook job'

theorem allowed_of_notes {job : WebhookDeliveryJob} (tr : List (Answered Op.Res WebhookError))
    (op : Op) (h : Notes op) : Allowed d job tr op := by
  constructor
  · rintro req rfl
    exact h.elim
  · rintro job' rfl
    exact h.elim

/-- A delivery posts what its guard allows. -/
theorem guarded_deliver {job : WebhookDeliveryJob} {wh : Webhook} {environmentID id : UUID}
    {tr : List (Answered Op.Res WebhookError)}
    (hproject : UUID.parse (trimSpace job.projectID) = some environmentID)
    (hread : ⟨.getWebhookByID id environmentID, .ok wh⟩ ∈ tr) (hactive : wh.isActive = true)
    (hevent : containsEvent wh.events (trimSpace job.event) = true) :
    (deliver d wh (trimSpace job.event) job.payload).Guarded (Allowed d job) tr := by
  have hnotes : ∀ {p : Act Unit}, Calls Notes p → ∀ tr, p.Guarded (Allowed d job) tr :=
    fun hp tr => Guarded.of_calls allowed_of_notes hp tr
  rw [deliver]
  refine Guarded.ask_bind ⟨by rintro req ⟨⟩, by rintro job' ⟨⟩⟩ ?_
  rintro (err | u)
  · exact hnotes ((calls_recordDelivery ..).bind fun _ => calls_fail _) _
  · refine Guarded.ask_bind ⟨?_, by rintro job' ⟨⟩⟩ ?_
    · rintro req ⟨⟩
      exact ⟨wh, environmentID, id, hproject, List.mem_append_left _ hread, hactive, hevent, rfl⟩
    · rintro (err | resp)
      · exact hnotes ((calls_recordDelivery ..).bind fun _ => calls_fail _) _
      · exact hnotes (calls_answered ..) _

/-- So does the execution for a webhook that was read. -/
theorem guarded_executeFound {job : WebhookDeliveryJob} {wh : Webhook} {environmentID id : UUID}
    {tr : List (Answered Op.Res WebhookError)}
    (hproject : UUID.parse (trimSpace job.projectID) = some environmentID)
    (hread : ⟨.getWebhookByID id environmentID, .ok wh⟩ ∈ tr) :
    (executeFound d wh (trimSpace job.event) job.payload).Guarded (Allowed d job) tr := by
  rw [executeFound]
  split_ifs with hinactive hother
  · exact Guarded.of_calls allowed_of_notes
      ((calls_recordDelivery ..).bind fun _ => calls_fail _) _
  · exact Guarded.of_calls allowed_of_notes
      ((calls_recordDelivery ..).bind fun _ => calls_fail _) _
  · rw [Bool.not_eq_false] at hinactive hother
    exact guarded_deliver hproject hread hinactive hother

/-- **A job posts only to a webhook it has read as active and subscribed.** -/
theorem guarded_execute (job : WebhookDeliveryJob) :
    (execute d (some job)).Guarded (Allowed d job) [] := by
  simp only [execute]
  split_ifs
  · exact .fail _ _
  generalize hproject : UUID.parse (trimSpace job.projectID) = project
  rcases project with - | environmentID
  · exact .fail _ _
  generalize UUID.parse (trimSpace job.webhookID) = webhook
  rcases webhook with - | id
  · exact .fail _ _
  apply Guarded.ask_bind
  · exact ⟨by rintro req ⟨⟩, by rintro job' ⟨⟩⟩
  · rintro (err | wh)
    · cases err <;> exact .fail _ _
    · exact guarded_executeFound hproject (List.mem_append_right _ (List.mem_singleton_self _))

/-- What `handle` makes of the outcome of a job. -/
def concluded : Except WebhookError Unit → Act Unit
  | .error err => if err.isInvalidWebhookJob = true then fail (.skipRetry err) else fail err
  | .ok () => ret ()

theorem handle_ok (job : WebhookDeliveryJob) :
    handle d (.ok job) = (execute d (some job)).outcome >>= concluded := by
  rw [handle]
  congr 1

/-- Nothing is posted before the webhook has been read. -/
theorem guarded_handle (job : WebhookDeliveryJob) :
    (handle d (.ok job)).Guarded (Allowed d job) [] := by
  rw [handle_ok]
  apply (guarded_execute job).outcome.bind
  rintro (err | u) tr
  · rw [concluded]
    split_ifs
    · exact .fail _ tr
    · exact .fail _ tr
  · exact .ret _ tr

/-- What is left of an activity that delivers a job. -/
theorem guarded_of_deliver {job : WebhookDeliveryJob} {tr op k}
    (h : After ((Activity.deliver job).program d) tr (.call op k)) : Allowed d job tr op :=
  (guarded_handle job).next h

end Programs

/-! ### What happens to the world -/

theorem Call.webhooks {op : Op} {w w' : World} {r : Except WebhookError op.Res}
    (h : Call op w r w') : w'.webhooks = w.webhooks := by
  cases h <;> rfl

/-- What is in the queue after a call was there, or has just been enqueued. -/
theorem Call.queue {op : Op} {w w' : World} {r : Except WebhookError op.Res}
    (h : Call op w r w') {job : WebhookDeliveryJob} (hjob : job ∈ w'.queue) :
    job ∈ w.queue ∨
      ∃ job' jobID, op = .enqueueWebhook job' ∧ job = { job' with jobID := jobID } := by
  cases h with
  | enqueue job' w jobID =>
      rcases List.mem_append.mp hjob with hold | hnew
      · exact Or.inl hold
      · exact Or.inr ⟨job', _, rfl, List.mem_singleton.mp hnew⟩
  | _ => exact Or.inl hjob

/-- The webhook that is read is there. -/
theorem Call.read {id environmentID : UUID} {w w' : World} {wh : Webhook}
    (h : Call (.getWebhookByID id environmentID) w (.ok wh) w') :
    wh ∈ w.webhooks ∧ wh.id = id ∧ wh.environmentID = environmentID := by
  generalize hr : (Except.ok wh : Except WebhookError (Op.getWebhookByID id environmentID).Res) = r
    at h
  cases h with
  | get =>
      rw [World.getWebhook] at hr
      split at hr
      · next wh' hfind =>
          cases hr
          have hmatch := List.find?_some hfind
          rw [Bool.and_eq_true, beq_iff_eq, beq_iff_eq] at hmatch
          exact ⟨List.mem_of_find?_eq_some hfind, hmatch⟩
      · cases hr
  | fault => cases hr

section Runs

variable {d : Dispatcher} {evs : List (Event Activity Change Op.Res WebhookError Unit)}
variable {s₀ s s' : Pool World Activity Op.Res WebhookError Unit}

/-- A step leaves the world alone, makes a call, or changes the webhooks. -/
theorem step_world {e} (h : Step (hooks d) s e s') :
    s'.world = s.world ∨
      (∃ i l tr op k r, s.threads i = some ⟨l, tr, .call op k⟩ ∧ e = .call i ⟨op, r⟩ ∧
        Call op s.world r s'.world) ∨
      ∃ change : Change, e = .env change ∧ change.Answers s.world s'.world := by
  cases h with
  | start _ hspawn => exact Or.inl hspawn.1
  | call ht hsem => exact Or.inr (Or.inl ⟨_, _, _, _, _, _, ht, rfl, hsem⟩)
  | finish _ hclose => exact Or.inl hclose
  | lose _ hlose => exact Or.inl hlose
  | env hchange => exact Or.inr (Or.inr ⟨_, rfl, hchange⟩)

/-- An active webhook is as it was made. -/
theorem active_made (h : Run (hooks d) (fun _ _ => True) s₀ evs s) :
    ∀ wh ∈ s.world.webhooks, wh.isActive = true →
      wh ∈ s₀.world.webhooks ∨ .env (.create wh) ∈ evs := by
  induction h with
  | nil => exact fun wh hwh _ => Or.inl hwh
  | @snoc evs p e p' hrun _ hs ih =>
      have hold : ∀ wh ∈ p.world.webhooks, wh.isActive = true →
          wh ∈ s₀.world.webhooks ∨ .env (.create wh) ∈ evs ++ [e] :=
        fun wh hwh hactive => (ih wh hwh hactive).imp id (List.mem_append_left _)
      intro wh hwh hactive
      rcases step_world hs with hw | ⟨i, l, tr, op, k, r, -, -, hcall⟩ | ⟨change, rfl, hchange⟩
      · rw [hw] at hwh
        exact hold wh hwh hactive
      · rw [hcall.webhooks] at hwh
        exact hold wh hwh hactive
      · cases change with
        | create new =>
            obtain ⟨-, -, hw⟩ := hchange
            rw [hw] at hwh
            rcases List.mem_append.mp hwh with hmem | hnew
            · exact hold wh hmem hactive
            · rw [List.mem_singleton.mp hnew]
              exact Or.inr (List.mem_append_right _ (List.mem_singleton_self _))
        | delete id environmentID =>
            rw [show p'.world = _ from hchange] at hwh
            obtain ⟨old, hmem, rfl⟩ := List.mem_map.mp hwh
            rw [Webhook.deleted] at hactive ⊢
            split_ifs at hactive ⊢
            exact hold old hmem hactive

/-- A job that was enqueued carries an event that was dispatched. -/
def Dispatched (evs : List (Event Activity Change Op.Res WebhookError Unit))
    (job : WebhookDeliveryJob) : Prop :=
  ∃ i environmentID event payload, .start i (.dispatch environmentID event payload) ∈ evs ∧
    job.projectID = environmentID.toString ∧ job.event = event ∧
    job.payload = payload.marshal

/-- Every job in the queue was dispatched. -/
theorem jobs_dispatched (h : Run (hooks d) (fun _ _ => True) s₀ evs s) (hidle : s₀.Idle)
    (hempty : s₀.world.queue = []) : ∀ job ∈ s.world.queue, Dispatched evs job := by
  induction h with
  | nil =>
      rw [hempty]
      exact fun job hjob => by cases hjob
  | @snoc evs p e p' hrun _ hs ih =>
      -- jobs that were there were dispatched before
      have hold : ∀ job ∈ p.world.queue, Dispatched (evs ++ [e]) job := by
        intro job hjob
        obtain ⟨i, environmentID, event, payload, hmem, hrest⟩ := ih job hjob
        exact ⟨i, environmentID, event, payload, List.mem_append_left _ hmem, hrest⟩
      intro job hjob
      rcases step_world hs with hw | ⟨i, l, tr, op, k, r, ht, rfl, hcall⟩ | ⟨change, rfl, hchange⟩
      · rw [hw] at hjob
        exact hold job hjob
      · rcases hcall.queue hjob with hmem | ⟨job', jobID, rfl, rfl⟩
        · exact hold job hmem
        · -- only a dispatch enqueues
          have hafter := hrun.after_of_idle hidle ht
          have hstart := List.mem_append_left [.call i ⟨.enqueueWebhook job', r⟩]
            (hrun.started_of_idle hidle ht)
          cases l with
          | dispatch environmentID event payload =>
              have hcalls := ((calls_dispatch environmentID event payload).after hafter).1
              exact ⟨i, environmentID, event, payload, hstart, hcalls⟩
          | deliver job => exact absurd rfl ((guarded_of_deliver hafter).2 job')
      · cases change with
        | create new =>
            obtain ⟨-, -, hw⟩ := hchange
            rw [hw] at hjob
            exact hold job hjob
        | delete id environmentID =>
            rw [show p'.world = _ from hchange] at hjob
            exact hold job hjob

/-- An activity about to post delivers a job, and has read its webhook as active. -/
theorem about_to_post (h : Run (hooks d) (fun _ _ => True) s₀ evs s) (hidle : s₀.Idle)
    {i l tr req k} (ht : s.threads i = some ⟨l, tr, .call (.clientDo req) k⟩) :
    ∃ job wh environmentID id, l = .deliver job ∧
      UUID.parse (trimSpace job.projectID) = some environmentID ∧
      ⟨.getWebhookByID id environmentID, .ok wh⟩ ∈ tr ∧ wh.isActive = true ∧
      containsEvent wh.events (trimSpace job.event) = true ∧ req = wh.post d job.payload := by
  have hafter := h.after_of_idle hidle ht
  cases l with
  | dispatch environmentID event payload =>
      exact (((calls_dispatch environmentID event payload).after hafter).1).elim
  | deliver job =>
      obtain ⟨wh, environmentID, id, hrest⟩ := (guarded_of_deliver hafter).1 req rfl
      exact ⟨job, wh, environmentID, id, rfl, hrest⟩

/-- **Every post is an event of an environment, sent to a webhook of the same environment.**
The webhook was made with this address and this secret, and it had the event. -/
theorem posts_routed (h : Run (hooks d) (fun _ _ => True) s₀ evs s) (hidle : s₀.Idle)
    (hempty : s₀.world.queue = []) {i req r} (hpost : .call i ⟨.clientDo req, r⟩ ∈ evs) :
    ∃ j event payload wh, .start j (.dispatch wh.environmentID event payload) ∈ evs ∧
      (wh ∈ s₀.world.webhooks ∨ .env (.create wh) ∈ evs) ∧
      .call i ⟨.getWebhookByID wh.id wh.environmentID, .ok wh⟩ ∈ evs ∧
      containsEvent wh.events (trimSpace event) = true ∧ req = wh.post d payload.marshal := by
  obtain ⟨pre, post, s₁, s₂, rfl, hpre, -, hs, -⟩ := h.answered hpost
  cases hs with
  | @call w w' ts i l tr op k r ht _ =>
      obtain ⟨job, wh, environmentID, id, rfl, hproject, hread, hactive, hevent, rfl⟩ :=
        about_to_post hpre hidle ht
      -- the webhook, where it was read
      have hcalled := hpre.called_of_idle hidle ht hread
      obtain ⟨pre₁, post₁, s₃, s₄, hsplit, hpre₁, hget, -, -⟩ := hpre.answered hcalled
      obtain ⟨hmem, rfl, rfl⟩ := Call.read hget
      have hmade := active_made hpre₁ wh hmem hactive
      -- the job, where it was taken up
      obtain ⟨pre₂, post₂, s₅, w₅, hsplit₂, hpre₂, -, hdue⟩ :=
        hpre.spawned_at (hpre.started_of_idle hidle ht)
      obtain ⟨j, environmentID, event, payload, hstart, hid, rfl, hpayload⟩ :=
        jobs_dispatched hpre₂ hidle hempty job hdue
      rw [hid, UUID.parse_trimSpace_toString] at hproject
      cases hproject
      refine ⟨j, job.event, payload, wh, ?_, ?_, ?_, hevent, by rw [hpayload]⟩
      · apply List.mem_append_left
        rw [hsplit₂]
        exact List.mem_append_left _ hstart
      · refine hmade.imp id fun hcreate => ?_
        apply List.mem_append_left
        rw [hsplit]
        exact List.mem_append_left _ hcreate
      · exact List.mem_append_left _ hcalled

/-! Two environments have webhooks for the same event. -/

/-- The webhook of the second environment. -/
def neighbour : Webhook :=
  { hook "notification.sent" with
    id := .ofDigit 5
    environmentID := .ofDigit 3
    url := "https://example.org/hooks" }

def twoHooked : World := ⟨[hook "notification.sent", neighbour], [], []⟩

/-- The event occurs in both environments, first in the second one. -/
def notified : World :=
  (unavailable.run (dispatched "notification.sent")
    (unavailable.run (dispatch dispatcher neighbour.environmentID "notification.sent"
      (occurred "notification.sent")) twoHooked).2.2).2.2

/-- Both events are dispatched. -/
theorem run_notified : ∃ evs, Run (hooks dispatcher) (fun _ _ => True)
    ⟨twoHooked, fun _ => none⟩ evs ⟨notified, fun _ => none⟩ := by
  have hdispatch : ∀ environmentID w, ∃ evs, Run (hooks dispatcher) (fun _ _ => True)
      ⟨w, fun _ => none⟩ evs ⟨(unavailable.run (dispatch dispatcher environmentID
        "notification.sent" (occurred "notification.sent")) w).2.2, fun _ => none⟩ :=
    fun environmentID w => Run.drive (i := 0)
      (l := Activity.dispatch environmentID "notification.sent" (occurred "notification.sent"))
      unavailable.answer (fun _ _ => true) unavailable.call_answer True.intro
      (fun _ _ _ _ _ => True.intro) (fun _ _ => True.intro) ⟨rfl, True.intro⟩
      (driveAll_true ..) rfl
  obtain ⟨evs₁, h₁⟩ := hdispatch neighbour.environmentID twoHooked
  obtain ⟨evs₂, h₂⟩ := hdispatch (.ofDigit 1) _
  exact ⟨_, h₁.trans h₂⟩

def Op.postsTo (url : String) : Op → Bool
  | .clientDo req => req.url == url
  | _ => false

/-- The job of the second environment waits while that of the first is delivered to an
endpoint that is not available. -/
theorem run_unavailable : ∃ evs s req r, Run (hooks dispatcher) (fun _ _ => True)
    ⟨twoHooked, fun _ => none⟩ evs s ∧ .call 1 ⟨.clientDo req, r⟩ ∈ evs ∧
    req.url = (hook "notification.sent").url := by
  obtain ⟨evs₀, hdispatch⟩ := run_notified
  have hjob : hookJob "notification.sent" ∈ notified.queue := by decide +kernel
  have hstart : Step (hooks dispatcher) ⟨notified, fun _ => none⟩
      (.start 1 (.deliver (hookJob "notification.sent"))) _ := .start rfl ⟨rfl, hjob⟩
  have hcalls := Run.calls (M := hooks dispatcher) (C := fun _ _ => True) (i := 1)
    (l := .deliver (hookJob "notification.sent")) unavailable.answer (fun _ _ => true)
    (fun _ => none) unavailable.call_answer (fun _ _ _ _ _ => True.intro)
    (handle dispatcher (.ok (hookJob "notification.sent"))) notified [] (driveAll_true ..)
  have hrun := (hdispatch.snoc True.intro hstart).trans hcalls
  have hany : ((unavailable.run (handle dispatcher (.ok (hookJob "notification.sent")))
      notified).1.any fun a => a.1.postsTo (hook "notification.sent").url) = true := by
    decide +kernel
  obtain ⟨⟨op, r⟩, hmem, hop⟩ := List.any_eq_true.mp hany
  cases op with
  | clientDo req =>
      exact ⟨_, _, req, r, hrun, List.mem_append_right _ (List.mem_map_of_mem hmem),
        beq_iff_eq.mp hop⟩
  | _ => cases hop

/-- A post of the first environment goes to its own webhook. -/
theorem posts_routed_unavailable : ∃ evs s req r, Run (hooks dispatcher) (fun _ _ => True)
    ⟨twoHooked, fun _ => none⟩ evs s ∧ .call 1 ⟨.clientDo req, r⟩ ∈ evs ∧
    req.url = (hook "notification.sent").url ∧
    ∃ j event payload wh, .start j (.dispatch wh.environmentID event payload) ∈ evs ∧
      (wh ∈ twoHooked.webhooks ∨ .env (.create wh) ∈ evs) ∧
      .call 1 ⟨.getWebhookByID wh.id wh.environmentID, .ok wh⟩ ∈ evs ∧
      containsEvent wh.events (trimSpace event) = true ∧
      req = wh.post dispatcher payload.marshal := by
  obtain ⟨evs, s, req, r, hrun, hpost, hurl⟩ := run_unavailable
  exact ⟨evs, s, req, r, hrun, hpost, hurl, posts_routed hrun (fun _ => rfl) rfl hpost⟩

/-- A webhook that was deleted: its row is there, and is not active. -/
def Deleted (id environmentID : UUID) (w : World) : Prop :=
  (∃ wh ∈ w.webhooks, wh.id = id) ∧
    ∀ wh ∈ w.webhooks, wh.id = id → wh.environmentID = environmentID → wh.isActive = false

/-- What was deleted stays deleted. -/
theorem deleted_stays {id environmentID : UUID}
    (h : Run (hooks d) (fun _ _ => True) s evs s') (hdel : Deleted id environmentID s.world) :
    Deleted id environmentID s'.world := by
  induction h with
  | nil => exact hdel
  | @snoc evs p e p' hrun _ hs ih =>
      rcases step_world hs with hw | ⟨i, l, tr, op, k, r, -, -, hcall⟩ | ⟨change, rfl, hchange⟩
      · rw [hw]
        exact ih
      · rw [Deleted, hcall.webhooks]
        exact ih
      · obtain ⟨⟨row, hrow, hid⟩, hinactive⟩ := ih
        cases change with
        | create new =>
            -- a new webhook has a new id
            obtain ⟨-, hfresh, hw⟩ := hchange
            rw [hw]
            refine ⟨⟨row, List.mem_append_left _ hrow, hid⟩, ?_⟩
            intro wh hwh hwid
            rcases List.mem_append.mp hwh with hold | hnew
            · exact hinactive wh hold hwid
            · rw [List.mem_singleton.mp hnew] at hwid
              exact absurd (hid.trans hwid.symm) (hfresh row hrow)
        | delete id' environmentID' =>
            rw [show p'.world = _ from hchange]
            -- another delete changes no ids and makes nothing active
            have hkeeps : ∀ wh, (Webhook.deleted id' environmentID' wh).id = wh.id ∧
                (Webhook.deleted id' environmentID' wh).environmentID = wh.environmentID := by
              intro wh
              rw [Webhook.deleted]
              split_ifs <;> exact ⟨rfl, rfl⟩
            refine ⟨⟨_, List.mem_map_of_mem hrow, (hkeeps row).1.trans hid⟩, ?_⟩
            intro wh hwh hwid hwenv
            obtain ⟨old, hold, rfl⟩ := List.mem_map.mp hwh
            rw [(hkeeps old).1] at hwid
            rw [(hkeeps old).2] at hwenv
            rw [Webhook.deleted]
            split_ifs
            · rfl
            · exact hinactive old hold hwid hwenv

/-- **After a webhook was deleted, nothing is posted to it** but by deliveries that had read
it before. -/
theorem posts_before_delete {s₁ s₂ : Pool World Activity Op.Res WebhookError Unit}
    {post : List (Event Activity Change Op.Res WebhookError Unit)} {id environmentID : UUID}
    (h : Run (hooks d) (fun _ _ => True) s₀ evs s) (hidle : s₀.Idle)
    (hrow : ∃ wh ∈ s.world.webhooks, wh.id = id)
    (hdel : Step (hooks d) s (.env (.delete id environmentID)) s₁)
    (hafter : Run (hooks d) (fun _ _ => True) s₁ post s₂) {i l tr req k}
    (ht : s₂.threads i = some ⟨l, tr, .call (.clientDo req) k⟩) :
    ∃ job wh, l = .deliver job ∧ req = wh.post d job.payload ∧
      ⟨.getWebhookByID wh.id wh.environmentID, .ok wh⟩ ∈ tr ∧
      (wh.id = id → wh.environmentID = environmentID →
        s₁.Logged i l ⟨.getWebhookByID wh.id wh.environmentID, .ok wh⟩) := by
  have hbefore := h.snoc True.intro hdel
  obtain ⟨job, wh, environmentID', id', hl, -, hread, hactive, -, hreq⟩ :=
    about_to_post (hbefore.trans hafter) hidle ht
  have hcalled := (hbefore.trans hafter).called_of_idle hidle ht hread
  obtain ⟨pre, post', s₃, s₄, -, -, hget, -, -⟩ := (hbefore.trans hafter).answered hcalled
  obtain ⟨-, rfl, rfl⟩ := Call.read hget
  refine ⟨job, wh, hl, hreq, hread, ?_⟩
  rintro rfl rfl
  -- the row was read before the delete, or in the run after it
  rcases hafter.called i _ _ ht hread with hcall | hlogged
  · -- it was read after the delete, and was inactive then
    obtain ⟨pre₁, post₁, s₅, s₆, -, hpre₁, hget₁, -, -⟩ := hafter.answered hcall
    have hdeleted : Deleted wh.id wh.environmentID s₁.world := by
      cases hdel with
      | env hchange =>
          obtain ⟨row, hmem, hid⟩ := hrow
          rw [show _ = _ from hchange]
          refine ⟨⟨_, List.mem_map_of_mem hmem, ?_⟩, ?_⟩
          · rw [Webhook.deleted]
            split_ifs <;> exact hid
          · intro wh' hwh' hid' henv'
            obtain ⟨old, -, rfl⟩ := List.mem_map.mp hwh'
            rw [Webhook.deleted] at hid' henv' ⊢
            split_ifs at hid' henv' ⊢ with hmatch
            · rfl
            · exact absurd ⟨hid', henv'⟩ hmatch
    have hinactive := (deleted_stays hpre₁ hdeleted).2 wh (Call.read hget₁).1 rfl rfl
    rw [hactive] at hinactive
    cases hinactive
  · exact hlogged

/-! A webhook is deleted while a job for it is on its way. -/

theorem hook_allowed : (hook "notification.sent").isActive = true ∧
    containsEvent (hook "notification.sent").events
      (trimSpace (hookJob "notification.sent").event) = true :=
  ⟨rfl, containsEvent_trimSpace (List.mem_singleton_self _)⟩

theorem handle_hook : handle dispatcher (.ok (hookJob "notification.sent")) =
    .call (.getWebhookByID (hook "notification.sent").id (hook "notification.sent").environmentID)
      fun row => (executeRead dispatcher (trimSpace (hookJob "notification.sent").event)
        (hookJob "notification.sent").payload row).outcome >>= concluded := by
  have hevent : trimSpace "notification.sent" ≠ "" := by decide +kernel
  rw [handle_ok, execute_eq (names_hook "notification.sent") (filled_hook hevent)]
  rfl

theorem executeRead_hook : executeRead dispatcher
    (trimSpace (hookJob "notification.sent").event) (hookJob "notification.sent").payload
      (.ok (hook "notification.sent")) =
    deliver dispatcher (hook "notification.sent")
      (trimSpace (hookJob "notification.sent").event) (hookJob "notification.sent").payload := by
  obtain ⟨hactive, hevent⟩ := hook_allowed
  rw [executeRead, executeFound, if_neg (by rw [hactive]; exact Bool.noConfusion),
    if_neg (by rw [hevent]; exact Bool.noConfusion)]

/-- A delivery asks for its request, and then posts it. -/
theorem deliver_posts (wh : Webhook) (event : String) (payload : List UInt8) :
    ∃ k, (deliver dispatcher wh event payload).outcome >>= concluded =
        .call (.newRequest wh.url payload) k ∧
      ∃ k', k (.ok ()) = .call (.clientDo (wh.post dispatcher payload)) k' :=
  ⟨_, rfl, _, rfl⟩

/-- The job is in the queue. -/
def queued : World := ⟨[hook "notification.sent"], [], [hookJob "notification.sent"]⟩

/-- The webhook has been read, and is then deleted. -/
def readIt : List (Event Activity Change Op.Res WebhookError Unit) :=
  [.start 0 (.deliver (hookJob "notification.sent")),
    .call 0 ⟨.getWebhookByID (hook "notification.sent").id (hook "notification.sent").environmentID,
      .ok (hook "notification.sent")⟩]

/-- The delivery has read its webhook. -/
theorem run_readIt : Run (hooks dispatcher) (fun _ _ => True) ⟨queued, fun _ => none⟩ readIt
    ⟨queued, Function.update (fun _ => none) 0 (some ⟨.deliver (hookJob "notification.sent"),
      [⟨.getWebhookByID (hook "notification.sent").id (hook "notification.sent").environmentID,
        .ok (hook "notification.sent")⟩],
      (deliver dispatcher (hook "notification.sent")
        (trimSpace (hookJob "notification.sent").event)
        (hookJob "notification.sent").payload).outcome >>= concluded⟩)⟩ := by
  have hstart : Step (hooks dispatcher) ⟨queued, fun _ => none⟩
      (.start 0 (.deliver (hookJob "notification.sent")))
      ⟨queued, Function.update (fun _ => none) 0 (some ⟨.deliver (hookJob "notification.sent"), [],
        handle dispatcher (.ok (hookJob "notification.sent"))⟩)⟩ :=
    .start rfl ⟨rfl, List.mem_singleton_self _⟩
  rw [handle_hook] at hstart
  have hget : Call (.getWebhookByID (hook "notification.sent").id
      (hook "notification.sent").environmentID) queued (.ok (hook "notification.sent")) queued := by
    have hfound : queued.getWebhook (hook "notification.sent").id
        (hook "notification.sent").environmentID = .ok (hook "notification.sent") := by
      simp [World.getWebhook, World.webhookByID, queued]
    have hcall := Call.get (hook "notification.sent").id (hook "notification.sent").environmentID
      queued
    rwa [hfound] at hcall
  have hread := (Run.single (C := fun _ _ => True) True.intro hstart).snoc True.intro
    (.call_update hget)
  rw [executeRead_hook] at hread
  exact hread

/-- A delivery that has read its webhook posts after the webhook was deleted. -/
theorem posts_before_delete_read : ∃ evs s s₁ post s₂ i l tr req k,
    Run (hooks dispatcher) (fun _ _ => True) ⟨queued, fun _ => none⟩ evs s ∧
    (∃ wh ∈ s.world.webhooks, wh.id = (hook "notification.sent").id) ∧
    Step (hooks dispatcher) s (.env (.delete (hook "notification.sent").id
      (hook "notification.sent").environmentID)) s₁ ∧
    Run (hooks dispatcher) (fun _ _ => True) s₁ post s₂ ∧
    s₂.threads i = some ⟨l, tr, .call (.clientDo req) k⟩ ∧
    ∃ job wh, l = .deliver job ∧ req = wh.post dispatcher job.payload ∧
      ⟨.getWebhookByID wh.id wh.environmentID, .ok wh⟩ ∈ tr ∧
      (wh.id = (hook "notification.sent").id →
        wh.environmentID = (hook "notification.sent").environmentID →
        s₁.Logged i l ⟨.getWebhookByID wh.id wh.environmentID, .ok wh⟩) := by
  have hrow : ∃ wh ∈ queued.webhooks, wh.id = (hook "notification.sent").id :=
    ⟨_, List.mem_singleton_self _, rfl⟩
  have hdelete : ∀ ts, Step (hooks dispatcher) ⟨queued, ts⟩
      (.env (.delete (hook "notification.sent").id (hook "notification.sent").environmentID))
      ⟨{ queued with webhooks := queued.webhooks.map (Webhook.deleted (hook "notification.sent").id
        (hook "notification.sent").environmentID) }, ts⟩ := fun ts => .env rfl
  obtain ⟨k, hk, k', hk'⟩ := deliver_posts (hook "notification.sent")
    (trimSpace (hookJob "notification.sent").event) (hookJob "notification.sent").payload
  have hread := run_readIt
  rw [hk] at hread
  have hafter := Run.single (M := hooks dispatcher) (C := fun _ _ => True) True.intro
    (@Step.call_update _ _ _ _ _ _ _ (hooks dispatcher) _ _ (fun _ => none) 0
      (.deliver (hookJob "notification.sent"))
      [⟨.getWebhookByID (hook "notification.sent").id (hook "notification.sent").environmentID,
        .ok (hook "notification.sent")⟩] _ k _
      (Call.newRequest (hook "notification.sent").url (hookJob "notification.sent").payload
        { queued with webhooks := queued.webhooks.map (Webhook.deleted
          (hook "notification.sent").id (hook "notification.sent").environmentID) }))
  rw [hk'] at hafter
  refine ⟨_, _, _, _, _, 0, _, _, _, _, hread, hrow, hdelete _, hafter,
    Pool.threads_update .., ?_⟩
  exact posts_before_delete hread (fun _ => rfl) hrow (hdelete _) hafter
    (Pool.threads_update ..)

end Runs

end Iwifunni.Webhooks
