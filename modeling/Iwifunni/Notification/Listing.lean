/-
Iwifunni/Notification/Listing.lean

The activity list of a workflow, against the two writers of its notifications.

`ListByWorkflowID` asks for the rows whose metadata contain
{"workflow_id": id}.  The workflow id of a job is not stored otherwise, so a row
is listed only if the writer of its job has put that key into the metadata:

    prepareWorkflowJob        enrichMetadata sets workflow_id, whatever the caller sent
    handleNotificationStep    workflow_execution_id, workflow_step_id, subscriber_id

The rows of the first writer are listed for their workflow and no other, those of
the second for none (`listed_iff`).
-/
import Iwifunni.Notification.Compliance
import Iwifunni.Notification.Idempotence
import Iwifunni.Workflow.Sequential

namespace Iwifunni.Notification

open Go Db Effect Effect.Prog Store

/-! ### The list -/

/-- `filter @> metadata` for objects of strings. -/
def Contains (metadata filter : List (String × String)) : Prop :=
  ∀ f ∈ filter, Json.lookup metadata f.1 = some f.2

/-- The filter of `ListByWorkflowID`. -/
def metadataFilter (workflowID : UUID) : List (String × String) :=
  [("workflow_id", workflowID.toString)]

/-- A row the list of this workflow shows. -/
def Listed (workflowID : UUID) (row : Notification) : Prop :=
  Contains row.metadata (metadataFilter workflowID)

/-- A row in the list of this workflow and in no other. -/
def ListedOnly (workflowID : UUID) (row : Notification) : Prop :=
  Listed workflowID row ∧ ∀ other, Listed other row → other = workflowID

theorem listed_iff_lookup {workflowID : UUID} {row : Notification} :
    Listed workflowID row ↔
      Json.lookup row.metadata "workflow_id" = some workflowID.toString := by
  simp [Listed, Contains, metadataFilter]

theorem listedOnly_of_lookup {workflowID : UUID} {row : Notification}
    (h : Json.lookup row.metadata "workflow_id" = some workflowID.toString) :
    ListedOnly workflowID row := by
  refine ⟨listed_iff_lookup.mpr h, fun other hother => ?_⟩
  have heq := (listed_iff_lookup.mp hother).symm.trans h
  exact UUID.toString_injective (Option.some.inj heq)

/-! ### The writers -/

/-- The answers are those of a database, at whatever time. -/
def Genuine (log : List (Answered Op.Res GoError)) : Prop :=
  ∀ a ∈ log, ∃ w w', Call a.1 w a.2 w'

/-- Who prepares the jobs of a workflow. -/
inductive Writer
  | prepareWorkflowJob
  | handleNotificationStep

/-- The job has been prepared by this writer. -/
def PreparedBy (job : NotificationJob) : Writer → Prop
  | .prepareWorkflowJob => ∃ s request log, Genuine log ∧
      Path (prepareWorkflowJob s request) log (.ok job)
  | .handleNotificationStep => ∃ s execution row definition node log out answer,
      Path (Workflow.handleNotificationStep s execution row definition node) log out ∧
      ⟨.enqueue job, answer⟩ ∈ log

/-- The row that `Send`, or `CreateQueuedNotification`, has stored for a job. -/
def StoredFor (job : NotificationJob) (row : Notification) : Prop :=
  ∃ log arg, Genuine log ∧ ⟨.upsertByProjectJob arg, .ok row⟩ ∈ log ∧
    ((∃ s reportErrors out, Path (send s job reportErrors) log out) ∨
      ∃ notificationID out, Path (createQueuedNotification job notificationID) log out)

/-! ### What is stored -/

section Stored

variable {s : Service} {job : NotificationJob} {row : Notification}

/-- An upsert writes a new row or the row of the same job. -/
theorem upsert_ok {arg : Notification} {w w' : World}
    (h : Call (.upsertByProjectJob arg) w (.ok row) w') :
    row = arg ∨ ∃ old, row = upsertedNotification arg old := by
  generalize hr : Except.ok row = r at h
  cases h with
  | answer =>
      revert hr
      simp only [World.answer]
      split
      · rintro ⟨⟩
        exact Or.inr ⟨_, rfl⟩
      · split
        · rintro ⟨⟩
        · rintro ⟨⟩
          exact Or.inl rfl
  | fault => cases hr

/-- Whether it is new or not, the row has the metadata it was written with. -/
theorem metadata_of_upsert {arg : Notification} {w w' : World}
    (h : Call (.upsertByProjectJob arg) w (.ok row) w') : row.metadata = arg.metadata := by
  rcases upsert_ok h with rfl | ⟨old, rfl⟩
  · rfl
  · rfl

/-- A call that upserts nothing but the metadata of the job. -/
def UpsertsMetadata (job : NotificationJob) : Op → Prop
  | .upsertByProjectJob arg => arg.metadata = job.metadata
  | _ => True

/-- Sending stores the metadata of the job. -/
theorem calls_send_metadata (reportErrors : Bool) :
    Calls (UpsertsMetadata job) (send s job reportErrors) := by
  unfold send
  dsimp only
  split
  · exact calls_fail _
  refine (calls_perform (show UpsertsMetadata job .now from True.intro)).bind fun nowTs => ?_
  split
  · exact calls_ret _
  split
  · exact calls_fail _
  refine (calls_perform (show UpsertsMetadata job .newUUID from True.intro)).bind fun id => ?_
  refine Calls.bind (calls_perform ?_) fun notification => ?_
  · exact rfl
  refine Calls.bind ?_ fun _ => calls_ret _
  -- behind the upsert there is no other
  refine (calls_deliverJob ..).mono fun op hop => ?_
  cases op with
  | upsertByProjectJob arg => cases hop
  | _ => exact True.intro

theorem calls_createQueuedNotification_metadata (notificationID : UUID) :
    Calls (UpsertsMetadata job) (createQueuedNotification job notificationID) := by
  refine (calls_perform (show UpsertsMetadata job .now from True.intro)).bind fun nowTs => ?_
  split
  · exact calls_fail _
  · refine Calls.bind (calls_perform ?_) fun _ => calls_ret _
    exact rfl

theorem metadata_of_storedFor (h : StoredFor job row) : row.metadata = job.metadata := by
  obtain ⟨log, arg, hgenuine, hmem, hprogram⟩ := h
  obtain ⟨w, w', hcall⟩ := hgenuine _ hmem
  have harg : UpsertsMetadata job (.upsertByProjectJob arg) := by
    rcases hprogram with ⟨s, reportErrors, out, hpath⟩ | ⟨notificationID, out, hpath⟩
    · exact (calls_send_metadata reportErrors).of_mem_path hpath hmem
    · exact (calls_createQueuedNotification_metadata notificationID).of_mem_path hpath hmem
  exact (metadata_of_upsert hcall).trans harg

end Stored

/-! ### Jobs of prepareWorkflowJob -/

theorem lookup_enrichMetadata (metadata : List (String × String)) (workflow : WorkflowRecord)
    (subscriber : Subscriber) :
    Json.lookup (enrichMetadata metadata workflow subscriber) "workflow_id" =
      some workflow.id.toString := by
  unfold enrichMetadata
  rw [Json.lookup_insert_of_ne (by decide), Json.lookup_insert_of_ne (by decide),
    Json.lookup_insert_self]

/-- Resolving the subscriber leaves the workflow of the job. -/
theorem resolveWorkflowSubscriber_workflowID {request job : NotificationJob}
    {ids : WorkflowJobIDs} {subscriber : Subscriber} {log}
    (h : Path (resolveWorkflowSubscriber request ids) log (.ok (subscriber, job))) :
    job.workflowID = request.workflowID := by
  unfold resolveWorkflowSubscriber at h
  split at h
  · split at h
    · exact absurd (path_fail h).2 (by simp)
    split at h
    · exact absurd (path_fail h).2 (by simp)
    rcases h.bind_inv with ⟨e, -, ⟨⟩⟩ | ⟨user, log₁, log₂, rfl, -, h₂⟩
    obtain ⟨-, he⟩ := path_ret h₂
    cases he
    rfl
  · rcases h.bind_inv with ⟨e, -, ⟨⟩⟩ | ⟨row, log₁, log₂, rfl, -, h₂⟩
    obtain ⟨-, he⟩ := path_ret h₂
    cases he
    rfl

/-- The workflow a job is prepared for is the one it names. -/
theorem prepareWorkflowJob_metadata {s : Service} {request job : NotificationJob} {log}
    (h : Path (prepareWorkflowJob s request) log (.ok job)) :
    ∃ ids workflow, parseWorkflowJobIDs request = .ok ids ∧
      ⟨.getWorkflowByID ids.workflowID ids.projectID, .ok workflow⟩ ∈ log ∧
      job.workflowID = request.workflowID ∧
      Json.lookup job.metadata "workflow_id" = some workflow.id.toString := by
  unfold prepareWorkflowJob at h
  rcases hids : parseWorkflowJobIDs request with e | ids
  · rw [hids] at h
    exact absurd (path_fail h).2 (by simp)
  rw [hids] at h
  rcases h.bind_inv with ⟨e, -, ⟨⟩⟩ | ⟨workflow, log₁, log₂, rfl, h₁, h₂⟩
  rcases h₂.bind_inv with ⟨e, -, ⟨⟩⟩ | ⟨⟨subscriber, request'⟩, log₃, log₄, rfl, h₃, h₄⟩
  rcases h₄.bind_inv with ⟨e, -, ⟨⟩⟩ | ⟨d, log₅, log₆, rfl, h₅, h₆⟩
  obtain ⟨-, he⟩ := path_ret h₆
  cases he
  have hkept := resolveWorkflowSubscriber_workflowID h₃
  refine ⟨ids, workflow, rfl, ?_, hkept, lookup_enrichMetadata ..⟩
  rw [fetch_path h₁]
  simp

/-- The row of `GetWorkflowByID` has the id it was asked for. -/
theorem id_of_getWorkflowByID {workflowID projectID : UUID} {workflow : WorkflowRecord}
    {w w' : World} (h : Call (.getWorkflowByID workflowID projectID) w (.ok workflow) w') :
    workflow.id = workflowID := by
  have hrow : (World.answer (.getWorkflowByID workflowID projectID) w).1 = .ok workflow := by
    generalize hr : Except.ok workflow = r at h
    cases h with
    | answer => rfl
    | fault => cases hr
  obtain ⟨hget, -⟩ := Option.filter_eq_some_iff.mp (orNoRows_ok hrow)
  exact w.workflows.keyed hget

/-- A job of this writer says which workflow it is for. -/
theorem lookup_of_prepareWorkflowJob {job : NotificationJob} {workflowID : UUID}
    (hid : UUID.parse job.workflowID = some workflowID)
    (h : PreparedBy job .prepareWorkflowJob) :
    Json.lookup job.metadata "workflow_id" = some workflowID.toString := by
  obtain ⟨s, request, log, hgenuine, hpath⟩ := h
  obtain ⟨ids, workflow, hids, hread, hkept, hlookup⟩ := prepareWorkflowJob_metadata hpath
  obtain ⟨w, w', hcall⟩ := hgenuine _ hread
  have hparse := (parseWorkflowJobIDs_ok hids).2
  rw [← hkept, hid] at hparse
  rw [hlookup, id_of_getWorkflowByID hcall, ← Option.some.inj hparse]

/-! ### Jobs of the engine -/

/-- A call that enqueues no notification with a workflow id. -/
def Unmarked : Workflow.Op → Prop
  | .enqueue job => Json.lookup job.metadata "workflow_id" = none
  | _ => True

section Engine

variable {s : Workflow.Service} {execution : WorkflowExecution} {row : WorkflowStepExecution}
  {definition : Workflow.Definition} {node : Workflow.Node}

theorem calls_failCurrentStep_unmarked (cause : GoError) :
    Calls Unmarked (Workflow.failCurrentStep execution row cause) := by
  refine Calls.bind (calls_perform True.intro) fun nowTs => ?_
  refine Calls.bind (calls_perform True.intro) fun _ => ?_
  exact Calls.bind (calls_perform True.intro) fun _ => calls_fail cause

theorem calls_dispatchNext_unmarked (next : List String) :
    Calls Unmarked (Workflow.dispatchNext execution next) := by
  induction next with
  | nil => exact calls_ret ()
  | cons n rest ih => exact Calls.bind (calls_perform True.intro) fun _ => ih

/-- Completing a step marks no notification. -/
theorem calls_completeCurrentAndDispatchNext_unmarked (next : List String)
    (output : Option Json) : Calls Unmarked
      (Workflow.completeCurrentAndDispatchNext s execution row node next output) := by
  refine Calls.bind (calls_perform True.intro) fun nowTs => ?_
  refine Calls.bind (calls_perform True.intro) fun _ => ?_
  cases next with
  | nil => exact Calls.bind (calls_perform True.intro) fun _ => calls_ret ()
  | cons n rest =>
      dsimp only
      split
      · refine Calls.bind (calls_dispatchNext_unmarked _) fun _ => ?_
        exact Calls.bind (calls_perform True.intro) fun _ => calls_ret ()
      · exact calls_fail _

/-- The job of a notification node does not name its workflow in its metadata. -/
theorem calls_handleNotificationStep_unmarked : Calls Unmarked
    (Workflow.handleNotificationStep s execution row definition node) := by
  unfold Workflow.handleNotificationStep
  dsimp only
  split
  · exact calls_failCurrentStep_unmarked _
  split
  · exact calls_failCurrentStep_unmarked _
  split
  · exact calls_failCurrentStep_unmarked _
  refine Calls.bind (calls_ask True.intro) fun answer => ?_
  rcases answer with e | subscriber
  · exact calls_failCurrentStep_unmarked _
  refine Calls.bind (calls_ask True.intro) fun answer => ?_
  rcases answer with e | template
  · exact calls_failCurrentStep_unmarked _
  dsimp only
  split
  · exact calls_failCurrentStep_unmarked _
  refine Calls.bind (calls_perform True.intro) fun jobID => ?_
  refine Calls.bind (calls_ask ?_) fun answer => ?_
  · -- its keys are workflow_execution_id, workflow_step_id and subscriber_id
    exact rfl
  rcases answer with e | u
  · exact calls_failCurrentStep_unmarked _
  · exact calls_completeCurrentAndDispatchNext_unmarked ..

end Engine

theorem lookup_of_handleNotificationStep {job : NotificationJob}
    (h : PreparedBy job .handleNotificationStep) :
    Json.lookup job.metadata "workflow_id" = none := by
  obtain ⟨s, execution, row, definition, node, log, out, answer, hpath, hmem⟩ := h
  exact calls_handleNotificationStep_unmarked.of_mem_path hpath hmem

/-! ### The list is not complete -/

/-- **The notifications of a workflow are listed for it, and for no other, exactly if
`prepareWorkflowJob` has prepared them.** -/
theorem listed_iff {job : NotificationJob} {row : Notification} {workflowID : UUID}
    {writer : Writer} (hid : UUID.parse job.workflowID = some workflowID)
    (hprepared : PreparedBy job writer) (hstored : StoredFor job row) :
    ListedOnly workflowID row ↔ writer = .prepareWorkflowJob := by
  have hmetadata := metadata_of_storedFor hstored
  cases writer with
  | prepareWorkflowJob =>
      refine iff_of_true (listedOnly_of_lookup ?_) rfl
      rw [hmetadata]
      exact lookup_of_prepareWorkflowJob hid hprepared
  | handleNotificationStep =>
      refine iff_of_false ?_ (by simp)
      rintro ⟨hlisted, -⟩
      have hlookup := listed_iff_lookup.mp hlisted
      rw [hmetadata, lookup_of_handleNotificationStep hprepared] at hlookup
      cases hlookup

namespace Sample

/-- An execution of the workflow of one notification. -/
def execution : WorkflowExecution where
  id := Workflow.Sample.executionID
  workflowID := Workflow.Sample.workflowID
  environmentID := Workflow.Sample.environmentID
  subscriberID := some Workflow.Sample.subscriberID
  status := .running
  currentStepID := some "mail"
  triggerPayload := some (Workflow.triggerPayload "user.signup" "" none)

/-- The row of its step. -/
def stepExecution : WorkflowStepExecution where
  id := UUID.ofDigit 8
  executionID := Workflow.Sample.executionID
  stepID := "mail"
  stepType := "notification"
  status := .running
  attempts := 1
  inputJson := none
  outputJson := none
  errorJson := none
  startedAt := none
  completedAt := none
  failedAt := none

/-- The job its notification node enqueues. -/
def engineJob : NotificationJob :=
  Workflow.notificationJob execution (Workflow.Sample.notify "mail") "email"
    Workflow.Sample.subscriber ⟨"Welcome", "Hi"⟩
    { reference := Workflow.Sample.subscriberID.toString, email := "ada@example.com" }
    (UUID.ofDigit 7)

theorem preparedBy_engineJob : PreparedBy engineJob .handleNotificationStep :=
  ⟨Workflow.Sample.service, execution, stepExecution, Workflow.Sample.single,
    Workflow.Sample.notify "mail", _, _, .ok (), path_drive Workflow.World.answer _
      (Workflow.Sample.world Workflow.Sample.single),
    .tail _ (.tail _ (.tail _ (.head _)))⟩

/-- The row `CreateQueuedNotification` writes for it. -/
def queuedRow : Notification :=
  notificationRow engineJob Workflow.Sample.environmentID (UUID.ofDigit 9) .queued 0

theorem storedFor_engineJob : StoredFor engineJob queuedRow :=
  ⟨((createQueuedNotification engineJob (UUID.ofDigit 9)).drive World.answer before).1,
    queuedRow, fun a ha => by
      obtain ⟨w, hw⟩ := mem_drive ha
      exact ⟨w, _, hw ▸ Call.answer a.1 w⟩,
    .tail _ (.head _), Or.inr ⟨_, _, path_drive ..⟩⟩

theorem parse_engineJob :
    UUID.parse engineJob.workflowID = some Workflow.Sample.workflowID :=
  UUID.parse_toString Workflow.Sample.workflowID

end Sample

theorem listed_iff_engineJob : ListedOnly Workflow.Sample.workflowID Sample.queuedRow ↔
    Writer.handleNotificationStep = Writer.prepareWorkflowJob :=
  listed_iff Sample.parse_engineJob Sample.preparedBy_engineJob Sample.storedFor_engineJob

/-- A notification of the engine is in the list of no workflow. -/
theorem engine_row_unlisted :
    UUID.parse Sample.engineJob.workflowID = some Workflow.Sample.workflowID ∧
    PreparedBy Sample.engineJob .handleNotificationStep ∧
    StoredFor Sample.engineJob Sample.queuedRow ∧
    ¬ Listed Workflow.Sample.workflowID Sample.queuedRow := by
  refine ⟨Sample.parse_engineJob, Sample.preparedBy_engineJob, Sample.storedFor_engineJob, ?_⟩
  rw [listed_iff_lookup]
  exact fun h => by cases h

end Iwifunni.Notification
