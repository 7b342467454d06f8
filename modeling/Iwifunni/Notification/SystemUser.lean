/-
Iwifunni/Notification/SystemUser.lean

Sends to users of the dashboard.

With `is_system_user` the recipient of a workflow send is a row of `users`.  The
flag is looked at in `resolveWorkflowSubscriber` only, and by then "to" has been
resolved like any other:

    no subscriber row with the user's id      INSERT, of a row of its own
    a row, and "to" brings a field            UPDATE of the row
    a row, and "to" brings nothing else       the row is read, and forgotten

so only in the last case is the users table all that the send looks at.
-/
import Iwifunni.Notification.Compliance
import Iwifunni.Subscriber.Addressing

namespace Iwifunni.Notification

open Go Db Effect Effect.Prog Store
open Subscriber (NoWrite Send found)

variable {s : Service} {w : World}

/-! ### Sends to a system user -/

/-- A call of `PrepareJob` for a workflow and a system user. -/
structure SystemSend where
  job : NotificationJob
  target : SubscriberTo
  userID : UUID
  circumstances : Circumstances
  system : job.isSystemUser = true
  workflow : trimSpace job.workflowID ≠ ""
  addressed : job.toSubscriber = some target
  user : UUID.parse target.subscriberID = some userID

namespace SystemSend

variable (a : SystemSend)

def run (s : Service) (w : World) :
    List (Answered Op.Res GoError) × Except GoError NotificationJob × World :=
  a.circumstances.run (prepareJob s a.job) w

/-- The job, had "to" only named the user. -/
def userJob : NotificationJob :=
  { trimJob a.job with subscriberID := a.userID.toString }

/-- What the rest of `PrepareJob` makes of the user. -/
def forUser (s : Service) (w : World) : Except GoError NotificationJob :=
  ((prepareResolved s a.userJob).drive a.circumstances.answer (w, 1)).2.1

/-- The send takes its recipient from `users`, writes no subscriber, and ends as the
user alone decides. -/
structure UsersOnly (s : Service) (w : World) : Prop where
  reads : ∃ user, ⟨.getUserByID a.userID, .ok user⟩ ∈ (a.run s w).1
  writes : ∀ c ∈ (a.run s w).1, NoWrite c.1
  outcome : (a.run s w).2.1 = a.forUser s w

/-- Nothing stands between the send and the users table: there is a subscriber row with
the user's id, "to" brings nothing to write to it, the workflow is there, and the three
reads are answered. -/
structure ClearIn (w : World) (environmentID workflowID : UUID) : Prop where
  project : UUID.parse a.job.projectID = some environmentID
  row : (found w environmentID a.userID).isSome = true
  plain : hasUpdates a.target = false
  named : UUID.parse (trimSpace a.job.workflowID) = some workflowID
  workflow : ((w.workflows.get workflowID).filter (·.environmentID == environmentID)).isSome = true
  answered : ∀ n ≤ 2, a.circumstances.fails n = none

/-- The send as one to a subscriber id. -/
def toSend {environmentID : UUID} (h : UUID.parse a.job.projectID = some environmentID) :
    Send environmentID a.userID where
  job := a.job
  target := a.target
  circumstances := a.circumstances
  addressed := a.addressed
  project := h
  subscriber := a.user

end SystemSend

/-! ### The rest of a send, once "to" is resolved -/

/-- A job with three ids is accepted. -/
theorem parseWorkflowJobIDs_of {job : NotificationJob} {ids : WorkflowJobIDs}
    (hp : UUID.parse job.projectID = some ids.projectID)
    (hw : UUID.parse job.workflowID = some ids.workflowID)
    (hs : UUID.parse job.subscriberID = some ids.subscriberID) :
    parseWorkflowJobIDs job = .ok ids := by
  have hne : job.projectID ≠ "" := by
    intro h
    rw [h] at hp
    cases hp
  unfold parseWorkflowJobIDs
  rw [if_neg hne, hp]
  dsimp only
  rw [hw]
  dsimp only
  rw [hs]

/-- A workflow send to a system user: the workflow and the user are fetched. -/
theorem prepareResolved_system (job : NotificationJob) (ids : WorkflowJobIDs)
    {target : SubscriberTo} {userID : UUID} (hsys : job.isSystemUser = true)
    (hto : job.toSubscriber = some target) (huser : UUID.parse target.subscriberID = some userID)
    (hp : UUID.parse job.projectID = some ids.projectID)
    (hw : UUID.parse job.workflowID = some ids.workflowID)
    (hs : UUID.parse job.subscriberID = some ids.subscriberID) :
    prepareResolved s job
      = (fetch (.getWorkflowByID ids.workflowID ids.projectID) "workflow not found" >>=
          fun workflow => fetch (.getUserByID userID) "user not found" >>= fun user =>
            prepareForSubscriber s ids.projectID workflow (userSubscriber user userID)
              { job with subscriberID := userID.toString }) := by
  have hne : ∀ {t : String} {id : UUID}, UUID.parse t = some id → t ≠ "" := by
    rintro t id h rfl
    cases h
  unfold prepareResolved
  rw [if_pos ⟨hne hw, hne hs⟩, if_neg (hne hp)]
  unfold prepareWorkflowJob
  rw [parseWorkflowJobIDs_of hp hw hs]
  show (fetch _ _ >>= fun _ => _) = (fetch _ _ >>= fun _ => _)
  congr 1
  funext workflow
  unfold resolveWorkflowSubscriber
  rw [if_pos hsys, hto]
  dsimp only
  rw [huser]
  exact bind_assoc ..

theorem drive_fetch {op : Op} (missing : String) {c : Circumstances} {x x' : World × ℕ}
    {row : op.Res} (h : c.answer op x = (.ok row, x')) :
    (fetch op missing).drive c.answer x = ([⟨op, .ok row⟩], .ok row, x') := by
  show Prog.drive c.answer (.call op _) x = _
  rw [Prog.drive, h]
  rfl

/-- A fetch that is answered by an error ends the send. -/
theorem drive_fetch_error {op : Op} (missing : String) {c : Circumstances} {x x' : World × ℕ}
    {e : GoError} (h : c.answer op x = (.error e, x')) :
    ∃ e', (fetch op missing).drive c.answer x = ([⟨op, .error e⟩], .error e', x') := by
  show ∃ e', Prog.drive c.answer (.call op _) x = _
  rw [Prog.drive, h]
  cases e <;> exact ⟨_, rfl⟩

theorem toString_ne_empty (id : UUID) : id.toString ≠ "" := by
  intro h
  have hparse := UUID.parse_toString id
  rw [h] at hparse
  cases hparse

/-! ### A send looks at the users table -/

namespace SystemSend

variable {a : SystemSend} {environmentID workflowID : UUID}

/-- Without a workflow id that can be parsed nothing is looked up. -/
theorem prepareResolved_unnamed (job : NotificationJob)
    (hne : job.workflowID ≠ "" ∧ job.subscriberID ≠ "")
    (hw : UUID.parse job.workflowID = none) : ∃ e, prepareResolved s job = fail e := by
  unfold prepareResolved
  rw [if_pos hne]
  split
  · exact ⟨_, rfl⟩
  · unfold prepareWorkflowJob parseWorkflowJobIDs
    split
    · exact ⟨_, rfl⟩
    · next ids hids =>
      split at hids
      · cases hids
      · split at hids
        · cases hids
        · rw [hw] at hids
          cases hids

variable (a) in
/-- The workflow and the user are fetched, and the channels prepared for the user. -/
def prepare (s : Service) (environmentID workflowID : UUID) : Act NotificationJob :=
  fetch (.getWorkflowByID workflowID environmentID) "workflow not found" >>= fun workflow =>
    fetch (.getUserByID a.userID) "user not found" >>= fun user =>
      prepareForSubscriber s environmentID workflow (userSubscriber user a.userID) a.userJob

/-- The subscriber that "to" was resolved to is forgotten. -/
theorem rest_eq (hp : UUID.parse a.job.projectID = some environmentID)
    (hw : UUID.parse (trimSpace a.job.workflowID) = some workflowID)
    (row : Db.Subscriber) :
    (a.toSend hp).rest s row = a.prepare s environmentID workflowID :=
  prepareResolved_system { trimJob a.job with
      subscriberID := row.id.toString
      recipient := Subscriber.recipientOf a.job.recipient row }
    ⟨environmentID, workflowID, row.id⟩ a.system a.addressed a.user hp hw
    (UUID.parse_toString row.id)

theorem prepareResolved_userJob (hp : UUID.parse a.job.projectID = some environmentID)
    (hw : UUID.parse (trimSpace a.job.workflowID) = some workflowID) :
    prepareResolved s a.userJob = a.prepare s environmentID workflowID :=
  prepareResolved_system a.userJob ⟨environmentID, workflowID, a.userID⟩ a.system a.addressed
    a.user hp hw (UUID.parse_toString a.userID)

/-- What the workflow lookup answers. -/
theorem answer_workflow (h : a.circumstances.fails 1 = none) (environmentID workflowID : UUID) :
    a.circumstances.answer (.getWorkflowByID workflowID environmentID) (w, 1)
      = (orNoRows ((w.workflows.get workflowID).filter (·.environmentID == environmentID)), w, 2) :=
  Circumstances.answer_served rfl h

theorem answer_user (h : a.circumstances.fails 2 = none) :
    a.circumstances.answer (.getUserByID a.userID) (w, 2)
      = (orNoRows (w.users.get a.userID), w, 3) :=
  Circumstances.answer_served rfl h

/-- A workflow that is not read keeps the user from being read. -/
theorem prepare_of_error {e : GoError} {x : World × ℕ}
    (h : a.circumstances.answer (.getWorkflowByID workflowID environmentID) (w, 1)
      = (.error e, x)) :
    ((a.prepare s environmentID workflowID).drive a.circumstances.answer (w, 1)).1
      = [⟨.getWorkflowByID workflowID environmentID, .error e⟩] := by
  obtain ⟨e', hdrive⟩ := drive_fetch_error "workflow not found" h
  unfold prepare
  rw [drive_bind_error (congrArg (·.2.1) hdrive), hdrive]

/-- With the workflow there, the user is the next row that is fetched. -/
theorem prepare_of_workflow {workflow : WorkflowRecord} {r : Except GoError User} {x : World × ℕ}
    (h : a.circumstances.answer (.getWorkflowByID workflowID environmentID) (w, 1)
      = (.ok workflow, w, 2))
    (h₂ : a.circumstances.answer (.getUserByID a.userID) (w, 2) = (r, x)) :
    ∃ log, ((a.prepare s environmentID workflowID).drive a.circumstances.answer (w, 1)).1
      = ⟨.getWorkflowByID workflowID environmentID, .ok workflow⟩ ::
        ⟨.getUserByID a.userID, r⟩ :: log ∧ (∀ e, r = .error e → log = []) := by
  have hdrive := drive_fetch "workflow not found" h
  unfold prepare
  rw [drive_bind_ok (congrArg (·.2.1) hdrive), hdrive]
  rcases r with e | user
  · obtain ⟨e', hdrive₂⟩ := drive_fetch_error "user not found" h₂
    rw [drive_bind_error (congrArg (·.2.1) hdrive₂), hdrive₂]
    exact ⟨[], rfl, fun _ _ => rfl⟩
  · have hdrive₂ := drive_fetch "user not found" h₂
    rw [drive_bind_ok (congrArg (·.2.1) hdrive₂), hdrive₂]
    exact ⟨_, rfl, fun e he => by cases he⟩

/-- The user is read if nothing fails before, and the workflow is there. -/
theorem prepare_reads_iff {user : User} (huser : w.users.get a.userID = some user) :
    (∃ user, ⟨.getUserByID a.userID, .ok user⟩ ∈
        ((a.prepare s environmentID workflowID).drive a.circumstances.answer (w, 1)).1) ↔
      a.circumstances.fails 1 = none ∧ a.circumstances.fails 2 = none ∧
        ((w.workflows.get workflowID).filter (·.environmentID == environmentID)).isSome = true := by
  -- the workflow is read first, then the user
  rcases hf₁ : a.circumstances.fails 1 with - | text
  · have hans := answer_workflow (w := w) hf₁ environmentID workflowID
    rcases hworkflow : (w.workflows.get workflowID).filter (·.environmentID == environmentID)
      with - | workflow
    · rw [hworkflow] at hans
      rw [prepare_of_error hans]
      refine iff_of_false (by simp) ?_
      rintro ⟨-, -, hsome⟩
      rw [hworkflow] at hsome
      cases hsome
    · rw [hworkflow] at hans
      rcases hf₂ : a.circumstances.fails 2 with - | text
      · have hans₂ := answer_user (w := w) hf₂
        rw [huser] at hans₂
        obtain ⟨log, hlog, -⟩ := prepare_of_workflow (s := s) hans hans₂
        refine iff_of_true ⟨user, ?_⟩ ⟨rfl, rfl, by rw [hworkflow]; rfl⟩
        rw [hlog]
        exact List.mem_cons_of_mem _ (List.mem_cons_self ..)
      · have hans₂ : a.circumstances.answer (.getUserByID a.userID) (w, 2)
            = (.error (.other text), w, 3) := Circumstances.answer_fault rfl hf₂
        obtain ⟨log, hlog, hnil⟩ := prepare_of_workflow (s := s) hans hans₂
        rw [hlog, hnil _ rfl]
        simp
  · have hans : a.circumstances.answer (.getWorkflowByID workflowID environmentID) (w, 1)
        = (.error (.other text), w, 2) := Circumstances.answer_fault rfl hf₁
    rw [prepare_of_error hans]
    simp

/-- Any other way through the resolution of "to" reads no user, or writes a subscriber. -/
theorem resolved_of_usersOnly (h : a.UsersOnly s w)
    (hp : UUID.parse a.job.projectID = some environmentID) :
    a.circumstances.fails 0 = none ∧ hasUpdates a.target = false ∧
      ∃ row, found w environmentID a.userID = some row := by
  obtain ⟨⟨user, hreads⟩, hwrites, -⟩ := h
  rcases hf : a.circumstances.fails 0 with - | text
  · refine ⟨rfl, Send.found_of_noWrite (a := a.toSend hp) (w := w) hf ?_⟩
    exact fun c hc => hwrites c (Send.mem_run hc)
  · have hrun : (a.run s w).1
        = [⟨.getSubscriberByID a.userID environmentID, .error (.other text)⟩] :=
      Send.run_of_error ((a.toSend hp).resolution_fault hf)
    rw [hrun] at hreads
    simp at hreads

theorem run_of_noProject (hp : UUID.parse a.job.projectID = none) : (a.run s w).1 = [] := by
  have hresolve : resolveToAndBuildRecipient (trimJob a.job) a.target
      = fail (.invalidSend "invalid project_id") := by
    unfold resolveToAndBuildRecipient resolveSubscriberFromTo
    rw [show UUID.parse (trimJob a.job).projectID = none from hp]
    rfl
  unfold run Circumstances.run prepareJob
  simp only [a.addressed]
  rw [hresolve]
  rfl

/-- The reads of the rest of the send. -/
def ReadsElsewhere : Op → Prop
  | .getWorkflowByID _ _ => True
  | .getUserByID _ => True
  | .getTemplateByID _ _ => True
  | _ => False

/-- What the user decides alone does not depend on the subscribers. -/
theorem forUser_subscribers (subscribers : Table Db.Subscriber.id) :
    a.forUser s { w with subscribers := subscribers } = a.forUser s w := by
  have hcalls : Calls ReadsElsewhere (prepareResolved s a.userJob) := by
    refine calls_afterTo (fun _ _ => True.intro) (fun _ => True.intro) ?_ (fun _ _ => True.intro)
    intro hsys
    exact absurd (a.system.symm.trans hsys) (by decide)
  let R (x y : World × ℕ) : Prop := x = ({ y.1 with subscribers := subscribers }, y.2)
  refine hcalls.drive_congr (R := R) ?_ rfl
  rintro op _ ⟨w', n⟩ hop rfl
  cases op with
  | getWorkflowByID id environmentID =>
      simp only [Circumstances.answer]
      split <;> exact ⟨rfl, rfl⟩
  | getUserByID id =>
      simp only [Circumstances.answer]
      split <;> exact ⟨rfl, rfl⟩
  | getTemplateByID id environmentID =>
      simp only [Circumstances.answer]
      split <;> exact ⟨rfl, rfl⟩
  | _ => exact hop.elim

/-- **When a send to a system user looks at the users table only**: there is a subscriber
row with the user's id, and "to" has nothing to write to it.  What such a send ends with
is the same whatever the subscribers are. -/
theorem usersOnly_iff {user : User} (huser : w.users.get a.userID = some user) :
    (a.UsersOnly s w ↔ ∃ environmentID workflowID, a.ClearIn w environmentID workflowID) ∧
      ∀ subscribers, a.forUser s { w with subscribers := subscribers } = a.forUser s w := by
  refine ⟨?_, forUser_subscribers⟩
  constructor
  · intro h
    obtain ⟨user', hreads⟩ := h.reads
    rcases hp : UUID.parse a.job.projectID with - | environmentID
    · rw [run_of_noProject hp] at hreads
      cases hreads
    · -- it has come as far as the users table, so "to" was resolved to a row
      obtain ⟨hf, hu, row, hfound⟩ := resolved_of_usersOnly h hp
      have hres := Send.resolution_kept (a := a.toSend hp) hf hfound
        (show ¬ hasUpdates a.target = true by rw [hu]; exact Bool.false_ne_true)
      have hrun : (a.run s w).1 = _ := (Send.run_of_ok hres).1
      rw [hrun, List.singleton_append, List.mem_cons] at hreads
      have hrest := hreads.resolve_left (by simp)
      rcases hw : UUID.parse (trimSpace a.job.workflowID) with - | workflowID
      · -- the workflow id is not accepted, and nothing is fetched
        obtain ⟨e, he⟩ := prepareResolved_unnamed (s := s) { trimJob a.job with
            subscriberID := row.id.toString
            recipient := Subscriber.recipientOf a.job.recipient row }
          ⟨a.workflow, toString_ne_empty row.id⟩ hw
        rw [show (a.toSend hp).rest s row = _ from he] at hrest
        cases hrest
      · rw [rest_eq hp hw row] at hrest
        obtain ⟨hf₁, hf₂, hworkflow⟩ := (prepare_reads_iff huser).mp ⟨user', hrest⟩
        -- and no statement has failed on the way
        have hanswered : ∀ n ≤ 2, a.circumstances.fails n = none := by
          intro n hn
          obtain rfl | rfl | rfl : n = 0 ∨ n = 1 ∨ n = 2 := by omega
          · exact hf
          · exact hf₁
          · exact hf₂
        exact ⟨environmentID, workflowID, hp, by rw [hfound]; rfl, hu, hw, hworkflow, hanswered⟩
  · rintro ⟨environmentID, workflowID, hp, hrow, hu, hw, hworkflow, hanswered⟩
    obtain ⟨row, hfound⟩ := Option.isSome_iff_exists.mp hrow
    have hres := Send.resolution_kept (a := a.toSend hp) (hanswered 0 (by omega)) hfound
      (show ¬ hasUpdates a.target = true by rw [hu]; exact Bool.false_ne_true)
    have hrun : (a.run s w).1 = _ ∧ (a.run s w).2.1 = _ := Send.run_of_ok hres
    constructor
    · obtain ⟨user', hreads⟩ := (prepare_reads_iff (s := s) huser).mpr
        ⟨hanswered 1 (by omega), hanswered 2 (by omega), hworkflow⟩
      refine ⟨user', ?_⟩
      rw [hrun.1, rest_eq hp hw row]
      exact List.mem_append_right _ hreads
    · intro c hc
      rw [hrun.1, List.singleton_append, List.mem_cons] at hc
      rcases hc with rfl | hc
      · exact True.intro
      · exact ((a.toSend hp).calls_rest row).of_mem_path (path_drive ..) hc
    · rw [hrun.2, rest_eq hp hw row, forUser, prepareResolved_userJob hp hw]
      rfl

end SystemSend

/-! ### A user without a subscriber row -/

namespace Sample

def grace : User where
  id := UUID.ofDigit 8
  email := "grace@example.org"
  firstName := "Grace"
  lastName := ""

/-- The database of before, with a user. -/
def withUser (subscriber : Db.Subscriber) : World :=
  { world subscriber with users := (Table.empty _).set grace }

/-- A subscriber who happens to have the id of the user. -/
def namesake : Db.Subscriber := { Subscriber.Sample.ada with id := UUID.ofDigit 8 }

/-- A send of the workflow to the user, and to nobody else. -/
def toGrace : SystemSend where
  job := {
    jobID := "j"
    projectID := (UUID.ofDigit 2).toString
    workflowID := (UUID.ofDigit 3).toString
    isSystemUser := true
    toSubscriber := some ⟨(UUID.ofDigit 8).toString, "", "", "", "", ""⟩ }
  target := ⟨(UUID.ofDigit 8).toString, "", "", "", "", ""⟩
  userID := UUID.ofDigit 8
  circumstances := { uuid := fun _ => UUID.ofDigit 9 }
  system := rfl
  workflow := by decide +kernel
  addressed := rfl
  user := UUID.parse_toString _

def isUserRead : Op → Bool
  | .getUserByID _ => true
  | _ => false

end Sample

/-- A send to a user who has a subscriber row. -/
theorem usersOnly_iff_grace :
    (Sample.toGrace.UsersOnly Subscriber.Sample.service (Sample.withUser Sample.namesake) ↔
      ∃ environmentID workflowID,
        Sample.toGrace.ClearIn (Sample.withUser Sample.namesake) environmentID workflowID) ∧
      ∀ subscribers, Sample.toGrace.forUser Subscriber.Sample.service
          { Sample.withUser Sample.namesake with subscribers := subscribers }
        = Sample.toGrace.forUser Subscriber.Sample.service (Sample.withUser Sample.namesake) :=
  have huser : (Sample.withUser Sample.namesake).users.get Sample.toGrace.userID
      = some Sample.grace := rfl
  SystemSend.usersOnly_iff huser

/-- The user is there and is not asked for: the send fails on a subscriber that it tries to
create.  A subscriber row that has nothing to do with the send makes it work. -/
theorem refused_grace :
    (Sample.withUser Subscriber.Sample.ada).users.get Sample.toGrace.userID = some Sample.grace ∧
    ¬ Sample.toGrace.UsersOnly Subscriber.Sample.service
        (Sample.withUser Subscriber.Sample.ada) ∧
    (Sample.toGrace.run Subscriber.Sample.service (Sample.withUser Subscriber.Sample.ada)).2.1
      = .error checkViolation ∧
    ((Sample.toGrace.run Subscriber.Sample.service
      (Sample.withUser Sample.namesake)).2.1).toOption.isSome = true := by
  have hlog : (Sample.toGrace.run Subscriber.Sample.service
      (Sample.withUser Subscriber.Sample.ada)).1.any (Sample.isUserRead ·.1) = false := by
    decide +kernel
  refine ⟨rfl, ?_, by decide +kernel, by decide +kernel⟩
  rintro ⟨⟨user, hreads⟩, -, -⟩
  have hnot := List.any_eq_false.mp hlog _ hreads
  exact hnot rfl

end Iwifunni.Notification
