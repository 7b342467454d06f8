/-
Iwifunni/Notification/Idempotence.lean

What a delivery does to a notification that is in a final status.

The worker runs any number of deliveries at once, each one call at a time; the
queue may deliver a job again whenever it likes, also after a crash.  Seen from
outside, a delivery is in one of two phases (`delivery`):

    opening      until its upsert has succeeded
    delivering   attempts, providers, the final status, the webhook

The upsert sets the status to the one it is given, so a delivery that gets
through it never finds a final status.  What keeps a final status is therefore
that no upsert of its job succeeds any more (`finalRowKept`).
-/
import Iwifunni.Effect.Pool
import Iwifunni.Notification.Delivery

namespace Iwifunni.Notification

open Go Db Effect Effect.Prog Store

/-! ### The worker -/

inductive Activity
  /-- `Worker.handle`: `Service.Send`. -/
  | send (job : NotificationJob)
  /-- `CreateQueuedNotification`. -/
  | createQueued (job : NotificationJob) (notificationID : UUID)

/-- The job id an activity writes the notification row under. -/
def Activity.jobID : Activity → String
  | send job => trimSpace job.jobID
  | createQueued job _ => job.jobID

def Activity.body (s : Service) : Activity → Act Unit
  | send job => s.send job
  | createQueued job notificationID => createQueuedNotification job notificationID

/-- The notification worker.  The queue hands out any job at any time; integrations
are edited meanwhile. -/
def worker (s : Service) : Machine World Activity (List Integration) Op.Res GoError Unit where
  body := Activity.body s
  spawn _ w w' := w' = w
  sem := Call
  close _ _ w w' := w' = w
  lose _ w w' := w' = w
  env rows w w' := w' = { w with integrations := rows }

abbrev WorkerEvent : Type := Event Activity (List Integration) Op.Res GoError Unit

abbrev WorkerPool : Type := Pool World Activity Op.Res GoError Unit

/-- A pool without activities. -/
def idle (w : World) : WorkerPool := ⟨w, fun _ => none⟩

/-! ### Phases of a delivery -/

inductive Phase
  | opening
  | delivering

/-- The calls of a delivery after its upsert. -/
def delivers : Op → Bool
  | .insertDeliveryAttempt _ | .listByChannel _ _ | .send _ _ _ | .dispatch _ _ _ _ | .now
  | .newUUID => true
  | .updateStatus _ status _ => isTerminalNotificationStatus status
  | _ => false

def Delivers (op : Op) : Prop := delivers op = true

/-- The phase after one more call. -/
def Phase.next (jobID : String) : Phase → Answered Op.Res GoError → Option Phase
  | opening, ⟨.now, _⟩ => some opening
  | opening, ⟨.newUUID, _⟩ => some opening
  | opening, ⟨.upsertByProjectJob arg, .ok _⟩ =>
      if arg.jobID = jobID then some delivering else none
  | opening, ⟨.upsertByProjectJob arg, .error _⟩ =>
      if arg.jobID = jobID then some opening else none
  | delivering, a => if delivers a.1 = true then some delivering else none
  | _, _ => none

/-- What a delivery looks like from outside. -/
def delivery : Protocol Activity Op.Res GoError Unit Phase where
  init _ := .opening
  expects _ _ _ := True
  next l := Phase.next l.jobID
  ends _ _ _ := True

/-! ### The programs keep the protocol -/

section Keeps

variable {s : Service} {l : Activity} {α : Type}

theorem keeps_delivering {p : Act α} (hp : Calls Delivers p) :
    Keeps delivery l (fun _ _ => True) p .delivering := by
  induction p with
  | ret a => exact keeps_ret.mpr True.intro
  | fail e => exact keeps_fail.mpr True.intro
  | call op k ih =>
      refine keeps_call.mpr fun r _ => ⟨.delivering, ?_, ih r (hp.2 r)⟩
      exact if_pos hp.1

theorem calls_recordAttempt (notificationID : UUID) (channel destination : String)
    (status : AttemptStatus) (errorMessage : Option String) :
    Calls Delivers
      (recordAttempt notificationID channel destination status errorMessage) :=
  (calls_perform (show Delivers .newUUID from rfl)).bind fun _ =>
    (calls_perform (show Delivers .now from rfl)).bind fun _ =>
      calls_perform (show Delivers (.insertDeliveryAttempt _) from rfl)

theorem calls_recordFailed (notificationID : UUID) (channel destination : String)
    (attemptErr : GoError) :
    Calls Delivers
      (recordFailed notificationID channel destination attemptErr) :=
  (calls_recordAttempt ..).outcome.bind fun _ => calls_ret _

/-- Attempts are recorded by calls of a delivery. -/
theorem calls_recordAttempts (notificationID : UUID) (channel : String)
    (attempts : List ProviderAttempt) :
    Calls Delivers (recordAttempts notificationID channel attempts) := by
  induction attempts with
  | nil => exact calls_ret _
  | cons a rest ih =>
      refine Calls.bind (Calls.outcome ?_) fun _ => ih
      split
      · exact (calls_recordFailed ..).bind fun _ => calls_ret _
      · exact calls_recordAttempt ..

theorem calls_recordSkippedChannels (notificationID : UUID) (skipped : List SkippedChannel) :
    Calls Delivers (recordSkippedChannels notificationID skipped) := by
  induction skipped with
  | nil => exact calls_ret _
  | cons sk rest ih => exact (calls_recordAttempt ..).outcome.bind fun _ => ih

/-- So does one channel of it. -/
theorem calls_deliverProjectChannel (projectID notificationID : UUID) (channel : String)
    (job : NotificationJob) :
    Calls Delivers
      (deliverProjectChannel s projectID notificationID channel job) := by
  refine (calls_ask (show Delivers (.listByChannel _ _) from rfl)).bind ?_
  rintro (e | providers)
  · exact calls_recordFailed ..
  · dsimp only
    split
    · exact calls_recordFailed ..
    · split
      · exact calls_recordFailed ..
      · refine (calls_perform (show Delivers (.send _ _ _) from rfl)).bind ?_
        rintro ⟨attempts, err⟩
        refine (calls_recordAttempts ..).bind fun _ => ?_
        split
        · exact calls_recordFailed ..
        · exact calls_ret _

theorem calls_deliverChannels (projectID notificationID : UUID) (job : NotificationJob)
    (reportErrors : Bool) (channels : List String) (t : Tally) :
    Calls Delivers
      (deliverChannels s projectID notificationID job reportErrors channels t) := by
  induction channels generalizing t with
  | nil => exact calls_ret _
  | cons channel rest ih => exact (calls_deliverProjectChannel ..).bind fun _ => ih _

/-- A delivery makes calls of a delivery only. -/
theorem calls_deliverJob (projectID : UUID) (notification : Db.Notification)
    (job : NotificationJob) (reportErrors : Bool) :
    Calls Delivers
      (deliverJob s projectID notification job reportErrors) := by
  unfold deliverJob
  split
  · exact calls_ret _
  · refine (calls_recordSkippedChannels ..).bind fun _ => ?_
    refine (calls_deliverChannels ..).bind fun t => ?_
    refine (calls_perform (show Delivers .now from rfl)).bind fun nowTs => ?_
    refine (calls_ask (show Delivers (.updateStatus _ _ _) from isTerminal_final ..)).bind ?_
    rintro (e | _)
    · exact calls_ret _
    · have hend : Calls Delivers (if reportErrors && !t.deliveryErrors.isEmpty then
          ret (notification.id, some (.other (join "; " t.deliveryErrors)))
        else ret (notification.id, none) : Act (UUID × Option GoError)) := by
        split <;> exact calls_ret _
      dsimp only
      split
      · exact (calls_perform (show Delivers .now from rfl)).bind fun _ =>
          (calls_perform (show Delivers (.dispatch _ _ _ _) from rfl)).bind fun _ => hend
      · exact hend

/-- `now` and `newUUID` before the upsert. -/
theorem keeps_opening {op : Op} {f : op.Res → Act α} (hop : op = .now ∨ op = .newUUID)
    (h : ∀ a, Keeps delivery l (fun _ _ => True) (f a) .opening) :
    Keeps delivery l (fun _ _ => True) (perform op >>= f) .opening := by
  refine keeps_perform_bind (fun a _ => ⟨.opening, ?_, h a⟩)
    fun e _ => ⟨.opening, ?_, True.intro⟩
  · rcases hop with rfl | rfl <;> rfl
  · rcases hop with rfl | rfl <;> rfl

/-- The upsert, and a delivery after it. -/
theorem keeps_upsert {arg : Db.Notification} {f : Db.Notification → Act α}
    (harg : arg.jobID = l.jobID) (h : ∀ row, Calls Delivers (f row)) :
    Keeps delivery l (fun _ _ => True) (perform (Op.upsertByProjectJob arg) >>= f) .opening := by
  refine keeps_perform_bind (fun row _ => ⟨.delivering, ?_, keeps_delivering (h row)⟩)
    fun e _ => ⟨.opening, ?_, True.intro⟩
  · exact if_pos harg
  · exact if_pos harg

/-- The activities of the worker keep the protocol. -/
theorem keeps_body (l : Activity) :
    Keeps delivery l (delivery.ends l) (l.body s) (delivery.init l) := by
  cases l with
  | send job =>
      show Keeps delivery _ (fun _ _ => True) (Notification.send s job false >>= _) .opening
      have hsend : Keeps delivery (.send job) (fun _ _ => True)
          (Notification.send s job false) .opening := by
        simp only [Notification.send]
        split
        · exact keeps_fail.mpr True.intro
        · refine keeps_opening (Or.inl rfl) fun nowTs => ?_
          split
          · exact keeps_ret.mpr True.intro
          · split
            · exact keeps_fail.mpr True.intro
            · refine keeps_opening (Or.inr rfl) fun id => keeps_upsert rfl fun row => ?_
              exact (calls_deliverJob ..).bind fun _ => calls_ret _
      refine keeps_bind hsend ?_ fun _ _ _ => True.intro
      rintro st ⟨_, err⟩ -
      cases err with
      | some e => exact keeps_fail.mpr True.intro
      | none => exact keeps_ret.mpr True.intro
  | createQueued job notificationID =>
      refine keeps_opening (Or.inl rfl) fun nowTs => ?_
      split
      · exact keeps_fail.mpr True.intro
      · exact keeps_upsert rfl fun _ => calls_ret _

end Keeps

/-! ### Final statuses -/

/-- The notification of a job is in a final status. -/
def Terminal (w : World) (jobID : String) : Prop :=
  ∃ row ∈ w.notifications, row.jobID = jobID ∧ isTerminalNotificationStatus row.status = true

/-- No upsert that takes effect finds the notification of its job in a final status. -/
def finalRowKept (p : WorkerPool) : WorkerEvent → Prop
  | .call _ ⟨.upsertByProjectJob arg, .ok _⟩ => ¬ Terminal p.world arg.jobID
  | _ => True

/-- A call without any effect. -/
def Quiet : Answered Op.Res GoError → Prop
  | ⟨.now, _⟩ | ⟨.newUUID, _⟩ | ⟨.upsertByProjectJob _, .error _⟩ => True
  | _ => False

/-- The activity `i` does not end. -/
def Ongoing (i : ℕ) (evs : List WorkerEvent) : Prop :=
  ∀ e ∈ evs, e ≠ .lose i ∧ ∀ out, e ≠ .finish i out

/-- Rows that keep their job id and stay final. -/
theorem Terminal.map {w w' : World} {jobID : String} {f : Db.Notification → Db.Notification}
    (h : Terminal w jobID) (hw : w'.notifications = w.notifications.map f)
    (hf : ∀ r, r.jobID = jobID → isTerminalNotificationStatus r.status = true →
      (f r).jobID = jobID ∧ isTerminalNotificationStatus (f r).status = true) :
    Terminal w' jobID := by
  obtain ⟨row, hmem, hjob, hterm⟩ := h
  refine ⟨f row, ?_, hf row hjob hterm⟩
  rw [hw]
  exact List.mem_map_of_mem hmem

/-- An upsert for another job leaves the notification of a job as it is. -/
theorem Terminal.upsert {w : World} {jobID : String} {arg : Db.Notification}
    (h : Terminal w jobID) (hne : arg.jobID ≠ jobID) :
    Terminal (World.answer (.upsertByProjectJob arg) w).2 jobID := by
  simp only [World.answer]
  split
  · refine h.map rfl fun r hjob hterm => ?_
    have hother : (r.jobID == arg.jobID) = false := by
      rw [hjob]
      exact beq_false_of_ne hne.symm
    rw [hother]
    exact ⟨hjob, hterm⟩
  · split
    · exact h
    · obtain ⟨row, hmem, hrow⟩ := h
      exact ⟨row, List.mem_append_left _ hmem, hrow⟩

/-- An upsert that is answered by an error has no effect. -/
theorem upsert_error {arg : Db.Notification} {w w' : World} {e : GoError}
    (h : Call (.upsertByProjectJob arg) w (.error e) w') : w' = w := by
  rcases call_world h with rfl | ⟨hr, rfl⟩
  · rfl
  · revert hr
    simp only [World.answer]
    split
    · rintro ⟨⟩
    · split
      · exact fun _ => rfl
      · rintro ⟨⟩

/-- After its upsert a delivery only writes final statuses. -/
theorem Terminal.delivering {w : World} {jobID : String} {op : Op} (h : Terminal w jobID)
    (hop : delivers op = true) : Terminal (World.answer op w).2 jobID := by
  cases op with
  | updateStatus id status updatedAt =>
      refine h.map rfl fun r hjob hterm => ?_
      split
      · exact ⟨hjob, hop⟩
      · exact ⟨hjob, hterm⟩
  | insertDeliveryAttempt arg =>
      simp only [World.answer]
      split
      · exact h
      · split <;> exact h
  | listByChannel | send | dispatch | now | newUUID => exact h
  | _ => cases hop

/-- **One call**: a final status is kept, unless an upsert for this very job takes
effect. -/
theorem Terminal.call {w w' : World} {jobID jobID' : String} {op : Op}
    {r : Except GoError op.Res} {st st' : Phase} (h : Terminal w jobID)
    (hnext : Phase.next jobID' st ⟨op, r⟩ = some st') (hcall : Call op w r w')
    (hkept : ∀ arg row, (⟨op, r⟩ : Answered Op.Res GoError) = ⟨.upsertByProjectJob arg, .ok row⟩ →
      arg.jobID ≠ jobID) : Terminal w' jobID := by
  rcases call_world hcall with rfl | ⟨-, rfl⟩
  · exact h
  · cases st with
    | delivering =>
        by_cases hop : delivers op = true
        · exact h.delivering hop
        · simp only [Phase.next, if_neg hop, reduceCtorEq] at hnext
    | opening =>
        cases op with
        | upsertByProjectJob arg =>
            cases r with
            | ok row => exact h.upsert (hkept arg row rfl)
            | error e =>
                rw [upsert_error hcall]
                exact h
        | now | newUUID => exact h
        | _ => cases hnext

/-! ### Redelivered jobs -/

section Run

variable {s : Service} {job : NotificationJob} {i : ℕ}

/-- What holds from the moment on at which activity `i` takes up a job whose
notification is final: the notification stays final, and the activity does not
get past its upsert. -/
structure Spent (job : NotificationJob) (i : ℕ) (evs : List WorkerEvent)
    (v : View World Activity Phase) : Prop where
  terminal : Terminal v.world (trimSpace job.jobID)
  opening : Ongoing i evs → v.phases i = some (.send job, .opening)
  quiet : Ongoing i evs → ∀ a, Event.call i a ∈ evs → Quiet a

theorem Ongoing.of_concat {evs : List WorkerEvent} {e : WorkerEvent}
    (h : Ongoing i (evs ++ [e])) : Ongoing i evs :=
  fun e' he' => h e' (List.mem_append_left _ he')

/-- A step that is not one of activity `i`. -/
theorem Spent.other {evs : List WorkerEvent} {v v' : View World Activity Phase}
    {e : WorkerEvent} (h : Spent job i evs v)
    (hterm : Terminal v'.world (trimSpace job.jobID)) (hcall : ∀ a, e ≠ .call i a)
    (hphase : Ongoing i (evs ++ [e]) → v'.phases i = v.phases i) :
    Spent job i (evs ++ [e]) v' where
  terminal := hterm
  opening hon := (hphase hon).trans (h.opening hon.of_concat)
  quiet hon a ha := by
    rcases List.mem_append.mp ha with ha | ha
    · exact h.quiet hon.of_concat a ha
    · exact absurd (List.mem_singleton.mp ha).symm (hcall a)

/-- In phase `opening` only the upsert gets a delivery any further. -/
theorem quiet_of_opening {job : NotificationJob} {op : Op} {r : Except GoError op.Res}
    {st : Phase} (hnext : Phase.next (trimSpace job.jobID) .opening ⟨op, r⟩ = some st)
    (hkept : ∀ arg row, (⟨op, r⟩ : Answered Op.Res GoError) = ⟨.upsertByProjectJob arg, .ok row⟩ →
      arg.jobID ≠ trimSpace job.jobID) : st = .opening ∧ Quiet ⟨op, r⟩ := by
  cases op with
  | now | newUUID => exact ⟨(Option.some.inj hnext).symm, True.intro⟩
  | upsertByProjectJob arg =>
      cases r with
      | ok row => simp only [Phase.next, if_neg (hkept arg row rfl), reduceCtorEq] at hnext
      | error e =>
          simp only [Phase.next] at hnext
          split at hnext
          · exact ⟨(Option.some.inj hnext).symm, True.intro⟩
          · cases hnext
  | _ => cases hnext

/-- Under the condition a delivery of the job does not get beyond its upsert. -/
theorem Spent.step {p : WorkerPool} {evs : List WorkerEvent} {e : WorkerEvent}
    {v' : View World Activity Phase} (h : Spent job i evs (delivery.view p))
    (hc : finalRowKept p e) (hs : delivery.ViewStep (worker s) (delivery.view p) e v') :
    Spent job i (evs ++ [e]) v' := by
  have hp : (delivery.view p).world = p.world := rfl
  generalize delivery.view p = v at h hs hp
  cases hs with
  | @start w w' ph j l hfree hsp =>
      cases hsp
      refine h.other h.terminal (fun a => by rintro ⟨⟩) fun hon => ?_
      have hne : i ≠ j := by
        rintro rfl
        cases (h.opening hon.of_concat).symm.trans hfree
      exact Function.update_of_ne hne _ _
  | @call w w' ph j l st st' op r hj hnext hcall =>
      -- under the condition the upsert of the job is refused
      have hkept : ∀ arg row,
          (⟨op, r⟩ : Answered Op.Res GoError) = ⟨.upsertByProjectJob arg, .ok row⟩ →
          arg.jobID ≠ trimSpace job.jobID := by
        rintro arg row heq hid
        rw [heq] at hc
        refine hc ?_
        rw [← hp, hid]
        exact h.terminal
      have hterm := h.terminal.call hnext hcall hkept
      -- only the delivery itself could leave its opening
      by_cases hij : j = i
      · subst hij
        refine ⟨hterm, fun hon => ?_, fun hon a ha => ?_⟩
        all_goals
          have hopen := hj.symm.trans (h.opening hon.of_concat)
          cases hopen
          obtain ⟨rfl, hquiet⟩ := quiet_of_opening hnext hkept
        · exact Function.update_self _ _ _
        · rcases List.mem_append.mp ha with ha | ha
          · exact h.quiet hon.of_concat a ha
          · cases List.mem_singleton.mp ha
            exact hquiet
      · refine h.other hterm (fun a => ?_) fun _ => Function.update_of_ne (Ne.symm hij) _ _
        rintro ⟨⟩
        exact hij rfl
  | @finish w w' ph j l st out hj hends hclose =>
      cases hclose
      refine h.other h.terminal (fun a => by rintro ⟨⟩) fun hon => ?_
      have hne : i ≠ j := by
        rintro rfl
        exact (hon _ (List.mem_append_right _ (List.mem_singleton.mpr rfl))).2 out rfl
      exact Function.update_of_ne hne _ _
  | @lose w w' ph j l st hj hlose =>
      cases hlose
      refine h.other h.terminal (fun a => by rintro ⟨⟩) fun hon => ?_
      have hne : i ≠ j := by
        rintro rfl
        exact (hon _ (List.mem_append_right _ (List.mem_singleton.mpr rfl))).1 rfl
      exact Function.update_of_ne hne _ _
  | env henv =>
      cases henv
      exact h.other h.terminal (fun a => by rintro ⟨⟩) fun _ => rfl

/-- **A notification that has reached a final status**, in every run in which no
upsert takes effect on a notification in a final status: it stays in a final status,
and a delivery of its job that is taken up from then on reads the clock, draws an
identifier and has its upsert refused, and makes no other call. -/
theorem final_status_kept {w : World} {p p₁ p₂ : WorkerPool} {evs₀ evs : List WorkerEvent}
    (hbefore : Run (worker s) finalRowKept (idle w) evs₀ p)
    (hfinal : Terminal p.world (trimSpace job.jobID))
    (hstart : Step (worker s) p (.start i (.send job)) p₁)
    (hrun : Run (worker s) finalRowKept p₁ evs p₂) :
    Terminal p₂.world (trimSpace job.jobID) ∧
      (Ongoing i evs → ∀ a, Event.call i a ∈ evs → Quiet a) := by
  have hbody : ∀ l, Prog.Keeps delivery l (delivery.ends l) ((worker s).body l)
      (delivery.init l) := keeps_body
  have hkept := (hbefore.view_invariant (P := delivery) (I := fun _ _ => True) hbody
    (fun _ _ _ _ _ _ _ _ _ _ _ _ _ _ => True.intro) (fun _ _ _ _ _ _ _ _ => True.intro)
    (Protocol.kept_of_idle fun _ => rfl) True.intro).1
  obtain ⟨hview, hkept₁⟩ := Protocol.view_step hbody hkept hstart
    fun _ _ _ _ _ _ => True.intro
  have hspent : Spent job i [] (delivery.view p₁) := by
    refine ⟨?_, fun _ => ?_, fun _ a ha => by cases ha⟩
    · cases hstart with
      | start _ hsp =>
          cases hsp
          exact hfinal
    · cases hstart with
      | start _ hsp =>
          rw [Protocol.view_update]
          exact Function.update_self _ _ _
  have hend := (hrun.view_invariant (P := delivery) (I := Spent job i) hbody
    (fun _ _ _ _ _ _ _ _ _ _ _ _ _ _ => True.intro)
    (fun _ _ _ _ _ h hc hs => h.step hc hs) hkept₁ hspent).2
  exact ⟨hend.terminal, hend.quiet⟩

end Run

/-! ### A job that is delivered twice -/

namespace Sample

def sender : Service where
  render subject body _ := .ok (subject, body)
  decrypt _ _ := .error "cipher: message authentication failed"
  encryptionKey := ""
  dispatcher := true

def mailbox : Integration where
  id := UUID.ofDigit 5
  environmentID := UUID.ofDigit 2
  name := "smtp"
  channel := "email"
  credentials := none
  config := some (.obj [("host", .str "localhost"), ("from", .str "team@example.com")])
  isActive := true
  isPrimary := true

def job : NotificationJob where
  jobID := "job-123"
  projectID := (UUID.ofDigit 2).toString
  title := "Welcome"
  message := "Hello there"
  channels := some ["email"]
  recipient := { email := "user@example.com" }

/-- A database with one integration. -/
def before : World where
  subscribers := Table.empty _
  workflows := Table.empty _
  templates := Table.empty _
  users := Table.empty _
  notifications := []
  deliveryAttempts := []
  integrations := [mailbox]

/-- The database after the first delivery. -/
def after : World := ((sender.send job).drive World.answer before).2.2

end Sample

/-- No upsert finds a final status. -/
def opens (w : World) : Answered Op.Res GoError → Bool
  | ⟨.upsertByProjectJob arg, .ok _⟩ => !w.notifications.any fun r =>
      r.jobID == arg.jobID && isTerminalNotificationStatus r.status
  | _ => true

/-- A call that passes the test meets the condition. -/
theorem finalRowKept_of_opens {w : World}
    {threads : ℕ → Option (Thread Activity Op.Res GoError Unit)} {a : Answered Op.Res GoError}
    (h : opens w a = true) : finalRowKept ⟨w, threads⟩ (.call 0 a) := by
  obtain ⟨op, r⟩ := a
  cases op with
  | upsertByProjectJob arg =>
      cases r with
      | error e => exact True.intro
      | ok row =>
          rintro ⟨row', hmem, hjob, hterm⟩
          have hany : (w.notifications.any fun r =>
              r.jobID == arg.jobID && isTerminalNotificationStatus r.status) = true :=
            List.any_eq_true.mpr ⟨row', hmem, by rw [hjob, hterm, BEq.rfl, Bool.and_self]⟩
          have hnot := (Bool.not_eq_true' _).mp h
          rw [hany] at hnot
          cases hnot
  | _ => exact True.intro

/-- The first delivery. -/
theorem run_sent : ∃ evs,
    Run (worker Sample.sender) finalRowKept (idle Sample.before) evs (idle Sample.after) :=
  Run.drive (i := 0) (l := Activity.send Sample.job) World.answer opens Call.answer True.intro
    (fun _ _ _ _ h => finalRowKept_of_opens h) (fun _ _ => True.intro) rfl (by decide +kernel) rfl

theorem terminal_after : Terminal Sample.after (trimSpace Sample.job.jobID) := by
  have hany : (Sample.after.notifications.any fun r =>
      r.jobID == trimSpace Sample.job.jobID && isTerminalNotificationStatus r.status) = true := by
    decide +kernel
  obtain ⟨row, hmem, hrow⟩ := List.any_eq_true.mp hany
  rw [Bool.and_eq_true, beq_iff_eq] at hrow
  exact ⟨row, hmem, hrow⟩

/-- The upsert fails: answers of the database otherwise. -/
def refusing (op : Op) (w : World) : Except GoError op.Res × World :=
  match op with
  | .upsertByProjectJob _ => (.error (.other "connection refused"), w)
  | op => World.answer op w

theorem call_refusing (op : Op) (w : World) : Call op w (refusing op w).1 (refusing op w).2 := by
  cases op with
  | upsertByProjectJob arg => exact .fault rfl w _
  | _ => exact .answer _ w

/-- No upsert takes effect. -/
def refused (_ : World) : Answered Op.Res GoError → Bool
  | ⟨.upsertByProjectJob _, .ok _⟩ => false
  | _ => true

/-- So does a call of the refusing world. -/
theorem finalRowKept_of_refused {w : World}
    {threads : ℕ → Option (Thread Activity Op.Res GoError Unit)} {a : Answered Op.Res GoError}
    (h : refused w a = true) : finalRowKept ⟨w, threads⟩ (.call 0 a) := by
  obtain ⟨op, r⟩ := a
  cases op with
  | upsertByProjectJob arg =>
      cases r with
      | error e => exact True.intro
      | ok row => cases h
  | _ => exact True.intro

/-- A second delivery whose upsert fails. -/
theorem final_status_kept_refused : ∃ p evs, evs ≠ [] ∧
    Run (worker Sample.sender) finalRowKept
      ⟨Sample.after, Function.update (fun _ => none) 0
        (some ⟨.send Sample.job, [], Sample.sender.send Sample.job⟩)⟩ evs p ∧
    Terminal p.world (trimSpace Sample.job.jobID) ∧
    ∀ a, Event.call 0 a ∈ evs → Quiet a := by
  obtain ⟨evs₀, hbefore⟩ := run_sent
  have hstart : Step (worker Sample.sender) (idle Sample.after) (.start 0 (.send Sample.job))
      ⟨Sample.after, Function.update (fun _ => none) 0
        (some ⟨.send Sample.job, [], Sample.sender.send Sample.job⟩)⟩ := .start rfl rfl
  have hrun := Run.calls (M := worker Sample.sender) (C := finalRowKept) (i := 0)
    (l := .send Sample.job) refusing refused (fun _ => none) call_refusing
    (fun _ _ _ _ h => finalRowKept_of_refused h) (Sample.sender.send Sample.job) Sample.after []
    (by decide +kernel)
  have hkept := final_status_kept hbefore terminal_after hstart hrun
  refine ⟨_, _, ?_, hrun, hkept.1, hkept.2 ?_⟩
  · exact fun h => absurd (congrArg List.length h) (by decide +kernel)
  · intro e he
    obtain ⟨a, -, rfl⟩ := List.mem_map.mp he
    exact ⟨by rintro ⟨⟩, fun _ => by rintro ⟨⟩⟩

def callsProvider : Op → Bool
  | .send _ _ _ => true
  | _ => false

/-- The same job once more after it was sent: the upsert makes its notification
'pending', and the provider sends a second time. -/
theorem sent_again : ∃ evs₀ p₁ evs p₂,
    Run (worker Sample.sender) finalRowKept (idle Sample.before) evs₀ (idle Sample.after) ∧
    Terminal Sample.after (trimSpace Sample.job.jobID) ∧
    Step (worker Sample.sender) (idle Sample.after) (.start 0 (.send Sample.job)) p₁ ∧
    Run (worker Sample.sender) (fun _ _ => True) p₁ evs p₂ ∧ Ongoing 0 evs ∧
    ∃ provider job config r, Event.call 0 ⟨.send provider job config, r⟩ ∈ evs := by
  obtain ⟨evs₀, hbefore⟩ := run_sent
  have hrun := Run.calls (M := worker Sample.sender) (C := fun _ _ => True) (i := 0)
    (l := .send Sample.job) World.answer (fun _ _ => true) (fun _ => none) Call.answer
    (fun _ _ _ _ _ => True.intro) (Sample.sender.send Sample.job) Sample.after []
    (Prog.driveAll_true ..)
  refine ⟨evs₀, _, _, _, hbefore, terminal_after, .start rfl rfl, hrun, ?_, ?_⟩
  · intro e he
    obtain ⟨a, -, rfl⟩ := List.mem_map.mp he
    exact ⟨by rintro ⟨⟩, fun _ => by rintro ⟨⟩⟩
  · have hany : (((Sample.sender.send Sample.job).drive World.answer Sample.after).1.any
        fun a => callsProvider a.1) = true := by
      decide +kernel
    obtain ⟨⟨op, r⟩, hmem, hop⟩ := List.any_eq_true.mp hany
    cases op with
    | send provider job config =>
        exact ⟨provider, job, config, r, List.mem_map_of_mem hmem⟩
    | _ => cases hop

end Iwifunni.Notification
