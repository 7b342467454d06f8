/-
Iwifunni/Notification/PartialUpdate.lean

What a send with a known subscriber id does to the stored subscriber.

"to" may bring any of five fields.  `findOrUpdateSubscriber` writes the whole row from
the new and the old values, and each field is taken from where it is given:

    supplied        the trimmed value
    not supplied    what is stored (an empty string becomes NULL)

The display name is no such field.  The caller computes it from the request alone, so a
request with one name part only gives the subscriber a display name without the other
part, which stays in its own column (`updated_iff`).
-/
import Iwifunni.Go.Trim
import Iwifunni.Notification.Service
import Iwifunni.Subscriber.OptOut

namespace Iwifunni.Notification

open Go Db Effect Effect.Prog Store

/-! ### What a partial update should leave -/

/-- The five fields of a request: what it brings, trimmed, and what two rows hold. -/
def fieldsOf (target : SubscriberTo) (sub sub' : Db.Subscriber) :
    List (String × Option String × Option String) :=
  [(trimSpace target.firstName, sub.firstName, sub'.firstName),
    (trimSpace target.lastName, sub.lastName, sub'.lastName),
    (trimSpace target.email, sub.email, sub'.email),
    (trimSpace target.phone, sub.phone, sub'.phone),
    (trimSpace target.push, sub.pushToken, sub'.pushToken)]

/-- The request brings a part of the name. -/
def BringsName (target : SubscriberTo) : Prop :=
  trimSpace target.firstName ≠ "" ∨ trimSpace target.lastName ≠ ""

/-- The channels are those with a contact. -/
def ListsChannels (sub : Db.Subscriber) : Prop :=
  ∀ channel, channel ∈ sub.channels ↔
    channel ∈ deriveSubscriberChannels sub.email sub.phone sub.pushToken

/-- The row after the update has what was supplied, and the rest as it was. -/
structure Updated (target : SubscriberTo) (sub sub' : Db.Subscriber) : Prop where
  supplied : ∀ f ∈ fieldsOf target sub sub', f.1 ≠ "" → f.2.2 = some f.1
  kept : ∀ f ∈ fieldsOf target sub sub', f.1 = "" → f.2.2 = f.2.1
  channels : ListsChannels sub'
  name : BringsName target →
    sub'.name = trimSpace (sub'.firstName.getD "" ++ " " ++ sub'.lastName.getD "")

/-! ### One field -/

section Field

variable {value : String} {old : Option String}

/-- The value a field is given. -/
def fieldValue (value : String) (old : Option String) : Option String :=
  strPtr (coalesce (trimSpace value) old)

theorem fieldValue_supplied (h : trimSpace value ≠ "") :
    fieldValue value old = some (trimSpace value) := by
  rw [fieldValue, coalesce, if_neg h, strPtr, if_neg h]

theorem fieldValue_kept (h : trimSpace value = "") : fieldValue value old = old ↔ old ≠ some "" := by
  rw [fieldValue, coalesce, if_pos h, strPtr]
  rcases old with - | v
  · simp
  · by_cases hv : v = ""
    · simp [hv]
    · simp [hv]

/-- A field that holds something still does. -/
theorem isSome_fieldValue (h : trimSpace value = "" → old ≠ some "") (hold : old.isSome = true) :
    (fieldValue value old).isSome = true := by
  by_cases hv : trimSpace value = ""
  · rw [(fieldValue_kept hv).mpr (h hv)]
    exact hold
  · rw [fieldValue_supplied hv]
    rfl

end Field

/-! ### The display name -/

section Name

variable {target : SubscriberTo} {workflowName : String}

/-- With a part of the name there is a name. -/
theorem sendTimeName_eq (h : BringsName target) :
    sendTimeName target workflowName =
      trimSpace (trimSpace target.firstName ++ " " ++ trimSpace target.lastName) := by
  have hne : trimSpace (trimSpace target.firstName ++ " " ++ trimSpace target.lastName) ≠ "" := by
    rw [ne_eq, trimSpace_eq_empty]
    simp only [String.toList_append, blank_append]
    rintro ⟨⟨hfirst, -⟩, hlast⟩
    rcases h with h | h
    · exact h (by rw [← trimSpace_trimSpace]; exact trimSpace_eq_empty.mpr hfirst)
    · exact h (by rw [← trimSpace_trimSpace]; exact trimSpace_eq_empty.mpr hlast)
  unfold sendTimeName
  dsimp only
  rw [if_neg hne]

/-- A part that is not supplied is not stored either. -/
def WholeName (target : SubscriberTo) (sub : Db.Subscriber) : Prop :=
  (trimSpace target.firstName ≠ "" → trimSpace target.lastName = "" →
    trimSpace (sub.lastName.getD "") = "") ∧
  (trimSpace target.lastName ≠ "" → trimSpace target.firstName = "" →
    trimSpace (sub.firstName.getD "") = "")

/-- The name of the request is the name of the row if the request has all of it. -/
theorem name_iff {sub : Db.Subscriber} (h : BringsName target)
    (hfirst : trimSpace target.firstName = "" → sub.firstName ≠ some "")
    (hlast : trimSpace target.lastName = "" → sub.lastName ≠ some "") :
    sendTimeName target workflowName =
        trimSpace ((fieldValue target.firstName sub.firstName).getD "" ++ " " ++
          (fieldValue target.lastName sub.lastName).getD "") ↔
      WholeName target sub := by
  rw [sendTimeName_eq h]
  by_cases hf : trimSpace target.firstName = "" <;> by_cases hl : trimSpace target.lastName = ""
  · exact absurd h (by simp [BringsName, hf, hl])
  · have htrim := trimSpace_words_right (s := "") (trimSpace_trimSpace target.lastName) hl
    rw [(fieldValue_kept hf).mpr (hfirst hf), fieldValue_supplied hl, hf, htrim.mpr (by decide),
      Option.getD_some, eq_comm, trimSpace_words_right (trimSpace_trimSpace _) hl]
    simp [WholeName, hf, hl]
  · have htrim := trimSpace_words_left (t := "") (trimSpace_trimSpace target.firstName) hf
    rw [(fieldValue_kept hl).mpr (hlast hl), fieldValue_supplied hf, hl, htrim.mpr (by decide),
      Option.getD_some, eq_comm, trimSpace_words_left (trimSpace_trimSpace _) hf]
    simp [WholeName, hf, hl]
  · rw [fieldValue_supplied hf, fieldValue_supplied hl]
    simp [WholeName, hf, hl]

end Name

/-! ### When the update is as it should be -/

section Update

variable {w : World} {projectID : UUID} {target : SubscriberTo} {workflowName : String}
  {sub : Db.Subscriber}

/-- No field that is kept holds an empty string, and the request brings a whole name or
nothing of it is missing; without an update, the channels are those with a contact. -/
def Whole (target : SubscriberTo) (sub : Db.Subscriber) : Prop :=
  if hasUpdates target = true then
    (∀ f ∈ fieldsOf target sub sub, f.1 = "" → f.2.1 ≠ some "") ∧
      (BringsName target → WholeName target sub)
  else ListsChannels sub

/-- The row that is written. -/
def updatedRow (target : SubscriberTo) (workflowName : String) (sub : Db.Subscriber) :
    Db.Subscriber :=
  writtenSubscriber (sendTimeUpdate target (sendTimeName target workflowName) sub)

section Columns

variable (target : SubscriberTo) (workflowName : String) (sub : Db.Subscriber)

theorem firstName_updatedRow : (updatedRow target workflowName sub).firstName =
    fieldValue target.firstName sub.firstName := by
  simp only [updatedRow, writtenSubscriber, sendTimeUpdate, fieldValue]

theorem lastName_updatedRow : (updatedRow target workflowName sub).lastName =
    fieldValue target.lastName sub.lastName := by
  simp only [updatedRow, writtenSubscriber, sendTimeUpdate, fieldValue]

theorem email_updatedRow : (updatedRow target workflowName sub).email =
    fieldValue target.email sub.email := by
  simp only [updatedRow, writtenSubscriber, sendTimeUpdate, fieldValue]

theorem phone_updatedRow : (updatedRow target workflowName sub).phone =
    fieldValue target.phone sub.phone := by
  simp only [updatedRow, writtenSubscriber, sendTimeUpdate, fieldValue]

theorem pushToken_updatedRow : (updatedRow target workflowName sub).pushToken =
    fieldValue target.push sub.pushToken := by
  simp only [updatedRow, writtenSubscriber, sendTimeUpdate, fieldValue]

/-- Every field of the written row is `fieldValue`. -/
theorem fieldsOf_updatedRow :
    fieldsOf target sub (updatedRow target workflowName sub) =
      [(trimSpace target.firstName, sub.firstName, fieldValue target.firstName sub.firstName),
        (trimSpace target.lastName, sub.lastName, fieldValue target.lastName sub.lastName),
        (trimSpace target.email, sub.email, fieldValue target.email sub.email),
        (trimSpace target.phone, sub.phone, fieldValue target.phone sub.phone),
        (trimSpace target.push, sub.pushToken, fieldValue target.push sub.pushToken)] := by
  rw [fieldsOf, firstName_updatedRow, lastName_updatedRow, email_updatedRow, phone_updatedRow,
    pushToken_updatedRow]

theorem listsChannels_updatedRow : ListsChannels (updatedRow target workflowName sub) := by
  have hchannels : (updatedRow target workflowName sub).channels =
      deriveSubscriberChannels (fieldValue target.email sub.email)
        (fieldValue target.phone sub.phone) (fieldValue target.push sub.pushToken) := by
    simp only [updatedRow, writtenSubscriber, sendTimeUpdate, fieldValue]
  intro channel
  rw [hchannels, email_updatedRow, phone_updatedRow, pushToken_updatedRow]

end Columns

/-- What is supplied is stored, whatever there was. -/
theorem supplied_updatedRow (target : SubscriberTo) (workflowName : String)
    (sub : Db.Subscriber) :
    ∀ f ∈ fieldsOf target sub (updatedRow target workflowName sub), f.1 ≠ "" →
      f.2.2 = some f.1 := by
  rw [fieldsOf_updatedRow]
  simp only [List.forall_mem_cons, List.not_mem_nil, false_implies, implies_true, and_true]
  exact ⟨fieldValue_supplied, fieldValue_supplied, fieldValue_supplied, fieldValue_supplied,
    fieldValue_supplied⟩

/-- What is not supplied is kept, unless it is an empty string. -/
theorem kept_updatedRow :
    (∀ f ∈ fieldsOf target sub (updatedRow target workflowName sub), f.1 = "" →
        f.2.2 = f.2.1) ↔
      ∀ f ∈ fieldsOf target sub sub, f.1 = "" → f.2.1 ≠ some "" := by
  have hfield : ∀ value (old : Option String),
      (trimSpace value = "" → fieldValue value old = old) ↔
        (trimSpace value = "" → old ≠ some "") :=
    fun _ _ => forall_congr' fieldValue_kept
  rw [fieldsOf_updatedRow, fieldsOf]
  simp only [List.forall_mem_cons, List.not_mem_nil, false_implies, implies_true, and_true,
    hfield]

/-- The name of the written row. -/
theorem name_updatedRow (h : BringsName target)
    (hkept : ∀ f ∈ fieldsOf target sub sub, f.1 = "" → f.2.1 ≠ some "") :
    (updatedRow target workflowName sub).name =
        trimSpace ((updatedRow target workflowName sub).firstName.getD "" ++ " " ++
          (updatedRow target workflowName sub).lastName.getD "") ↔
      WholeName target sub := by
  have hname : (updatedRow target workflowName sub).name = sendTimeName target workflowName := by
    rw [updatedRow, writtenSubscriber, sendTimeUpdate]
    exact if_pos h
  rw [hname, firstName_updatedRow, lastName_updatedRow]
  apply name_iff h
  · exact hkept (trimSpace target.firstName, sub.firstName, sub.firstName) (by simp [fieldsOf])
  · exact hkept (trimSpace target.lastName, sub.lastName, sub.lastName) (by simp [fieldsOf])

/-- What is written is what was asked for exactly if the name is whole. -/
theorem updated_updatedRow_iff (h : hasUpdates target = true) :
    Updated target sub (updatedRow target workflowName sub) ↔ Whole target sub := by
  rw [Whole, if_pos h]
  constructor
  · intro hu
    have hkept := kept_updatedRow.mp hu.kept
    exact ⟨hkept, fun hname => (name_updatedRow hname hkept).mp (hu.name hname)⟩
  · rintro ⟨hkept, hname⟩
    exact ⟨supplied_updatedRow _ _ _, kept_updatedRow.mpr hkept, listsChannels_updatedRow _ _ _,
      fun hb => (name_updatedRow hb hkept).mpr (hname hb)⟩

/-- The row that is written has a contact where the old one had. -/
theorem hasContact_updatedRow (hkept : ∀ f ∈ fieldsOf target sub sub, f.1 = "" → f.2.1 ≠ some "")
    (hcontact : sub.email.isSome ∨ sub.phone.isSome ∨ sub.pushToken.isSome) :
    hasContact (sendTimeUpdate target (sendTimeName target workflowName) sub) = true := by
  have hfields : hasContact (sendTimeUpdate target (sendTimeName target workflowName) sub) =
      ((fieldValue target.email sub.email).isSome ||
        (fieldValue target.phone sub.phone).isSome ||
        (fieldValue target.push sub.pushToken).isSome) := by
    simp only [hasContact, sendTimeUpdate, fieldValue]
  rw [hfields, Bool.or_eq_true, Bool.or_eq_true]
  rcases hcontact with h | h | h
  · left; left
    exact isSome_fieldValue
      (hkept (trimSpace target.email, sub.email, sub.email) (by simp [fieldsOf])) h
  · left; right
    exact isSome_fieldValue
      (hkept (trimSpace target.phone, sub.phone, sub.phone) (by simp [fieldsOf])) h
  · right
    exact isSome_fieldValue
      (hkept (trimSpace target.push, sub.pushToken, sub.pushToken) (by simp [fieldsOf])) h

/-- A request without a field to update brings nothing. -/
theorem updated_self_iff (h : ¬ hasUpdates target = true) :
    Updated target sub sub ↔ Whole target sub := by
  rw [Whole, if_neg h]
  simp only [hasUpdates, Bool.or_eq_true, bne_iff_ne, not_or, not_not] at h
  obtain ⟨⟨⟨⟨hfirst, hlast⟩, hemail⟩, hphone⟩, hpush⟩ := h
  have hname : ¬ BringsName target := by simp [BringsName, hfirst, hlast]
  refine ⟨fun hu => hu.channels, fun hc => ⟨?_, ?_, hc, fun hb => absurd hb hname⟩⟩
  · simp [fieldsOf, hfirst, hlast, hemail, hphone, hpush]
  · simp [fieldsOf]

/-- The row is found. -/
theorem answer_stored (hsub : w.subscribers.get sub.id = some sub)
    (henv : sub.environmentID = projectID) (hdel : sub.deletedAt = none) :
    World.answer (.getSubscriberByID sub.id projectID) w = (.ok sub, w) := by
  show (orNoRows ((w.subscribers.get sub.id).filter fun r =>
    r.environmentID == projectID && r.deletedAt.isNone), w) = _
  rw [hsub, Option.filter_some, if_pos (by simp [henv, hdel])]
  rfl

/-- The row is replaced, if the new one has a contact. -/
theorem answer_update (hsub : w.subscribers.get sub.id = some sub) (hdel : sub.deletedAt = none)
    (target : SubscriberTo) (name : String) :
    World.answer (.updateSubscriber (sendTimeUpdate target name sub)) w =
      if hasContact (sendTimeUpdate target name sub) then
        (.ok (writtenSubscriber (sendTimeUpdate target name sub)),
          { w with subscribers :=
              w.subscribers.set (writtenSubscriber (sendTimeUpdate target name sub)) })
      else (.error checkViolation, w) := by
  have hfound : ((w.subscribers.get (sendTimeUpdate target name sub).id).filter fun r =>
      r.environmentID == (sendTimeUpdate target name sub).environmentID &&
        r.deletedAt.isNone) = some sub := by
    show ((w.subscribers.get sub.id).filter fun r =>
      r.environmentID == sub.environmentID && r.deletedAt.isNone) = some sub
    rw [hsub, Option.filter_some, if_pos (by simp [hdel])]
  simp only [World.answer, hfound]

/-- **A send updates the stored subscriber as its request says exactly when the request
has the whole name**, or none of it is left out that is stored; and no field that is kept
holds an empty string, which becomes NULL. -/
theorem updated_iff (hsub : w.subscribers.get sub.id = some sub)
    (henv : sub.environmentID = projectID) (hdel : sub.deletedAt = none)
    (hcontact : sub.email.isSome ∨ sub.phone.isSome ∨ sub.pushToken.isSome) :
    (∃ sub' w',
      ((findOrUpdateSubscriber projectID target (sendTimeName target workflowName)
        sub.id).drive World.answer w).2 = (.ok sub', w') ∧
      w'.subscribers.get sub.id = some sub' ∧ Updated target sub sub') ↔
    Whole target sub := by
  -- the row is found; what follows is one UPDATE or nothing
  rw [findOrUpdateSubscriber, drive_perform_bind (answer_stored hsub henv hdel)]
  by_cases hu : hasUpdates target = true
  · have hwhole : Updated target sub (updatedRow target workflowName sub) ↔ Whole target sub :=
      updated_updatedRow_iff hu
    rw [if_pos hu, ← hwhole]
    have hanswer := answer_update hsub hdel target (sendTimeName target workflowName)
    have hget : (w.subscribers.set (updatedRow target workflowName sub)).get sub.id =
        some (updatedRow target workflowName sub) := Table.get_set_of_eq rfl
    constructor
    · rintro ⟨sub', w', hrun, hstored, hupdated⟩
      -- the CHECK on contacts may refuse it
      by_cases hc : hasContact (sendTimeUpdate target (sendTimeName target workflowName) sub)
      · rw [if_pos hc] at hanswer
        rw [drive_perform hanswer] at hrun
        cases hrun
        exact hupdated
      · rw [if_neg hc] at hanswer
        rw [perform, drive, hanswer] at hrun
        cases hrun
    · intro hupdated
      have hkept := kept_updatedRow.mp hupdated.kept
      rw [if_pos (hasContact_updatedRow hkept hcontact)] at hanswer
      rw [drive_perform hanswer]
      exact ⟨_, _, rfl, hget, hupdated⟩
  · rw [if_neg hu, ← updated_self_iff hu]
    constructor
    · rintro ⟨sub', w', hrun, -, hupdated⟩
      cases hrun
      exact hupdated
    · exact fun hupdated => ⟨sub, w, rfl, hsub, hupdated⟩

end Update

/-! ### Lady Lovelace -/

namespace Sample

def lovelace : Db.Subscriber :=
  { Subscriber.Sample.ada with
    name := "Ada Lovelace"
    firstName := some "Ada"
    lastName := some "Lovelace" }

def lovelaceWorld : World :=
  { Subscriber.Sample.world with subscribers := (Table.empty _).set lovelace }

/-- Her first name is Augusta. -/
def augusta : SubscriberTo where
  subscriberID := lovelace.id.toString
  firstName := "Augusta"
  lastName := ""
  email := ""
  phone := ""
  push := ""

/-- And her last name was King. -/
def augustaKing : SubscriberTo := { augusta with lastName := " King " }

end Sample

/-- A whole name is written. -/
theorem updated_iff_king :
    ∃ sub' w',
      ((findOrUpdateSubscriber Sample.lovelace.environmentID Sample.augustaKing
        (sendTimeName Sample.augustaKing "") Sample.lovelace.id).drive World.answer
          Sample.lovelaceWorld).2 = (.ok sub', w') ∧
      w'.subscribers.get Sample.lovelace.id = some sub' ∧
      Updated Sample.augustaKing Sample.lovelace sub' := by
  refine (updated_iff rfl rfl rfl (Or.inl rfl)).mpr ?_
  rw [Whole, if_pos (by decide +kernel)]
  unfold fieldsOf WholeName
  exact ⟨by decide +kernel, fun _ => by decide +kernel⟩

/-- She keeps her last name, and is called by the first one. -/
theorem halfName_augusta :
    ∃ sub' w',
      ((findOrUpdateSubscriber Sample.lovelace.environmentID Sample.augusta
        (sendTimeName Sample.augusta "") Sample.lovelace.id).drive World.answer
          Sample.lovelaceWorld).2 = (.ok sub', w') ∧
      sub'.firstName = some "Augusta" ∧ sub'.lastName = some "Lovelace" ∧
      sub'.name = "Augusta" ∧ ¬ Updated Sample.augusta Sample.lovelace sub' := by
  have hname : (updatedRow Sample.augusta "" Sample.lovelace).name = "Augusta" := by
    decide +kernel
  have hfirst : (updatedRow Sample.augusta "" Sample.lovelace).firstName = some "Augusta" := by
    decide +kernel
  have hlast : (updatedRow Sample.augusta "" Sample.lovelace).lastName = some "Lovelace" := by
    decide +kernel
  refine ⟨updatedRow Sample.augusta "" Sample.lovelace,
    { Sample.lovelaceWorld with
        subscribers := Sample.lovelaceWorld.subscribers.set
          (updatedRow Sample.augusta "" Sample.lovelace) }, ?_, hfirst, hlast, hname, ?_⟩
  · rw [findOrUpdateSubscriber, drive_perform_bind (answer_stored rfl rfl rfl),
      if_pos (by decide +kernel), drive_perform ((answer_update rfl rfl _ _).trans
        (if_pos (by decide +kernel)))]
    rfl
  · intro hu
    have hwhole := hu.name (Or.inl (by decide +kernel))
    rw [hname, hfirst, hlast] at hwhole
    exact absurd hwhole (by decide +kernel)

end Iwifunni.Notification
