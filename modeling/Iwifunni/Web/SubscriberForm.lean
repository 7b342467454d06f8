/-
Iwifunni/Web/SubscriberForm.lean

Saving the form in which a subscriber is edited (`use-subscriber-edit-form.ts`).

    form  --handleSave-->  body  --Handler.update-->  input  --UpdateSubscriber-->  row

The backend replaces the row: what the body does not have is cleared.  The form has a
name, an email address, a phone number, metadata and the switches for channels.  It has no
first and last name and no push token, and its body has an empty list of tags.  So an edit
changes only what was edited if there is nothing of these to lose (`onlyEdited_iff`).

The checks are those of `zod`; what it takes for an email address is left open.
-/
import Iwifunni.Subscriber.Service
import Iwifunni.Web.Draft
import Iwifunni.Web.Preferences

namespace Iwifunni.Web

open Go Db Store Workflow

/-! ### The form -/

/-- The text in the metadata field: white space, the text of a value, or what `JSON.parse`
does not accept. -/
inductive MetadataText
  | blank
  | json (value : Json)
  | invalid

/-- `SubscriberFormValues`. -/
structure SubscriberFormValues where
  name : String
  email : String
  phone : String
  metadata : MetadataText

/-- The length of a string, in UTF-16 units. -/
def utf16Length (s : String) : ℕ :=
  (s.toList.map fun c => if c.toNat < 0x10000 then 1 else 2).sum

/-- The pattern of `phone`: a plus, and two or more digits, spaces, dashes and parentheses. -/
def isPhone (s : String) : Bool :=
  match s.toList with
  | '+' :: cs => 2 ≤ cs.length && cs.all fun c =>
      Duration.isDigit c || isWhiteSpace c || c ∈ ['-', '(', ')']
  | _ => false

/-- `subscriberFormSchema.safeParse`. -/
def safeParse (isEmail : String → Bool) (values : SubscriberFormValues) :
    Option SubscriberFormValues :=
  if utf16Length (trim values.name) < 2 then none
  else if isEmail values.email = false ∧ values.email ≠ "" then none
  else if isPhone (trim values.phone) then
    some { values with name := trim values.name, phone := trim values.phone }
  else if values.phone = "" then some { values with name := trim values.name }
  else none

/-- `SavePayload`. -/
structure SavePayload where
  name : String
  email : Option String
  phone : Option String
  tags : List String
  metadata : Option Json
  preferences : PreferencesPayload

/-- `a || undefined`. -/
def orUndefined (s : String) : Option String := if s = "" then none else some s

/-- The metadata to send, if the text is blank or JSON. -/
def MetadataText.parsed : MetadataText → Option (Option Json)
  | blank => some none
  | json value => some (some value)
  | invalid => none

/-- `handleSave`, with the switches the payload for the preferences is built from. -/
def handleSave (isEmail : String → Bool) (values : SubscriberFormValues) (switches : Switches) :
    Option SavePayload := do
  let data ← safeParse isEmail values
  let metadata ← data.metadata.parsed
  return {
    name := data.name
    email := orUndefined data.email
    phone := orUndefined data.phone
    tags := []
    metadata := metadata
    preferences := switches.buildPreferencesPayload }

/-! ### The request -/

/-- `{ channels }`. -/
def channelsJson (channels : List Channel) : Json := .obj [("channels", .arr (channels.map .str))]

/-- The preferences as JSON. -/
def PreferencesPayload.json (payload : PreferencesPayload) : Json :=
  .obj (("global", channelsJson payload.global) :: optionalField "workflows"
    (payload.workflows.map fun workflows =>
      .obj (workflows.entries.map fun entry => (entry.1, channelsJson entry.2))))

/-- The body of the request; what is undefined is left out. -/
def SavePayload.body (payload : SavePayload) : Json :=
  .obj ([("name", .str payload.name)] ++ optionalField "email" (payload.email.map .str) ++
    optionalField "phone" (payload.phone.map .str) ++
    [("tags", .arr (payload.tags.map .str))] ++ optionalField "metadata" payload.metadata ++
    [("preferences", payload.preferences.json)])

/-- `subscriberRequest`, of the fields `Update` reads. -/
structure SubscriberRequest where
  name : String
  firstName : Option String
  lastName : Option String
  email : Option String
  phone : Option String
  pushToken : Option String
  tags : List String
  metadata : Option (List (String × Json))
  preferences : Option (List (String × Json))

/-- Decode a `*string`. -/
def toStringPtr (_ : Option String) : Json → Except DecodeError (Option String)
  | .null => .ok none
  | v => (Json.toStr "" v).map some

/-- Decode a `map[string]interface{}`, which may be nil. -/
def toMapPtr (_ : Option (List (String × Json))) :
    Json → Except DecodeError (Option (List (String × Json)))
  | .null => .ok none
  | v => (Json.toMap v).map some

/-- Decode the body. -/
def decodeSubscriberRequest (body : Json) : Except DecodeError SubscriberRequest := do
  let fields ← Json.structFields "subscriber.subscriberRequest" body
  return {
    name := ← Json.field fields "name" "" Json.toStr
    firstName := ← Json.field fields "firstName" none toStringPtr
    lastName := ← Json.field fields "lastName" none toStringPtr
    email := ← Json.field fields "email" none toStringPtr
    phone := ← Json.field fields "phone" none toStringPtr
    pushToken := ← Json.field fields "pushToken" none toStringPtr
    tags := ← Json.field fields "tags" [] fun _ => Json.toStrList
    metadata := ← Json.field fields "metadata" none toMapPtr
    preferences := ← Json.field fields "preferences" none toMapPtr }

/-- `Handler.update`: the input for the subscriber of the path. -/
def SubscriberRequest.input (req : SubscriberRequest) (id environmentID : UUID) :
    Subscriber.UpdateInput where
  id := id
  environmentID := environmentID
  name := req.name
  firstName := req.firstName
  lastName := req.lastName
  email := req.email
  phone := req.phone
  pushToken := req.pushToken
  tags := req.tags
  metadata := req.metadata
  preferences := req.preferences

/-- The row is saved from the form, and `row'` is what the backend writes. -/
structure Saved (isEmail : String → Bool) (w : Store.World) (row : Db.Subscriber)
    (values : SubscriberFormValues) (switches : Switches) (row' : Db.Subscriber) : Prop where
  stored : w.subscribers.get row.id = some row
  payload : ∃ payload req params, handleSave isEmail values switches = some payload ∧
    decodeSubscriberRequest payload.body = .ok req ∧
    Subscriber.buildUpdateParams (req.input row.id row.environmentID) = .ok params ∧
    (Store.World.answer (.updateSubscriber params) w).1 = .ok row'

/-! ### What is read back -/

/-- `channels`, if it is an array: the strings in it. -/
def channelsOf (value : Json) : Option (List Channel) :=
  match configValue (some value) "channels" with
  | some (.arr values) => some (values.filterMap fun v => asString (some v))
  | _ => none

/-- The preferences of a row, as the hook takes them. -/
def channelPreferences (preferences : Option Json) : ChannelPreferences where
  global := (configValue preferences "global").bind channelsOf
  workflows := match configValue preferences "workflows" with
    | some (.obj fields) => some (Record.ofEntries (fields.map fun f => (f.1, channelsOf f.2)))
    | _ => none

/-- The value of the metadata field: nothing is an empty object. -/
def MetadataText.value : MetadataText → Json
  | .blank => .obj []
  | .json value => value
  | .invalid => .null

/-- What a text says after trimming, if it is not blank. -/
def shown (s : String) : Option String := orUndefined (trimSpace s)

/-- Only what was edited has changed: what the form shows is stored, what it does not show is
as before, and the channels are those with a contact. -/
structure OnlyEdited (row : Db.Subscriber) (values : SubscriberFormValues) (switches : Switches)
    (row' : Db.Subscriber) : Prop where
  name : row'.name = trimSpace (trim values.name)
  email : row'.email = shown values.email
  phone : row'.phone = shown (trim values.phone)
  metadata : row'.metadata = some values.metadata.value
  preferences : SameSwitches switches (useSubscriberPreferences (channelPreferences
    row'.preferences))
  firstName : row'.firstName = row.firstName
  lastName : row'.lastName = row.lastName
  pushToken : row'.pushToken = row.pushToken
  tags : row'.tags = row.tags
  channels : ∀ c, c ∈ row'.channels ↔ c = "email" ∧ (shown values.email).isSome ∨
    c = "sms" ∧ (shown (trim values.phone)).isSome ∨ c = "push" ∧ row.pushToken.isSome

section

variable {isEmail : String → Bool} {w : Store.World} {row row' : Db.Subscriber}
  {values : SubscriberFormValues} {switches : Switches}

theorem asString_str (cs : List Channel) :
    (cs.map Json.str).filterMap (fun v => asString (some v)) = cs := by
  induction cs with
  | nil => rfl
  | cons c cs ih =>
      show c :: _ = _
      rw [ih]

theorem channelsOf_channelsJson (channels : List Channel) :
    channelsOf (channelsJson channels) = some channels := by
  show some ((channels.map Json.str).filterMap fun v => asString (some v)) = _
  rw [asString_str]

/-- What is stored of the preferences is read back. -/
theorem get_stored (payload : PreferencesPayload) (w : String) :
    (useSubscriberPreferences (channelPreferences (some payload.json))).globalChannels =
        payload.global ∧
      (useSubscriberPreferences (channelPreferences (some payload.json))).workflowChannels.get w =
        (useSubscriberPreferences payload.stored).workflowChannels.get w := by
  obtain ⟨globalChannels, workflows⟩ := payload
  have hglobal : configValue (some (PreferencesPayload.json ⟨globalChannels, workflows⟩)) "global" =
      some (channelsJson globalChannels) := by
    cases workflows <;> simp [PreferencesPayload.json, configValue, configFields, optionalField,
      Json.lookup]
  constructor
  · show (Option.bind _ channelsOf).getD _ = globalChannels
    rw [hglobal, Option.bind_some, channelsOf_channelsJson]
    rfl
  · cases workflows with
    | none => rfl
    | some workflows =>
        have hworkflows : configValue (some (PreferencesPayload.json
            ⟨globalChannels, some workflows⟩)) "workflows" =
              some (.obj (workflows.entries.map fun entry => (entry.1, channelsJson entry.2))) := by
          simp [PreferencesPayload.json, configValue, configFields, optionalField, Json.lookup]
        unfold useSubscriberPreferences channelPreferences
        rw [hworkflows]
        dsimp only [PreferencesPayload.stored, Option.map_some]
        rw [Record.get_map, Record.get_map, Record.get_map, List.map_map]
        have hentries := Record.get_ofEntries_entries workflows
          (fun channels => channelsOf (channelsJson channels)) w
        simp only [channelsOf_channelsJson] at hentries
        refine congrArg (Option.map _) (Eq.trans ?_ hentries)
        refine congrArg (fun entries => (Record.ofEntries entries).get w) ?_
        exact List.map_congr_left fun entry _ => by
          simp only [Function.comp_def, channelsOf_channelsJson]

/-- The switches that are read back come from what is stored. -/
theorem sameSwitches_stored (s : Switches) :
    SameSwitches s (useSubscriberPreferences
        (channelPreferences (some s.buildPreferencesPayload.json))) ↔
      SameSwitches s (useSubscriberPreferences s.buildPreferencesPayload.stored) := by
  have hglobal := (get_stored s.buildPreferencesPayload "").1
  have hget := fun w => (get_stored s.buildPreferencesPayload w).2
  have hon : ∀ c, (useSubscriberPreferences (channelPreferences
      (some s.buildPreferencesPayload.json))).globallyOn c ↔
        (useSubscriberPreferences s.buildPreferencesPayload.stored).globallyOn c := by
    intro c
    unfold Switches.globallyOn
    rw [hglobal]
    rfl
  have hchecked : ∀ w c, (useSubscriberPreferences (channelPreferences
      (some s.buildPreferencesPayload.json))).isChecked w c ↔
        (useSubscriberPreferences s.buildPreferencesPayload.stored).isChecked w c := by
    intro w c
    unfold Switches.isChecked
    rw [hglobal, hget]
    rfl
  constructor
  · exact fun h => ⟨fun c => (hon c).symm.trans (h.globallyOn c),
      fun w c => (hchecked w c).symm.trans (h.isChecked w c)⟩
  · exact fun h => ⟨fun c => (hon c).trans (h.globallyOn c),
      fun w c => (hchecked w c).trans (h.isChecked w c)⟩

/-! ### What is written -/

/-- What `handleSave` sends. -/
theorem handleSave_eq {payload : SavePayload}
    (h : handleSave isEmail values switches = some payload) :
    payload.name = trim values.name ∧ payload.email = orUndefined values.email ∧
      payload.phone = orUndefined (trim values.phone) ∧ payload.tags = [] ∧
      payload.preferences = switches.buildPreferencesPayload ∧
      (values.metadata = .blank ∧ payload.metadata = none ∨
        ∃ value, values.metadata = .json value ∧ payload.metadata = some value) := by
  rcases hdata : safeParse isEmail values with - | data
  · rw [handleSave, hdata] at h
    cases h
  rcases hmetadata : data.metadata.parsed with - | metadata
  · rw [handleSave, hdata, Option.bind_eq_bind, Option.bind_some, hmetadata] at h
    cases h
  rw [handleSave, hdata, Option.bind_eq_bind, Option.bind_some, hmetadata] at h
  have hpayload := Option.some.inj h
  subst hpayload
  -- the schema trims the name and the phone and keeps the rest
  have hparsed : data.name = trim values.name ∧ data.email = values.email ∧
      orUndefined data.phone = orUndefined (trim values.phone) ∧
      data.metadata = values.metadata := by
    unfold safeParse at hdata
    split at hdata
    · cases hdata
    split at hdata
    · cases hdata
    split at hdata
    · obtain rfl := Option.some.inj hdata
      exact ⟨rfl, rfl, rfl, rfl⟩
    split at hdata
    · next hphone =>
      obtain rfl := Option.some.inj hdata
      refine ⟨rfl, rfl, ?_, rfl⟩
      show orUndefined values.phone = _
      rw [hphone]
      rfl
    · cases hdata
  obtain ⟨hname, hemail, hphone, htext⟩ := hparsed
  rw [htext] at hmetadata
  refine ⟨hname, congrArg orUndefined hemail, hphone, rfl, rfl, ?_⟩
  -- metadata is left out, read as JSON, or refused
  rcases htext' : values.metadata with - | value | -
  · rw [htext'] at hmetadata
    exact Or.inl ⟨rfl, (Option.some.inj hmetadata).symm⟩
  · rw [htext'] at hmetadata
    exact Or.inr ⟨value, rfl, (Option.some.inj hmetadata).symm⟩
  · rw [htext'] at hmetadata
    cases hmetadata

/-- What the backend reads of it. -/
theorem decode_body {payload : SavePayload} (htags : payload.tags = []) :
    decodeSubscriberRequest payload.body =
      ((payload.metadata.map (toMapPtr none)).getD (.ok none)).map fun metadata =>
        { name := payload.name
          firstName := none
          lastName := none
          email := payload.email
          phone := payload.phone
          pushToken := none
          tags := []
          metadata := metadata
          preferences := some (configFields (some payload.preferences.json)) } := by
  obtain ⟨name, email, phone, tags, metadata, preferences⟩ := payload
  subst htags
  have hfold : ∀ key ∈ ["name", "email", "phone", "tags", "metadata", "preferences"],
      ∀ field ∈ ["name", "firstName", "lastName", "email", "phone", "pushToken", "tags",
        "metadata", "preferences"], equalFold key field = (key == field) := by decide
  have hprefs : toMapPtr none preferences.json =
      .ok (some (configFields (some preferences.json))) := rfl
  cases metadata with
  | none =>
      cases email <;> cases phone <;>
        simp [decodeSubscriberRequest, SavePayload.body, optionalField, Json.structFields,
          Json.field, hfold, hprefs, Json.toStr, toStringPtr, Json.toStrList, Json.toStrs] <;> rfl
  | some value =>
      rcases hvalue : toMapPtr none value with e | fields
      · cases email <;> cases phone <;>
          simp [decodeSubscriberRequest, SavePayload.body, optionalField, Json.structFields,
            Json.field, hfold, hvalue, Json.toStr, toStringPtr, Json.toStrList, Json.toStrs] <;> rfl
      · cases email <;> cases phone <;>
          simp [decodeSubscriberRequest, SavePayload.body, optionalField, Json.structFields,
            Json.field, hfold, hprefs, hvalue, Json.toStr, toStringPtr, Json.toStrList,
            Json.toStrs] <;> rfl

/-- A contact that is left out if it is empty is one that is left out if it is blank. -/
theorem trimOptional_orUndefined (s : String) :
    Subscriber.trimOptional (orUndefined s) = shown s := by
  unfold orUndefined
  split
  · next h =>
    rw [h]
    decide
  · rfl

/-- The metadata are stored as they are shown, unless they are `null`. -/
theorem metadata_stored {value : Json} {fields : Option (List (String × Json))}
    (h : toMapPtr none value = .ok fields) :
    Subscriber.buildMetadataJSON fields = value ↔ value ≠ .null := by
  cases value with
  | null =>
      obtain rfl := Except.ok.inj h
      exact iff_of_false (fun heq => by cases heq) fun hne => hne rfl
  | obj entries =>
      obtain rfl := Except.ok.inj h
      exact iff_of_true rfl (fun heq => by cases heq)
  | bool b => cases h
  | num x => cases h
  | str s => cases h
  | arr vs => cases h

/-- The columns `buildUpdateParams` gives. -/
theorem buildUpdateParams_eq {input : Subscriber.UpdateInput} {params : SubscriberParams}
    (h : Subscriber.buildUpdateParams input = .ok params) :
    params.name = Subscriber.updateName input.name (Subscriber.trimOptional input.firstName)
        (Subscriber.trimOptional input.lastName) ∧
      params.firstName = Subscriber.trimOptional input.firstName ∧
      params.lastName = Subscriber.trimOptional input.lastName ∧
      params.email = Subscriber.trimOptional input.email ∧
      params.phone = Subscriber.trimOptional input.phone ∧
      params.pushToken = Subscriber.trimOptional input.pushToken ∧
      params.channels = Subscriber.deriveChannels (Subscriber.trimOptional input.email)
        (Subscriber.trimOptional input.phone) (Subscriber.trimOptional input.pushToken) ∧
      params.tags = Subscriber.normalizeTags input.tags ∧
      params.preferences = some (Subscriber.buildMetadataJSON input.preferences) ∧
      params.metadata = some (Subscriber.buildMetadataJSON input.metadata) := by
  unfold Subscriber.buildUpdateParams at h
  dsimp only at h
  split at h
  · cases h
  rcases hname : Subscriber.validateName (Subscriber.updateName input.name
      (Subscriber.trimOptional input.firstName) (Subscriber.trimOptional input.lastName)) with e | u
  · rw [hname] at h
    cases h
  · rw [hname] at h
    obtain rfl := Except.ok.inj h
    exact ⟨rfl, rfl, rfl, rfl, rfl, rfl, rfl, rfl, rfl, rfl⟩

/-- What is written when the form is saved. -/
theorem Saved.row_eq (h : Saved isEmail w row values switches row') :
    row'.name = trimSpace (trim values.name) ∧ row'.email = shown values.email ∧
      row'.phone = shown (trim values.phone) ∧ row'.firstName = none ∧ row'.lastName = none ∧
      row'.pushToken = none ∧ row'.tags = [] ∧
      row'.channels = Subscriber.deriveChannels (shown values.email) (shown (trim values.phone))
        none ∧
      row'.preferences = some switches.buildPreferencesPayload.json ∧
      (row'.metadata = some values.metadata.value ↔ values.metadata ≠ .json .null) := by
  obtain ⟨payload, req, params, hsave, hdecode, hparams, hanswer⟩ := h.payload
  obtain ⟨hname, hemail, hphone, htags, hprefs, hmetadata⟩ := handleSave_eq hsave
  have hrow : row' = writtenSubscriber params := by
    simp only [Store.World.answer] at hanswer
    split at hanswer
    · cases hanswer
    split at hanswer
    · exact (Except.ok.inj hanswer).symm
    · cases hanswer
  rw [decode_body htags] at hdecode
  rcases hfields : (payload.metadata.map (toMapPtr none)).getD (.ok none) with e | fields
  · rw [hfields] at hdecode
    cases hdecode
  rw [hfields] at hdecode
  have hreq := Except.ok.inj hdecode
  subst hreq
  have hstored : params.metadata = some values.metadata.value ↔ values.metadata ≠ .json .null := by
    rw [(buildUpdateParams_eq hparams).2.2.2.2.2.2.2.2.2]
    show some (Subscriber.buildMetadataJSON fields) = _ ↔ _
    rw [Option.some_inj]
    rcases hmetadata with ⟨hblank, hnone⟩ | ⟨value, hvalue, hsome⟩
    · rw [hnone] at hfields
      obtain rfl := Except.ok.inj hfields
      rw [hblank]
      exact iff_of_true rfl fun heq => by cases heq
    · rw [hsome] at hfields
      rw [hvalue]
      refine (metadata_stored hfields).trans (not_congr ?_)
      exact ⟨fun heq => by rw [heq], fun heq => MetadataText.json.inj heq⟩
  have hspec := buildUpdateParams_eq hparams
  dsimp only [SubscriberRequest.input] at hspec
  rw [hname, hemail, hphone, hprefs, trimOptional_orUndefined, trimOptional_orUndefined] at hspec
  obtain ⟨hname', hfirst', hlast', hemail', hphone', hpush', hchannels', htags', hprefs', -⟩ :=
    hspec
  subst hrow
  refine ⟨?_, hemail', hphone', hfirst', hlast', hpush', htags', hchannels', hprefs', hstored⟩
  refine Eq.trans hname' ?_
  -- without a first and a last name there is only the name itself
  show (if trimSpace (trim values.name) = "" then "" else trimSpace (trim values.name)) = _
  split
  · next hblank => exact hblank.symm
  · rfl

/-- **An edit changes only what was edited exactly if** the row has no first and last name, no
push token and no tags, the metadata are not `null`, and no list of channels is dropped that
has less channels than the global one. -/
theorem onlyEdited_iff (h : Saved isEmail w row values switches row') :
    OnlyEdited row values switches row' ↔
      row.firstName = none ∧ row.lastName = none ∧ row.pushToken = none ∧ row.tags = [] ∧
        values.metadata ≠ .json .null ∧
        ∀ workflowId channels, switches.workflowChannels.get workflowId = some channels →
          isSame switches.globalChannels channels = true →
            ∀ c ∈ switches.globalChannels, c ∈ channels := by
  obtain ⟨hname, hemail, hphone, hfirst, hlast, hpush, htags, hchannels, hprefs, hmetadata⟩ :=
    h.row_eq
  rw [← sameSwitches_saved_iff, ← sameSwitches_stored, ← hmetadata]
  constructor
  · intro h
    refine ⟨h.firstName.symm.trans hfirst, h.lastName.symm.trans hlast,
      h.pushToken.symm.trans hpush, h.tags.symm.trans htags, h.metadata, ?_⟩
    rw [← hprefs]
    exact h.preferences
  · rintro ⟨hfirst', hlast', hpush', htags', hmeta, hsame⟩
    refine ⟨hname, hemail, hphone, hmeta, hprefs ▸ hsame, hfirst.trans hfirst'.symm,
      hlast.trans hlast'.symm, hpush.trans hpush'.symm, htags.trans htags'.symm, fun c => ?_⟩
    rw [hchannels, hpush']
    simp [Subscriber.deriveChannels, and_comm]

end

namespace Sample

/-- A subscriber with an email address only. -/
def plain : Db.Subscriber where
  id := UUID.ofDigit 1
  environmentID := UUID.ofDigit 2
  name := "Ada"
  firstName := none
  lastName := none
  email := some "ada@example.com"
  phone := none
  pushToken := none
  channels := ["email"]
  status := none
  tags := []
  preferences := none
  metadata := none

/-- A subscriber who also has a push token and a tag. -/
def tagged : Db.Subscriber := { plain with pushToken := some "token", tags := ["beta"] }

/-- A world with one subscriber. -/
def worldOf (row : Db.Subscriber) : Store.World where
  subscribers := (Effect.Table.empty _).set row
  workflows := Effect.Table.empty _
  templates := Effect.Table.empty _
  users := Effect.Table.empty _
  notifications := []
  deliveryAttempts := []
  integrations := []

/-- The form as it is opened, with another name. -/
def renamed : SubscriberFormValues := ⟨"Ada L.", "ada@example.com", "", .blank⟩

/-- All switches on. -/
def allOn : Switches := ⟨DEFAULT_CHANNELS, Record.empty⟩

/-- What is written for the form. -/
def renamedRow : Db.Subscriber :=
  { plain with
    name := "Ada L."
    status := some (Subscriber.buildDefaultStatusJSON ["email"])
    preferences := some (allOn.buildPreferencesPayload.json)
    metadata := some (.obj []) }

/-- An address has an at sign. -/
def isEmail (s : String) : Bool := s.toList.contains '@'

/-- What `handleSave` sends for it. -/
def renamedPayload : SavePayload where
  name := "Ada L."
  email := some "ada@example.com"
  phone := none
  tags := []
  metadata := none
  preferences := allOn.buildPreferencesPayload

/-- The form is saved for a row with the keys of `plain`. -/
theorem saved_renamed (row : Db.Subscriber) (hid : row.id = plain.id)
    (henvironment : row.environmentID = plain.environmentID) (hlive : row.deletedAt = none) :
    Saved isEmail (worldOf row) row renamed allOn renamedRow := by
  have hstored : (worldOf row).subscribers.get row.id = some row := Effect.Table.get_set_self _ _
  have hsave : handleSave isEmail renamed allOn = some renamedPayload := by
    have hparse : safeParse isEmail renamed = some renamed := by rfl
    rw [handleSave, hparse]
    rfl
  refine ⟨hstored, renamedPayload, _, ⟨plain.id, plain.environmentID, "Ada L.", none, none,
    some "ada@example.com", none, none, ["email"], renamedRow.status, [],
    renamedRow.preferences, renamedRow.metadata⟩, hsave, decode_body rfl, ?_, ?_⟩
  · rw [hid, henvironment]
    rfl
  · have hfound : ((worldOf row).subscribers.get plain.id).filter (fun r =>
        r.environmentID == plain.environmentID && r.deletedAt.isNone) = some row := by
      rw [← hid, hstored, Option.filter_some, henvironment, hlive]
      rfl
    simp only [Store.World.answer, hfound]
    rfl

end Sample

/-- Nothing is lost of a subscriber with an email address only. -/
theorem onlyEdited_iff_plain :
    OnlyEdited Sample.plain Sample.renamed Sample.allOn Sample.renamedRow :=
  (onlyEdited_iff (Sample.saved_renamed Sample.plain rfl rfl rfl)).mpr
    ⟨rfl, rfl, rfl, rfl, fun h => (by cases h), fun _ _ h => (by cases h)⟩

/-- A subscriber who is renamed loses her tags and her push token. -/
theorem not_onlyEdited :
    Saved Sample.isEmail (Sample.worldOf Sample.tagged) Sample.tagged Sample.renamed Sample.allOn
        Sample.renamedRow ∧
      ¬ OnlyEdited Sample.tagged Sample.renamed Sample.allOn Sample.renamedRow := by
  refine ⟨Sample.saved_renamed Sample.tagged rfl rfl rfl, fun h => ?_⟩
  have htags := h.tags
  cases htags

end Iwifunni.Web
