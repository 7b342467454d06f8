/-
Iwifunni/Integration/Providers.lean

The catalog of notification providers (`providers.NewCatalog`).

Every provider normalizes the credentials and the config a client submits into
the two documents that are stored.  On an update it also sees what is stored
already, and may keep it:

    submitted credentials, config  ─┐
                                    ├─ normalize ─→ credentials or "keep", config
    stored credentials, config  ────┘

The stored credentials are encrypted, so most providers can only keep them as
they are.  `mail.ParseAddress` is a parameter: it accepts an address or not.
-/
import Iwifunni.Types

namespace Iwifunni.Integration

open Go

/-- A `map[string]any`. -/
abbrev Fields : Type := List (String × Json)

/-- `catalog.StoredInput`. -/
structure StoredInput where
  credentials : Option Json
  config : Option Json

/-- `catalog.NormalizedInput`; nil credentials stand for keeping the stored ones. -/
structure NormalizedInput where
  name : String
  channel : String
  credentialsJSON : Option Json := none
  configJSON : Option Json := none

/-- `catalog.Definition`. -/
structure Definition where
  name : String
  channel : String
  normalize : Fields → Fields → Option StoredInput → Except GoError NormalizedInput

/-- The stored config, if there is one. -/
def storedConfig (current : Option StoredInput) : Option Json :=
  current.bind StoredInput.config

/-- Are there stored credentials? -/
def hasCredentials (current : Option StoredInput) : Bool :=
  (current.bind StoredInput.credentials).isSome

/-! ### Reading the input (`normalize.go`) -/

/-- `RequiredString`. -/
def requiredString (values : Fields) (key : String) : Except String String :=
  match Json.lookup values key with
  | none => .error ("missing " ++ key)
  | some (.str s) =>
      if trimSpace s = "" then .error ("invalid " ++ key) else .ok (trimSpace s)
  | some _ => .error ("invalid " ++ key)

/-- A required string is trimmed and not empty. -/
theorem requiredString_ok {values : Fields} {key s : String}
    (h : requiredString values key = .ok s) : s ≠ "" ∧ trimSpace s = s := by
  unfold requiredString at h
  split at h
  · cases h
  · next raw hraw =>
      split at h
      · cases h
      · next hne =>
          cases h
          exact ⟨hne, trimSpace_trimSpace raw⟩
  · cases h

/-- `RequiredInt` of a decoded value: a number without a fraction.  Outside the range of
an `int` the conversion gives the least `int`. -/
def requiredInt (value : Option Json) : Except String Int :=
  match value with
  | some (.num x) => match x.int? with
    | some v =>
        let least : Int := -9223372036854775808
        .ok (if least ≤ v ∧ v < -least then v else least)
    | none => .error "invalid integer"
  | _ => .error "invalid integer"

/-- The keys of an object are among those that are there. -/
def hasKeys (fields : Fields) (keys : List String) : Bool :=
  keys.all fun key => (Json.lookup fields key).isSome

/-- `ValidateStoredConfig`: the document as it is, if it is an object with all keys. -/
def validateStoredConfig (raw : Option Json) (keys : List String) :
    Except GoError (Option Json) :=
  match raw with
  | none => .error (.other "missing stored config")
  | some v => match v.toMap with
    | .error text => .error (.other text)
    | .ok fields => match keys.find? fun key => (Json.lookup fields key).isNone with
      | some key => .error (.other ("missing " ++ key))
      | none => .ok raw

/-- A document of strings. -/
def stringMap (values : List (String × String)) : Json :=
  .obj (values.map fun f => (f.1, .str f.2))

/-- The required strings of several keys. -/
def requiredStrings (values : Fields) :
    List String → Except String (List (String × String))
  | [] => .ok []
  | key :: keys => do
      let value ← requiredString values key
      let rest ← requiredStrings values keys
      return (key, value) :: rest

/-- `NormalizeStringMapCredentials`: no credentials keep the stored ones. -/
def normalizeStringMapCredentials (credentials : Fields) (current : Option StoredInput)
    (message : String) (keys : List String) : Except GoError (Option Json) :=
  if credentials.isEmpty then
    if hasCredentials current then .ok none else .error (.validation message)
  else match requiredStrings credentials keys with
    | .error _ => .error (.validation message)
    | .ok values => .ok (some (stringMap values))

/-! ### Providers with a sender -/

/-- The config of the SMS providers: the sender under `key`, or the stored config if it
has the keys in `stored`. -/
def normalizeSender (name key message : String) (stored : List String) (config : Fields)
    (current : Option StoredInput) : Except GoError (Option Json) :=
  match requiredString config key with
  | .ok sender => .ok (some (stringMap [("provider", name), ("sender_id", sender)]))
  | .error _ => match storedConfig current with
    | none => .error (.validation message)
    | some raw => match validateStoredConfig (some raw) stored with
      | .ok valid => .ok valid
      | .error _ => .error (.validation message)

/-- `catalog.NewSMSDefinition`. -/
def newSMSDefinition (name : String) : Definition where
  name := name
  channel := "sms"
  normalize credentials config current := do
    let credentialsJSON ← normalizeStringMapCredentials credentials current
      ("a valid " ++ name ++ " api_key is required") ["api_key"]
    let configJSON ← normalizeSender name "sender_id"
      ("a valid " ++ name ++ " sender_id is required") ["provider", "sender_id"] config current
    return { name := name, channel := "sms", credentialsJSON := credentialsJSON,
             configJSON := configJSON }

/-- `normalizeTwilioCredentials`: the token is stored as the API key. -/
def normalizeTwilioCredentials (credentials : Fields) (current : Option StoredInput) :
    Except GoError (Option Json) :=
  let message := "valid twilio account_sid and auth_token are required"
  if credentials.isEmpty then
    if hasCredentials current then .ok none else .error (.validation message)
  else match requiredString credentials "account_sid", requiredString credentials "auth_token" with
    | .ok accountSID, .ok authToken =>
        .ok (some (stringMap [("account_sid", accountSID), ("api_key", authToken)]))
    | _, _ => .error (.validation message)

/-- `twilio.NewDefinition`: the number is asked for as `from_number` and stored as
`sender_id`. -/
def twilio : Definition where
  name := "twilio"
  channel := "sms"
  normalize credentials config current := do
    let credentialsJSON ← normalizeTwilioCredentials credentials current
    let configJSON ← normalizeSender "twilio" "from_number" "a valid twilio from_number is required"
      ["from_number"] config current
    return { name := "twilio", channel := "sms", credentialsJSON := credentialsJSON,
             configJSON := configJSON }

/-! ### Brevo -/

/-- `normalizeBrevoCredentials`: the stored credentials are looked into, not just kept. -/
def normalizeBrevoCredentials (credentials : Fields) (current : Option StoredInput) :
    Except GoError (Option Json) :=
  let message := "a valid brevo api_key is required"
  if credentials.isEmpty then
    match current.bind StoredInput.credentials with
    | none => .error (.validation message)
    | some raw => match validateStoredConfig (some raw) ["api_key"] with
      | .ok valid => .ok valid
      | .error _ => .error (.validation message)
  else match requiredString credentials "api_key" with
    | .error _ => .error (.validation message)
    | .ok apiKey => .ok (some (stringMap [("api_key", apiKey)]))

/-- `brevo.NewSMSDefinition`. -/
def brevoSMS : Definition where
  name := "brevo-sms"
  channel := "sms"
  normalize credentials config current := do
    let credentialsJSON ← normalizeBrevoCredentials credentials current
    let configJSON ← normalizeSender "brevo-sms" "sender_id"
      "a valid brevo sms sender_id is required" ["sender_id"] config current
    return { name := "brevo-sms", channel := "sms", credentialsJSON := credentialsJSON,
             configJSON := configJSON }

section Addresses

variable (parseAddress : String → Bool)

/-- `normalizeBrevoEmailConfig`. -/
def normalizeBrevoEmailConfig (config : Fields) (current : Option StoredInput) :
    Except GoError (Option Json) :=
  let message := "a valid brevo from_email is required"
  match requiredString config "from_email" with
  | .error _ => match storedConfig current with
    | some raw => validateStoredConfig (some raw) ["from_email"]
    | none => .error (.validation message)
  | .ok fromEmail =>
      if parseAddress fromEmail then .ok (some (stringMap [("from_email", fromEmail)]))
      else .error (.validation message)

/-- `brevo.NewEmailDefinition`. -/
def brevo : Definition where
  name := "brevo"
  channel := "email"
  normalize credentials config current := do
    let credentialsJSON ← normalizeBrevoCredentials credentials current
    let configJSON ← normalizeBrevoEmailConfig parseAddress config current
    return { name := "brevo", channel := "email", credentialsJSON := credentialsJSON,
             configJSON := configJSON }

/-! ### SendGrid -/

/-- `normalizeCredentials` of `sendgrid`. -/
def normalizeSendGridCredentials (credentials : Fields) (current : Option StoredInput) :
    Except GoError (Option Json) :=
  let message := "a valid sendgrid api_key is required"
  if credentials.isEmpty then
    if hasCredentials current then .ok none else .error (.validation message)
  else match Json.lookup credentials "api_key" with
    | some (.str apiKey) =>
        if trimSpace apiKey = "" then .error (.validation message)
        else .ok (some (stringMap [("api_key", trimSpace apiKey)]))
    | _ => .error (.validation message)

/-- `validateStoredConfig` of `sendgrid`: does the stored document have a sender? -/
def validateStoredSender (raw : Option Json) : Bool :=
  match Json.unmarshal raw fun v => do
      let fields ← v.structFields "sendgrid.managementConfig"
      Json.field (sortedFields fields) "from_email" "" Json.toStr with
  | .error _ => false
  | .ok fromEmail => trimSpace fromEmail != "" && parseAddress (trimSpace fromEmail)

/-- `normalizeConfig` of `sendgrid`. -/
def normalizeSendGridConfig (config : Fields) (current : Option StoredInput) :
    Except GoError (Option Json) :=
  let message := "a valid sendgrid from_email is required"
  if config.isEmpty then
    match current with
    | none => .error (.validation message)
    | some stored =>
        if validateStoredSender parseAddress stored.config then .ok stored.config
        else .error (.validation message)
  else match Json.lookup config "from_email" with
    | some (.str fromEmail) =>
        if trimSpace fromEmail = "" then .error (.validation message)
        else if parseAddress (trimSpace fromEmail) then
          .ok (some (stringMap [("from_email", trimSpace fromEmail)]))
        else .error (.validation message)
    | _ => .error (.validation message)

/-- `sendgrid.NewDefinition`. -/
def sendgrid : Definition where
  name := "sendgrid"
  channel := "email"
  normalize credentials config current := do
    let credentialsJSON ← normalizeSendGridCredentials credentials current
    let configJSON ← normalizeSendGridConfig parseAddress config current
    return { name := "sendgrid", channel := "email", credentialsJSON := credentialsJSON,
             configJSON := configJSON }

/-! ### SMTP -/

/-- `normalizeSMTPConfig`: the sender is asked for as `from_email` and stored as `from`. -/
def normalizeSMTPConfig (config : Fields) (current : Option StoredInput) :
    Except GoError (Option Json) :=
  let message := "valid smtp host, port, and from_email are required"
  if config.isEmpty then
    match storedConfig current with
    | some raw => validateStoredConfig (some raw) ["host", "port", "from"]
    | none => .error (.validation message)
  else
    let port := Json.lookup config "port"
    match requiredString config "host", requiredInt port, requiredString config "from_email" with
    | .ok host, .ok number, .ok fromEmail =>
        if 0 < number ∧ parseAddress fromEmail = true then
          .ok (some (.obj [("host", .str host), ("port", port.getD .null),
            ("from", .str fromEmail)]))
        else .error (.validation message)
    | _, _, _ => .error (.validation message)

/-- `smtp.NewDefinition`. -/
def smtp : Definition where
  name := "smtp"
  channel := "email"
  normalize credentials config current := do
    let credentialsJSON ← normalizeStringMapCredentials credentials current
      "valid smtp username and password are required" ["username", "password"]
    let configJSON ← normalizeSMTPConfig parseAddress config current
    return { name := "smtp", channel := "email", credentialsJSON := credentialsJSON,
             configJSON := configJSON }

/-! ### Push providers -/

/-- A push provider: credentials under the given keys, and nothing to configure. -/
def pushDefinition (name message : String) (keys : List String) : Definition where
  name := name
  channel := "push"
  normalize credentials _ current := do
    let credentialsJSON ← normalizeStringMapCredentials credentials current message keys
    return { name := name, channel := "push", credentialsJSON := credentialsJSON,
             configJSON := some (stringMap [("provider", name)]) }

/-- `fcm.NewDefinition`. -/
def fcm : Definition :=
  pushDefinition "fcm" "a valid fcm server_key is required" ["server_key"]

/-- `webpush.NewDefinition`. -/
def webpush : Definition :=
  pushDefinition "webpush" "valid web push public_key and private_key are required"
    ["public_key", "private_key"]

/-! ### Demo providers -/

/-- The non-empty strings of a submitted config, written into a stored one. -/
def mergeStrings (config stored : Fields) : Fields :=
  config.foldl (fun merged f => match Json.lookup config f.1 with
    | some (.str s) => if s = "" then merged else Json.insert merged f.1 (.str s)
    | _ => merged) stored

/-- The config of `demo-email` without a submitted owner. -/
def keepOwner (config : Fields) (stored : Json) : Json :=
  if config.isEmpty then stored
  else match stored.toMap with
    | .ok merged => .obj (mergeStrings config merged)
    | .error _ => stored

/-- A non-empty string of the config is passed on under its key. -/
def passOn (config : Fields) (key : String) : List (String × String) :=
  match Json.lookup config key with
  | some (.str s) => if s = "" then [] else [(key, s)]
  | _ => []

/-- `config["sender_name"].(string)`, trimmed. -/
def senderName (config : Fields) : String :=
  match Json.lookup config "sender_name" with
  | some (.str s) => trimSpace s
  | _ => ""

/-- The config of `demo-email`. -/
def normalizeOwner (config : Fields) (current : Option StoredInput) :
    Except GoError (Option Json) :=
  match requiredString config "owner_email" with
  | .error _ => match storedConfig current with
    | some stored => .ok (some (keepOwner config stored))
    | none => .error (.validation "demo-email: owner_email is required")
  | .ok ownerEmail =>
      if parseAddress ownerEmail then
        .ok (some (stringMap ([("owner_email", ownerEmail), ("sender_name", senderName config)] ++
          passOn config "brevo_api_key" ++ passOn config "brevo_from_email")))
      else .error (.validation "demo-email: a valid owner_email is required")

/-- `demo.NewEmailDefinition`. -/
def demoEmail : Definition where
  name := "demo-email"
  channel := "email"
  normalize _ config current := do
    let configJSON ← normalizeOwner parseAddress config current
    return { name := "demo-email", channel := "email", configJSON := configJSON }

/-- `demo.NewSMSDefinition`. -/
def demoSMS : Definition where
  name := "demo-sms"
  channel := "sms"
  normalize _ _ _ := .ok { name := "demo-sms", channel := "sms" }

/-! ### The catalog -/

/-- `providers.NewCatalog`. -/
def newCatalog : List Definition :=
  [sendgrid parseAddress, brevo parseAddress, brevoSMS, smtp parseAddress,
    newSMSDefinition "termii", twilio, fcm, webpush, demoEmail parseAddress, demoSMS]

/-- `Catalog.Get`. -/
def catalogGet (name : String) : Option Definition :=
  (newCatalog parseAddress).find? fun d => d.name == name

end Addresses

end Iwifunni.Integration
