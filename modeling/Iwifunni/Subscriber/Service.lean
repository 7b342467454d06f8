/-
Iwifunni/Subscriber/Service.lean

`subscriber.Service.Update` (`service.go`): the input is trimmed and checked, the
channels are derived from the contact fields, and every column of the row is
written, the status column among them.
-/
import Iwifunni.Store

namespace Iwifunni.Subscriber

open Go Db Effect Effect.Prog Store

structure UpdateInput where
  id : UUID
  environmentID : UUID
  name : String
  firstName : Option String
  lastName : Option String
  email : Option String
  phone : Option String
  pushToken : Option String
  tags : List String
  /-- `none` is the nil map. -/
  metadata : Option (List (String × Json))
  preferences : Option (List (String × Json))

/-- `trimOptional`. -/
def trimOptional (value : Option String) : Option String :=
  match value with
  | none => none
  | some v => if trimSpace v = "" then none else some (trimSpace v)

/-- `phoneHasCountryCode`. -/
def phoneHasCountryCode (phone : String) : Bool :=
  phone.toList.head? == some '+'

/-- `deriveChannels`. -/
def deriveChannels (email phone pushToken : Option String) : List String :=
  (if email.isSome then ["email"] else []) ++ (if phone.isSome then ["sms"] else []) ++
    (if pushToken.isSome then ["push"] else [])

/-- `normalizeTags`. -/
def normalizeTags (tags : List String) : List String :=
  tags.foldl (fun result tag =>
    let normalized := trimSpace tag
    if normalized = "" ∨ normalized ∈ result then result else result ++ [normalized]) []

/-- `buildDefaultStatusJSON`: 'subscribed' for every channel there is. -/
def buildDefaultStatusJSON (channels : List String) : Json :=
  .obj ((["email", "sms", "push"].filter (· ∈ channels)).map fun c => (c, .str "subscribed"))

/-- `buildMetadataJSON`; a map decoded from JSON can always be encoded. -/
def buildMetadataJSON (metadata : Option (List (String × Json))) : Json :=
  .obj (metadata.getD [])

/-- The name to store: the given one, or the first and last name. -/
def updateName (name : String) (firstName lastName : Option String) : String :=
  if trimSpace name = "" then
    match firstName, lastName with
    | some first, some last => trimSpace (first ++ " " ++ last)
    | some first, none => trimSpace first
    | none, some last => trimSpace last
    | none, none => ""
  else trimSpace name

/-- `validateName`. -/
def validateName (name : String) : Except GoError Unit :=
  if name = "" then .error .invalidSubscriber else .ok ()

/-- `buildUpdateParams`. -/
def buildUpdateParams (input : UpdateInput) : Except GoError SubscriberParams :=
  let firstName := trimOptional input.firstName
  let lastName := trimOptional input.lastName
  let email := trimOptional input.email
  let phone := trimOptional input.phone
  let pushToken := trimOptional input.pushToken
  let name := updateName input.name firstName lastName
  if phone.any fun phone => !phoneHasCountryCode phone then .error .invalidSubscriber
  else do
    validateName name
    return {
      id := input.id
      environmentID := input.environmentID
      name := name
      firstName := firstName
      lastName := lastName
      email := email
      phone := phone
      pushToken := pushToken
      channels := deriveChannels email phone pushToken
      status := some (buildDefaultStatusJSON (deriveChannels email phone pushToken))
      tags := normalizeTags input.tags
      metadata := some (buildMetadataJSON input.metadata)
      preferences := some (buildMetadataJSON input.preferences) }

/-- `Service.Update`. -/
def update (input : UpdateInput) : Act Subscriber :=
  match buildUpdateParams input with
  | .error e => fail e
  | .ok params => perform (Op.updateSubscriber params)

end Iwifunni.Subscriber
