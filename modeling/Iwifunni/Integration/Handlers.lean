/-
Iwifunni/Integration/Handlers.lean

The HTTP handlers of integrations (`integration/handler.go`).

A handler reads the body, asks the service, and answers with the row, its config
included.  For `demo-email` it first writes into the submitted config what only the
platform knows:

    create     owner_email of the caller's account, brevo_api_key, brevo_from_email
    update                                          brevo_api_key, brevo_from_email

It does so if the name is `demo-email` up to case; the service trims the name as well.
Times are left out of the replies.
-/
import Iwifunni.Integration.Service

namespace Iwifunni.Integration

open Go Db Effect Effect.Prog Store

/-! ### Requests -/

/-- `createRequest` and `updateRequest`: nil maps are `none`. -/
structure SaveRequest where
  name : String
  channel : String
  credentials : Option Fields
  config : Option Fields

/-- What the middleware has put into the context. -/
structure Caller where
  environmentID : Option UUID
  /-- `UserID` of the claims -/
  userID : Option String

/-- A request to one of the endpoints; a body that cannot be decoded is `none`, and an id is
the text in the path. -/
inductive ApiRequest
  | create (body : Option SaveRequest)
  | list
  | get (providerID : String)
  | update (providerID : String) (body : Option SaveRequest)
  | updateState (providerID : String) (body : Option String)
  | delete (providerID : String)

/-! ### Replies -/

/-- `providerResponse`, without its times.  An empty config is left out. -/
structure ProviderResponse where
  id : UUID
  environmentID : UUID
  name : String
  channel : String
  config : Fields
  hasCredentials : Bool
  isActive : Bool
  isPrimary : Bool

inductive Body
  | empty
  | text (message : String)
  /-- `validate.ValidationError` -/
  | invalid (message : String) (fields : List (String × String))
  | provider (p : ProviderResponse)
  | providers (ps : List ProviderResponse)

structure Reply where
  status : ℕ
  body : Body

/-- `providerResponseFromRecord`. -/
def providerResponseFromRecord (p : Db.Integration) : ProviderResponse where
  id := p.id
  environmentID := p.environmentID
  name := p.name
  channel := p.channel
  config := match p.config with
    | some (.obj fields) => fields
    | _ => []
  hasCredentials := p.credentials.isSome
  isActive := p.isActive
  isPrimary := p.isPrimary

def unauthorized : Reply := ⟨401, .text "unauthorized"⟩

/-- `errors.Is(err, ErrUnsupportedProvider)`: no other error has such a text. -/
def isUnsupported (e : GoError) : Bool :=
  e.text == "unsupported provider" ||
    "unsupported provider: ".toList.isPrefixOf e.text.toList

/-- `writeProviderError`. -/
def providerError (e : GoError) : Reply :=
  if isUnsupported e then ⟨400, .text "unsupported provider"⟩
  else match e with
    | .validation message => ⟨400, .text message⟩
    | _ => ⟨500, .text "failed to save provider"⟩

/-- The fields of a request that `validate:"required"` finds missing. -/
def SaveRequest.missing (req : SaveRequest) : List String :=
  (if req.name = "" then ["name"] else []) ++ (if req.channel = "" then ["channel"] else []) ++
    if req.credentials.isNone then ["credentials"] else []

/-- The reply of `DecodeAndRespond` to a body it does not take. -/
def invalidPayload : Reply := ⟨400, .invalid "invalid payload" []⟩

def validationFailed (missing : List String) : Reply :=
  ⟨400, .invalid "Validation failed" (missing.map fun field => (field, "is required"))⟩

/-- `DecodeAndRespond`. -/
def decodeAndRespond (body : Option SaveRequest) : Except Reply SaveRequest :=
  match body with
  | none => .error invalidPayload
  | some req => if req.missing.isEmpty then .ok req else .error (validationFailed req.missing)

/-! ### What the handler writes into a config -/

/-- `Handler`, without the service. -/
structure Handler where
  brevoAPIKey : String
  brevoFromEmail : String

/-- `strings.EqualFold(req.Name, "demo-email")`. -/
def namesDemo (name : String) : Bool := equalFold name "demo-email"

/-- The credentials of the platform, if both are configured. -/
def Handler.inject (h : Handler) (config : Fields) : Fields :=
  if h.brevoAPIKey ≠ "" ∧ h.brevoFromEmail ≠ "" then
    Json.insert (Json.insert config "brevo_api_key" (.str h.brevoAPIKey)) "brevo_from_email"
      (.str h.brevoFromEmail)
  else config

/-- The config `create` passes on for the account of the caller. -/
def Handler.createConfig (h : Handler) (config : Fields) (email : String) : Fields :=
  h.inject (Json.insert config "owner_email" (.str email))

/-- The config `update` passes on. -/
def Handler.updateConfig (h : Handler) (name : String) (config : Fields) : Fields :=
  if namesDemo name then h.inject config else config

/-! ### Handlers -/

/-- The reply to what `Create`, `Update` or `UpdateState` returns. -/
def savedReply (status : ℕ) : Except GoError Db.Integration → Reply
  | .error e => providerError e
  | .ok row => ⟨status, .provider (providerResponseFromRecord row)⟩

section Handlers

variable (parseAddress : String → Bool) (encrypt : Encrypt) (h : Handler)

/-- `service.Create` for a request, with a config. -/
def createFor (environmentID : UUID) (req : SaveRequest) (config : Fields) : Act Reply := do
  let saved ← (create parseAddress encrypt {
    environmentID := environmentID
    name := req.name
    channel := req.channel
    credentials := req.credentials.getD []
    config := config }).outcome
  ret (savedReply 201 saved)

/-- `create` for `demo-email`, after the lookup of the account. -/
def Handler.createDemo (environmentID : UUID) (req : SaveRequest) : Except GoError User → Act Reply
  | .error _ => ret ⟨500, .text "failed to resolve user email"⟩
  | .ok user => createFor parseAddress encrypt environmentID req
      (h.createConfig (req.config.getD []) user.email)

/-- `create`, with a body that was taken. -/
def Handler.createDecoded (caller : Caller) (environmentID : UUID) (req : SaveRequest) :
    Act Reply :=
  if namesDemo req.name then
    match caller.userID.bind UUID.parse with
    | none => ret unauthorized
    | some userID => ask (Op.getUserByID userID) >>= h.createDemo parseAddress encrypt environmentID req
  else createFor parseAddress encrypt environmentID req (req.config.getD [])

/-- `Handler.create`. -/
def Handler.create (caller : Caller) (body : Option SaveRequest) : Act Reply :=
  match caller.environmentID with
  | none => ret unauthorized
  | some environmentID => match decodeAndRespond body with
    | .error reply => ret reply
    | .ok req => h.createDecoded parseAddress encrypt caller environmentID req

/-- `update`, with an id and a body that were taken. -/
def Handler.updateDecoded (environmentID id : UUID) (req : SaveRequest) : Act Reply := do
  let saved ← (Integration.update parseAddress encrypt {
    id := id
    environmentID := environmentID
    name := req.name
    channel := req.channel
    credentials := req.credentials.getD []
    config := h.updateConfig req.name (req.config.getD []) }).outcome
  ret (savedReply 200 saved)

/-- `Handler.update`. -/
def Handler.update (caller : Caller) (providerID : String) (body : Option SaveRequest) :
    Act Reply :=
  match caller.environmentID with
  | none => ret unauthorized
  | some environmentID => match UUID.parse providerID with
    | none => ret ⟨400, .text "invalid provider id"⟩
    | some id => match decodeAndRespond body with
      | .error reply => ret reply
      | .ok req => h.updateDecoded parseAddress encrypt environmentID id req

end Handlers

/-- The reply to what `List` returns. -/
def listReply : Except GoError (List Db.Integration) → Reply
  | .error _ => ⟨500, .text "failed to list integrations"⟩
  | .ok rows => ⟨200, .providers (rows.map providerResponseFromRecord)⟩

/-- `Handler.list`. -/
def Handler.list (caller : Caller) : Act Reply :=
  match caller.environmentID with
  | none => ret unauthorized
  | some environmentID => do
      let rows ← ask (Op.listIntegrations environmentID)
      ret (listReply rows)

/-- The reply to what `GetByID` returns. -/
def getReply : Except GoError Db.Integration → Reply
  | .error _ => ⟨404, .text "integration not found"⟩
  | .ok row => ⟨200, .provider (providerResponseFromRecord row)⟩

/-- `Handler.get`. -/
def Handler.get (caller : Caller) (providerID : String) : Act Reply :=
  match caller.environmentID with
  | none => ret unauthorized
  | some environmentID => match UUID.parse providerID with
    | none => ret ⟨400, .text "invalid integration id"⟩
    | some id => do
        let row ← ask (Op.getIntegrationByID id environmentID)
        ret (getReply row)

/-- The reply to what `Delete` returns. -/
def deleteReply : Except GoError Unit → Reply
  | .error _ => ⟨500, .text "failed to delete integration"⟩
  | .ok _ => ⟨204, .empty⟩

/-- `Handler.delete`. -/
def Handler.delete (caller : Caller) (providerID : String) : Act Reply :=
  match caller.environmentID with
  | none => ret unauthorized
  | some environmentID => match UUID.parse providerID with
    | none => ret ⟨400, .text "invalid integration id"⟩
    | some id => do
        let deleted ← (Integration.delete id environmentID).outcome
        ret (deleteReply deleted)

/-! ### `updateState` -/

/-- The action a text stands for. -/
def stateAction (text : String) : StateAction :=
  if text = "enable" then .enable
  else if text = "disable" then .disable
  else if text = "set_primary" then .setPrimary
  else .unknown text

/-- What `updateState` asks the service for, or its reply. -/
def stateInput (caller : Caller) (providerID : String) (body : Option String) :
    Except Reply StateInput :=
  match caller.environmentID with
  | none => .error unauthorized
  | some environmentID => match UUID.parse providerID with
    | none => .error ⟨400, .text "invalid provider id"⟩
    | some id => match body with
      | none => .error invalidPayload
      | some action =>
          if action = "" then .error (validationFailed ["action"])
          else .ok ⟨id, environmentID, stateAction action⟩

/-- The end of a transaction: `Rollback` after an error, whose own error is dropped. -/
def concludeTx (c : Circumstances) (w : World) :
    Except GoError α × World × ℕ → Except GoError α × World
  | (.error e, _, _) => (.error e, w)
  | (.ok a, w', n) => match c.fails n with
    | some text => (.error (.other text), w)
    | none => (.ok a, w')

/-- `Repository.WithinTx` under circumstances: `Begin` is the first thing that may fail, `Commit` the last. -/
def withinTxUnder (c : Circumstances) (p : Act α) (w : World) : Except GoError α × World :=
  match c.fails 0 with
  | some text => (.error (.other text), w)
  | none => concludeTx c w (p.drive c.answer (w, 1)).2

/-- `Service.UpdateState` and its reply. -/
def updateStateWith (c : Circumstances) (w : World) : Except Reply StateInput → Reply × World
  | .error reply => (reply, w)
  | .ok input =>
      let saved := withinTxUnder c (updateState input) w
      (savedReply 200 saved.1, saved.2)

/-- `Handler.updateState`. -/
def Handler.updateState (c : Circumstances) (caller : Caller) (providerID : String)
    (body : Option String) (w : World) : Reply × World :=
  updateStateWith c w (stateInput caller providerID body)

/-! ### Requests in a row -/

section Serve

variable (parseAddress : String → Bool) (encrypt : Encrypt) (h : Handler)

/-- The reply of a handler; none of them ends without one. -/
def replyOf : Except GoError Reply → Reply
  | .ok reply => reply
  | .error e => providerError e

def replied (c : Circumstances) (p : Act Reply) (w : World) : Reply × World :=
  let served := p.drive c.answer (w, 0)
  (replyOf served.2.1, served.2.2.1)

/-- What `Handler.Register` has registered. -/
def Handler.serve (c : Circumstances) (caller : Caller) (w : World) : ApiRequest → Reply × World
  | .create body => replied c (h.create parseAddress encrypt caller body) w
  | .list => replied c (Handler.list caller) w
  | .get providerID => replied c (Handler.get caller providerID) w
  | .update providerID body => replied c (h.update parseAddress encrypt caller providerID body) w
  | .updateState providerID body => Handler.updateState c caller providerID body w
  | .delete providerID => replied c (Handler.delete caller providerID) w

end Serve

end Iwifunni.Integration
