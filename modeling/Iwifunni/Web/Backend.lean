/-
Iwifunni/Web/Backend.lean

The proxy between the browser and the backend (`backend-api.ts`, `auth-session.ts`).

Every route of the dashboard sends its request on with the access token of the
browser.  If there is none, or the backend does not accept it, the refresh token
is exchanged first, and the new tokens go back to the browser as cookies:

    browser  --cookies-->  proxyBackend  --POST /auth/refresh-->  backend
                                         <------- session ------
                                         ------- request  ----->
             <-set cookies-              <------ response ------

The body of a response is JSON or other text; texts of JSON documents are not
modelled.  Targets are relative to `BACKEND_BASE_URL`, and of the headers only
`Authorization` is kept.
-/
import Iwifunni.Effect.Prog
import Iwifunni.Go.Json

namespace Iwifunni.Web

open Go Effect Effect.Prog

/-! ### Requests and responses -/

/-- A `RequestInit`, as the routes fill it. -/
structure Init where
  method : String
  body : Option Json

/-- What `fetch` is called with. -/
structure HttpRequest where
  target : String
  init : Init
  authorization : Option String

/-- The text of a response. -/
inductive Body
  | empty
  | json (v : Json)
  | text (raw : String)

structure HttpResponse where
  status : ℕ
  body : Body

/-- `BackendResult`. -/
structure BackendResult where
  status : ℕ
  payload : Json

/-- The part of a `NextRequest` the proxy looks at: a header and two cookies. -/
structure NextRequest where
  authorization : Option String
  accessToken : Option String
  refreshToken : Option String

/-- `SessionPayload`. -/
structure SessionPayload where
  accessToken : String
  refreshToken : String
  needsOnboarding : Bool

/-- What a response does to the session cookies. -/
inductive Cookies
  | keep
  | set (session : SessionPayload)
  | clear

/-- A `NextResponse`. -/
structure NextResponse where
  status : ℕ
  payload : Json
  cookies : Cookies

/-- The operations of a request of the browser: it goes out with the cookies of the
browser, the proxy calls the backend for it, and the browser takes the response. -/
inductive Op
  | cookies
  | fetch (request : HttpRequest)
  | deliver (response : NextResponse)

/-- `fetch` answers nothing if it throws. -/
abbrev Op.Res : Op → Type
  | cookies => NextRequest
  | fetch _ => Option HttpResponse
  | deliver _ => Unit

/-- No operation throws. -/
abbrev Act (α : Type) : Type := Prog Op.Res Empty α

/-! ### `backend-api.ts` -/

/-- An object with one string. -/
def errorPayload (message : String) : Json := .obj [("error", .str message)]

/-- A string that is there and not empty: what counts as true. -/
def truthy (s : Option String) : Option String := s.filter (· != "")

/-- `resolveAuthHeader`. -/
def resolveAuthHeader (req : NextRequest) : Option String :=
  match truthy req.authorization with
  | some authorization => some authorization
  | none => (truthy req.accessToken).map ("Bearer " ++ ·)

/-- `normalizePath`. -/
def normalizePath (path : String) : String :=
  if hasPrefix path "/" then path else "/" ++ path

/-- `isSessionPayload`, with the session of the payload. -/
def sessionPayload : Json → Option SessionPayload
  | .obj fields => match Json.lookup fields "access_token", Json.lookup fields "refresh_token" with
    | some (.str accessToken), some (.str refreshToken) =>
        some ⟨accessToken, refreshToken, match Json.lookup fields "needs_onboarding" with
          | some (.bool b) => b
          | _ => false⟩
    | _, _ => none
  | _ => none

/-- `getErrorMessage`. -/
def getErrorMessage : Json → String
  | .obj fields => match Json.lookup fields "error" with
    | some (.str error) => error
    | _ => ""
  | .str s => s
  | _ => ""

/-- `shouldAttemptRefresh`. -/
def shouldAttemptRefresh (result : BackendResult) : Bool :=
  result.status == 401 && contains (toLower (getErrorMessage result.payload)) "bearer token"

/-- The payload `sendToBackend` makes of a body. -/
def Body.payload : Body → Json
  | empty => .obj []
  | json v => v
  | text raw => errorPayload raw

/-- The end of `sendToBackend`. -/
def backendResult : Option HttpResponse → BackendResult
  | some response =>
      if response.status = 204 then ⟨204, .null⟩ else ⟨response.status, response.body.payload⟩
  | none => ⟨502, errorPayload "Failed to reach backend service"⟩

/-- The call of `fetch` in `sendToBackend`. -/
def backendRequest (path : String) (init : Init) (authHeader : Option String) : HttpRequest where
  target := normalizePath path
  init := init
  authorization := authHeader

/-- `sendToBackend`. -/
def sendToBackend (path : String) (init : Init) (authHeader : Option String) :
    Act BackendResult := do
  let response ← perform (Op.fetch (backendRequest path init authHeader))
  ret (backendResult response)

/-- `toNextResponse`. -/
def toNextResponse (result : BackendResult) (cookies : Cookies) : NextResponse where
  status := result.status
  payload := if result.status = 204 then .null else result.payload
  cookies := cookies

/-- The request of `refreshSession`. -/
def refreshInit (refreshToken : String) : Init where
  method := "POST"
  body := some (.obj [("refresh_token", .str refreshToken)])

/-- What `refreshSession` returns. -/
structure RefreshResult where
  session : Option SessionPayload
  clearCookies : Bool

/-- The end of `refreshSession`. -/
def refreshResult (result : BackendResult) : RefreshResult :=
  match if 200 ≤ result.status ∧ result.status < 300 then sessionPayload result.payload
    else none with
  | some session => ⟨some session, false⟩
  | none => ⟨none, result.status == 400 || result.status == 401⟩

/-- `refreshSession`. -/
def refreshSession (req : NextRequest) : Act RefreshResult :=
  match truthy req.refreshToken with
  | none => ret ⟨none, false⟩
  | some refreshToken => do
      let result ← sendToBackend "/auth/refresh" (refreshInit refreshToken) none
      ret (refreshResult result)

/-- The cookies of a response without a new session. -/
def clearIf (clearCookies : Bool) : Cookies := if clearCookies then .clear else .keep

/-- The response of `proxyBackend` without any token. -/
def missingToken (clearCookies : Bool) : NextResponse where
  status := 401
  payload := errorPayload "Missing bearer token"
  cookies := clearIf clearCookies

/-- `proxyBackend`, once there is a new session. -/
def sendRefreshed (path : String) (init : Init) (session : SessionPayload) : Act NextResponse := do
  let result ← sendToBackend path init (some ("Bearer " ++ session.accessToken))
  ret (toNextResponse result (.set session))

/-- `proxyBackend`. -/
def proxyBackend (req : NextRequest) (path : String) (init : Init) : Act NextResponse :=
  match resolveAuthHeader req with
  | none => do
      let refreshed ← refreshSession req
      match refreshed.session with
      | none => ret (missingToken refreshed.clearCookies)
      | some session => sendRefreshed path init session
  | some authHeader => do
      let result ← sendToBackend path init (some authHeader)
      if shouldAttemptRefresh result then do
        let refreshed ← refreshSession req
        match refreshed.session with
        | none => ret (toNextResponse result (clearIf refreshed.clearCookies))
        | some session => sendRefreshed path init session
      else ret (toNextResponse result .keep)

/-! ### The cookies of the browser -/

/-- The session cookies. -/
structure Jar where
  accessToken : Option String
  refreshToken : Option String
  needsOnboarding : Option String

/-- A request of the dashboard: the client sets no `Authorization` header. -/
def Jar.request (jar : Jar) : NextRequest where
  authorization := none
  accessToken := jar.accessToken
  refreshToken := jar.refreshToken

/-- `setSessionCookies` and `clearSessionCookies`, once the browser has the response. -/
def Cookies.apply (jar : Jar) : Cookies → Jar
  | keep => jar
  | set session => {
      accessToken := if session.accessToken = "" then jar.accessToken else some session.accessToken
      refreshToken := if session.refreshToken = "" then jar.refreshToken
        else some session.refreshToken
      needsOnboarding := if session.needsOnboarding then some "true" else none }
  | clear => ⟨none, none, none⟩

/-- A request of the dashboard, from the browser and back.  No route sends anything to the
refresh endpoint through the proxy. -/
structure Request where
  path : String
  init : Init
  proxied : normalizePath path ≠ "/auth/refresh"

/-- Serve a request. -/
def Request.body (r : Request) : Act Unit := do
  let req ← perform Op.cookies
  let response ← proxyBackend req r.path r.init
  perform (Op.deliver response)

end Iwifunni.Web
