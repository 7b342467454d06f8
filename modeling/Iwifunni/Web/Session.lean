/-
Iwifunni/Web/Session.lean

A browser with any number of requests under way, the backend, and what the requests
should do to the session.

The backend exchanges every refresh token once.  A request looks like this from
outside:

    launched --cookies--> asking --call-->            answered
                          asking --call--> rejected --refresh--> holding --call--> answered
                          asking --refresh--> holding --call--> answered

Where the refresh token is turned away, the request is `refused`; it is answered by
the proxy and clears the cookies.
-/
import Iwifunni.Effect.Pool
import Iwifunni.Effect.Schedule
import Iwifunni.Web.Backend

namespace Iwifunni.Web

open Go Effect Effect.Prog

/-! ### The backend -/

/-- The browser, and what the backend knows of its tokens. -/
structure World where
  jar : Jar
  /-- The refresh tokens that can be exchanged. -/
  live : List String
  /-- The refresh tokens that have been issued so far. -/
  drawn : List String
  /-- The access tokens that are accepted. -/
  valid : List String
  /-- The calls that were properly authorised, with their responses. -/
  served : List (HttpRequest × HttpResponse)

/-- The token of an `Authorization` header, as the middleware reads it. -/
def bearerToken (authorization : Option String) : Option String :=
  match authorization with
  | some header =>
      if hasPrefix header "Bearer " then some (trimSpace (String.ofList (header.toList.drop 7)))
      else none
  | none => none

/-- Does the backend accept a header? -/
def World.accepts (w : World) (authorization : Option String) : Bool :=
  (bearerToken authorization).any (· ∈ w.valid)

/-- The response of the middleware to a header it does not accept. -/
def unauthorized (authorization : Option String) : HttpResponse where
  status := 401
  body := .text (if (bearerToken authorization).isSome then "invalid bearer token\n"
    else "missing bearer token\n")

/-- The token a request presents to the refresh endpoint. -/
def presented (request : HttpRequest) : Option String :=
  if request.target = "/auth/refresh" then
    match request.init.body with
    | some (.obj fields) => match Json.lookup fields "refresh_token" with
      | some (.str refreshToken) => some (trimSpace refreshToken)
      | _ => none
    | _ => none
  else none

/-- The response of the refresh endpoint to a token that cannot be exchanged. -/
def invalidCredentials (token : String) : HttpResponse :=
  if token = "" then ⟨400, .text "refresh token is required\n"⟩
  else ⟨401, .text "invalid credentials\n"⟩

/-- A token as the backend makes them. -/
def WellFormed (token : String) : Prop := token ≠ "" ∧ trimSpace token = token

instance (token : String) : Decidable (WellFormed token) :=
  inferInstanceAs (Decidable (_ ∧ _))

/-- A session that may be issued: its refresh token is a new one. -/
structure World.Fresh (w : World) (session : SessionPayload) : Prop where
  access : WellFormed session.accessToken
  refresh : WellFormed session.refreshToken
  new : session.refreshToken ∉ w.drawn

/-- A refresh token is exchanged for a session. -/
def World.exchange (w : World) (token : String) (session : SessionPayload) : World :=
  { w with
    live := session.refreshToken :: w.live.filter (· != token)
    drawn := session.refreshToken :: w.drawn
    valid := session.accessToken :: w.valid }

/-- `Call op w r w'`: the operation may be answered by `r` and leave `w'`.  The backend
exchanges a refresh token once, and answers a call it accepts in any way. -/
inductive Call : (op : Op) → World → Except Empty op.Res → World → Prop
  | cookies (w : World) : Call .cookies w (.ok w.jar.request) w
  | deliver (w : World) (response : NextResponse) :
      Call (.deliver response) w (.ok ()) { w with jar := response.cookies.apply w.jar }
  | exchange {w : World} {request token payload session}
      (htoken : presented request = some token) (hlive : token ∈ w.live)
      (hpayload : sessionPayload payload = some session) (hfresh : w.Fresh session) :
      Call (.fetch request) w (.ok (some ⟨200, .json payload⟩)) (w.exchange token session)
  | refuse {w : World} {request token} (htoken : presented request = some token)
      (hspent : token ∉ w.live) :
      Call (.fetch request) w (.ok (some (invalidCredentials token))) w
  | serve {w : World} {request} (response : HttpResponse)
      (htarget : request.target ≠ "/auth/refresh")
      (hvalid : w.accepts request.authorization = true) :
      Call (.fetch request) w (.ok (some response))
        { w with served := (request, response) :: w.served }
  | reject {w : World} {request} (htarget : request.target ≠ "/auth/refresh")
      (hvalid : w.accepts request.authorization = false) :
      Call (.fetch request) w (.ok (some (unauthorized request.authorization))) w
  | unreachable (w : World) (request : HttpRequest) : Call (.fetch request) w (.ok none) w

/-- A browser with any number of requests under way. -/
def browser : Machine World Request Empty Op.Res Empty Unit where
  body := Request.body
  spawn _ w w' := w' = w
  sem := Call
  close _ _ w w' := w' = w
  lose _ w w' := w' = w
  env _ w w' := w' = w

abbrev BrowserPool : Type := Pool World Request Op.Res Empty Unit

abbrev BrowserEvent : Type := Event Request Empty Op.Res Empty Unit

/-- A browser without requests. -/
def idle (w : World) : BrowserPool := ⟨w, fun _ => none⟩

/-! ### What is to be kept -/

/-- The backend accepts the access token of a cookie. -/
def World.AcceptsCookie (w : World) (cookie : Option String) : Prop :=
  ∃ accessToken, cookie = some accessToken ∧ accessToken ≠ "" ∧
    w.accepts (some ("Bearer " ++ accessToken)) = true

/-- The session cookies are good: the access token is accepted, and the refresh token can
be exchanged. -/
def World.SignedIn (w : World) : Prop :=
  w.AcceptsCookie w.jar.accessToken ∧
  ∃ refreshToken, w.jar.refreshToken = some refreshToken ∧ refreshToken ≠ "" ∧
    trimSpace refreshToken ∈ w.live

/-- The response is what the backend answered to a properly authorised call of the request. -/
def Authorised (w : World) (r : Request) (response : NextResponse) : Prop :=
  ∃ authHeader answer cookies, (backendRequest r.path r.init (some authHeader), answer) ∈ w.served ∧
    response = toNextResponse (backendResult (some answer)) cookies

/-- The browser takes a response. -/
def IsDelivery : BrowserEvent → Prop
  | .call _ ⟨.deliver _, _⟩ => True
  | _ => False

/-- What concurrent requests should do, in the runs under a condition: every request is
answered by a properly authorised call, and when all are answered the browser is signed in. -/
structure SessionKept (C : BrowserPool → BrowserEvent → Prop) (w : World) : Prop where
  answered : ∀ {evs p e p'}, Run browser C (idle w) evs p → C p e → Step browser p e p' →
    ∀ i response r, e = .call i ⟨.deliver response, r⟩ →
      ∃ t, p.threads i = some t ∧ Authorised p.world t.label response
  signedIn : ∀ {evs p}, Run browser C (idle w) evs p → (∃ e ∈ evs, IsDelivery e) →
    (∀ i, p.threads i = none) → p.world.SignedIn

/-- No request presents a refresh token that has been exchanged; the backend is reached,
and the browser takes every response. -/
def Unspent (p : BrowserPool) : BrowserEvent → Prop
  | .call _ ⟨.fetch request, .ok answer⟩ =>
      answer.isSome = true ∧ ∀ token, presented request = some token → token ∈ p.world.live
  | .lose _ => False
  | _ => True

/-- A browser with a refresh token that can be exchanged. -/
structure World.Starts (w : World) : Prop where
  refresh : ∃ refreshToken, w.jar.refreshToken = some refreshToken ∧ refreshToken ≠ "" ∧
    trimSpace refreshToken ∈ w.live
  drawn : ∀ token ∈ w.live, token ∈ w.drawn

/-! ### The phases of a request -/

/-- How far a request is. -/
inductive Phase
  | launched
  /-- It has the cookies, and has called nobody. -/
  | asking (req : NextRequest)
  /-- Its access token was turned away. -/
  | rejected (req : NextRequest)
  /-- It has a new session. -/
  | holding (session : SessionPayload)
  /-- It has its answer, and the session it got on the way. -/
  | answered (request : HttpRequest) (answer : Option HttpResponse)
      (session : Option SessionPayload)
  /-- Its refresh token was turned away. -/
  | refused
  | closed

/-- The cookies a request may still use. -/
def Phase.req : Phase → Option NextRequest
  | asking req => some req
  | rejected req => some req
  | _ => none

/-- The session a request brings home. -/
def Phase.session : Phase → Option SessionPayload
  | holding session => some session
  | answered _ _ session => session
  | _ => none

/-- The cookies of a response, with or without a new session. -/
def sessionCookies : Option SessionPayload → Cookies
  | some session => .set session
  | none => .keep

/-- After the answer of the refresh endpoint. -/
def Phase.ofRefresh (answer : Option HttpResponse) : Phase :=
  match (refreshResult (backendResult answer)).session with
  | some session => holding session
  | none => refused

/-- After the answer to the first call. -/
def Phase.ofAnswer (req : NextRequest) (request : HttpRequest) (answer : Option HttpResponse) :
    Phase :=
  if shouldAttemptRefresh (backendResult answer) then rejected req
  else answered request answer none

open Classical in
/-- A refresh with the cookies of a request. -/
noncomputable def refreshing (req : NextRequest) (request : HttpRequest)
    (answer : Option HttpResponse) : Option Phase :=
  if ∃ refreshToken, truthy req.refreshToken = some refreshToken ∧
      request = backendRequest "/auth/refresh" (refreshInit refreshToken) none then
    some (.ofRefresh answer)
  else none

open Classical in
/-- The protocol of a request. -/
noncomputable def proxying : Protocol Request Op.Res Empty Unit Phase where
  init _ := .launched
  expects _ _ _ := True
  next l st a := match st, a with
    | .launched, ⟨.cookies, .ok req⟩ => some (.asking req)
    | .asking req, ⟨.fetch request, .ok answer⟩ => match resolveAuthHeader req with
      | some authHeader =>
          if request = backendRequest l.path l.init (some authHeader) then
            some (.ofAnswer req request answer)
          else none
      | none => refreshing req request answer
    | .rejected req, ⟨.fetch request, .ok answer⟩ => refreshing req request answer
    | .holding session, ⟨.fetch request, .ok answer⟩ =>
        if request = backendRequest l.path l.init (some ("Bearer " ++ session.accessToken)) then
          some (.answered request answer (some session))
        else none
    | .answered _ answer session, ⟨.deliver response, .ok ()⟩ =>
        if response = toNextResponse (backendResult answer) (sessionCookies session) then
          some .closed
        else none
    | .asking req, ⟨.deliver _, .ok ()⟩ =>
        if truthy req.refreshToken = none then some .closed else none
    | .rejected req, ⟨.deliver _, .ok ()⟩ =>
        if truthy req.refreshToken = none then some .closed else none
    | .refused, ⟨.deliver _, .ok ()⟩ => some .closed
    | _, _ => none
  ends _ st _ := st = .closed

variable {l : Request} {req : NextRequest} {session : SessionPayload}

/-- The end of a request: the response is delivered. -/
def Delivers (l : Request) (st : Phase) (response : NextResponse) : Prop :=
  proxying.next l st ⟨.deliver response, .ok ()⟩ = some .closed

/-- A call of the backend, then the rest for every answer. -/
theorem keeps_sendToBackend {β : Type} {post : Phase → Except Empty β → Prop} {st : Phase}
    {path : String} {init : Init} {authHeader : Option String} {f : BackendResult → Act β}
    (h : ∀ answer, ∃ st', proxying.next l st
        ⟨.fetch (backendRequest path init authHeader), .ok answer⟩ = some st' ∧
      Keeps proxying l post (f (backendResult answer)) st') :
    Keeps proxying l post (sendToBackend path init authHeader >>= f) st := by
  refine keeps_call.mpr fun r _ => ?_
  cases r with
  | ok answer => exact h answer
  | error e => exact e.elim

theorem keeps_sendRefreshed : Keeps proxying l
    (fun st out => ∃ response, out = .ok response ∧ Delivers l st response)
    (sendRefreshed l.path l.init session) (.holding session) := by
  refine keeps_sendToBackend fun answer => ⟨.answered _ answer (some session), if_pos rfl, ?_⟩
  exact keeps_ret.mpr ⟨_, rfl, if_pos rfl⟩

/-- What is known after `refreshSession`: there was no refresh token, or the answer says how
to go on. -/
def Refreshed (st : Phase) (refreshed : RefreshResult) (st' : Phase) (req : NextRequest) : Prop :=
  (truthy req.refreshToken = none ∧ st' = st ∧ refreshed.session = none) ∨
  (∃ session, refreshed.session = some session ∧ st' = .holding session) ∨
  (refreshed.session = none ∧ st' = .refused)

/-- A refresh keeps the protocol. -/
theorem keeps_refreshSession {st : Phase}
    (hnext : ∀ request answer, proxying.next l st ⟨.fetch request, .ok answer⟩
      = refreshing req request answer) :
    Keeps proxying l (fun st' out => ∃ refreshed, out = .ok refreshed ∧
      Refreshed st refreshed st' req) (refreshSession req) st := by
  unfold refreshSession
  split
  · next hnone => exact keeps_ret.mpr ⟨_, rfl, Or.inl ⟨hnone, rfl, rfl⟩⟩
  · next refreshToken hsome =>
    refine keeps_sendToBackend fun answer => ⟨.ofRefresh answer, ?_, keeps_ret.mpr ⟨_, rfl, ?_⟩⟩
    · rw [hnext]
      exact if_pos ⟨refreshToken, hsome, rfl⟩
    · right
      unfold Phase.ofRefresh
      rcases hs : (refreshResult (backendResult answer)).session with - | session
      · exact Or.inr ⟨rfl, rfl⟩
      · exact Or.inl ⟨session, rfl, rfl⟩

theorem next_asking_none {request : HttpRequest} {answer : Option HttpResponse}
    (h : resolveAuthHeader req = none) :
    proxying.next l (.asking req) ⟨.fetch request, .ok answer⟩ = refreshing req request answer := by
  simp only [proxying, h]

theorem next_asking_some {request : HttpRequest} {answer : Option HttpResponse}
    {authHeader : String} {st : Phase} (h : resolveAuthHeader req = some authHeader) :
    proxying.next l (.asking req) ⟨.fetch request, .ok answer⟩ = some st ↔
      request = backendRequest l.path l.init (some authHeader) ∧
        st = .ofAnswer req request answer := by
  simp only [proxying, h, Option.ite_none_right_eq_some, Option.some.injEq,
    @eq_comm _ (Phase.ofAnswer _ _ _)]

/-- Without a session there is nothing more to ask. -/
theorem delivers_of_refreshed {st st' : Phase} {refreshed : RefreshResult}
    (hst : st = .asking req ∨ st = .rejected req) (h : Refreshed st refreshed st' req)
    (hnone : refreshed.session = none) (response : NextResponse) : Delivers l st' response := by
  rcases h with ⟨hcookie, rfl, -⟩ | ⟨session, hsome, -⟩ | ⟨-, rfl⟩
  · rcases hst with rfl | rfl
    · exact if_pos hcookie
    · exact if_pos hcookie
  · rw [hnone] at hsome
    cases hsome
  · rfl

/-- `proxyBackend` from the moment it refreshes the session. -/
theorem keeps_afterRefresh {st st' : Phase} {refreshed : RefreshResult}
    (otherwise : NextResponse) (hst : st = .asking req ∨ st = .rejected req) (h : Refreshed st refreshed st' req) :
    Keeps proxying l (fun st out => ∃ response, out = .ok response ∧ Delivers l st response)
      (refreshed.session.elim (ret otherwise) (sendRefreshed l.path l.init)) st' := by
  rcases hsession : refreshed.session with - | session
  · exact keeps_ret.mpr ⟨_, rfl, delivers_of_refreshed hst h hsession otherwise⟩
  · rcases h with ⟨-, -, hnone⟩ | ⟨session', hsome, rfl⟩ | ⟨hnone, -⟩
    · rw [hsession] at hnone
      cases hnone
    · rw [hsession] at hsome
      cases hsome
      exact keeps_sendRefreshed
    · rw [hsession] at hnone
      cases hnone

/-- The proxy keeps the protocol. -/
theorem keeps_proxyBackend : Keeps proxying l
    (fun st out => ∃ response, out = .ok response ∧ Delivers l st response)
    (proxyBackend req l.path l.init) (.asking req) := by
  unfold proxyBackend
  split
  -- without a session the proxy refreshes first
  · next hheader =>
    refine keeps_bind (keeps_refreshSession fun request answer =>
      next_asking_none hheader) ?_ fun _ e => e.elim
    rintro st' refreshed ⟨_, hout, hrefreshed⟩
    cases hout
    have hkeeps := keeps_afterRefresh (l := l) (missingToken refreshed.clearCookies)
      (Or.inl rfl) hrefreshed
    cases hsession : refreshed.session with
    | none =>
        rw [hsession] at hkeeps
        exact hkeeps
    | some session =>
        rw [hsession] at hkeeps
        exact hkeeps
  -- with one it asks the backend, and refreshes only behind a 401
  · next authHeader hheader =>
    refine keeps_sendToBackend fun answer =>
      ⟨_, (next_asking_some hheader).mpr ⟨rfl, rfl⟩, ?_⟩
    unfold Phase.ofAnswer
    split
    · refine keeps_bind (keeps_refreshSession fun request answer => rfl) ?_
        fun _ e => e.elim
      rintro st' refreshed ⟨_, hout, hrefreshed⟩
      cases hout
      have hkeeps := keeps_afterRefresh (l := l)
        (toNextResponse (backendResult answer) (clearIf refreshed.clearCookies))
        (Or.inr rfl) hrefreshed
      cases hsession : refreshed.session with
      | none =>
          rw [hsession] at hkeeps
          exact hkeeps
      | some session =>
          rw [hsession] at hkeeps
          exact hkeeps
    · exact keeps_ret.mpr ⟨_, rfl, if_pos rfl⟩

/-- **Every request keeps the protocol.** -/
theorem keeps_body (l : Request) :
    Keeps proxying l (proxying.ends l) l.body (proxying.init l) := by
  refine keeps_perform_bind (fun req _ => ⟨.asking req, rfl, ?_⟩) fun e => e.elim
  refine keeps_bind keeps_proxyBackend ?_ fun _ e => e.elim
  rintro st response ⟨_, hout, hdelivers⟩
  cases hout
  refine keeps_call.mpr fun r _ => ?_
  cases r with
  | ok u => exact ⟨.closed, hdelivers, keeps_ret.mpr rfl⟩
  | error e => exact e.elim

/-! ### Tokens and headers -/

theorem bearerToken_bearer (token : String) :
    bearerToken (some ("Bearer " ++ token)) = some (trimSpace token) := by
  have hprefix : hasPrefix ("Bearer " ++ token) "Bearer " = true := by
    rw [hasPrefix, String.toList_append, List.isPrefixOf_iff_prefix]
    exact List.prefix_append _ _
  have hrest : ("Bearer " ++ token).toList.drop 7 = token.toList := by
    rw [String.toList_append]
    rfl
  simp only [bearerToken, hprefix, if_true, hrest, String.ofList_toList]

theorem accepts_mono {w w' : World} (h : ∀ token ∈ w.valid, token ∈ w'.valid)
    {authorization : Option String} (ha : w.accepts authorization = true) :
    w'.accepts authorization = true := by
  obtain ⟨token, htoken, hvalid⟩ := (Option.any_eq_true _ _).mp ha
  exact (Option.any_eq_true _ _).mpr ⟨token, htoken, decide_eq_true (h _ (of_decide_eq_true hvalid))⟩

theorem AcceptsCookie.mono {w w' : World} (h : ∀ token ∈ w.valid, token ∈ w'.valid)
    {cookie : Option String} (hc : w.AcceptsCookie cookie) : w'.AcceptsCookie cookie := by
  obtain ⟨accessToken, hcookie, hne, ha⟩ := hc
  exact ⟨accessToken, hcookie, hne, accepts_mono h ha⟩

/-- The header of a request that was sent without one is made of its cookie. -/
theorem authHeader_of_cookie {authHeader : String} (hnone : req.authorization = none)
    (h : resolveAuthHeader req = some authHeader) :
    ∃ accessToken, req.accessToken = some accessToken ∧ accessToken ≠ "" ∧
      authHeader = "Bearer " ++ accessToken := by
  rw [resolveAuthHeader, hnone] at h
  obtain ⟨accessToken, hcookie, rfl⟩ := Option.map_eq_some_iff.mp h
  obtain ⟨hsome, hne⟩ := Option.filter_eq_some_iff.mp hcookie
  exact ⟨accessToken, hsome, bne_iff_ne.mp hne, rfl⟩

theorem presented_refresh (refreshToken : String) :
    presented (backendRequest "/auth/refresh" (refreshInit refreshToken) none)
      = some (trimSpace refreshToken) := rfl

theorem presented_of_ne {request : HttpRequest} (h : request.target ≠ "/auth/refresh") :
    presented request = none := if_neg h

/-- A header that is turned away makes the proxy refresh. -/
theorem shouldAttemptRefresh_unauthorized (authorization : Option String) :
    shouldAttemptRefresh (backendResult (some (unauthorized authorization))) = true := by
  unfold unauthorized
  split <;> decide

/-! ### What a call of the backend comes to -/

section Calls

variable {w w' : World} {request : HttpRequest} {answer : Option HttpResponse}

/-- A call that is not a refresh: it is served, or its header is turned away. -/
theorem call_proxied (htarget : request.target ≠ "/auth/refresh") (hreached : answer.isSome = true)
    (h : Call (.fetch request) w (.ok answer) w') :
    (∃ response, answer = some response ∧ w.accepts request.authorization = true ∧
      w' = { w with served := (request, response) :: w.served }) ∨
    (w.accepts request.authorization = false ∧
      shouldAttemptRefresh (backendResult answer) = true ∧ w' = w) := by
  cases h with
  | exchange htoken =>
      rw [presented_of_ne htarget] at htoken
      cases htoken
  | refuse htoken =>
      rw [presented_of_ne htarget] at htoken
      cases htoken
  | serve response _ hvalid => exact Or.inl ⟨response, rfl, hvalid, rfl⟩
  | reject _ hvalid =>
      exact Or.inr ⟨hvalid, shouldAttemptRefresh_unauthorized _, rfl⟩
  | unreachable => cases hreached

/-- A refresh with a token that can be exchanged. -/
theorem call_refresh {refreshToken : String} (hreached : answer.isSome = true)
    (hlive : trimSpace refreshToken ∈ w.live)
    (h : Call (.fetch (backendRequest "/auth/refresh" (refreshInit refreshToken) none)) w
      (.ok answer) w') :
    ∃ session, w.Fresh session ∧ Phase.ofRefresh answer = .holding session ∧
      w' = w.exchange (trimSpace refreshToken) session := by
  cases h with
  | exchange htoken _ hpayload hfresh =>
      rw [presented_refresh] at htoken
      cases htoken
      refine ⟨_, hfresh, ?_, rfl⟩
      simp [Phase.ofRefresh, refreshResult, backendResult, Body.payload, hpayload]
  | refuse htoken hspent =>
      rw [presented_refresh] at htoken
      cases htoken
      exact absurd hlive hspent
  | serve response htarget => exact absurd rfl htarget
  | reject htarget => exact absurd rfl htarget
  | unreachable => cases hreached

end Calls

/-! ### What a step of the protocol comes to -/

section Next

variable {st st' : Phase} {request : HttpRequest} {answer : Option HttpResponse}

/-- A refresh is sent with the token of the request. -/
theorem refreshing_eq_some (h : refreshing req request answer = some st') :
    ∃ refreshToken, truthy req.refreshToken = some refreshToken ∧
      request = backendRequest "/auth/refresh" (refreshInit refreshToken) none ∧
      st' = .ofRefresh answer := by
  unfold refreshing at h
  split at h
  · next hcookie =>
    obtain ⟨refreshToken, hsome, hrequest⟩ := hcookie
    cases h
    exact ⟨refreshToken, hsome, hrequest, rfl⟩
  · cases h

theorem next_cookies (h : proxying.next l st ⟨.cookies, .ok req⟩ = some st') :
    st = .launched ∧ st' = .asking req := by
  cases st with
  | launched =>
      cases h
      exact ⟨rfl, rfl⟩
  | _ => cases h

/-- The three calls of the proxy: with the token it was sent, of the refresh endpoint, and
with the token it got. -/
theorem next_fetch (h : proxying.next l st ⟨.fetch request, .ok answer⟩ = some st') :
    (∃ req authHeader, st = .asking req ∧ resolveAuthHeader req = some authHeader ∧
      request = backendRequest l.path l.init (some authHeader) ∧
      st' = .ofAnswer req request answer) ∨
    (∃ req refreshToken, st.req = some req ∧ truthy req.refreshToken = some refreshToken ∧
      request = backendRequest "/auth/refresh" (refreshInit refreshToken) none ∧
      st' = .ofRefresh answer) ∨
    ∃ session, st = .holding session ∧
      request = backendRequest l.path l.init (some ("Bearer " ++ session.accessToken)) ∧
      st' = .answered request answer (some session) := by
  cases st with
  | asking req =>
      rcases hheader : resolveAuthHeader req with - | authHeader
      · rw [next_asking_none hheader] at h
        obtain ⟨refreshToken, hcookie, hrequest, hst⟩ := refreshing_eq_some h
        exact Or.inr (Or.inl ⟨req, refreshToken, rfl, hcookie, hrequest, hst⟩)
      · obtain ⟨hrequest, hst⟩ := (next_asking_some hheader).mp h
        exact Or.inl ⟨req, authHeader, rfl, hheader, hrequest, hst⟩
  | rejected req =>
      obtain ⟨refreshToken, hcookie, hrequest, hst⟩ := refreshing_eq_some h
      exact Or.inr (Or.inl ⟨req, refreshToken, rfl, hcookie, hrequest, hst⟩)
  | holding session =>
      refine Or.inr (Or.inr ⟨session, rfl, ?_⟩)
      by_cases hrequest : request
          = backendRequest l.path l.init (some ("Bearer " ++ session.accessToken))
      · have hsome := (if_pos hrequest).symm.trans h
        cases hsome
        exact ⟨hrequest, rfl⟩
      · have hnone := (if_neg hrequest).symm.trans h
        cases hnone
  | _ => cases h

/-- A response is delivered: an answer, or one without. -/
theorem next_deliver {response : NextResponse} {u : Unit}
    (h : proxying.next l st ⟨.deliver response, .ok u⟩ = some st') :
    st' = .closed ∧
      ((∃ request answer session, st = .answered request answer session ∧
        response = toNextResponse (backendResult answer) (sessionCookies session)) ∨
      (∃ req, st.req = some req ∧ truthy req.refreshToken = none) ∨ st = .refused) := by
  -- a response is due in four phases
  cases st with
  | asking req =>
      by_cases hcookie : truthy req.refreshToken = none
      · have hsome := (if_pos hcookie).symm.trans h
        cases hsome
        exact ⟨rfl, Or.inr (Or.inl ⟨req, rfl, hcookie⟩)⟩
      · have hnone := (if_neg hcookie).symm.trans h
        cases hnone
  | rejected req =>
      by_cases hcookie : truthy req.refreshToken = none
      · have hsome := (if_pos hcookie).symm.trans h
        cases hsome
        exact ⟨rfl, Or.inr (Or.inl ⟨req, rfl, hcookie⟩)⟩
      · have hnone := (if_neg hcookie).symm.trans h
        cases hnone
  | answered request answer session =>
      by_cases hresponse : response
          = toNextResponse (backendResult answer) (sessionCookies session)
      · have hsome := (if_pos hresponse).symm.trans h
        cases hsome
        exact ⟨rfl, Or.inl ⟨request, answer, session, rfl, hresponse⟩⟩
      · have hnone := (if_neg hresponse).symm.trans h
        cases hnone
  | refused =>
      cases h
      exact ⟨rfl, Or.inr (Or.inr rfl)⟩
  | _ => cases h

end Next

/-! ### Schedules -/

/-- How the backend is to answer. -/
inductive Choice
  | run
  | issue (accessToken refreshToken : String)
  | respond (status : ℕ)

/-- The payload of a new session. -/
def sessionJson (accessToken refreshToken : String) : Json :=
  .obj [("access_token", .str accessToken), ("refresh_token", .str refreshToken)]

theorem sessionPayload_sessionJson (accessToken refreshToken : String) :
    sessionPayload (sessionJson accessToken refreshToken)
      = some ⟨accessToken, refreshToken, false⟩ := rfl

/-- What a choice comes to, if it fits the call. -/
def World.choose : Choice → (op : Op) → World → Option (Except Empty op.Res × World)
  | .run, .cookies, w => some (.ok w.jar.request, w)
  | .run, .deliver response, w => some (.ok (), { w with jar := response.cookies.apply w.jar })
  | .run, .fetch request, w => match presented request with
    | some token =>
        if token ∈ w.live then none else some (.ok (some (invalidCredentials token)), w)
    | none => none
  | .issue accessToken refreshToken, .fetch request, w => match presented request with
    | some token =>
        if token ∈ w.live ∧ WellFormed accessToken ∧ WellFormed refreshToken ∧
            refreshToken ∉ w.drawn then
          some (.ok (some ⟨200, .json (sessionJson accessToken refreshToken)⟩),
            w.exchange token ⟨accessToken, refreshToken, false⟩)
        else none
    | none => none
  | .respond status, .fetch request, w =>
      if request.target ≠ "/auth/refresh" ∧ w.accepts request.authorization = true then
        some (.ok (some ⟨status, .json (.obj [])⟩),
          { w with served := (request, ⟨status, .json (.obj [])⟩) :: w.served })
      else none
  | _, _, _ => none

/-- What a choice does is one of the calls. -/
theorem World.choose_call {a : Choice} {op : Op} {w w' : World} {r : Except Empty op.Res}
    (h : World.choose a op w = some (r, w')) : Call op w r w' := by
  -- one case for each call of the machine
  unfold World.choose at h
  split at h
  · cases h
    exact .cookies _
  · cases h
    exact .deliver ..
  · split at h
    · next htoken =>
      split at h
      · cases h
      · next hspent =>
        cases h
        exact .refuse htoken hspent
    · cases h
  · split at h
    · next htoken =>
      split at h
      · next hok =>
        cases h
        exact .exchange htoken hok.1 (sessionPayload_sessionJson _ _)
          ⟨hok.2.1, hok.2.2.1, hok.2.2.2⟩
      · cases h
    · cases h
  · split at h
    · next hok =>
      cases h
      exact .serve _ hok.1 hok.2
    · cases h
  · cases h

/-- Schedules of requests. -/
def browserPlayer {C : BrowserPool → BrowserEvent → Prop} (test : BrowserPool → BrowserEvent → Bool)
    (hC : ∀ {p e}, test p e = true → C p e) : Player browser C Choice where
  serve := World.choose
  test := test
  serve_sem := World.choose_call
  cond_of_test := hC
  spawn _ _ := rfl
  close _ _ _ := rfl
  drop _ _ := rfl

/-- A test for `Unspent`. -/
def unspent (p : BrowserPool) : BrowserEvent → Bool
  | .call _ ⟨.fetch request, .ok answer⟩ =>
      answer.isSome && (presented request).all (· ∈ p.world.live)
  | .lose _ => false
  | _ => true

/-- What passes the test meets the condition. -/
theorem unspent_sound {p : BrowserPool} {e : BrowserEvent} (h : unspent p e = true) :
    Unspent p e := by
  unfold unspent at h
  split at h
  · obtain ⟨hreached, hlive⟩ := Bool.and_eq_true_iff.mp h
    refine ⟨hreached, fun token htoken => ?_⟩
    rw [htoken, Option.all_some, decide_eq_true_eq] at hlive
    exact hlive
  · cases h
  · next hcall hlose =>
    cases e with
    | call i a =>
        obtain ⟨op, r⟩ := a
        cases op with
        | fetch request =>
            cases r with
            | ok answer => exact absurd rfl (hcall i request answer)
            | error e => exact e.elim
        | _ => exact True.intro
    | lose i => exact absurd rfl (hlose i)
    | _ => exact True.intro

namespace Sample

/-- A request for the statistics. -/
def stats : Request where
  path := "/stats"
  init := ⟨"GET", none⟩
  proxied := by decide

/-- A browser whose access token has gone. -/
def returning : World where
  jar := ⟨none, some "refresh-1", none⟩
  live := ["refresh-1"]
  drawn := ["refresh-1"]
  valid := []
  served := []

theorem returning_starts : returning.Starts :=
  ⟨⟨"refresh-1", rfl, by decide, by decide⟩, fun _ h => h⟩

end Sample

end Iwifunni.Web
