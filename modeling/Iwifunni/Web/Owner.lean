/-
Iwifunni/Web/Owner.lean

The refresh token that can still be exchanged has one owner,

    the cookies of the browser  --exchange-->  a request on its way back
                                <--deliver---

as long as no request presents a token that is spent (`Unspent`).  Then every request
is answered by an authorised call, and the browser keeps its session (`session_kept`).
A request that presents a spent token is turned away, and takes the cookies of the
browser with it (`session_lost`).
-/
import Iwifunni.Web.Session

namespace Iwifunni.Web

open Go Effect Effect.Prog

variable {l : Request} {req : NextRequest} {session : SessionPayload}

/-! ### One owner -/

abbrev BrowserView : Type := View World Request Phase

/-- The request was sent with the cookies of the browser, at that time or earlier. -/
def SentOut (w : World) (req : NextRequest) : Prop :=
  req.authorization = none ∧ ∃ refreshToken, req.refreshToken = some refreshToken ∧
    refreshToken ≠ "" ∧ trimSpace refreshToken ∈ w.drawn

/-- A request that has an answer was authorised, and none was refused. -/
def SoundAt (w : World) (l : Request) : Phase → Prop
  | .asking req => SentOut w req
  | .rejected req => SentOut w req
  | .answered request answer _ => ∃ response authHeader, answer = some response ∧
      request = backendRequest l.path l.init (some authHeader) ∧ (request, response) ∈ w.served
  | .refused => False
  | _ => True

/-- The tokens the backend exchanges are among those it has drawn, the browser has a
refresh token, and all requests are sound. -/
structure Sound (v : BrowserView) : Prop where
  drawn : ∀ token ∈ v.world.live, token ∈ v.world.drawn
  jar : ∃ refreshToken, v.world.jar.refreshToken = some refreshToken ∧ refreshToken ≠ "" ∧
    trimSpace refreshToken ∈ v.world.drawn
  phase : ∀ i l st, v.phases i = some (l, st) → SoundAt v.world l st

/-- The token of the browser is the only live one among those that are about. -/
structure HomeAt (w : World) (token : String) (st : Phase) : Prop where
  session : st.session = none
  sent : ∀ req, st.req = some req →
    (∀ refreshToken, req.refreshToken = some refreshToken → trimSpace refreshToken ∈ w.live →
      trimSpace refreshToken = token) ∧
    (w.AcceptsCookie req.accessToken → w.AcceptsCookie w.jar.accessToken)
  answered : ∀ request answer, st = .answered request answer none →
    w.AcceptsCookie w.jar.accessToken

/-- The cookies of the browser hold the live token. -/
structure AtHome (delivered : Prop) (v : BrowserView) : Prop where
  token : ∃ refreshToken, v.world.jar.refreshToken = some refreshToken ∧
    trimSpace refreshToken ∈ v.world.live ∧
    ∀ i l st, v.phases i = some (l, st) → HomeAt v.world (trimSpace refreshToken) st
  access : delivered → v.world.AcceptsCookie v.world.jar.accessToken

/-- A session that the backend honours. -/
structure World.Issued (w : World) (session : SessionPayload) : Prop where
  access : WellFormed session.accessToken
  refresh : WellFormed session.refreshToken
  live : session.refreshToken ∈ w.live
  valid : w.accepts (some ("Bearer " ++ session.accessToken)) = true

/-- A request that has no live token. -/
def AwayAt (w : World) (st : Phase) : Prop :=
  st.session = none ∧ ∀ req, st.req = some req → ∀ refreshToken,
    req.refreshToken = some refreshToken → trimSpace refreshToken ∉ w.live

/-- A request is bringing the live token home. -/
structure OnTheWay (k : ℕ) (session : SessionPayload) (v : BrowserView) : Prop where
  owner : ∃ l st, v.phases k = some (l, st) ∧ st.session = some session
  issued : v.world.Issued session
  spent : ∀ refreshToken, v.world.jar.refreshToken = some refreshToken →
    trimSpace refreshToken ∉ v.world.live
  others : ∀ j l st, j ≠ k → v.phases j = some (l, st) → AwayAt v.world st

/-- The live token has one owner. -/
structure Owned (delivered : Prop) (v : BrowserView) : Prop where
  sound : Sound v
  owner : AtHome delivered v ∨ ∃ k session, OnTheWay k session v

section Owner

variable {w w' : World} {ph : ℕ → Option (Request × Phase)} {i k : ℕ}
  {x : Option (Request × Phase)} {delivered delivered' : Prop}

/-- At most the record of the served calls changes. -/
structure Quiet (w w' : World) : Prop where
  jar : w'.jar = w.jar
  live : w'.live = w.live
  drawn : w'.drawn = w.drawn
  valid : w'.valid = w.valid
  served : ∀ call ∈ w.served, call ∈ w'.served

theorem Quiet.refl (w : World) : Quiet w w := ⟨rfl, rfl, rfl, rfl, fun _ h => h⟩

theorem Quiet.accepts (h : Quiet w w') (authorization : Option String) :
    w'.accepts authorization = w.accepts authorization := by
  rw [World.accepts, World.accepts, h.valid]

theorem Quiet.acceptsCookie (h : Quiet w w') (cookie : Option String) :
    w'.AcceptsCookie cookie ↔ w.AcceptsCookie cookie := by
  simp only [World.AcceptsCookie, h.accepts]

/-- More drawn tokens and more served calls do no harm. -/
theorem SoundAt.mono {st : Phase} (hdrawn : ∀ token ∈ w.drawn, token ∈ w'.drawn)
    (hserved : ∀ call ∈ w.served, call ∈ w'.served) (h : SoundAt w l st) : SoundAt w' l st := by
  cases st with
  | asking req =>
      obtain ⟨hnone, refreshToken, hcookie, hne, hmem⟩ := h
      exact ⟨hnone, refreshToken, hcookie, hne, hdrawn _ hmem⟩
  | rejected req =>
      obtain ⟨hnone, refreshToken, hcookie, hne, hmem⟩ := h
      exact ⟨hnone, refreshToken, hcookie, hne, hdrawn _ hmem⟩
  | answered request answer session =>
      obtain ⟨response, authHeader, hanswer, hrequest, hmem⟩ := h
      exact ⟨response, authHeader, hanswer, hrequest, hserved _ hmem⟩
  | _ => exact h

theorem SoundAt.sentOut {st : Phase} (h : SoundAt w l st) (hreq : st.req = some req) :
    SentOut w req := by
  cases st with
  | asking req' =>
      cases hreq
      exact h
  | rejected req' =>
      cases hreq
      exact h
  | _ => cases hreq

theorem session_of_req {st : Phase} (hreq : st.req = some req) : st.session = none := by
  cases st with
  | asking => rfl
  | rejected => rfl
  | _ => cases hreq

/-- One request moves on, and tokens are only added. -/
theorem Sound.update (h : Sound ⟨w, ph⟩) (hlive : ∀ token ∈ w'.live, token ∈ w'.drawn)
    (hjar : ∃ refreshToken, w'.jar.refreshToken = some refreshToken ∧ refreshToken ≠ "" ∧
      trimSpace refreshToken ∈ w'.drawn)
    (hdrawn : ∀ token ∈ w.drawn, token ∈ w'.drawn) (hserved : ∀ call ∈ w.served, call ∈ w'.served)
    (hx : ∀ l st, x = some (l, st) → SoundAt w' l st) :
    Sound ⟨w', Function.update ph i x⟩ := by
  refine ⟨hlive, hjar, fun j l st hj => ?_⟩
  by_cases hji : j = i
  · subst hji
    exact hx l st ((Function.update_self j x ph).symm.trans hj)
  · have hold : ph j = some (l, st) := (Function.update_of_ne hji x ph).symm.trans hj
    exact (h.phase j l st hold).mono hdrawn hserved

/-- A step that leaves tokens and cookies alone. -/
theorem Sound.quiet (h : Sound ⟨w, ph⟩) (hq : Quiet w w')
    (hx : ∀ l st, x = some (l, st) → SoundAt w' l st) :
    Sound ⟨w', Function.update ph i x⟩ := by
  refine h.update ?_ ?_ ?_ hq.served hx
  · rw [hq.live, hq.drawn]
    exact h.drawn
  · rw [hq.jar, hq.drawn]
    exact h.jar
  · rw [hq.drawn]
    exact fun _ hmem => hmem

theorem HomeAt.quiet {token : String} {st : Phase} (hq : Quiet w w') (h : HomeAt w token st) :
    HomeAt w' token st := by
  obtain ⟨hsession, hsent, hanswered⟩ := h
  refine ⟨hsession, fun req hreq => ?_, fun request answer hst => ?_⟩
  · rw [hq.live, hq.jar, hq.acceptsCookie, hq.acceptsCookie]
    exact hsent req hreq
  · rw [hq.jar, hq.acceptsCookie]
    exact hanswered request answer hst

theorem AwayAt.quiet {st : Phase} (hq : Quiet w w') (h : AwayAt w st) : AwayAt w' st := by
  rw [AwayAt, hq.live]
  exact h

/-- The browser still has the token. -/
theorem AtHome.quiet (h : AtHome delivered ⟨w, ph⟩) (hq : Quiet w w')
    (hdelivered : delivered' → delivered ∨ w.AcceptsCookie w.jar.accessToken)
    (hx : ∀ l st, x = some (l, st) → ∀ refreshToken, w.jar.refreshToken = some refreshToken →
      trimSpace refreshToken ∈ w.live → HomeAt w (trimSpace refreshToken) st) :
    AtHome delivered' ⟨w', Function.update ph i x⟩ := by
  obtain ⟨⟨refreshToken, hjar, hlive, hphases⟩, haccess⟩ := h
  refine ⟨⟨refreshToken, ?_, ?_, fun j l st hj => ?_⟩, fun hd => ?_⟩
  · show w'.jar.refreshToken = _
    rw [hq.jar]
    exact hjar
  · show _ ∈ w'.live
    rw [hq.live]
    exact hlive
  · by_cases hji : j = i
    · subst hji
      exact (hx l st ((Function.update_self j x ph).symm.trans hj) refreshToken hjar hlive).quiet hq
    · exact (hphases j l st ((Function.update_of_ne hji x ph).symm.trans hj)).quiet hq
  · show w'.AcceptsCookie w'.jar.accessToken
    rw [hq.jar, hq.acceptsCookie]
    exact (hdelivered hd).elim haccess id

/-- The request that has the token still has it. -/
theorem OnTheWay.quiet {session : SessionPayload} (h : OnTheWay k session ⟨w, ph⟩)
    (hq : Quiet w w')
    (howner : i = k → ∃ l st, x = some (l, st) ∧ st.session = some session)
    (hother : i ≠ k → ∀ l st, x = some (l, st) → AwayAt w st) :
    OnTheWay k session ⟨w', Function.update ph i x⟩ := by
  obtain ⟨⟨l₀, st₀, hk, hst₀⟩, ⟨haccess, hrefresh, hlive, hvalid⟩, hspent, hothers⟩ := h
  refine ⟨?_, ⟨haccess, hrefresh, ?_, ?_⟩, fun refreshToken hjar => ?_, fun j l st hjk hj => ?_⟩
  · by_cases hik : i = k
    · obtain ⟨l, st, hx, hst⟩ := howner hik
      subst hik
      exact ⟨l, st, (Function.update_self i x ph).trans hx, hst⟩
    · exact ⟨l₀, st₀, (Function.update_of_ne (Ne.symm hik) x ph).trans hk, hst₀⟩
  · show _ ∈ w'.live
    rw [hq.live]
    exact hlive
  · show w'.accepts _ = true
    rw [hq.accepts]
    exact hvalid
  · show _ ∉ w'.live
    rw [hq.live]
    rw [show w'.jar = w.jar from hq.jar] at hjar
    exact hspent refreshToken hjar
  · by_cases hji : j = i
    · subst hji
      exact (hother hjk l st ((Function.update_self j x ph).symm.trans hj)).quiet hq
    · exact (hothers j l st hjk ((Function.update_of_ne hji x ph).symm.trans hj)).quiet hq

/-- **A move that leaves the token where it is.** -/
theorem Owned.quiet (h : Owned delivered ⟨w, ph⟩) (hq : Quiet w w')
    (hsound : ∀ l st, x = some (l, st) → SoundAt w' l st)
    (hhome : ∀ refreshToken, w.jar.refreshToken = some refreshToken →
      trimSpace refreshToken ∈ w.live →
      (∀ l st, ph i = some (l, st) → HomeAt w (trimSpace refreshToken) st) →
      (delivered' → delivered ∨ w.AcceptsCookie w.jar.accessToken) ∧
        ∀ l st, x = some (l, st) → HomeAt w (trimSpace refreshToken) st)
    (hkept : ∀ l st session, ph i = some (l, st) → st.session = some session →
      ∃ l' st', x = some (l', st') ∧ st'.session = some session)
    (haway : (∀ refreshToken, w.jar.refreshToken = some refreshToken →
      trimSpace refreshToken ∉ w.live) → (∀ l st, ph i = some (l, st) → AwayAt w st) →
      ∀ l st, x = some (l, st) → AwayAt w st) :
    Owned delivered' ⟨w', Function.update ph i x⟩ := by
  obtain ⟨hs, hhere | ⟨k, session, hway⟩⟩ := h
  · obtain ⟨refreshToken, hjar, hlive, hphases⟩ := hhere.token
    obtain ⟨hdelivered, hx⟩ := hhome refreshToken hjar hlive (hphases i)
    refine ⟨hs.quiet hq hsound, Or.inl (hhere.quiet hq hdelivered ?_)⟩
    intro l st hst refreshToken' hjar' _
    cases hjar.symm.trans hjar'
    exact hx l st hst
  · refine ⟨hs.quiet hq hsound, Or.inr ⟨k, session, hway.quiet hq ?_ ?_⟩⟩
    · rintro rfl
      obtain ⟨l, st, hi, hst⟩ := hway.owner
      exact hkept l st session hi hst
    · exact fun hik => haway hway.spent fun l st hi => hway.others i l st hik hi

/-- **The exchange.**  The token leaves the browser. -/
theorem Owned.exchange {st : Phase} {refreshToken : String} (h : Owned delivered ⟨w, ph⟩)
    (hi : ph i = some (l, st)) (hreq : st.req = some req)
    (hcookie : req.refreshToken = some refreshToken) (hlive : trimSpace refreshToken ∈ w.live)
    (hfresh : w.Fresh session) :
    Owned delivered' ⟨w.exchange (trimSpace refreshToken) session,
      Function.update ph i (some (l, .holding session))⟩ := by
  obtain ⟨hs, hhere | ⟨k, session', hway⟩⟩ := h
  · obtain ⟨token, hjar, hjarlive, hphases⟩ := hhere.token
    have htoken : trimSpace refreshToken = trimSpace token :=
      ((hphases i l st hi).sent req hreq).1 refreshToken hcookie hlive
    -- an old token is live after the exchange only if it is another one
    have hstill : ∀ t, trimSpace t ∈ w.drawn →
        trimSpace t ∈ (w.exchange (trimSpace refreshToken) session).live →
        trimSpace t ∈ w.live ∧ trimSpace t ≠ trimSpace token := by
      intro t hdrawn hmem
      rcases List.mem_cons.mp hmem with heq | hmem
      · rw [heq] at hdrawn
        exact absurd hdrawn hfresh.new
      · obtain ⟨hmem, hne⟩ := List.mem_filter.mp hmem
        rw [htoken] at hne
        exact ⟨hmem, bne_iff_ne.mp hne⟩
    refine ⟨hs.update ?_ ?_ (fun t ht => List.mem_cons_of_mem _ ht) (fun _ hc => hc) ?_,
      Or.inr ⟨i, session, ?_⟩⟩
    · intro t hmem
      rcases List.mem_cons.mp hmem with rfl | hmem
      · exact List.mem_cons_self ..
      · exact List.mem_cons_of_mem _ (hs.drawn t (List.mem_filter.mp hmem).1)
    · obtain ⟨t, ht, hne, hmem⟩ := hs.jar
      exact ⟨t, ht, hne, List.mem_cons_of_mem _ hmem⟩
    · intro l' st' hst
      cases hst
      exact True.intro
    · refine ⟨⟨l, _, Function.update_self .., rfl⟩, ⟨hfresh.access, hfresh.refresh,
        List.mem_cons_self .., ?_⟩, fun t hjar' => ?_, fun j l' st' hji hj => ?_⟩
      · refine (Option.any_eq_true _ _).mpr ⟨_, bearerToken_bearer _, decide_eq_true ?_⟩
        rw [hfresh.access.2]
        exact List.mem_cons_self ..
      · cases hjar.symm.trans hjar'
        exact fun hmem => (hstill token (hs.drawn _ hjarlive) hmem).2 rfl
      · have hold := hphases j l' st' ((Function.update_of_ne hji _ ph).symm.trans hj)
        refine ⟨hold.session, fun req' hreq' t hcookie' hmem => ?_⟩
        obtain ⟨-, t', ht', -, hdrawn⟩ :=
          (hs.phase j l' st' ((Function.update_of_ne hji _ ph).symm.trans hj)).sentOut hreq'
        cases hcookie'.symm.trans ht'
        obtain ⟨hmem', hne⟩ := hstill t hdrawn hmem
        exact hne ((hold.sent req' hreq').1 t hcookie' hmem')
  · -- nobody else has a live token
    by_cases hik : i = k
    · subst hik
      obtain ⟨l', st', hi', hst'⟩ := hway.owner
      cases hi.symm.trans hi'
      rw [session_of_req hreq] at hst'
      cases hst'
    · exact absurd hlive ((hway.others i l st hik hi).2 req hreq refreshToken hcookie)

/-- **The token comes home.** -/
theorem OnTheWay.deliver {answer : Option HttpResponse} {response : NextResponse} (hs : Sound ⟨w, ph⟩) (h : OnTheWay k session ⟨w, ph⟩)
    (hresponse : response = toNextResponse (backendResult answer) (.set session)) :
    Owned delivered' ⟨{ w with jar := response.cookies.apply w.jar },
      Function.update ph k (some (l, .closed))⟩ := by
  subst hresponse
  obtain ⟨⟨haccess, haccess'⟩, ⟨hrefresh, hrefresh'⟩, hlive, hvalid⟩ := h.issued
  have hjar : ((Cookies.set session).apply w.jar).refreshToken = some session.refreshToken :=
    if_neg hrefresh
  have hcookie : ((Cookies.set session).apply w.jar).accessToken = some session.accessToken :=
    if_neg haccess
  have haccepted : World.AcceptsCookie { w with jar := (Cookies.set session).apply w.jar }
      ((Cookies.set session).apply w.jar).accessToken :=
    ⟨session.accessToken, hcookie, haccess, hvalid⟩
  refine ⟨hs.update hs.drawn ⟨session.refreshToken, hjar, hrefresh, ?_⟩ (fun _ ht => ht)
    (fun _ hc => hc) ?_, Or.inl ⟨⟨session.refreshToken, hjar, ?_, fun j l' st' hj => ?_⟩,
    fun _ => haccepted⟩⟩
  · rw [hrefresh']
    exact hs.drawn _ hlive
  · intro l' st' hst
    cases hst
    exact True.intro
  · rw [hrefresh']
    exact hlive
  · by_cases hjk : j = k
    · subst hjk
      cases (Function.update_self j _ ph).symm.trans hj
      exact ⟨rfl, fun _ hreq => (by cases hreq), fun _ _ hst => (by cases hst)⟩
    · obtain ⟨hnone, hspent⟩ :=
        h.others j l' st' hjk ((Function.update_of_ne hjk _ ph).symm.trans hj)
      exact ⟨hnone, fun req hreq => ⟨fun t ht hmem => absurd hmem (hspent req hreq t ht),
        fun _ => haccepted⟩, fun _ _ _ => haccepted⟩

end Owner

/-! ### Runs -/

theorem truthy_eq_some {s : Option String} {t : String} (h : truthy s = some t) :
    s = some t ∧ t ≠ "" := by
  obtain ⟨hsome, hne⟩ := Option.filter_eq_some_iff.mp h
  exact ⟨hsome, bne_iff_ne.mp hne⟩

theorem truthy_ne_none {s : Option String} {t : String} (hs : s = some t) (ht : t ≠ "") :
    truthy s ≠ none := by
  rw [truthy, hs, Option.filter_some, if_pos (bne_iff_ne.mpr ht)]
  exact Option.some_ne_none t

/-- Phases in which a request has no token. -/
def Phase.Plain (st : Phase) : Prop :=
  st.req = none ∧ st.session = none ∧ ∀ request answer, st ≠ .answered request answer none

theorem plain_launched : Phase.launched.Plain :=
  ⟨rfl, rfl, fun _ _ h => by cases h⟩

theorem plain_closed : Phase.closed.Plain :=
  ⟨rfl, rfl, fun _ _ h => by cases h⟩

section Moves

variable {w w' : World} {ph : ℕ → Option (Request × Phase)} {i : ℕ} {st st' : Phase}
  {delivered delivered' : Prop} {request : HttpRequest} {answer : Option HttpResponse}

theorem Phase.Plain.homeAt (h : st.Plain) (w : World) (token : String) : HomeAt w token st := by
  refine ⟨h.2.1, fun req hreq => ?_, fun request answer hst => absurd hst (h.2.2 request answer)⟩
  rw [h.1] at hreq
  cases hreq

theorem Phase.Plain.awayAt (h : st.Plain) (w : World) : AwayAt w st := by
  refine ⟨h.2.1, fun req hreq => ?_⟩
  rw [h.1] at hreq
  cases hreq

/-- A request moves on with the tokens it has. -/
theorem Owned.advance (h : Owned delivered ⟨w, ph⟩) (hi : ph i = some (l, st)) (hq : Quiet w w')
    (hsound : SoundAt w' l st') (hsession : st'.session = st.session)
    (hhome : ∀ token, HomeAt w token st → HomeAt w token st')
    (haway : AwayAt w st → AwayAt w st') :
    Owned delivered ⟨w', Function.update ph i (some (l, st'))⟩ := by
  refine h.quiet hq ?_ (fun t _ _ hold => ⟨Or.inl, ?_⟩) (fun l' st₀ session hi' hst => ?_)
    fun _ hold => ?_
  · intro l' st₀ hst
    cases hst
    exact hsound
  · intro l' st₀ hst
    cases hst
    exact hhome _ (hold l st hi)
  · cases hi.symm.trans hi'
    exact ⟨l, st', rfl, hsession.trans hst⟩
  · intro l' st₀ hst
    cases hst
    exact haway (hold l st hi)

/-- The request goes out with the cookies of the browser. -/
theorem Owned.cookies (h : Owned delivered ⟨w, ph⟩) (hi : ph i = some (l, .launched)) :
    Owned delivered ⟨w, Function.update ph i (some (l, .asking w.jar.request))⟩ := by
  refine h.quiet (.refl w) ?_ (fun t hjar _ _ => ⟨Or.inl, ?_⟩) (fun l' st₀ session hi' hst => ?_)
    fun hspent _ => ?_
  · intro l' st₀ hst
    cases hst
    exact ⟨rfl, h.sound.jar⟩
  · intro l' st₀ hst
    cases hst
    refine ⟨rfl, fun req hreq => ?_, fun _ _ hst => by cases hst⟩
    cases hreq
    refine ⟨fun t' hcookie _ => ?_, id⟩
    cases hjar.symm.trans hcookie
    rfl
  · cases hi.symm.trans hi'
    cases hst
  · intro l' st₀ hst
    cases hst
    refine ⟨rfl, fun req hreq t hcookie => ?_⟩
    cases hreq
    exact hspent t hcookie

/-- The call with the token the request was sent with. -/
theorem Owned.firstCall {authHeader : String} (h : Owned delivered ⟨w, ph⟩)
    (hi : ph i = some (l, .asking req)) (hheader : resolveAuthHeader req = some authHeader)
    (hrequest : request = backendRequest l.path l.init (some authHeader))
    (hreached : answer.isSome = true) (hcall : Call (.fetch request) w (.ok answer) w') :
    Owned delivered ⟨w', Function.update ph i (some (l, .ofAnswer req request answer))⟩ := by
  have hsent : SentOut w req := h.sound.phase i l _ hi
  obtain ⟨accessToken, hcookie, hne, rfl⟩ := authHeader_of_cookie hsent.1 hheader
  have htarget : request.target ≠ "/auth/refresh" := by
    rw [hrequest]
    exact l.proxied
  rcases call_proxied htarget hreached hcall with
    ⟨response, rfl, hvalid, rfl⟩ | ⟨-, hrejected, rfl⟩
  · have hq : Quiet w { w with served := (request, response) :: w.served } :=
      ⟨rfl, rfl, rfl, rfl, fun _ hmem => List.mem_cons_of_mem _ hmem⟩
    have haccepted : w.AcceptsCookie req.accessToken := by
      refine ⟨accessToken, hcookie, hne, ?_⟩
      rw [hrequest] at hvalid
      exact hvalid
    unfold Phase.ofAnswer
    split
    · exact h.advance hi hq hsent rfl (fun token hold => ⟨rfl, hold.sent, fun _ _ hst => by cases hst⟩)
        fun hold => ⟨rfl, hold.2⟩
    · refine h.advance hi hq ?_ rfl (fun token hold => ?_) fun hold => ?_
      · exact ⟨response, _, rfl, hrequest, List.mem_cons_self ..⟩
      · refine ⟨rfl, fun _ hreq => (by cases hreq), fun _ _ _ => ?_⟩
        exact (hold.sent req rfl).2 haccepted
      · exact ⟨rfl, fun _ hreq => by cases hreq⟩
  · rw [Phase.ofAnswer, if_pos hrejected]
    exact h.advance hi (.refl _) hsent rfl
      (fun token hold => ⟨rfl, hold.sent, fun _ _ hst => by cases hst⟩) fun hold => ⟨rfl, hold.2⟩

/-- The call with the token the request has got. -/
theorem Owned.secondCall (h : Owned delivered ⟨w, ph⟩) (hi : ph i = some (l, .holding session))
    (hrequest : request = backendRequest l.path l.init (some ("Bearer " ++ session.accessToken)))
    (hreached : answer.isSome = true) (hcall : Call (.fetch request) w (.ok answer) w') :
    Owned delivered
      ⟨w', Function.update ph i (some (l, .answered request answer (some session)))⟩ := by
  have htarget : request.target ≠ "/auth/refresh" := by
    rw [hrequest]
    exact l.proxied
  -- the request is the owner, and its access token is accepted
  have hvalid : w.accepts request.authorization = true := by
    rw [hrequest]
    rcases h.owner with hhere | ⟨k, session', hway⟩
    · obtain ⟨t, -, -, hphases⟩ := hhere.token
      cases (hphases i l _ hi).session
    · by_cases hik : i = k
      · subst hik
        obtain ⟨l', st', hi', hst'⟩ := hway.owner
        cases hi.symm.trans hi'
        cases hst'
        exact hway.issued.valid
      · cases (hway.others i l _ hik hi).1
  rcases call_proxied htarget hreached hcall with
    ⟨response, rfl, -, rfl⟩ | ⟨hinvalid, -, -⟩
  · refine h.advance hi ⟨rfl, rfl, rfl, rfl, fun _ hmem => List.mem_cons_of_mem _ hmem⟩ ?_ rfl
      (fun token hold => by cases hold.session) fun hold => by cases hold.1
    exact ⟨response, _, rfl, hrequest, List.mem_cons_self ..⟩
  · rw [hvalid] at hinvalid
    cases hinvalid

/-- The refresh. -/
theorem Owned.refresh {refreshToken : String} (h : Owned delivered ⟨w, ph⟩)
    (hi : ph i = some (l, st)) (hreq : st.req = some req)
    (hcookie : truthy req.refreshToken = some refreshToken)
    (hrequest : request = backendRequest "/auth/refresh" (refreshInit refreshToken) none)
    (hreached : answer.isSome = true)
    (hunspent : ∀ token, presented request = some token → token ∈ w.live)
    (hcall : Call (.fetch request) w (.ok answer) w') :
    Owned delivered ⟨w', Function.update ph i (some (l, .ofRefresh answer))⟩ := by
  subst hrequest
  have hlive := hunspent _ (presented_refresh refreshToken)
  obtain ⟨session, hfresh, hst, rfl⟩ := call_refresh hreached hlive hcall
  rw [hst]
  exact h.exchange hi hreq (truthy_eq_some hcookie).1 hlive hfresh

/-- A request that has no answer is not over. -/
theorem Owned.not_done (h : Owned delivered ⟨w, ph⟩) (hi : ph i = some (l, st)) :
    (∀ req, st.req = some req → truthy req.refreshToken ≠ none) ∧ st ≠ .refused := by
  refine ⟨fun req hreq => ?_, fun hrefused => ?_⟩
  · obtain ⟨-, t, hcookie, hne, -⟩ := (h.sound.phase i l st hi).sentOut hreq
    exact truthy_ne_none hcookie hne
  · subst hrefused
    exact h.sound.phase i l _ hi

/-- The response reaches the browser. -/
theorem Owned.deliver {session : Option SessionPayload} {response : NextResponse}
    (h : Owned delivered ⟨w, ph⟩) (hi : ph i = some (l, .answered request answer session))
    (hresponse : response = toNextResponse (backendResult answer) (sessionCookies session)) :
    Owned delivered' ⟨{ w with jar := response.cookies.apply w.jar },
      Function.update ph i (some (l, .closed))⟩ := by
  cases session with
  | some session =>
      rcases h.owner with hhere | ⟨k, session', hway⟩
      · obtain ⟨t, -, -, hphases⟩ := hhere.token
        cases (hphases i l _ hi).session
      · by_cases hik : i = k
        · subst hik
          obtain ⟨l', st', hi', hst'⟩ := hway.owner
          cases hi.symm.trans hi'
          cases hst'
          exact hway.deliver h.sound hresponse
        · cases (hway.others i l _ hik hi).1
  | none =>
      -- the cookies stay as they are, and they are good
      rw [show ({ w with jar := response.cookies.apply w.jar } : World) = w by rw [hresponse]; rfl]
      refine h.quiet (.refl w) ?_ (fun t _ _ hold => ⟨fun _ => Or.inr ?_, ?_⟩)
        (fun l' st₀ session hi' hst => ?_) fun _ _ => ?_
      · intro l' st₀ hst
        cases hst
        exact True.intro
      · exact (hold l _ hi).answered request answer rfl
      · intro l' st₀ hst
        cases hst
        exact plain_closed.homeAt w _
      · cases hi.symm.trans hi'
        cases hst
      · intro l' st₀ hst
        cases hst
        exact plain_closed.awayAt w

/-- A request is taken up, or closed. -/
theorem Owned.turn {x : Option (Request × Phase)} (h : Owned delivered ⟨w, ph⟩)
    (hold : ∀ l st session, ph i = some (l, st) → st.session ≠ some session)
    (hx : ∀ l st, x = some (l, st) → st = .launched) :
    Owned delivered ⟨w, Function.update ph i x⟩ := by
  refine h.quiet (.refl w) (fun l st hst => ?_) (fun t _ _ _ => ⟨Or.inl, fun l st hst => ?_⟩)
    (fun l st session hi hst => absurd hst (hold l st session hi)) fun _ _ l st hst => ?_
  · rw [hx l st hst]
    exact True.intro
  · rw [hx l st hst]
    exact plain_launched.homeAt w _
  · rw [hx l st hst]
    exact plain_launched.awayAt w

theorem Owned.mono (h : Owned delivered ⟨w, ph⟩) (hd : delivered' → delivered) :
    Owned delivered' ⟨w, ph⟩ :=
  ⟨h.sound, h.owner.imp_left fun hhere => ⟨hhere.token, fun hd' => hhere.access (hd hd')⟩⟩

end Moves

/-- The delivery of a response, as a step of the protocol. -/
theorem delivered_answer {w : World} {ph : ℕ → Option (Request × Phase)} {i : ℕ}
    {st st' : Phase} {delivered : Prop} {response : NextResponse} {u : Unit}
    (h : Owned delivered ⟨w, ph⟩) (hi : ph i = some (l, st))
    (hnext : proxying.next l st ⟨.deliver response, .ok u⟩ = some st') :
    st' = .closed ∧ ∃ request answer session, st = .answered request answer session ∧
      response = toNextResponse (backendResult answer) (sessionCookies session) := by
  obtain ⟨hclosed, hanswered | ⟨req, hreq, hcookie⟩ | hrefused⟩ := next_deliver hnext
  · exact ⟨hclosed, hanswered⟩
  · exact absurd hcookie ((h.not_done hi).1 req hreq)
  · exact absurd hrefused (h.not_done hi).2

/-- **One step.**  As long as no token is presented twice, the live token has one owner. -/
theorem Owned.step {p : BrowserPool} {e : BrowserEvent} {v' : BrowserView}
    {delivered delivered' : Prop} (h : Owned delivered (proxying.view p)) (hc : Unspent p e)
    (hd : delivered' → delivered ∨ IsDelivery e)
    (hs : proxying.ViewStep browser (proxying.view p) e v') : Owned delivered' v' := by
  rcases hv : proxying.view p with ⟨w, ph⟩
  have hw : p.world = w := congrArg View.world hv
  rw [hv] at h hs
  cases hs with
  | start hi hspawn =>
      -- a turn that starts holds no session of its own
      cases hspawn
      refine (h.turn (fun l st session hi' => ?_) fun l st hst => ?_).mono fun hd' =>
        (hd hd').resolve_right id
      · cases hi.symm.trans hi'
      · cases hst
        rfl
  | @call _ w' _ i l st st' op r hi hnext hcall =>
      cases op with
      | cookies =>
          cases hcall
          obtain ⟨rfl, rfl⟩ := next_cookies hnext
          exact (h.cookies hi).mono fun hd' => (hd hd').resolve_right id
      | deliver response =>
          cases hcall
          -- the browser takes over what the proxy answers
          obtain ⟨rfl, request, answer, session, rfl, hresponse⟩ := delivered_answer h hi hnext
          exact h.deliver hi hresponse
      | fetch request =>
          rcases r with e | answer
          · exact e.elim
          have hd : delivered' → delivered := fun hd' => (hd hd').resolve_right id
          -- a call to the backend: with the access token, to refresh, or again
          obtain ⟨hreached, hunspent⟩ := hc
          rw [hw] at hunspent
          rcases next_fetch hnext with ⟨req, authHeader, rfl, hheader, hrequest, rfl⟩ |
            ⟨req, refreshToken, hreq, hcookie, hrequest, rfl⟩ | ⟨session, rfl, hrequest, rfl⟩
          · exact (h.firstCall hi hheader hrequest hreached hcall).mono hd
          · exact (h.refresh hi hreq hcookie hrequest hreached hunspent hcall).mono hd
          · exact (h.secondCall hi hrequest hreached hcall).mono hd
  | @finish _ w' _ i l st out hi hends hclose =>
      cases hclose
      -- only a turn that has answered ends
      have hclosed : st = .closed := hends
      subst hclosed
      refine (h.turn (fun l' st session hi' hst => ?_) fun l st hst => ?_).mono fun hd' =>
        (hd hd').resolve_right id
      · cases hi.symm.trans hi'
        cases hst
      · cases hst
  | lose => exact hc.elim
  | @env _ _ _ ev => exact ev.elim

theorem owned_of_starts {w : World} (h : w.Starts) : Owned False ⟨w, fun _ => none⟩ := by
  obtain ⟨t, hjar, hne, hlive⟩ := h.refresh
  refine ⟨⟨h.drawn, ⟨t, hjar, hne, h.drawn _ hlive⟩, fun i l st hi => by cases hi⟩,
    Or.inl ⟨⟨t, hjar, hlive, fun i l st hi => by cases hi⟩, False.elim⟩⟩

/-- **The live token has one owner throughout.** -/
theorem owned_of_run {w : World} {evs : List BrowserEvent} {p : BrowserPool} (h : w.Starts)
    (hrun : Run browser Unspent (idle w) evs p) :
    proxying.Kept p ∧ Owned (∃ e ∈ evs, IsDelivery e) (proxying.view p) := by
  refine hrun.view_invariant
    (I := fun evs v => Owned (∃ e ∈ evs, IsDelivery e) v) keeps_body
    (fun _ _ _ _ _ _ _ _ _ _ _ _ _ _ => True.intro) ?_
    (Protocol.kept_of_idle fun _ => rfl) ?_
  · intro evs p e v' _ hI hc hs
    refine hI.step hc ?_ hs
    rintro ⟨e', he', hdelivery⟩
    rcases List.mem_append.mp he' with hold | hnew
    · exact Or.inl ⟨e', hold, hdelivery⟩
    · rw [List.mem_singleton.mp hnew] at hdelivery
      exact Or.inr hdelivery
  · refine (owned_of_starts h).mono ?_
    rintro ⟨e, he, -⟩
    cases he

/-- **Requests that do not present spent tokens keep the session.**  A browser has a refresh
token that can be exchanged, and any number of requests under way.  As long as no request
presents a token that was exchanged for another one, every request is answered by a properly
authorised call, and when all are answered the cookies are good. -/
theorem session_kept {w : World} (h : w.Starts) : SessionKept Unspent w := by
  refine ⟨fun {evs p e p'} hrun hc hs i response r he => ?_, fun {evs p} hrun hdelivered hnone => ?_⟩
  · obtain ⟨hk, hI⟩ := owned_of_run h hrun
    subst he
    obtain ⟨hview, -⟩ := Protocol.view_step keeps_body hk hs fun _ _ _ _ _ _ => True.intro
    cases r with
    | error e => exact e.elim
    | ok u =>
        rcases hv : proxying.view p with ⟨w', ph⟩
        rw [hv] at hI hview
        generalize proxying.view p' = v' at hview
        cases hview with
        | call hi hnext _ =>
            obtain ⟨-, request, answer, session, rfl, rfl⟩ := delivered_answer hI hi hnext
            obtain ⟨_, authHeader, rfl, rfl, hserved⟩ := hI.sound.phase i _ _ hi
            have hphases : (proxying.view p).phases = ph := congrArg View.phases hv
            rw [← hphases] at hi
            obtain ⟨t, ht, rfl, -⟩ := hk.thread_of_view hi
            have hw : p.world = w' := congrArg View.world hv
            refine ⟨t, ht, authHeader, _, _, ?_, rfl⟩
            rw [hw]
            exact hserved
  · obtain ⟨hk, hI⟩ := owned_of_run h hrun
    -- the live token is in the jar, since nobody is on the way with it
    rcases hI.owner with hhere | ⟨k, session, hway⟩
    · obtain ⟨t, hjar, hlive, -⟩ := hhere.token
      obtain ⟨t', hjar', hne, -⟩ := hI.sound.jar
      cases hjar.symm.trans hjar'
      exact ⟨hhere.access hdelivered, t, hjar, hne, hlive⟩
    · obtain ⟨l, st, hk', -⟩ := hway.owner
      rw [hk.view_none_iff.mpr (hnone k)] at hk'
      cases hk'

/-! ### Sample runs -/

/-- The status of the response an event delivers. -/
def deliveredStatus : BrowserEvent → Option ℕ
  | .call _ ⟨.deliver response, .ok _⟩ => some response.status
  | _ => none

theorem delivery_of_status {e : BrowserEvent} {status : ℕ} (h : deliveredStatus e = some status) :
    ∃ i response, e = .call i ⟨.deliver response, .ok ()⟩ ∧ response.status = status := by
  unfold deliveredStatus at h
  split at h
  · next i response u =>
    cases h
    exact ⟨i, response, rfl, rfl⟩
  · cases h

/-- Two requests under way: the second one takes the cookies the first one has brought, and
is answered by an authorised call. -/
theorem session_kept_twoRequests :
    ∃ evs p e p' i response t, Run browser Unspent (idle Sample.returning) evs p ∧
      Step browser p e p' ∧ e = .call i ⟨.deliver response, .ok ()⟩ ∧ response.status = 200 ∧
      p.threads i = some t ∧ Authorised p.world t.label response := by
  obtain ⟨evs, p, e, p', hrun, hc, hs, hcheck⟩ := Player.step_of_check
    (p := browserPlayer (C := Unspent) unspent unspent_sound)
    ([.start 0 Sample.stats, .start 1 Sample.stats] ++
      Turn.calls 0 [.run, .issue "access-2" "refresh-2", .respond 200, .run] ++
      Turn.calls 1 [.run, .respond 200])
    (.call 1 .run) (idle Sample.returning)
    (fun _ e _ => deliveredStatus e == some 200) (by decide +kernel)
  obtain ⟨i, response, rfl, hstatus⟩ := delivery_of_status (beq_iff_eq.mp hcheck)
  obtain ⟨t, ht, hanswer⟩ :=
    (session_kept Sample.returning_starts).answered hrun hc hs i response _ rfl
  exact ⟨evs, p, _, p', i, response, t, hrun, hs, rfl, hstatus, ht, hanswer⟩

/-- Two requests present the same token.  The second one is turned away, and clears the
cookies the first one has brought. -/
theorem session_lost :
    (∃ evs p e p', Run browser (fun _ _ => True) (idle Sample.returning) evs p ∧
      Step browser p e p' ∧ deliveredStatus e = some 401 ∧ p.world.jar.refreshToken = some "refresh-2" ∧
      p'.world.jar.refreshToken = none) ∧
    ¬ SessionKept (fun _ _ => True) Sample.returning := by
  obtain ⟨evs, p, e, p', hrun, -, hs, hcheck⟩ := Player.step_of_check
    (p := browserPlayer (C := fun _ _ => True) (fun _ _ => true) fun _ => True.intro)
    ([.start 0 Sample.stats, .start 1 Sample.stats, .call 0 .run, .call 1 .run,
      .call 0 (.issue "access-2" "refresh-2"), .call 1 .run, .call 0 (.respond 200),
      .call 0 .run])
    (.call 1 .run) (idle Sample.returning)
    (fun p e p' => deliveredStatus e == some 401 &&
      p.world.jar.refreshToken == some "refresh-2" && p'.world.jar.refreshToken == none &&
      p.world.served.all fun call => call.2.status == 200) (by decide +kernel)
  simp only [Bool.and_eq_true, beq_iff_eq] at hcheck
  obtain ⟨⟨⟨hstatus, hbefore⟩, hafter⟩, hserved⟩ := hcheck
  refine ⟨⟨evs, p, e, p', hrun, hs, hstatus, hbefore, hafter⟩, fun hkept => ?_⟩
  obtain ⟨i, response, he, h401⟩ := delivery_of_status hstatus
  obtain ⟨t, -, authHeader, answer, cookies, hmem, rfl⟩ :=
    hkept.answered hrun True.intro hs i response _ he
  have h200 := beq_iff_eq.mp (List.all_eq_true.mp hserved _ hmem)
  have hresult : (backendResult (some answer)).status = 200 := by
    rw [backendResult, if_neg (by rw [h200]; decide)]
    exact h200
  have hstatus' : (toNextResponse (backendResult (some answer)) cookies).status = 200 := hresult
  rw [h401] at hstatus'
  cases hstatus'

end Iwifunni.Web
