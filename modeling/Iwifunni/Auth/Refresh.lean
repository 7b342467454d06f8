/-
Iwifunni/Auth/Refresh.lean

A refresh token under concurrent requests.

`Refresh` looks the token up, checks it, deletes it, sees to the tenant and
stores a new token, one call after the other:

    lookup ... delete ............ store
              |-- exchanging ------|

The delete does not say whether there was anything to delete, and nothing is
taken back when a later call fails.  A token with hash `h` is exchanged at most
once, never after a logout, and never lost (`exchanged_once`), if

* a refresh that deletes the token still finds it,
* a refresh that is exchanging the token does not fail any more, and
* a logout does not delete the token while a refresh is exchanging it.

Otherwise each of the three can go wrong; `exchanged_twice` is a run of two
refreshes.
-/
import Iwifunni.Auth.Footprint

namespace Iwifunni.Auth

open Go Db Effect Effect.Prog

/-! ### What a request has done with tokens -/

/-- The hash of the token a request presents. -/
def Request.presented (s : Service) : Request → Option String
  | .refresh refreshToken => some (s.hashToken (trimSpace refreshToken))
  | .logout refreshToken => some (s.hashToken (trimSpace refreshToken))
  | _ => none

def Request.isRefresh : Request → Bool
  | .refresh _ => true
  | _ => false

def Request.isLogout : Request → Bool
  | .logout _ => true
  | _ => false

/-- The calls of a request that concern tokens. -/
structure Progress where
  /-- A token was deleted. -/
  spent : Bool := false
  /-- The token drawn last. -/
  fresh : Option String := none
  /-- A token was stored. -/
  issued : Bool := false
  /-- A call failed, other than by finding no row. -/
  failed : Bool := false

/-- One more call. -/
def Progress.after (st : Progress) : Answered Op.Res GoError → Progress
  | ⟨.deleteRefreshTokenByHash _, .ok _⟩ => { st with spent := true }
  | ⟨.drawRefreshToken, .ok raw⟩ => { st with fresh := some raw }
  | ⟨.createRefreshToken _, .ok _⟩ => { st with issued := true }
  | ⟨_, .error .noRows⟩ => st
  | ⟨_, .error _⟩ => { st with failed := true }
  | _ => st

/-- The progress of a request, by the calls it has made. -/
def progress (log : List (Answered Op.Res GoError)) : Progress := log.foldl Progress.after {}

/-- The request has deleted its token and not stored another one yet. -/
def Progress.exchanging (st : Progress) : Bool := st.spent && !st.issued

/-! ### The calls of the requests -/

/-- A lookup of one row. -/
def Op.isLookup : Op → Bool
  | getUserByEmail _ | getUserByID _ | getEmailVerificationByUserID _
  | getFirstOrganizationMembershipByUser _ | getDefaultEnvironmentByOrganization _
  | getAuthIdentityByProviderUserID _ _ | getRefreshTokenByHash _ => true
  | _ => false

/-- Tokens are deleted by the requests that present them, once; a token is stored after it
was drawn, and by a refresh only after its own was deleted. -/
def Progress.allows (s : Service) (l : Request) (st : Progress) :
    Answered Op.Res GoError → Bool
  | ⟨.deleteRefreshTokenByHash h, _⟩ =>
      l.presented s == some h && !st.spent && !st.issued && !st.failed
  | ⟨.createRefreshToken arg, _⟩ =>
      st.fresh.map s.hashToken == some arg.tokenHash && (!l.isRefresh || st.spent) && !st.issued
  | _ => true

/-- The protocol of the requests, as far as tokens are concerned. -/
def tokens (s : Service) : Protocol Request Op.Res GoError Reply Progress where
  init _ := {}
  expects _ _ a := (∀ h t, a = ⟨.getRefreshTokenByHash h, .ok t⟩ → t.tokenHash = h) ∧
    (a.2 = .error .noRows → a.1.isLookup = true)
  next l st a := if st.allows s l a then some (st.after a) else none
  ends l st out := (l.isRefresh = true → (out.isOk = true → st.issued = true) ∧
      (out.isOk = false → st.spent = true → st.failed = true)) ∧
    (l.isLogout = true → out.isOk = true → st.spent = true)

/-- A call that has nothing to do with tokens. -/
def Op.plain : Op → Bool
  | deleteRefreshTokenByHash _ | drawRefreshToken | createRefreshToken _ => false
  | _ => true

/-- The progress apart from failures. -/
def Progress.Same (st st' : Progress) : Prop :=
  st'.spent = st.spent ∧ st'.fresh = st.fresh ∧ st'.issued = st.issued

section Keeps

variable {s : Service} {l : Request} {st : Progress}

/-- A plain call leaves the progress, apart from failures. -/
theorem after_plain {op : Op} (hop : op.plain = true) (r : Except GoError op.Res) :
    st.Same (st.after ⟨op, r⟩) := by
  unfold Progress.after
  split
  · next h =>
      cases h
      cases hop
  · next h =>
      cases h
      cases hop
  · next h =>
      cases h
      cases hop
  · exact ⟨rfl, rfl, rfl⟩
  · exact ⟨rfl, rfl, rfl⟩
  · exact ⟨rfl, rfl, rfl⟩

/-- Plain calls are always allowed. -/
theorem next_plain {op : Op} (hop : op.plain = true) (r : Except GoError op.Res) :
    (tokens s).next l st ⟨op, r⟩ = some (st.after ⟨op, r⟩) := by
  show (if _ then _ else _) = _
  rw [if_pos]
  unfold Progress.allows
  split
  · next h =>
      cases h
      cases hop
  · next h =>
      cases h
      cases hop
  · rfl

/-- Any error but a missing row is a failure. -/
theorem after_error {op : Op} {e : GoError} (he : e ≠ .noRows) :
    st.after ⟨op, .error e⟩ = { st with failed := true } := by
  unfold Progress.after
  split
  · next h => cases h
  · next h => cases h
  · next h => cases h
  · next h => cases h; exact absurd rfl he
  · rfl
  · next h₁ h₂ => exact absurd rfl (h₂ op e)

/-- A plain call that succeeds changes nothing of the progress. -/
theorem after_ok {op : Op} (hop : op.plain = true) (a : op.Res) : st.after ⟨op, .ok a⟩ = st := by
  unfold Progress.after
  split
  · next h =>
      cases h
      cases hop
  · next h =>
      cases h
      cases hop
  · next h =>
      cases h
      cases hop
  · rfl
  · next h => cases h
  · rfl

/-- A row that is not there is no failure. -/
theorem after_noRows {op : Op} : st.after ⟨op, .error .noRows⟩ = st := by
  unfold Progress.after
  split
  · next h => cases h
  · next h => cases h
  · next h => cases h
  · rfl
  · next hne h =>
      cases h
      exact (hne rfl).elim
  · rfl

variable {β γ : Type} {post : Progress → Except GoError β → Prop}

/-- A call that has nothing to do with tokens and does not look a row up. -/
theorem keeps_perform_plain {op : Op} {f : op.Res → Act β} (hop : op.plain = true)
    (hl : op.isLookup = false) (hok : ∀ a, Keeps (tokens s) l post (f a) st)
    (herr : ∀ e, post { st with failed := true } (.error e)) :
    Keeps (tokens s) l post (perform op >>= f) st := by
  refine keeps_perform_bind (fun a _ => ⟨st, ?_, hok a⟩) fun e he => ⟨_, ?_, herr e⟩
  · rw [next_plain hop, after_ok hop]
  · rw [next_plain hop, after_error]
    rintro rfl
    rw [he.2 rfl] at hl
    cases hl

/-- A lookup whose answer is looked at. -/
theorem keeps_ask_plain {op : Op} {f : Except GoError op.Res → Act β} (hop : op.plain = true)
    (hok : ∀ a, (tokens s).expects l st ⟨op, .ok a⟩ → Keeps (tokens s) l post (f (.ok a)) st)
    (hnone : Keeps (tokens s) l post (f (.error .noRows)) st)
    (herr : ∀ e, e ≠ .noRows →
      Keeps (tokens s) l post (f (.error e)) { st with failed := true }) :
    Keeps (tokens s) l post (ask op >>= f) st := by
  refine keeps_ask_bind fun r hr => ⟨_, next_plain hop r, ?_⟩
  rcases r with e | a
  · by_cases he : e = .noRows
    · subst he
      rw [after_noRows]
      exact hnone
    · rw [after_error he]
      exact herr e he
  · rw [after_ok hop]
    exact hok a hr

/-- A lookup that turns a missing row into another error. -/
theorem keeps_fetch {missing : GoError} {op : Op} {f : op.Res → Act β} (hop : op.plain = true)
    (hok : ∀ a, (tokens s).expects l st ⟨op, .ok a⟩ → Keeps (tokens s) l post (f a) st)
    (herr : ∀ b e, post { st with failed := b } (.error e)) :
    Keeps (tokens s) l post (fetch missing op >>= f) st := by
  refine keeps_fetch_bind (fun a ha => ⟨st, ?_, hok a ha⟩) fun e _ => ?_
  · rw [next_plain hop, after_ok hop]
  · by_cases he : e = .noRows
    · subst he
      refine ⟨st, ?_, herr st.failed⟩
      rw [next_plain hop, after_noRows]
    · refine ⟨_, ?_, herr true⟩
      rw [next_plain hop, after_error he]

/-- The progress is the same at the end; a program that fails has had a call that failed. -/
def Onward (st st' : Progress) (out : Except GoError β) : Prop :=
  st' = { st with failed := if out.isOk then st.failed else true }

theorem onward_ok (a : β) : Onward st st (.ok a) := rfl

theorem onward_error (e : GoError) :
    Onward st { st with failed := true } (.error e : Except GoError β) := rfl

theorem keeps_createSeedEnvironments_tokens (organizationID : UUID) :
    Keeps (tokens s) l (Onward st) (createSeedEnvironments organizationID) st := by
  refine keeps_perform_plain rfl rfl (fun _ => ?_) fun e => onward_error e
  refine keeps_perform_plain rfl rfl (fun _ => ?_) fun e => onward_error e
  refine keeps_perform_plain rfl rfl (fun _ => ?_) fun e => onward_error e
  refine keeps_perform_plain rfl rfl (fun _ => ?_) fun e => onward_error e
  exact keeps_ret.mpr (onward_ok _)

/-- The tenancy of a user is no matter of tokens. -/
theorem keeps_ensurePrimaryTenant_tokens (userID : UUID) (nowTs : Time) :
    Keeps (tokens s) l (Onward st) (ensurePrimaryTenant userID nowTs) st := by
  have hseeds : ∀ m : OrganizationMember, Keeps (tokens s) l (Onward st)
      (createSeedEnvironments m.organizationID >>= fun x => ret (m, x.1)) st := by
    intro m
    refine keeps_bind (keeps_createSeedEnvironments_tokens m.organizationID) (fun st' x hx => ?_)
      fun st' e he => he
    rw [keeps_ret]
    exact hx
  refine keeps_ask_plain rfl (fun m _ => ?_) ?_ fun e he => ?_
  · refine keeps_ask_plain rfl (fun e _ => keeps_ret.mpr (onward_ok _)) (hseeds m) fun e he => ?_
    cases e with
    | noRows => exact absurd rfl he
    | _ => exact keeps_fail.mpr (onward_error _)
  · refine keeps_perform_plain rfl rfl (fun _ => ?_) fun e => onward_error e
    refine keeps_perform_plain rfl rfl (fun organization => ?_) fun e => onward_error e
    refine keeps_perform_plain rfl rfl (fun id => ?_) fun e => onward_error e
    refine keeps_perform_plain rfl rfl (fun _ => ?_) fun e => onward_error e
    exact hseeds ⟨id, organization.id, userID, "owner", nowTs⟩
  · cases e with
    | noRows => exact absurd rfl he
    | _ => exact keeps_fail.mpr (onward_error _)

/-- A session was stored, or a call failed. -/
def Signed (st : Progress) (out : Except GoError β) : Prop :=
  (out.isOk = true → st.issued = true) ∧ (out.isOk = false → st.failed = true)

theorem signed_error (e : GoError) :
    Signed { st with failed := true } (.error e : Except GoError β) :=
  ⟨nofun, fun _ => rfl⟩

/-- `issueSession` stores a token unless one of its calls fails. -/
theorem keeps_issueSession (hi : st.issued = false) (hs : (!l.isRefresh || st.spent) = true)
    (userID organizationID : UUID) (role : String) (nowTs : Time) :
    Keeps (tokens s) l Signed (issueSession s userID organizationID role nowTs) st := by
  refine keeps_perform_plain rfl rfl (fun t => ?_) fun e => signed_error e
  refine keeps_perform_bind (fun raw _ => ⟨{ st with fresh := some raw }, rfl, ?_⟩)
    fun e he => ⟨_, rfl, ?_⟩
  · refine keeps_perform_plain rfl rfl (fun id => ?_) fun e => signed_error e
    refine keeps_perform_bind (fun _ _ => ⟨_, if_pos ?_, ?_⟩) fun e he => ⟨_, if_pos ?_, ?_⟩
    · simp only [Progress.allows, Option.map_some, beq_self_eq_true, hs, hi, Bool.not_false,
        Bool.and_self]
    · exact keeps_ret.mpr ⟨fun _ => rfl, nofun⟩
    · simp only [Progress.allows, Option.map_some, beq_self_eq_true, hs, hi, Bool.not_false,
        Bool.and_self]
    · rw [after_error fun hno => ?_]
      · exact signed_error e
      · cases he.2 (congrArg _ hno)
  · rw [after_error fun hno => ?_]
    · exact signed_error e
    · cases he.2 (congrArg _ hno)

theorem keeps_newAuthResult (hi : st.issued = false) (hs : (!l.isRefresh || st.spent) = true)
    (userID organizationID environmentID : UUID) (role : String) (b : Bool) (nowTs : Time) :
    Keeps (tokens s) l Signed
      (newAuthResult s userID organizationID environmentID role b nowTs) st := by
  refine keeps_bind (keeps_issueSession hi hs ..) (fun st' x hx => ?_) fun st' e he => he
  rw [keeps_ret]
  exact hx

/-- Every sign-in ends with a stored session, or a call has failed. -/
theorem keeps_signIn (hi : st.issued = false) (hs : (!l.isRefresh || st.spent) = true)
    (userID : UUID) (b : Bool) (nowTs : Time) :
    Keeps (tokens s) l Signed (signIn s userID b nowTs) st := by
  refine keeps_bind (keeps_ensurePrimaryTenant_tokens userID nowTs) (fun st' x hx => ?_)
    fun st' e he => ?_
  · cases hx
    exact keeps_newAuthResult hi hs ..
  · cases he
    exact signed_error e

end Keeps

/-! ### The requests -/

section Requests

variable {s : Service}

/-- A refresh keeps the protocol: it deletes its token before it stores another one. -/
theorem keeps_refresh (refreshToken : String) :
    Keeps (tokens s) (.refresh refreshToken) ((tokens s).ends (.refresh refreshToken))
      (s.refresh refreshToken) {} := by
  have hfail : ∀ b e, (tokens s).ends (.refresh refreshToken) { failed := b } (.error e) :=
    fun b e => ⟨fun _ => ⟨nofun, fun _ h => by cases h⟩, nofun⟩
  unfold Service.refresh
  split
  · exact keeps_fail.mpr (hfail _ _)
  refine keeps_fetch rfl (fun t ht => ?_) hfail
  refine keeps_perform_plain rfl rfl (fun now => ?_) fun e => hfail true e
  split
  · exact keeps_fail.mpr (hfail _ _)
  refine keeps_fetch rfl (fun user _ => ?_) hfail
  split
  · exact keeps_fail.mpr (hfail _ _)
  have hallow : ∀ r : Except GoError Unit, Progress.allows s (.refresh refreshToken) {}
      ⟨.deleteRefreshTokenByHash t.tokenHash, r⟩ = true := by
    intro r
    simp only [Progress.allows, Request.presented, ht.1 _ t rfl, beq_self_eq_true, Bool.not_false,
      Bool.and_self]
  refine keeps_perform_bind (fun _ _ => ⟨_, if_pos (hallow _), ?_⟩)
    fun e he => ⟨_, if_pos (hallow _), ?_⟩
  · refine keeps_perform_plain rfl rfl (fun nowTs => ?_) fun e =>
      ⟨fun _ => ⟨nofun, fun _ _ => rfl⟩, nofun⟩
    exact keeps_mono (fun st out h => ⟨fun _ => ⟨h.1, fun hout _ => h.2 hout⟩, nofun⟩)
      (keeps_signIn rfl rfl ..)
  · rw [after_error fun hno => ?_]
    · exact hfail true e
    · cases he.2 (congrArg _ hno)

/-- A logout keeps the protocol. -/
theorem keeps_logout (refreshToken : String) :
    Keeps (tokens s) (.logout refreshToken) ((tokens s).ends (.logout refreshToken))
      (s.logout refreshToken) {} := by
  unfold Service.logout
  split
  · exact keeps_fail.mpr ⟨nofun, nofun⟩
  have hallow : ∀ r : Except GoError Unit, Progress.allows s (.logout refreshToken) {}
      ⟨.deleteRefreshTokenByHash (s.hashToken (trimSpace refreshToken)), r⟩ = true := by
    intro r
    simp only [Progress.allows, Request.presented, beq_self_eq_true, Bool.not_false,
      Bool.and_self]
  refine keeps_perform_bind (fun _ _ => ⟨_, if_pos (hallow _), ?_⟩)
    fun e he => ⟨_, if_pos (hallow _), ⟨nofun, nofun⟩⟩
  exact keeps_ret.mpr ⟨nofun, fun _ _ => rfl⟩

/-- A program without calls on tokens. -/
abbrev Plain (p : Act β) : Prop := Calls (fun op => op.plain = true) p

theorem keeps_of_plain {l : Request} {p : Act β} (hp : Plain p) (st : Progress) :
    Keeps (tokens s) l (fun st' _ => st.Same st') p st :=
  keeps_of_calls (fun _ => ⟨rfl, rfl, rfl⟩)
    (fun _ _ _ h h' => ⟨h'.1.trans h.1, h'.2.1.trans h.2.1, h'.2.2.trans h.2.2⟩)
    (fun _ r _ hop _ => ⟨_, next_plain hop r, after_plain hop r⟩) hp st

theorem plain_of_within {gs : List Group} {p : Act β} (hp : Within gs p)
    (hgs : .token ∉ gs) : Plain p := by
  refine Calls.mono (fun op hop => ?_) hp.calls
  cases op <;> first | rfl | exact absurd hop hgs

/-- A program that stores tokens only by a sign-in at its end. -/
def SignsLast (s : Service) (l : Request) (p : Act β) : Prop :=
  ∀ st : Progress, st.issued = false → Keeps (tokens s) l (fun _ _ => True) p st

variable {l : Request}

theorem SignsLast.bind {p : Act α} {f : α → Act β} (hp : Plain p)
    (hf : ∀ a, SignsLast s l (f a)) : SignsLast s l (p >>= f) := by
  intro st hst
  refine keeps_bind (keeps_of_plain hp st) (fun st' a h => ?_) fun _ _ _ => True.intro
  exact hf a st' (h.2.2.trans hst)

theorem signsLast_fail (e : GoError) : SignsLast s l (fail e : Act β) :=
  fun _ _ => keeps_fail.mpr True.intro

theorem signsLast_signIn (hl : l.isRefresh = false) (userID : UUID) (b : Bool) (nowTs : Time) :
    SignsLast s l (signIn s userID b nowTs) := by
  intro st hst
  refine keeps_mono (fun _ _ _ => True.intro) (keeps_signIn hst ?_ userID b nowTs)
  rw [hl, Bool.not_false, Bool.true_or]

/-- A part of a request that is within some groups. -/
theorem SignsLast.then {gs : List Group} {p : Act α} {f : α → Act β} (hp : Within gs p)
    (hgs : .token ∉ gs) (hf : ∀ a, SignsLast s l (f a)) : SignsLast s l (p >>= f) :=
  .bind (plain_of_within hp hgs) hf

/-- One call. -/
theorem SignsLast.perform {op : Op} {f : op.Res → Act β} (hop : op.plain = true)
    (hf : ∀ a, SignsLast s l (f a)) : SignsLast s l (perform op >>= f) :=
  .bind (calls_perform hop) hf

theorem signsLast_verifyEmail (email code : String) :
    SignsLast s (.verifyEmail email code) (s.verifyEmail email code) :=
  .then (show Within [.user] _ from within_fetch _ (.head _)) (by decide) fun _ =>
    .then (within_checkCode _ _) (by decide) fun _ => .perform rfl fun _ => .perform rfl fun _ =>
    .perform rfl fun _ => signsLast_signIn rfl _ _ _

theorem signsLast_signin (email password : String) :
    SignsLast s (.signin email password) (s.signin email password) := by
  refine .then (show Within [.user] _ from within_fetch _ (.head _)) (by decide) fun user => ?_
  split
  · exact signsLast_fail _
  · split
    · exact .perform rfl fun _ => signsLast_signIn rfl _ _ _
    · exact signsLast_fail _

/-- A social sign-in issues its session last. -/
theorem signsLast_signinWithSocial (input : SocialSigninInput) :
    SignsLast s (.signinWithSocial input) (s.signinWithSocial input) := by
  unfold Service.signinWithSocial
  extract_lets provider providerUserID email
  split
  · exact signsLast_fail _
  split
  · exact signsLast_fail _
  split
  · exact signsLast_fail _
  rcases normalizeSocialNames input.firstName input.lastName input.fullName email
    with ⟨firstName, lastName⟩
  refine .perform rfl fun nowTs =>
    .then (show Within [.identity] _ from within_ask (.head _)) (by decide) fun r => ?_
  split
  · exact .perform rfl fun _ => .then (within_verifyAddress _ _) (by decide) fun _ =>
      signsLast_signIn rfl _ _ _
  · exact .then (show Within [.user] _ from within_ask (.head _)) (by decide) fun found =>
      .then (within_socialAccount ..) (by decide) fun _ =>
      .perform rfl fun _ => .perform rfl fun _ => signsLast_signIn rfl _ _ _
  · exact signsLast_fail _

/-- **Every request keeps to the protocol.** -/
theorem keeps_request (l : Request) :
    Keeps (tokens s) l ((tokens s).ends l) (l.body s) ((tokens s).init l) := by
  have hends : ∀ l : Request, l.isRefresh = false → l.isLogout = false →
      ∀ st out, (tokens s).ends l st out := by
    intro l hr hl st out
    refine ⟨fun h => ?_, fun h => ?_⟩
    · rw [hr] at h
      cases h
    · rw [hl] at h
      cases h
  have hplain : ∀ l : Request, l.isRefresh = false → l.isLogout = false → Plain (l.body s) →
      Keeps (tokens s) l ((tokens s).ends l) (l.body s) {} := fun l hr hl hp =>
    keeps_mono (fun st out _ => hends l hr hl st out) (keeps_of_plain hp {})
  have hsigns : ∀ l : Request, l.isRefresh = false → l.isLogout = false →
      SignsLast s l (l.body s) → Keeps (tokens s) l ((tokens s).ends l) (l.body s) {} :=
    fun l hr hl hp => keeps_mono (fun st out _ => hends l hr hl st out) (hp {} rfl)
  cases l with
  | signup => exact hplain _ rfl rfl (plain_of_within (within_signup ..) (by decide))
  | signinWithSocial => exact hsigns _ rfl rfl (signsLast_signinWithSocial _)
  | signin => exact hsigns _ rfl rfl (signsLast_signin _ _)
  | forgotPassword => exact hplain _ rfl rfl (plain_of_within (within_forgotPassword _) (by decide))
  | resetPassword => exact hplain _ rfl rfl (plain_of_within (within_resetPassword ..) (by decide))
  | resendVerification => exact hplain _ rfl rfl (plain_of_within (within_resendVerification _) (by decide))
  | verifyEmail => exact hsigns _ rfl rfl (signsLast_verifyEmail _ _)
  | verifyResetCode => exact hplain _ rfl rfl (plain_of_within (within_verifyResetCode ..) (by decide))
  | refresh => exact keeps_refresh _
  | logout => exact keeps_logout _

end Requests

/-! ### One call -/

/-- The stored token with a hash. -/
def World.token (w : World) (h : String) : Option RefreshToken :=
  w.refreshTokens.find? fun r => r.tokenHash == h

/-- A call that has nothing to do with tokens leaves them alone. -/
theorem call_plain {hashToken : String → String} {op : Op} {w w' : World}
    {r : Except GoError op.Res} (hc : Call hashToken op w r w') (hop : op.plain = true) :
    w'.refreshTokens = w.refreshTokens ∧ w'.drawn = w.drawn := by
  cases hc with
  | answer _ w =>
      cases op <;> simp only [World.answer] <;> first
        | exact ⟨True.intro, True.intro⟩
        | exact ⟨rfl, rfl⟩
        | (split <;> exact ⟨rfl, rfl⟩)
        | cases hop
  | token => cases hop
  | fault => exact ⟨rfl, rfl⟩
  | hash => exact ⟨rfl, rfl⟩
  | code => exact ⟨rfl, rfl⟩
  | sign => exact ⟨rfl, rfl⟩
  | mail => exact ⟨rfl, rfl⟩
  | now => exact ⟨rfl, rfl⟩
  | newUUID => exact ⟨rfl, rfl⟩

/-- What a call does to the progress of its request, and to the tokens. -/
inductive Move (s : Service) (l : Request) (st : Progress) (w : World) :
    (op : Op) → Except GoError op.Res → Progress → World → Prop
  | deleted (h u) {w'} : l.presented s = some h → st.spent = false → st.issued = false →
      st.failed = false → w'.refreshTokens = w.refreshTokens.filter (fun r => r.tokenHash != h) →
      w'.drawn = w.drawn →
      Move s l st w (.deleteRefreshTokenByHash h) (.ok u) { st with spent := true } w'
  | drew (raw) {w'} : s.hashToken raw ∉ w.drawn → w'.refreshTokens = w.refreshTokens →
      w'.drawn = s.hashToken raw :: w.drawn →
      Move s l st w .drawRefreshToken (.ok raw) { st with fresh := some raw } w'
  | stored (arg u) {w'} : st.fresh.map s.hashToken = some arg.tokenHash →
      (l.isRefresh = true → st.spent = true) → st.issued = false →
      w'.refreshTokens = w.refreshTokens ++ [arg] → w'.drawn = w.drawn →
      Move s l st w (.createRefreshToken arg) (.ok u) { st with issued := true } w'
  | noRows (op) : Move s l st w op (.error .noRows) st w
  | failure (op e) : e ≠ .noRows → Move s l st w op (.error e) { st with failed := true } w
  | other (op a) {w'} : op.plain = true → w'.refreshTokens = w.refreshTokens →
      w'.drawn = w.drawn → Move s l st w op (.ok a) st w'

theorem call_drawRefreshToken {hashToken : String → String} {raw : String} {w w' : World}
    (hc : Call hashToken .drawRefreshToken w (.ok raw) w') :
    hashToken raw ∉ w.drawn ∧ w' = { w with drawn := hashToken raw :: w.drawn } := by
  cases hc with
  | token _ _ hraw => exact ⟨hraw, rfl⟩

theorem call_createRefreshToken {hashToken : String → String} {arg : RefreshToken} {u : Unit}
    {w w' : World} (hc : Call hashToken (.createRefreshToken arg) w (.ok u) w') :
    w' = { w with refreshTokens := w.refreshTokens ++ [arg] } := by
  have hanswer := call_ok rfl hc
  simp only [World.answer] at hanswer
  split at hanswer
  · cases hanswer
    rfl
  · cases hanswer

/-- **Every call of a request is one of these.** -/
theorem move_of_next {s : Service} {l : Request} {st st' : Progress} {op : Op}
    {r : Except GoError op.Res} {w w' : World}
    (hn : (tokens s).next l st ⟨op, r⟩ = some st') (hc : Call s.hashToken op w r w') :
    Move s l st w op r st' w' := by
  obtain ⟨hallow, hst⟩ := Option.ite_none_right_eq_some.mp hn
  cases hst
  -- a call that fails changes nothing
  rcases r with e | a
  · rw [call_error hc]
    by_cases he : e = .noRows
    · subst he
      rw [after_noRows]
      exact .noRows op
    · rw [after_error he]
      exact .failure op e he
  by_cases hop : op.plain = true
  · rw [after_ok hop]
    obtain ⟨hrows, hdrawn⟩ := call_plain hc hop
    exact .other op a hop hrows hdrawn
  -- three calls touch the tokens: one takes, one draws and one stores
  cases op with
  | deleteRefreshTokenByHash h =>
      simp only [Progress.allows, Bool.and_eq_true, beq_iff_eq, Bool.not_eq_true'] at hallow
      have hanswer := call_ok rfl hc
      simp only [World.answer] at hanswer
      cases hanswer
      exact .deleted h _ hallow.1.1.1 hallow.1.1.2 hallow.1.2 hallow.2 rfl rfl
  | drawRefreshToken =>
      obtain ⟨hraw, rfl⟩ := call_drawRefreshToken hc
      exact .drew _ hraw rfl rfl
  | createRefreshToken arg =>
      simp only [Progress.allows, Bool.and_eq_true, beq_iff_eq, Bool.not_eq_true',
        Bool.or_eq_true] at hallow
      rw [call_createRefreshToken hc]
      refine .stored arg _ hallow.1.1 (fun hl => ?_) hallow.2 rfl rfl
      rcases hallow.1.2 with h | h
      · rw [hl] at h
        cases h
      · exact h
  | _ => exact absurd rfl hop

/-- A change of the stored tokens that does not concern the hash `h`. -/
theorem token_of_rows {w w' : World} (h : w'.refreshTokens = w.refreshTokens) (k : String) :
    w'.token k = w.token k := by
  unfold World.token
  rw [h]

theorem token_delete_self {w w' : World} {h : String}
    (hw : w'.refreshTokens = w.refreshTokens.filter fun r => r.tokenHash != h) :
    w'.token h = none := by
  unfold World.token
  rw [hw, List.find?_eq_none]
  intro r hr
  have := (List.mem_filter.mp hr).2
  simpa using this

theorem token_delete_of_ne {w w' : World} {h k : String} (hk : k ≠ h)
    (hw : w'.refreshTokens = w.refreshTokens.filter fun r => r.tokenHash != h) :
    w'.token k = w.token k := by
  unfold World.token
  rw [hw, List.find?_filter]
  congr 1
  funext r
  by_cases hr : r.tokenHash = k
  · simp [hr, hk]
  · simp [hr]

theorem token_store_of_ne {w w' : World} {arg : RefreshToken} {k : String}
    (hk : arg.tokenHash ≠ k) (hw : w'.refreshTokens = w.refreshTokens ++ [arg]) :
    w'.token k = w.token k := by
  unfold World.token
  rw [hw, List.find?_append]
  simp [hk]

/-! ### The laws, and the condition -/

/-- The request is a refresh that presents the token with hash `h`. -/
def Request.Refreshes (s : Service) (h : String) (l : Request) : Prop :=
  l.isRefresh = true ∧ l.presented s = some h

/-- The request is a logout that presents the token with hash `h`. -/
def Request.LogsOut (s : Service) (h : String) (l : Request) : Prop :=
  l.isLogout = true ∧ l.presented s = some h

theorem Request.Refreshes.not_logsOut {s : Service} {h : String} {l : Request}
    (hr : l.Refreshes s h) : ¬ l.LogsOut s h := by
  rintro ⟨ho, -⟩
  cases l with
  | refresh => cases ho
  | _ => cases hr.1

/-- A refresh presenting `h` stores a new token. -/
def IssuesFor (s : Service) (h : String) (p : ServerPool) (e : ServerEvent) : Prop :=
  ∃ i arg u t, e = .call i ⟨.createRefreshToken arg, .ok u⟩ ∧ p.threads i = some t ∧
    t.label.Refreshes s h

/-- A logout presenting `h` completes. -/
def CompletesLogout (s : Service) (h : String) (p : ServerPool) (e : ServerEvent) : Prop :=
  ∃ i r t, e = .finish i (.ok r) ∧ p.threads i = some t ∧ t.label.LogsOut s h

/-- A logout presenting `h` arrives. -/
def StartsLogout (s : Service) (h : String) (e : ServerEvent) : Prop :=
  ∃ i l, e = .start i l ∧ l.LogsOut s h

/-- The laws of a refresh token with hash `h`, for the runs that meet `C`. -/
structure ExchangedOnce (s : Service) (h : String)
    (C : ServerPool → ServerEvent → Prop) (p₀ : ServerPool) : Prop where
  /-- It is exchanged at most once. -/
  once : ∀ {evs p₁ e p₂ evs' p₃ e' p₄}, Run (server s) C p₀ evs p₁ → C p₁ e →
    Step (server s) p₁ e p₂ → IssuesFor s h p₁ e → Run (server s) C p₂ evs' p₃ → C p₃ e' →
    Step (server s) p₃ e' p₄ → ¬ IssuesFor s h p₃ e'
  /-- It is not exchanged after a logout. -/
  loggedOut : ∀ {evs p₁ e p₂ evs' p₃ e' p₄}, Run (server s) C p₀ evs p₁ → C p₁ e →
    Step (server s) p₁ e p₂ → CompletesLogout s h p₁ e → Run (server s) C p₂ evs' p₃ →
    C p₃ e' → Step (server s) p₃ e' p₄ → ¬ IssuesFor s h p₃ e'
  /-- It is still there if it was not exchanged and there was no logout, once the requests
  that present it have ended. -/
  kept : ∀ {evs p}, Run (server s) (fun p e => C p e ∧ ¬ IssuesFor s h p e ∧
      ¬ StartsLogout s h e) p₀ evs p →
    (∀ i t, p.threads i = some t → t.label.presented s ≠ some h) →
    p.world.token h = p₀.world.token h

/-- A refresh that presents `h` has deleted it and not stored another token yet. -/
def Exchanging (s : Service) (h : String) (p : ServerPool) (i : ℕ) : Prop :=
  ∃ t, p.threads i = some t ∧ t.label.Refreshes s h ∧ (progress t.log).exchanging = true

/-- A refresh that deletes `h` still finds it; a logout does not delete it while it is being
exchanged; and a refresh that exchanges it does not fail any more. -/
def exchangesInOrder (s : Service) (h : String) (p : ServerPool) : ServerEvent → Prop
  | .call i ⟨.deleteRefreshTokenByHash h', .ok _⟩ => h' = h →
      (∀ t, p.threads i = some t → t.label.isRefresh = true → (p.world.token h).isSome = true) ∧
      (∀ t, p.threads i = some t → t.label.isLogout = true → ∀ j, ¬ Exchanging s h p j)
  | .call i ⟨_, .error e⟩ => e ≠ .noRows → ¬ Exchanging s h p i
  | .lose i => ¬ Exchanging s h p i
  | _ => True

/-! ### The invariant -/

section Invariant

variable {s : Service} {h : String}

/-- Request `i` is exchanging the token, seen through the protocol. -/
def Live (s : Service) (h : String) (v : View World Request Progress) (i : ℕ) : Prop :=
  ∃ l st, v.phases i = some (l, st) ∧ l.Refreshes s h ∧ st.exchanging = true

/-- What holds in every pool. -/
structure Rotation (s : Service) (h : String) (v : View World Request Progress) : Prop where
  drawn : h ∈ v.world.drawn
  /-- Tokens about to be stored are others. -/
  fresh : ∀ i l st raw, v.phases i = some (l, st) → st.fresh = some raw → s.hashToken raw ≠ h
  /-- A token that was deleted is gone. -/
  gone : ∀ i l st, v.phases i = some (l, st) → l.presented s = some h → st.spent = true →
    v.world.token h = none
  single : ∀ i j, Live s h v i → Live s h v j → i = j
  unfailed : ∀ i l st, v.phases i = some (l, st) → l.Refreshes s h → st.exchanging = true →
    st.failed = false
  loggedOut : ∀ i l st, v.phases i = some (l, st) → l.LogsOut s h → st.spent = true →
    ∀ j, ¬ Live s h v j

/-- The token is gone, and nobody is exchanging it. -/
def Closed (s : Service) (h : String) (v : View World Request Progress) : Prop :=
  v.world.token h = none ∧ ∀ j, ¬ Live s h v j

theorem track_progress {l : Request} {st st' : Progress} {tr : List (Answered Op.Res GoError)}
    (ht : (tokens s).track l st tr = some st') : tr.foldl Progress.after st = st' := by
  induction tr generalizing st with
  | nil =>
      cases ht
      rfl
  | cons a tr ih =>
      obtain ⟨st₁, hn, ht⟩ := Option.bind_eq_some_iff.mp ht
      obtain ⟨-, hst⟩ := Option.ite_none_right_eq_some.mp hn
      cases hst
      exact ih ht

/-- The two ways to say that a request is exchanging the token. -/
theorem live_iff {p : ServerPool} (hk : (tokens s).Kept p) {i : ℕ} :
    Live s h ((tokens s).view p) i ↔ Exchanging s h p i := by
  constructor
  · rintro ⟨l, st, hi, hl, hst⟩
    obtain ⟨t, hti, rfl, htrack, -⟩ := hk.thread_of_view hi
    refine ⟨t, hti, hl, ?_⟩
    rw [show progress t.log = st from track_progress htrack]
    exact hst
  · rintro ⟨t, hti, hl, hst⟩
    obtain ⟨st, htrack, -⟩ := hk i t hti
    refine ⟨t.label, st, Protocol.view_phases_of_thread hti htrack, hl, ?_⟩
    rw [← show progress t.log = st from track_progress htrack]
    exact hst

/-! ### One step -/

section Step

variable {w w' : World} {ph : ℕ → Option (Request × Progress)} {i : ℕ} {l : Request}
  {st st' : Progress}

theorem live_update {j : ℕ} (hj : Live s h ⟨w', Function.update ph i (some (l, st'))⟩ j) :
    (j = i ∧ l.Refreshes s h ∧ st'.exchanging = true) ∨ (j ≠ i ∧ Live s h ⟨w, ph⟩ j) := by
  obtain ⟨l₁, st₁, hp, hl, hst⟩ := hj
  rcases update_some_eq_some hp with ⟨rfl, hx⟩ | ⟨hne, hold⟩
  · cases hx
    exact Or.inl ⟨rfl, hl, hst⟩
  · exact Or.inr ⟨hne, l₁, st₁, hold, hl, hst⟩

/-- A step of one request that keeps the token: the request is exchanging it only if it was
before. -/
theorem Rotation.update (hR : Rotation s h ⟨w, ph⟩) (st' : Progress) (hdrawn : h ∈ w'.drawn)
    (htoken : w'.token h = w.token h)
    (hfresh : ∀ raw, st'.fresh = some raw → s.hashToken raw ≠ h)
    (hspent : l.presented s = some h → st'.spent = true →
      ∃ st, ph i = some (l, st) ∧ st.spent = true)
    (hlive : l.Refreshes s h → st'.exchanging = true → Live s h ⟨w, ph⟩ i ∧ st'.failed = false) :
    Rotation s h ⟨w', Function.update ph i (some (l, st'))⟩ ∧
      ∀ j, Live s h ⟨w', Function.update ph i (some (l, st'))⟩ j → Live s h ⟨w, ph⟩ j := by
  -- no request becomes live by the change
  have hback : ∀ j, Live s h ⟨w', Function.update ph i (some (l, st'))⟩ j →
      Live s h ⟨w, ph⟩ j := by
    intro j hj
    rcases live_update (w := w) hj with ⟨rfl, hl, hst⟩ | ⟨-, hold⟩
    · exact (hlive hl hst).1
    · exact hold
  refine ⟨⟨hdrawn, fun j l₁ st₁ raw hp hraw => ?_, fun j l₁ st₁ hp hl hsp => ?_,
    fun j k hj hk => hR.single j k (hback j hj) (hback k hk), fun j l₁ st₁ hp hl hst => ?_,
    fun j l₁ st₁ hp hl hsp k hk => ?_⟩, hback⟩
  · rcases update_some_eq_some hp with ⟨-, hx⟩ | ⟨-, hold⟩
    · cases hx
      exact hfresh raw hraw
    · exact hR.fresh j l₁ st₁ raw hold hraw
  · show w'.token h = none
    rw [htoken]
    rcases update_some_eq_some hp with ⟨-, hx⟩ | ⟨-, hold⟩
    · cases hx
      obtain ⟨st, hi, hs⟩ := hspent hl hsp
      exact hR.gone i _ st hi hl hs
    · exact hR.gone j l₁ st₁ hold hl hsp
  · rcases update_some_eq_some hp with ⟨-, hx⟩ | ⟨-, hold⟩
    · cases hx
      exact (hlive hl hst).2
    · exact hR.unfailed j l₁ st₁ hold hl hst
  · rcases update_some_eq_some hp with ⟨-, hx⟩ | ⟨-, hold⟩
    · cases hx
      obtain ⟨st, hi, hs⟩ := hspent hl.2 hsp
      exact hR.loggedOut i _ st hi hl hs k (hback k hk)
    · exact hR.loggedOut j l₁ st₁ hold hl hsp k (hback k hk)

/-- A request that ends. -/
theorem Rotation.remove (hR : Rotation s h ⟨w, ph⟩) :
    Rotation s h ⟨w, Function.update ph i none⟩ ∧
      ∀ j, Live s h ⟨w, Function.update ph i none⟩ j → Live s h ⟨w, ph⟩ j := by
  have hback : ∀ j, Live s h ⟨w, Function.update ph i none⟩ j → Live s h ⟨w, ph⟩ j := by
    rintro j ⟨l₁, st₁, hp, hl, hst⟩
    exact ⟨l₁, st₁, (update_none_eq_some hp).2, hl, hst⟩
  exact ⟨⟨hR.drawn, fun j l₁ st₁ raw hp => hR.fresh j l₁ st₁ raw (update_none_eq_some hp).2,
    fun j l₁ st₁ hp => hR.gone j l₁ st₁ (update_none_eq_some hp).2,
    fun j k hj hk => hR.single j k (hback j hj) (hback k hk),
    fun j l₁ st₁ hp => hR.unfailed j l₁ st₁ (update_none_eq_some hp).2,
    fun j l₁ st₁ hp hl hsp k hk =>
      hR.loggedOut j l₁ st₁ (update_none_eq_some hp).2 hl hsp k (hback k hk)⟩, hback⟩

/-- A refresh deletes the token it found: it is the only one that exchanges it. -/
theorem Rotation.spend (hR : Rotation s h ⟨w, ph⟩) (hl : l.Refreshes s h)
    (hfound : (w.token h).isSome = true) (hi : ph i = some (l, st))
    (hfailed : st.failed = false) (hgone : w'.token h = none) (hdrawn : w'.drawn = w.drawn) :
    Rotation s h ⟨w', Function.update ph i (some (l, { st with spent := true }))⟩ := by
  -- so far no request has deleted it
  have hunspent : ∀ j l₁ st₁, ph j = some (l₁, st₁) → l₁.presented s = some h →
      st₁.spent = false := by
    intro j l₁ st₁ hj hl₁
    by_contra hsp
    have hnone := hR.gone j l₁ st₁ hj hl₁ (Bool.eq_true_of_not_eq_false hsp)
    rw [show w.token h = none from hnone] at hfound
    cases hfound
  have hidle : ∀ j, ¬ Live s h ⟨w, ph⟩ j := by
    rintro j ⟨l₁, st₁, hj, hl₁, hst⟩
    rw [Progress.exchanging, hunspent j l₁ st₁ hj hl₁.2] at hst
    cases hst
  have honly : ∀ j, Live s h ⟨w', Function.update ph i (some (l, { st with spent := true }))⟩ j →
      j = i := by
    intro j hj
    rcases live_update (w := w) hj with ⟨rfl, -, -⟩ | ⟨-, hold⟩
    · rfl
    · exact absurd hold (hidle j)
  refine ⟨?_, fun j l₁ st₁ raw hp hraw => ?_, fun _ _ _ _ _ _ => hgone,
    fun j k hj hk => (honly j hj).trans (honly k hk).symm, fun j l₁ st₁ hp hl₁ hst => ?_,
    fun j l₁ st₁ hp hl₁ hsp => ?_⟩
  · show h ∈ w'.drawn
    rw [hdrawn]
    exact hR.drawn
  · rcases update_some_eq_some hp with ⟨-, hx⟩ | ⟨-, hold⟩
    · cases hx
      exact hR.fresh i l st raw hi hraw
    · exact hR.fresh j l₁ st₁ raw hold hraw
  · rcases update_some_eq_some hp with ⟨-, hx⟩ | ⟨-, hold⟩
    · cases hx
      exact hfailed
    · exact hR.unfailed j l₁ st₁ hold hl₁ hst
  · rcases update_some_eq_some hp with ⟨-, hx⟩ | ⟨-, hold⟩
    · cases hx
      exact absurd hl₁ hl.not_logsOut
    · rw [hunspent j l₁ st₁ hold hl₁.2] at hsp
      cases hsp

/-- A logout deletes the token while nobody is exchanging it. -/
theorem Rotation.logOut (hR : Rotation s h ⟨w, ph⟩) (hl : l.LogsOut s h)
    (hidle : ∀ j, ¬ Live s h ⟨w, ph⟩ j) (hi : ph i = some (l, st))
    (hgone : w'.token h = none) (hdrawn : w'.drawn = w.drawn) :
    Rotation s h ⟨w', Function.update ph i (some (l, { st with spent := true }))⟩ ∧
      ∀ j, ¬ Live s h ⟨w', Function.update ph i (some (l, { st with spent := true }))⟩ j := by
  have hne : ¬ l.Refreshes s h := fun hr => hr.not_logsOut hl
  have hnone : ∀ j,
      ¬ Live s h ⟨w', Function.update ph i (some (l, { st with spent := true }))⟩ j := by
    intro j hj
    rcases live_update (w := w) hj with ⟨-, hl', -⟩ | ⟨-, hold⟩
    · exact hne hl'
    · exact hidle j hold
  refine ⟨⟨?_, fun j l₁ st₁ raw hp hraw => ?_, fun _ _ _ _ _ _ => hgone,
    fun j k hj => absurd hj (hnone j), fun j l₁ st₁ hp hl₁ hst => ?_,
    fun _ _ _ _ _ _ k => hnone k⟩, hnone⟩
  · show h ∈ w'.drawn
    rw [hdrawn]
    exact hR.drawn
  · rcases update_some_eq_some hp with ⟨-, hx⟩ | ⟨-, hold⟩
    · cases hx
      exact hR.fresh i l st raw hi hraw
    · exact hR.fresh j l₁ st₁ raw hold hraw
  · exact absurd ⟨l₁, st₁, hp, hl₁, hst⟩ (hnone j)

/-- What the condition says of a call that succeeds in deleting the token. -/
theorem exchangesInOrder_delete {p : ServerPool} {u : Unit}
    (hc : exchangesInOrder s h p (.call i ⟨.deleteRefreshTokenByHash h, .ok u⟩))
    (hk : (tokens s).Kept p) (hi : ((tokens s).view p).phases i = some (l, st)) :
    (l.isRefresh = true → (p.world.token h).isSome = true) ∧
      (l.isLogout = true → ∀ j, ¬ Live s h ((tokens s).view p) j) := by
  obtain ⟨t, ht, rfl, -, -⟩ := hk.thread_of_view hi
  obtain ⟨hr, ho⟩ := hc rfl
  exact ⟨hr t ht, fun hl j hj => ho t ht hl j ((live_iff hk).mp hj)⟩

theorem exchangesInOrder_error {p : ServerPool} {op : Op} {e : GoError}
    (hc : exchangesInOrder s h p (.call i ⟨op, .error e⟩)) (he : e ≠ .noRows)
    (hk : (tokens s).Kept p) : ¬ Live s h ((tokens s).view p) i := by
  intro hi
  have hidle : ¬ Exchanging s h p i := by cases op <;> exact hc he
  exact hidle ((live_iff hk).mp hi)

/-- A request that presents a token refreshes with it or logs out. -/
theorem refreshes_or_logsOut (hl : l.presented s = some h) : l.Refreshes s h ∨ l.LogsOut s h := by
  cases l with
  | refresh => exact Or.inl ⟨rfl, hl⟩
  | logout => exact Or.inr ⟨rfl, hl⟩
  | _ => cases hl

/-- What a step does to the token: nobody new exchanges it and it stays as it is, or a refresh
that found it deletes it, or a logout deletes it while nobody exchanges it. -/
inductive Turned (s : Service) (h : String) (v : View World Request Progress) :
    ServerEvent → View World Request Progress → Prop
  | kept {e v'} : v'.world.token h = v.world.token h →
      (∀ j, Live s h v' j → Live s h v j) → Turned s h v e v'
  | spent {i u v' l st} : v'.phases i = some (l, st) → l.Refreshes s h → st.exchanging = true →
      (v.world.token h).isSome = true →
      Turned s h v (.call i ⟨.deleteRefreshTokenByHash h, .ok u⟩) v'
  | loggedOut {i u v' l st} : v'.phases i = some (l, st) → l.LogsOut s h →
      v'.world.token h = none → (∀ j, ¬ Live s h v' j) →
      Turned s h v (.call i ⟨.deleteRefreshTokenByHash h, .ok u⟩) v'

/-- A request deletes the token it presents: a refresh that found it, or a logout while nobody
exchanges it. -/
theorem Rotation.delete {u : Unit} (hR : Rotation s h ⟨w, ph⟩) (hi : ph i = some (l, st))
    (hl : l.presented s = some h) (hissued : st.issued = false) (hfailed : st.failed = false)
    (hrows : w'.refreshTokens = w.refreshTokens.filter fun r => r.tokenHash != h)
    (hdrawn : w'.drawn = w.drawn) (hfound : l.isRefresh = true → (w.token h).isSome = true)
    (hidle : l.isLogout = true → ∀ j, ¬ Live s h ⟨w, ph⟩ j) :
    Rotation s h ⟨w', Function.update ph i (some (l, { st with spent := true }))⟩ ∧
      Turned s h ⟨w, ph⟩ (.call i ⟨.deleteRefreshTokenByHash h, .ok u⟩)
        ⟨w', Function.update ph i (some (l, { st with spent := true }))⟩ := by
  have hself := Function.update_self i (some (l, ({ st with spent := true } : Progress))) ph
  have hex : Progress.exchanging { st with spent := true } = true := by
    simp only [Progress.exchanging, hissued, Bool.not_false, Bool.and_self]
  have hgone : w'.token h = none := token_delete_self hrows
  rcases refreshes_or_logsOut hl with hr | ho
  · exact ⟨hR.spend hr (hfound hr.1) hi hfailed hgone hdrawn,
      .spent hself hr hex (hfound hr.1)⟩
  · obtain ⟨hR', hnone⟩ := hR.logOut ho (hidle ho.1) hi hgone hdrawn
    exact ⟨hR', .loggedOut hself ho hgone hnone⟩

/-- **One call.** -/
theorem Rotation.call {p : ServerPool} {op : Op} {r : Except GoError op.Res}
    (hR : Rotation s h ⟨w, ph⟩) (hv : (tokens s).view p = ⟨w, ph⟩) (hk : (tokens s).Kept p)
    (hc : exchangesInOrder s h p (.call i ⟨op, r⟩)) (hi : ph i = some (l, st))
    (hmove : Move s l st w op r st' w') :
    Rotation s h ⟨w', Function.update ph i (some (l, st'))⟩ ∧
      Turned s h ⟨w, ph⟩ (.call i ⟨op, r⟩) ⟨w', Function.update ph i (some (l, st'))⟩ := by
  have hworld : p.world = w := congrArg View.world hv
  have hlive : l.Refreshes s h → st.exchanging = true → Live s h ⟨w, ph⟩ i :=
    fun hx hst => ⟨l, st, hi, hx, hst⟩
  cases hmove with
  | deleted h' u hl hsp hissued hfailed hrows hdrawn =>
      by_cases hh : h' = h
      · subst hh
        have hcond := exchangesInOrder_delete hc hk (by rw [hv]; exact hi)
        rw [hv, hworld] at hcond
        exact hR.delete hi hl hissued hfailed hrows hdrawn hcond.1 hcond.2
      · -- another token
        have hne : l.presented s ≠ some h := by
          rw [hl]
          exact fun heq => hh (Option.some.inj heq)
        obtain ⟨hR', hback⟩ := hR.update (i := i) (l := l)
          { st with spent := true } (by rw [hdrawn]; exact hR.drawn)
          (token_delete_of_ne (Ne.symm hh) hrows) (fun raw hraw => hR.fresh i l st raw hi hraw)
          (fun hx => absurd hx hne) (fun hx => absurd hx.2 hne)
        exact ⟨hR', .kept (token_delete_of_ne (Ne.symm hh) hrows) hback⟩
  | drew raw hraw hrows hdrawn =>
      -- a token is never drawn twice
      have hother : ∀ raw', some raw = some raw' → s.hashToken raw' ≠ h := by
        rintro raw' ⟨⟩ rfl
        exact hraw hR.drawn
      obtain ⟨hR', hback⟩ := hR.update (i := i) (l := l)
        { st with fresh := some raw }
        (by rw [hdrawn]; exact List.mem_cons_of_mem _ hR.drawn) (token_of_rows hrows h)
        hother (fun _ hsp => ⟨st, hi, hsp⟩)
        (fun hx hst => ⟨hlive hx hst, hR.unfailed i l st hi hx hst⟩)
      exact ⟨hR', .kept (token_of_rows hrows h) hback⟩
  | stored arg u hfresh hsp hissued hrows hdrawn =>
      have hne : arg.tokenHash ≠ h := by
        obtain ⟨raw, hraw, heq⟩ := Option.map_eq_some_iff.mp hfresh
        rw [← heq]
        exact hR.fresh i l st raw hi hraw
      have hdone : Progress.exchanging { st with issued := true } = false :=
        Bool.and_false _
      obtain ⟨hR', hback⟩ := hR.update (i := i) (l := l)
        { st with issued := true } (by rw [hdrawn]; exact hR.drawn)
        (token_store_of_ne hne hrows) (fun raw hraw => hR.fresh i l st raw hi hraw)
        (fun _ hsp => ⟨st, hi, hsp⟩) (fun _ hst => by rw [hdone] at hst; cases hst)
      exact ⟨hR', .kept (token_store_of_ne hne hrows) hback⟩
  | noRows =>
      obtain ⟨hR', hback⟩ := hR.update (i := i) (l := l) st hR.drawn rfl
        (fun raw hraw => hR.fresh i l st raw hi hraw) (fun _ hsp => ⟨st, hi, hsp⟩)
        (fun hx hst => ⟨hlive hx hst, hR.unfailed i l st hi hx hst⟩)
      exact ⟨hR', .kept rfl hback⟩
  | failure _ e he =>
      have hidle := exchangesInOrder_error hc he hk
      rw [hv] at hidle
      obtain ⟨hR', hback⟩ := hR.update (i := i) (l := l) { st with failed := true }
        hR.drawn rfl (fun raw hraw => hR.fresh i l st raw hi hraw)
        (fun _ hsp => ⟨st, hi, hsp⟩) (fun hx hst => absurd (hlive hx hst) hidle)
      exact ⟨hR', .kept rfl hback⟩
  | other _ _ _ hrows hdrawn =>
      obtain ⟨hR', hback⟩ := hR.update (i := i) (l := l) st
        (by rw [hdrawn]; exact hR.drawn) (token_of_rows hrows h)
        (fun raw hraw => hR.fresh i l st raw hi hraw) (fun _ hsp => ⟨st, hi, hsp⟩)
        (fun hx hst => ⟨hlive hx hst, hR.unfailed i l st hi hx hst⟩)
      exact ⟨hR', .kept (token_of_rows hrows h) hback⟩

/-- **One step.** -/
theorem Rotation.step {p : ServerPool} {e : ServerEvent} {v' : View World Request Progress}
    (hk : (tokens s).Kept p) (hR : Rotation s h ((tokens s).view p))
    (hc : exchangesInOrder s h p e)
    (hs : (tokens s).ViewStep (server s) ((tokens s).view p) e v') :
    Rotation s h v' ∧ Turned s h ((tokens s).view p) e v' := by
  generalize hv : (tokens s).view p = v at hs
  rw [hv] at hR
  cases hs with
  | start hi hw =>
      cases hw
      obtain ⟨hR', hback⟩ := hR.update {} hR.drawn rfl nofun nofun
        (fun _ hst => by cases hst)
      exact ⟨hR', .kept rfl hback⟩
  | call hi hn hcall => exact hR.call hv hk hc hi (move_of_next hn hcall)
  | finish hi _ hw =>
      cases hw
      exact ⟨hR.remove.1, .kept rfl hR.remove.2⟩
  | lose hi hw =>
      cases hw
      exact ⟨hR.remove.1, .kept rfl hR.remove.2⟩
  | env he => exact he.elim

end Step

/-! ### Every run -/

/-- A missing row is reported by lookups only. -/
theorem call_noRows {hashToken : String → String} {op : Op} {w w' : World}
    (hc : Call hashToken op w (.error .noRows) w') : op.isLookup = true := by
  generalize hr : (Except.error .noRows : Except GoError op.Res) = r at hc
  cases hc with
  | answer hop w =>
      cases op <;> simp only [World.answer] at hr <;> first
        | rfl
        | cases hr
        | (split at hr <;> cases hr)
  | fault => cases hr
  | hash => cases hr
  | token => cases hr
  | code => cases hr
  | sign => cases hr
  | mail => cases hr
  | now => cases hr
  | newUUID => cases hr

/-- The calls answer what the protocol reckons with. -/
theorem expects_of_call {l : Request} {st : Progress} {op : Op} {r : Except GoError op.Res}
    {w w' : World} (hc : Call s.hashToken op w r w') : (tokens s).expects l st ⟨op, r⟩ := by
  constructor
  · rintro h' t heq
    cases heq
    have hanswer := call_ok rfl hc
    simp only [World.answer] at hanswer
    have hhash := List.find?_some (orNoRows_ok (Prod.mk.inj hanswer).1)
    exact beq_iff_eq.mp hhash
  · intro hr
    rcases r with e | a
    · cases hr
      exact call_noRows hc
    · cases hr

/-- The answers a step brings are expected. -/
theorem expected_of_step {p p' : ServerPool} {e : ServerEvent} (hs : Step (server s) p e p') :
    (tokens s).Expected ((tokens s).view p) e := by
  rintro i a l st rfl -
  cases hs with
  | call _ hc => exact expects_of_call hc

/-- What a run keeps, provided that every step does. -/
theorem keeps_of_run {C : ServerPool → ServerEvent → Prop}
    (hC : ∀ p e, C p e → exchangesInOrder s h p e) {I : View World Request Progress → Prop}
    (hI : ∀ p e v', (tokens s).Kept p → Rotation s h ((tokens s).view p) →
      I ((tokens s).view p) → C p e →
      (tokens s).ViewStep (server s) ((tokens s).view p) e v' →
      Turned s h ((tokens s).view p) e v' → I v')
    {p p' : ServerPool} {evs} (hrun : Run (server s) C p evs p') (hk : (tokens s).Kept p)
    (hR : Rotation s h ((tokens s).view p)) (h0 : I ((tokens s).view p)) :
    (tokens s).Kept p' ∧ Rotation s h ((tokens s).view p') ∧ I ((tokens s).view p') := by
  refine hrun.view_invariant (P := tokens s) (I := fun _ v => Rotation s h v ∧ I v)
    keeps_request (fun _ _ _ _ _ _ _ hs => expected_of_step hs) ?_ hk ⟨hR, h0⟩
  rintro - p e v' hk ⟨hR, h⟩ hc hs
  obtain ⟨hR', ht⟩ := hR.step hk (hC p e hc) hs
  exact ⟨hR', hI p e v' hk hR h hc hs ht⟩

theorem Closed.turn {v v' : View World Request Progress} {e : ServerEvent} (hcl : Closed s h v)
    (ht : Turned s h v e v') : Closed s h v' := by
  cases ht with
  | kept htoken hback => exact ⟨htoken.trans hcl.1, fun j hj => hcl.2 j (hback j hj)⟩
  | spent _ _ _ hfound =>
      rw [hcl.1] at hfound
      cases hfound
  | loggedOut _ _ hgone hnone => exact ⟨hgone, hnone⟩

/-- Who issues a session is exchanging the token, and is not any more afterwards. -/
theorem live_of_issue {p : ServerPool} {e : ServerEvent} {v' : View World Request Progress}
    (hk : (tokens s).Kept p) (hI : IssuesFor s h p e)
    (hs : (tokens s).ViewStep (server s) ((tokens s).view p) e v') :
    ∃ i, Live s h ((tokens s).view p) i ∧ ¬ Live s h v' i := by
  obtain ⟨i, arg, u, t, rfl, hti, hl⟩ := hI
  obtain ⟨st₀, htrack, -⟩ := hk i t hti
  have hphase := Protocol.view_phases_of_thread hti htrack
  generalize hv : (tokens s).view p = v at hs hphase
  cases hs with
  | @call w w' ph _ l st st' op r hi hn hcall =>
      obtain ⟨rfl, rfl⟩ := Prod.mk.inj (Option.some.inj (hphase.symm.trans hi))
      cases move_of_next hn hcall with
      | stored _ _ _ hsp hissued _ _ =>
          refine ⟨i, ⟨t.label, st₀, hi, hl, ?_⟩, ?_⟩
          · simp only [Progress.exchanging, hsp hl.1, hissued, Bool.not_false, Bool.and_self]
          · rintro ⟨l₁, st₁, hp, -, hst⟩
            rcases update_some_eq_some hp with ⟨-, hx⟩ | ⟨hne, -⟩
            swap
            · exact hne rfl
            cases hx
            simp only [Progress.exchanging, Bool.not_true, Bool.and_false,
              Bool.false_eq_true] at hst
      | other _ _ hop => cases hop

/-- Once a session was issued for it, the token is closed. -/
theorem closed_of_issue {p : ServerPool} {e : ServerEvent} {v' : View World Request Progress}
    (hk : (tokens s).Kept p) (hR : Rotation s h ((tokens s).view p)) (hI : IssuesFor s h p e)
    (hs : (tokens s).ViewStep (server s) ((tokens s).view p) e v')
    (ht : Turned s h ((tokens s).view p) e v') : Closed s h v' := by
  obtain ⟨i, hlive, hdone⟩ := live_of_issue hk hI hs
  obtain ⟨k, arg, u, t, he, -⟩ := hI
  subst he
  cases ht with
  | kept htoken hback =>
      refine ⟨?_, fun j hj => ?_⟩
      · obtain ⟨l, st, hi, hl, hst⟩ := hlive
        rw [htoken]
        exact hR.gone i l st hi hl.2 (Bool.and_eq_true_iff.mp hst).1
      · rw [hR.single j i (hback j hj) hlive] at hj
        exact hdone hj

/-- A logout that completes has deleted the token. -/
theorem closed_of_logout {p : ServerPool} {e : ServerEvent} {v' : View World Request Progress}
    (hR : Rotation s h ((tokens s).view p)) (hk : (tokens s).Kept p)
    (hL : CompletesLogout s h p e)
    (hs : (tokens s).ViewStep (server s) ((tokens s).view p) e v')
    (ht : Turned s h ((tokens s).view p) e v') : Closed s h v' := by
  obtain ⟨i, r, t, he, hti, hl⟩ := hL
  subst he
  obtain ⟨st₀, htrack, -⟩ := hk i t hti
  have hphase := Protocol.view_phases_of_thread hti htrack
  refine Closed.turn ?_ ht
  generalize (tokens s).view p = v at hs hphase hR
  cases hs with
  | finish hi hends _ =>
      obtain ⟨rfl, rfl⟩ := Prod.mk.inj (Option.some.inj (hphase.symm.trans hi))
      have hsp := hends.2 hl.1 rfl
      exact ⟨hR.gone i _ _ hi hl.2 hsp, hR.loggedOut i _ _ hi hl hsp⟩

/-- Who is exchanging the token goes on to do so until a session is issued. -/
theorem live_stays {p : ServerPool} {e : ServerEvent} {v' : View World Request Progress} {i : ℕ}
    (hk : (tokens s).Kept p) (hR : Rotation s h ((tokens s).view p))
    (hc : exchangesInOrder s h p e) (hI : ¬ IssuesFor s h p e)
    (hs : (tokens s).ViewStep (server s) ((tokens s).view p) e v')
    (hlive : Live s h ((tokens s).view p) i) : Live s h v' i := by
  have hthread : ∀ {j l st}, ((tokens s).view p).phases j = some (l, st) →
      ∃ t, p.threads j = some t ∧ t.label = l := fun hj =>
    let ⟨t, ht, hl, _, _⟩ := hk.thread_of_view hj
    ⟨t, ht, hl⟩
  -- under the condition the exchange is not lost, and fails at most for want of a row
  have hlose : e = .lose i → False := by
    rintro rfl
    exact hc ((live_iff hk).mp hlive)
  have hfail : ∀ op err, e = .call i ⟨op, .error err⟩ → err ≠ .noRows → False := by
    rintro op err rfl he
    exact exchangesInOrder_error hc he hk hlive
  generalize (tokens s).view p = v at hs hlive hR hthread
  obtain ⟨l, st, hi, hl, hst⟩ := hlive
  have hst' := Bool.and_eq_true_iff.mp hst
  rw [Bool.not_eq_true'] at hst'
  -- what other requests do, does not change its phase
  have hother : ∀ {w j x}, i ≠ j → Live s h ⟨w, Function.update v.phases j x⟩ i := by
    intro w j x hj
    refine ⟨l, st, ?_, hl, hst⟩
    rw [show (View.mk w (Function.update v.phases j x)).phases i = v.phases i from
      Function.update_of_ne hj ..]
    exact hi
  cases hs with
  | @start w w' ph j l' hj _ =>
      refine hother fun hij => ?_
      subst hij
      rw [show (View.mk w ph).phases i = none from hj] at hi
      cases hi
  | @call w w' ph j l' st₁ st₂ op r hj hn hcall =>
      by_cases hij : i = j
      swap
      · exact hother hij
      subst hij
      obtain ⟨rfl, rfl⟩ := Prod.mk.inj (Option.some.inj (hi.symm.trans hj))
      have hself := Function.update_self i (some (l, st₂)) ph
      cases move_of_next hn hcall with
      -- it has deleted the token already
      | deleted _ _ _ hsp =>
          rw [hst'.1] at hsp
          cases hsp
      | drew => exact ⟨l, _, hself, hl, hst⟩
      | stored arg u =>
          obtain ⟨t, ht, rfl⟩ := hthread hi
          exact absurd ⟨i, arg, u, t, rfl, ht, hl⟩ hI
      | noRows => exact ⟨l, _, hself, hl, hst⟩
      | failure _ _ he => exact (hfail op _ rfl he).elim
      | other => exact ⟨l, _, hself, hl, hst⟩
  | @finish w w' ph j l' st₁ out hj hends _ =>
      by_cases hij : i = j
      swap
      · exact hother hij
      subst hij
      obtain ⟨rfl, rfl⟩ := Prod.mk.inj (Option.some.inj (hi.symm.trans hj))
      obtain ⟨hok, herr⟩ := hends.1 hl.1
      -- it ends well only with a session
      rcases hout : out.isOk with - | -
      · have := hR.unfailed i l st hi hl hst
        rw [herr hout hst'.1] at this
        cases this
      · rw [hok hout] at hst'
        cases hst'.2
  | @lose w w' ph j l' st₁ hj _ =>
      refine hother fun hij => ?_
      subst hij
      exact hlose rfl
  | env he => exact he.elim

/-- Without logouts and without a new session, the token is as it was, or it is being
exchanged. -/
def Waiting (s : Service) (h : String) (t₀ : Option RefreshToken)
    (v : View World Request Progress) : Prop :=
  (∀ i l st, v.phases i = some (l, st) → ¬ l.LogsOut s h) ∧
    (v.world.token h = t₀ ∨ ∃ i, Live s h v i)

/-- While no session is issued, the token waits or is being exchanged. -/
theorem Waiting.step {t₀ : Option RefreshToken} {p : ServerPool} {e : ServerEvent}
    {v' : View World Request Progress} (hk : (tokens s).Kept p)
    (hR : Rotation s h ((tokens s).view p)) (hW : Waiting s h t₀ ((tokens s).view p))
    (hc : exchangesInOrder s h p e) (hI : ¬ IssuesFor s h p e) (hL : ¬ StartsLogout s h e)
    (hs : (tokens s).ViewStep (server s) ((tokens s).view p) e v')
    (ht : Turned s h ((tokens s).view p) e v') : Waiting s h t₀ v' := by
  have hnone : ∀ i l st, v'.phases i = some (l, st) → ¬ l.LogsOut s h := by
    have hold := hW.1
    intro i l st hi hl
    generalize (tokens s).view p = v at hs hold
    cases hs with
    | start _ _ =>
        rcases update_some_eq_some hi with ⟨-, hx⟩ | ⟨-, hi⟩
        · cases hx
          exact hL ⟨_, _, rfl, hl⟩
        · exact hold i l st hi hl
    | call hj _ _ =>
        rcases update_some_eq_some hi with ⟨-, hx⟩ | ⟨-, hi⟩
        · cases hx
          exact hold _ _ _ hj hl
        · exact hold i l st hi hl
    | finish => exact hold i l st (update_none_eq_some hi).2 hl
    | lose => exact hold i l st (update_none_eq_some hi).2 hl
    | env => exact hold i l st hi hl
  refine ⟨hnone, ?_⟩
  rcases hW.2 with htoken | ⟨i, hlive⟩
  · cases ht with
    | kept hsame => exact Or.inl (hsame.trans htoken)
    | spent hi hl hst => exact Or.inr ⟨_, _, _, hi, hl, hst⟩
    | loggedOut hi hl => exact absurd hl (hnone _ _ _ hi)
  · exact Or.inr ⟨i, live_stays hk hR hc hI hs hlive⟩

/-- After it is closed, nobody issues a session for the token. -/
theorem no_issue_of_closed {C : ServerPool → ServerEvent → Prop}
    (hC : ∀ p e, C p e → exchangesInOrder s h p e) {p p' p'' : ServerPool} {evs e}
    (hrun : Run (server s) C p evs p') (hk : (tokens s).Kept p)
    (hR : Rotation s h ((tokens s).view p)) (hcl : Closed s h ((tokens s).view p))
    (hstep : Step (server s) p' e p'') : ¬ IssuesFor s h p' e := by
  obtain ⟨hk', -, hcl'⟩ := keeps_of_run hC (I := Closed s h)
    (fun _ _ _ _ _ hcl _ _ ht => hcl.turn ht) hrun hk hR hcl
  intro hI
  obtain ⟨hv, -⟩ := Protocol.view_step keeps_request hk' hstep (expected_of_step hstep)
  obtain ⟨i, hlive, -⟩ := live_of_issue hk' hI hv
  exact hcl'.2 i hlive

end Invariant

/-- **A refresh token is exchanged at most once, not after a logout, and it is not lost**,
in every run of requests in which calls fail and requests are cut short at any point, as long
as a refresh that deletes it still finds it and does not fail any more, and no logout
deletes it meanwhile. -/
theorem exchanged_once {s : Service} {h : String} {w : World} (h0 : h ∈ w.drawn) :
    ExchangedOnce s h (exchangesInOrder s h) (idle w) := by
  have hk0 : (tokens s).Kept (idle w) := Protocol.kept_of_idle fun _ => rfl
  have hR0 : Rotation s h ((tokens s).view (idle w)) :=
    ⟨h0, nofun, nofun, by rintro _ _ ⟨_, _, ⟨⟩, _⟩, nofun, nofun⟩
  have hreach : ∀ {evs p}, Run (server s) (exchangesInOrder s h) (idle w) evs p →
      (tokens s).Kept p ∧ Rotation s h ((tokens s).view p) := by
    intro evs p hrun
    obtain ⟨hk, hR, -⟩ := keeps_of_run (fun _ _ hc => hc) (I := fun _ => True)
      (fun _ _ _ _ _ _ _ _ _ => True.intro) hrun hk0 hR0 True.intro
    exact ⟨hk, hR⟩
  constructor
  · intro evs p₁ e p₂ evs' p₃ e' p₄ hrun hc hs hI hrun' _ hs'
    obtain ⟨hk, hR⟩ := hreach hrun
    obtain ⟨hv, hk'⟩ := Protocol.view_step keeps_request hk hs (expected_of_step hs)
    obtain ⟨hR', ht⟩ := hR.step hk hc hv
    exact no_issue_of_closed (fun _ _ hc => hc) hrun' hk' hR' (closed_of_issue hk hR hI hv ht) hs'
  · intro evs p₁ e p₂ evs' p₃ e' p₄ hrun hc hs hL hrun' _ hs'
    obtain ⟨hk, hR⟩ := hreach hrun
    obtain ⟨hv, hk'⟩ := Protocol.view_step keeps_request hk hs (expected_of_step hs)
    obtain ⟨hR', ht⟩ := hR.step hk hc hv
    exact no_issue_of_closed (fun _ _ hc => hc) hrun' hk' hR' (closed_of_logout hR hk hL hv ht) hs'
  · intro evs p hrun hidle
    obtain ⟨hk, -, -, hW⟩ := keeps_of_run (fun _ _ hc => hc.1) (I := Waiting s h (w.token h))
      (fun _ _ _ hk hR hW hc hs ht => hW.step hk hR hc.1 hc.2.1 hc.2.2 hs ht) hrun hk0 hR0
      ⟨nofun, Or.inl rfl⟩
    rcases hW with hsame | ⟨i, hlive⟩
    · exact hsame
    · obtain ⟨t, ht, hl, -⟩ := (live_iff hk).mp hlive
      exact absurd hl.2 (hidle i t ht)

/-! ### Sample runs -/

/-- A test for `IssuesFor`. -/
def issuesFor (s : Service) (h : String) (p : ServerPool) : ServerEvent → Bool
  | .call i ⟨.createRefreshToken _, .ok _⟩ =>
      (p.threads i).any fun t => t.label.isRefresh && t.label.presented s == some h
  | _ => false

theorem issuesFor_sound {s : Service} {h : String} {p : ServerPool} {e : ServerEvent}
    (he : issuesFor s h p e = true) : IssuesFor s h p e := by
  unfold issuesFor at he
  split at he
  · next i arg u =>
      rcases ht : p.threads i with - | t
      · rw [ht] at he
        cases he
      · rw [ht, Option.any_some, Bool.and_eq_true, beq_iff_eq] at he
        exact ⟨i, arg, u, t, rfl, ht, he⟩
  · cases he

/-- A test that is passed only by runs without logouts. -/
def refreshesInOrder (h : String) (p : ServerPool) : ServerEvent → Bool
  | .call i ⟨.deleteRefreshTokenByHash _, .ok _⟩ =>
      (p.threads i).all (fun t => !t.label.isLogout) && (p.world.token h).isSome
  | .call _ ⟨_, .error e⟩ => e == .noRows
  | .lose _ => false
  | _ => true

/-- What passes the test meets the condition. -/
theorem refreshesInOrder_sound {s : Service} {h : String} {p : ServerPool} {e : ServerEvent}
    (he : refreshesInOrder h p e = true) : exchangesInOrder s h p e := by
  cases e with
  | start => exact True.intro
  | finish => exact True.intro
  | lose => cases he
  | env => exact True.intro
  | call i a =>
      obtain ⟨op, err | u⟩ := a
      · have hno : (err == .noRows) = true := by cases op <;> exact he
        have hskip : err ≠ .noRows → ¬ Exchanging s h p i := fun hne =>
          absurd (beq_iff_eq.mp hno) hne
        cases op <;> exact hskip
      · cases op with
        | deleteRefreshTokenByHash h' =>
            obtain ⟨hno, hfound⟩ := Bool.and_eq_true_iff.mp he
            refine fun _ => ⟨fun _ _ _ => hfound, fun t ht hl => ?_⟩
            rw [ht, Option.all_some, hl] at hno
            cases hno
        | _ => exact True.intro

namespace Sample

def firstHash : String := hashToken "first-token"

/-- Ada is signed in with one token. -/
def signedIn : World where
  users := [ada]
  verifications := .empty _
  identities := []
  refreshTokens := [⟨.ofDigit 7, userID, firstHash, some 500⟩]
  organizations := [⟨organizationID, "Untitled Organization"⟩]
  members := [⟨.ofDigit 3, organizationID, userID, "owner", 1⟩]
  environments := [⟨.ofDigit 4, organizationID, "development", true⟩]
  stored := 0
  drawn := [firstHash]

/-- The calls of a refresh up to the delete, and from there up to the new token. -/
def checking : List Choice := [.run, .time 10, .run]

def issuing (raw : String) (id : UUID) : List Choice :=
  [.time 10, .run, .run, .text "jwt", .text raw, .uuid id]

end Sample

/-- Two refreshes with one token meet the conditions, when the second one does not get to its
delete, and a third one comes too late. -/
theorem exchanged_once_threeRequests :
    ExchangedOnce Sample.service Sample.firstHash
        (exchangesInOrder Sample.service Sample.firstHash) (idle Sample.signedIn) ∧
      ∃ evs p₁ e p₂, Run (server Sample.service)
          (exchangesInOrder Sample.service Sample.firstHash) (idle Sample.signedIn) evs p₁ ∧
        Step (server Sample.service) p₁ e p₂ ∧
        IssuesFor Sample.service Sample.firstHash p₁ e := by
  refine ⟨exchanged_once (List.mem_singleton_self _), ?_⟩
  obtain ⟨evs, p₁, e, p₂, hrun, -, hs, hI⟩ := Player.step_of_check
    (p := serverPlayer Sample.service (C := exchangesInOrder Sample.service Sample.firstHash)
      (refreshesInOrder Sample.firstHash) refreshesInOrder_sound)
    ([.start 0 (.refresh "first-token"), .start 1 (.refresh "first-token")] ++
      Turn.calls 0 Sample.checking ++ Turn.calls 1 Sample.checking ++
      [.call 0 .run, .start 2 (.refresh "first-token"), .call 2 .run] ++
      Turn.calls 0 (Sample.issuing "second-token" (.ofDigit 8)))
    (.call 0 .run) (idle Sample.signedIn)
    (fun p e _ => issuesFor Sample.service Sample.firstHash p e) (by decide +kernel)
  exact ⟨evs, p₁, e, p₂, hrun, hs, issuesFor_sound hI⟩

/-- Two refreshes with one token both issue a session. -/
theorem exchanged_twice :
    ¬ ExchangedOnce Sample.service Sample.firstHash (fun _ _ => True) (idle Sample.signedIn) := by
  intro hlaws
  let player : Player (server Sample.service) (fun _ _ => True) Choice :=
    serverPlayer Sample.service (fun _ _ => true) fun _ => True.intro
  obtain ⟨evs, p₁, e, p₂, hrun, -, hs, hcheck⟩ := Player.step_of_check (p := player)
    ([.start 0 (.refresh "first-token"), .start 1 (.refresh "first-token")] ++
      Turn.calls 0 Sample.checking ++ Turn.calls 1 Sample.checking ++
      [.call 0 .run, .call 1 .run] ++ Turn.calls 0 (Sample.issuing "second-token" (.ofDigit 8)))
    (.call 0 .run) (idle Sample.signedIn)
    (fun p e p' => issuesFor Sample.service Sample.firstHash p e &&
      (player.play (Turn.calls 1 (Sample.issuing "third-token" (.ofDigit 9))) p').any fun x =>
        (player.take x.2 (.call 1 .run)).any fun y =>
          issuesFor Sample.service Sample.firstHash x.2 y.1) (by decide +kernel)
  rw [Bool.and_eq_true] at hcheck
  obtain ⟨evs', p₃, e', p₄, hrun', -, hs', hI'⟩ := Player.step_of_check (p := player) _ _ _
    (fun p e _ => issuesFor Sample.service Sample.firstHash p e) hcheck.2
  exact hlaws.once hrun True.intro hs (issuesFor_sound hcheck.1) hrun' True.intro hs'
    (issuesFor_sound hI')

end Iwifunni.Auth
