/-
Iwifunni/Auth/Footprint.lean

Which calls the programs of the service make.

The calls fall into groups, by the table they work on.  A program within some
groups makes no others (`Within`), whatever the answers are; what a property of
the service has to say of a request is then often that nothing happens.
-/
import Iwifunni.Auth.Service

namespace Iwifunni.Auth

open Go Db Effect Effect.Prog

/-- The groups of calls. -/
inductive Group
  /-- Lookups of users. -/
  | user
  /-- Changes of users. -/
  | account
  /-- A new verification code. -/
  | issue
  /-- Reading and deleting a verification code. -/
  | code
  | tenant
  | identity
  | token
  /-- Random values, the clock, the mailer. -/
  | value
  deriving DecidableEq

def Op.group : Op → Group
  | getUserByEmail _ | getUserByID _ => .user
  | createUser _ | updateUserEmailVerifiedAt _ _ | updateUserPassword _ _ => .account
  | upsertEmailVerification _ _ _ => .issue
  | getEmailVerificationByUserID _ | deleteEmailVerificationByUserID _ => .code
  | createOrganization _ | createOrganizationMember _ | getFirstOrganizationMembershipByUser _
  | createEnvironment _ | getDefaultEnvironmentByOrganization _ => .tenant
  | createAuthIdentity _ | getAuthIdentityByProviderUserID _ _ => .identity
  | createRefreshToken _ | getRefreshTokenByHash _ | deleteRefreshTokenByHash _
  | drawRefreshToken => .token
  | generateFromPassword _ | drawVerificationCode | generateAccessToken _ _ _
  | sendVerificationCode _ _ | now | newUUID => .value

/-- The program makes calls of these groups only. -/
def Within (gs : List Group) (p : Act α) : Prop := Calls (fun op => op.group ∈ gs) p

section Rules

variable {gs gs' : List Group} {op : Op}

theorem Within.mono {p : Act α} (h : Within gs p) (hgs : ∀ g ∈ gs, g ∈ gs') : Within gs' p :=
  Calls.mono (fun _ hop => hgs _ hop) h

theorem Within.bind {p : Act α} {f : α → Act β} (hp : Within gs p) (hf : ∀ a, Within gs (f a)) :
    Within gs (p >>= f) :=
  Calls.bind hp hf

theorem within_ret (a : α) : Within gs (ret a) := calls_ret a

theorem within_fail (e : GoError) : Within gs (fail e : Act α) := calls_fail e

theorem within_ask (h : op.group ∈ gs) : Within gs (ask op) := calls_ask h

theorem within_perform (h : op.group ∈ gs) : Within gs (perform op) := calls_perform h

theorem within_fetch (missing : GoError) (h : op.group ∈ gs) : Within gs (fetch missing op) := by
  refine (within_ask h).bind fun r => ?_
  split
  · exact within_ret _
  · exact within_fail _
  · exact within_fail _

theorem Within.ite {c : Prop} [Decidable c] {p q : Act α} (hp : Within gs p)
    (hq : Within gs q) : Within gs (if c then p else q) := by
  split
  · exact hp
  · exact hq

theorem Within.calls {p : Act α} (h : Within gs p) : Calls (fun op => op.group ∈ gs) p := h

end Rules

-- a program is taken apart by these rules only
attribute [irreducible] Within

/-- A lookup that turns a missing row into another error, in a protocol. -/
theorem keeps_fetch_bind {σ : Type} {P : Protocol Request Op.Res GoError Reply σ} {l : Request}
    {post : σ → Except GoError β → Prop} {missing : GoError} {op : Op} {f : op.Res → Act β}
    {st : σ}
    (hok : ∀ row, P.expects l st ⟨op, .ok row⟩ →
      ∃ st', P.next l st ⟨op, .ok row⟩ = some st' ∧ Keeps P l post (f row) st')
    (herr : ∀ e, P.expects l st ⟨op, .error e⟩ →
      ∃ st', P.next l st ⟨op, .error e⟩ = some st' ∧ ∀ e', post st' (.error e')) :
    Keeps P l post (fetch missing op >>= f) st := by
  have hfetch : Keeps P l (fun st' r => (∀ row, r = .ok row → Keeps P l post (f row) st') ∧
      ∀ e, r = .error e → post st' (.error e)) (fetch missing op) st := by
    refine keeps_ask_bind fun r hr => ?_
    rcases r with e | row
    · obtain ⟨st', hnext, hpost⟩ := herr e hr
      refine ⟨st', hnext, ?_⟩
      cases e <;> exact keeps_fail.mpr ⟨nofun, fun e' _ => hpost e'⟩
    · obtain ⟨st', hnext, hkeep⟩ := hok row hr
      refine ⟨st', hnext, keeps_ret.mpr ⟨?_, nofun⟩⟩
      rintro row' ⟨⟩
      exact hkeep
  exact keeps_bind hfetch (fun st' row h => h.1 row rfl) fun st' e h => h.2 e rfl

/-! ### The parts -/

variable {s : Service}

theorem within_createSeedEnvironments (organizationID : UUID) :
    Within [.tenant, .value] (createSeedEnvironments organizationID) :=
  .bind (within_perform (by decide)) fun _ => .bind (within_perform (.head _)) fun _ =>
    .bind (within_perform (by decide)) fun _ => .bind (within_perform (.head _)) fun _ =>
    within_ret _

/-- What `ensurePrimaryTenant` calls. -/
theorem within_ensurePrimaryTenant (userID : UUID) (nowTs : Time) :
    Within [.tenant, .value] (ensurePrimaryTenant userID nowTs) := by
  refine .bind (within_ask (.head _)) fun r => ?_
  split
  · refine .bind (within_ask (.head _)) fun r => ?_
    split
    · exact within_ret _
    · exact .bind (within_createSeedEnvironments _) fun _ => within_ret _
    · exact within_fail _
  · exact .bind (within_perform (by decide)) fun _ => .bind (within_perform (.head _)) fun _ =>
      .bind (within_perform (by decide)) fun _ => .bind (within_perform (.head _)) fun _ =>
      .bind (within_createSeedEnvironments _) fun _ => within_ret _
  · exact within_fail _

theorem within_issueSession (userID organizationID : UUID) (role : String) (nowTs : Time) :
    Within [.token, .value] (issueSession s userID organizationID role nowTs) :=
  .bind (within_perform (.tail _ (.head _))) fun _ => .bind (within_perform (by decide)) fun _ =>
    .bind (within_perform (by decide)) fun _ => .bind (within_perform (.head _)) fun _ =>
    within_ret _

theorem within_signIn (userID : UUID) (b : Bool) (nowTs : Time) :
    Within [.tenant, .token, .value] (signIn s userID b nowTs) :=
  .bind ((within_ensurePrimaryTenant _ _).mono (by decide)) fun _ =>
    .bind ((within_issueSession ..).mono (by decide)) fun _ => within_ret _

theorem within_hashPassword (password : String) : Within [.value] (hashPassword password) := by
  unfold hashPassword
  split
  · exact within_fail _
  · exact within_perform (.head _)

theorem within_createAndSendVerification (userID : UUID) (email : String) :
    Within [.issue, .value] (createAndSendVerification s userID email) :=
  .bind (within_perform (by decide)) fun _ => .bind (within_perform (by decide)) fun _ =>
    .bind (within_perform (.head _)) fun _ => .bind (within_perform (.tail _ (.head _))) fun _ =>
    within_ret _

/-- What the check of a code calls. -/
theorem within_checkCode (userID : UUID) (code : String) :
    Within [.code, .value] (checkCode s userID code) := by
  refine .bind (within_fetch _ (.head _)) fun v => ?_
  split
  · exact within_fail _
  · refine .bind (within_perform (by decide)) fun now => ?_
    split
    · exact within_fail _
    · split
      · exact within_ret _
      · exact within_fail _

theorem within_verifyAddress (user : Account) (nowTs : Time) :
    Within [.account] (verifyAddress user nowTs) := by
  unfold verifyAddress
  split
  · exact within_perform (.head _)
  · exact within_ret _

theorem within_socialAccount (found : Except GoError Account)
    (email firstName lastName : String) (nowTs : Time) :
    Within [.account, .value] (socialAccount found email firstName lastName nowTs) := by
  unfold socialAccount
  split
  · exact .bind ((within_verifyAddress _ _).mono (by decide)) fun _ => within_ret _
  · exact .bind (within_perform (by decide)) fun _ => .bind (within_perform (.head _)) fun _ =>
      within_ret _
  · exact within_fail _

/-! ### The requests -/

theorem within_resendVerification (email : String) :
    Within [.user, .issue, .value] (s.resendVerification email) := by
  refine .bind (within_ask (.head _)) fun r => ?_
  split
  · exact within_ret _
  · exact within_fail _
  · split
    · exact within_fail _
    · exact .bind ((within_createAndSendVerification _ _).mono (by decide)) fun _ => within_ret _

theorem within_forgotPassword (email : String) :
    Within [.user, .issue, .value] (s.forgotPassword email) := by
  refine .bind (within_ask (.head _)) fun r => ?_
  split
  · exact within_ret _
  · exact within_fail _
  · exact .bind ((within_createAndSendVerification _ _).mono (by decide)) fun _ => within_ret _

theorem within_verifyResetCode (email code : String) :
    Within [.user, .code, .value] (s.verifyResetCode email code) :=
  .bind (within_fetch _ (.head _)) fun _ => .bind ((within_checkCode _ _).mono (by decide)) fun _ =>
    within_ret _

/-- What a reset calls. -/
theorem within_resetPassword (email code newPassword : String) :
    Within [.user, .account, .code, .value] (s.resetPassword email code newPassword) := by
  unfold Service.resetPassword
  split
  · exact within_fail _
  · exact .bind (within_fetch _ (.head _)) fun _ =>
      .bind ((within_checkCode _ _).mono (by decide)) fun _ =>
      .bind ((within_hashPassword _).mono (by decide)) fun _ =>
      .bind (within_perform (by decide)) fun _ =>
      .bind (within_perform (.tail _ (.head _))) fun _ =>
      .bind (within_perform (.tail _ (.tail _ (.head _)))) fun _ => within_ret _

/-- What a signup calls. -/
theorem within_signup (firstName lastName email password : String) :
    Within [.user, .account, .issue, .tenant, .value]
      (s.signup firstName lastName email password) := by
  refine .bind (within_ask (.head _)) fun r => ?_
  split
  · exact within_fail _
  · exact .bind (within_perform (by decide)) fun _ => .bind (within_perform (by decide)) fun _ =>
      .bind ((within_hashPassword _).mono (by decide)) fun _ =>
      .bind (within_perform (.tail _ (.head _))) fun _ =>
      .bind ((within_ensurePrimaryTenant _ _).mono (by decide)) fun _ =>
      .bind ((within_createAndSendVerification _ _).mono (by decide)) fun _ => within_ret _
  · exact within_fail _

/-- What a social sign-in calls. -/
theorem within_signinWithSocial (input : SocialSigninInput) :
    Within [.user, .account, .identity, .tenant, .token, .value] (s.signinWithSocial input) := by
  unfold Service.signinWithSocial
  extract_lets provider providerUserID email
  clear_value provider providerUserID email
  refine Within.ite (within_fail _) ?_
  refine Within.ite (within_fail _) ?_
  refine Within.ite (within_fail _) ?_
  generalize normalizeSocialNames input.firstName input.lastName input.fullName email = names
  obtain ⟨firstName, lastName⟩ := names
  refine Within.bind (within_perform (by decide)) fun nowTs => ?_
  refine Within.bind (within_ask (.tail _ (.tail _ (.head _)))) fun r => ?_
  split
  · exact .bind (within_perform (.head _)) fun _ =>
      .bind ((within_verifyAddress _ _).mono (by decide)) fun _ =>
      (within_signIn ..).mono (by decide)
  · exact .bind (within_ask (.head _)) fun _ =>
      .bind ((within_socialAccount ..).mono (by decide)) fun _ =>
      .bind (within_perform (by decide)) fun _ =>
      .bind (within_perform (.tail _ (.tail _ (.head _)))) fun _ =>
      (within_signIn ..).mono (by decide)
  · exact within_fail _

theorem within_signin (email password : String) :
    Within [.user, .tenant, .token, .value] (s.signin email password) := by
  refine .bind (within_fetch _ (.head _)) fun user => ?_
  split
  · exact within_fail _
  · split
    · exact .bind (within_perform (by decide)) fun _ => (within_signIn ..).mono (by decide)
    · exact within_fail _

/-- What a refresh calls. -/
theorem within_refresh (refreshToken : String) :
    Within [.user, .tenant, .token, .value] (s.refresh refreshToken) := by
  unfold Service.refresh
  split
  · exact within_fail _
  refine .bind (within_fetch _ (.tail _ (.tail _ (.head _)))) fun t =>
    .bind (within_perform (by decide)) fun now => ?_
  split
  · exact within_fail _
  refine .bind (within_fetch _ (.head _)) fun user => ?_
  split
  · exact within_fail _
  exact .bind (within_perform (.tail _ (.tail _ (.head _)))) fun _ =>
    .bind (within_perform (by decide)) fun _ => (within_signIn ..).mono (by decide)

theorem within_logout (refreshToken : String) : Within [.token] (s.logout refreshToken) := by
  unfold Service.logout
  split
  · exact within_fail _
  · exact .bind (within_perform (.head _)) fun _ => within_ret _

end Iwifunni.Auth
