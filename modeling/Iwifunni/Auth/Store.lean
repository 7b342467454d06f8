/-
Iwifunni/Auth/Store.lean

The calls of the authentication service: statements on the database, random
values, the mailer.

`World.answer` is what a statement does by its SQL text and the constraints of
the schema.  Two things are kept besides the tables, so that statements about
runs can name them; no modelled function looks at them:

    serial    numbers the verification codes in the order they are stored
    drawn     the hashes of the refresh tokens there have been

Refresh tokens are 32 random bytes: a token is never drawn twice.
-/
import Iwifunni.Effect.Table
import Iwifunni.Effect.Prog
import Iwifunni.Types

namespace Iwifunni.Auth

open Go Db Effect Effect.Prog

/-! ### Rows -/

/-- A row of `users`, with the columns only the authentication reads. -/
structure Account extends User where
  passwordHash : String
  emailVerifiedAt : Option Time
  onboardingCompletedAt : Option Time

/-- A row of `email_verifications`. -/
structure EmailVerification where
  userID : UUID
  codeHash : String
  expiresAt : Option Time
  consumedAt : Option Time
  serial : ℕ

/-- A row of `auth_identities`. -/
structure AuthIdentity where
  id : UUID
  userID : UUID
  provider : String
  providerUserID : String
  email : String

/-- A row of `refresh_tokens`. -/
structure RefreshToken where
  id : UUID
  userID : UUID
  tokenHash : String
  expiresAt : Option Time
  deriving DecidableEq

/-- A row of `organizations`. -/
structure Organization where
  id : UUID
  name : String

/-- A row of `organization_members`. -/
structure OrganizationMember where
  id : UUID
  organizationID : UUID
  userID : UUID
  role : String
  createdAt : Time
  deriving DecidableEq

/-- A row of `environments`. -/
structure Environment where
  id : UUID
  organizationID : UUID
  name : String
  isDefault : Bool
  deriving DecidableEq

/-! ### Calls -/

inductive Op
  | createUser (arg : Account)
  | getUserByEmail (email : String)
  | getUserByID (id : UUID)
  | updateUserEmailVerifiedAt (id : UUID) (emailVerifiedAt : Time)
  | updateUserPassword (id : UUID) (passwordHash : String)
  | upsertEmailVerification (userID : UUID) (codeHash : String) (expiresAt : Option Time)
  | getEmailVerificationByUserID (userID : UUID)
  | deleteEmailVerificationByUserID (userID : UUID)
  | createOrganization (arg : Organization)
  | createOrganizationMember (arg : OrganizationMember)
  | getFirstOrganizationMembershipByUser (userID : UUID)
  | createEnvironment (arg : Environment)
  | getDefaultEnvironmentByOrganization (organizationID : UUID)
  | createAuthIdentity (arg : AuthIdentity)
  | getAuthIdentityByProviderUserID (provider providerUserID : String)
  | createRefreshToken (arg : RefreshToken)
  | getRefreshTokenByHash (tokenHash : String)
  | deleteRefreshTokenByHash (tokenHash : String)
  /-- `bcrypt.GenerateFromPassword` -/
  | generateFromPassword (password : String)
  /-- The token `GenerateRefreshToken` draws. -/
  | drawRefreshToken
  /-- The code `GenerateVerificationCode` draws. -/
  | drawVerificationCode
  /-- `jwtutil.GenerateAccessToken` -/
  | generateAccessToken (userID organizationID role : String)
  /-- `mailer.SendVerificationCode`, in the background -/
  | sendVerificationCode (toEmail code : String)
  | now
  | newUUID

/-- The answer of a call that succeeds. -/
abbrev Op.Res : Op → Type
  | createUser _ => Unit
  | getUserByEmail _ => Account
  | getUserByID _ => Account
  | updateUserEmailVerifiedAt _ _ => Unit
  | updateUserPassword _ _ => Unit
  | upsertEmailVerification _ _ _ => Unit
  | getEmailVerificationByUserID _ => EmailVerification
  | deleteEmailVerificationByUserID _ => Unit
  | createOrganization _ => Organization
  | createOrganizationMember _ => Unit
  | getFirstOrganizationMembershipByUser _ => OrganizationMember
  | createEnvironment _ => Environment
  | getDefaultEnvironmentByOrganization _ => Environment
  | createAuthIdentity _ => Unit
  | getAuthIdentityByProviderUserID _ _ => AuthIdentity
  | createRefreshToken _ => Unit
  | getRefreshTokenByHash _ => RefreshToken
  | deleteRefreshTokenByHash _ => Unit
  | generateFromPassword _ => String
  | drawRefreshToken => String
  | drawVerificationCode => String
  | generateAccessToken _ _ _ => String
  | sendVerificationCode _ _ => Unit
  | now => Time
  | newUUID => UUID

/-- A program of the service. -/
abbrev Act (α : Type) : Type := Prog Op.Res GoError α

/-! ### The database -/

structure World where
  users : List Account
  verifications : Table EmailVerification.userID
  identities : List AuthIdentity
  refreshTokens : List RefreshToken
  organizations : List Organization
  members : List OrganizationMember
  environments : List Environment
  /-- How many verification codes have been stored. -/
  stored : ℕ
  drawn : List String

/-- A row, or `pgx.ErrNoRows`. -/
def orNoRows (row : Option α) : Except GoError α :=
  match row with
  | some row => .ok row
  | none => .error .noRows

theorem orNoRows_ok {o : Option α} {a : α} (h : orNoRows o = .ok a) : o = some a := by
  cases o <;> cases h
  rfl

def constraintViolation : GoError := .other "new row violates a constraint"

/-- The first of the rows that joined earliest. -/
def earliest : List OrganizationMember → Option OrganizationMember
  | [] => none
  | m :: ms => match earliest ms with
    | some m' => if m'.createdAt < m.createdAt then some m' else some m
    | none => some m

/-- The earliest membership is one of them. -/
theorem mem_of_earliest {ms : List OrganizationMember} {m : OrganizationMember}
    (h : earliest ms = some m) : m ∈ ms := by
  induction ms with
  | nil => cases h
  | cons m₁ ms ih =>
      unfold earliest at h
      split at h
      · next m' hm' =>
          split at h <;> cases h
          · exact List.mem_cons_of_mem _ (ih hm')
          · exact List.mem_cons_self ..
      · cases h
        exact List.mem_cons_self ..

theorem earliest_eq_none {ms : List OrganizationMember} : earliest ms = none ↔ ms = [] := by
  cases ms with
  | nil => simp [earliest]
  | cons m ms =>
      unfold earliest
      split
      · split <;> simp
      · simp

namespace World

/-- Is there a user with this id? -/
def hasUser (w : World) (id : UUID) : Bool := w.users.any fun r => r.id == id

/-- Is there an organization with this id? -/
def hasOrganization (w : World) (id : UUID) : Bool := w.organizations.any fun r => r.id == id

/-- An UPDATE of the user with an id. -/
def modifyUser (w : World) (id : UUID) (f : Account → Account) : World :=
  { w with users := w.users.map fun r => if r.id == id then f r else r }

/-- The constraints on a new organization member. -/
def memberOk (w : World) (arg : OrganizationMember) : Bool :=
  w.hasOrganization arg.organizationID && ["owner", "admin", "member"].contains arg.role &&
    w.members.all fun r => r.id != arg.id &&
      !(r.organizationID == arg.organizationID && r.userID == arg.userID)

/-- The constraints on a new environment. -/
def environmentOk (w : World) (arg : Environment) : Bool :=
  w.hasOrganization arg.organizationID &&
    w.environments.all fun r => r.id != arg.id &&
      !(r.organizationID == arg.organizationID &&
        (r.name == arg.name || r.isDefault && arg.isDefault))

/-- The constraints on a new identity. -/
def identityOk (w : World) (arg : AuthIdentity) : Bool :=
  w.hasUser arg.userID && ["google", "github"].contains arg.provider &&
    w.identities.all fun r => r.id != arg.id &&
      !(r.provider == arg.provider &&
        (r.providerUserID == arg.providerUserID || r.userID == arg.userID))

/-- The constraints on a new refresh token. -/
def tokenOk (w : World) (arg : RefreshToken) : Bool :=
  w.hasUser arg.userID &&
    w.refreshTokens.all fun r => r.id != arg.id && r.tokenHash != arg.tokenHash

/-- The row `UpsertEmailVerification` writes. -/
def verification (w : World) (userID : UUID) (codeHash : String) (expiresAt : Option Time) :
    EmailVerification :=
  ⟨userID, codeHash, expiresAt, none, w.stored⟩

/-- What a statement does when nothing goes wrong. -/
def answer : (op : Op) → World → Except GoError op.Res × World
  | .createUser arg, w =>
      if w.users.all fun r => r.id != arg.id && r.email != arg.email then
        (.ok (), { w with users := w.users ++ [arg] })
      else (.error constraintViolation, w)
  | .getUserByEmail email, w => (orNoRows (w.users.find? fun r => r.email == email), w)
  | .getUserByID id, w => (orNoRows (w.users.find? fun r => r.id == id), w)
  | .updateUserEmailVerifiedAt id emailVerifiedAt, w =>
      (.ok (), w.modifyUser id fun r => { r with emailVerifiedAt := some emailVerifiedAt })
  | .updateUserPassword id passwordHash, w =>
      (.ok (), w.modifyUser id fun r => { r with passwordHash := passwordHash })
  | .upsertEmailVerification userID codeHash expiresAt, w =>
      if w.hasUser userID then
        (.ok (), { w with
          verifications := w.verifications.set (w.verification userID codeHash expiresAt)
          stored := w.stored + 1 })
      else (.error constraintViolation, w)
  | .getEmailVerificationByUserID userID, w => (orNoRows (w.verifications.get userID), w)
  | .deleteEmailVerificationByUserID userID, w =>
      (.ok (), { w with verifications := w.verifications.erase userID })
  | .createOrganization arg, w =>
      if w.hasOrganization arg.id then (.error constraintViolation, w)
      else (.ok arg, { w with organizations := w.organizations ++ [arg] })
  | .createOrganizationMember arg, w =>
      if w.memberOk arg then (.ok (), { w with members := w.members ++ [arg] })
      else (.error constraintViolation, w)
  | .getFirstOrganizationMembershipByUser userID, w =>
      (orNoRows (earliest (w.members.filter fun r => r.userID == userID)), w)
  | .createEnvironment arg, w =>
      if w.environmentOk arg then (.ok arg, { w with environments := w.environments ++ [arg] })
      else (.error constraintViolation, w)
  | .getDefaultEnvironmentByOrganization organizationID, w =>
      (orNoRows (w.environments.find? fun r =>
        r.organizationID == organizationID && r.isDefault), w)
  | .createAuthIdentity arg, w =>
      if w.identityOk arg then (.ok (), { w with identities := w.identities ++ [arg] })
      else (.error constraintViolation, w)
  | .getAuthIdentityByProviderUserID provider providerUserID, w =>
      (orNoRows (w.identities.find? fun r =>
        r.provider == provider && r.providerUserID == providerUserID), w)
  | .createRefreshToken arg, w =>
      if w.tokenOk arg then (.ok (), { w with refreshTokens := w.refreshTokens ++ [arg] })
      else (.error constraintViolation, w)
  | .getRefreshTokenByHash tokenHash, w =>
      (orNoRows (w.refreshTokens.find? fun r => r.tokenHash == tokenHash), w)
  | .deleteRefreshTokenByHash tokenHash, w =>
      (.ok (), { w with refreshTokens := w.refreshTokens.filter fun r =>
          r.tokenHash != tokenHash })
  -- the other calls are no statements
  | _, w => (.error constraintViolation, w)

end World

/-- A statement on the database. -/
def Op.isStatement : Op → Bool
  | generateFromPassword _ | drawRefreshToken | drawVerificationCode
  | generateAccessToken _ _ _ | sendVerificationCode _ _ | now | newUUID => false
  | _ => true

/-- The calls that may fail: all statements, hashing, signing, and reading random bytes. -/
def Op.fallible : Op → Bool
  | sendVerificationCode _ _ | now | newUUID => false
  | _ => true

/-- `Call hashToken op w r w'`: the call may be answered by `r` and leave the world `w'`.
A statement does what it does when nothing goes wrong, or it fails without effect; what
the other calls return is left open. -/
inductive Call (hashToken : String → String) :
    (op : Op) → World → Except GoError op.Res → World → Prop
  | answer {op} (h : op.isStatement = true) (w) :
      Call hashToken op w (World.answer op w).1 (World.answer op w).2
  | fault {op} (h : op.fallible = true) (w) (text : String) :
      Call hashToken op w (.error (.other text)) w
  | hash (password w h) : Call hashToken (.generateFromPassword password) w (.ok h) w
  | token (w raw) (h : hashToken raw ∉ w.drawn) :
      Call hashToken .drawRefreshToken w (.ok raw) { w with drawn := hashToken raw :: w.drawn }
  | code (w code) : Call hashToken .drawVerificationCode w (.ok code) w
  | sign (userID organizationID role w t) :
      Call hashToken (.generateAccessToken userID organizationID role) w (.ok t) w
  | mail (toEmail code w) : Call hashToken (.sendVerificationCode toEmail code) w (.ok ()) w
  | now (w t) : Call hashToken .now w (.ok t) w
  | newUUID (w u) : Call hashToken .newUUID w (.ok u) w

section Calls

variable {hashToken : String → String} {op : Op} {w w' : World}

/-- A statement does what it says, or it fails without effect. -/
theorem call_statement {r : Except GoError op.Res} (hop : op.isStatement = true)
    (h : Call hashToken op w r w') :
    World.answer op w = (r, w') ∨ ∃ text, r = .error (.other text) ∧ w' = w := by
  cases h with
  | answer => exact Or.inl rfl
  | fault _ _ text => exact Or.inr ⟨text, rfl, rfl⟩
  | hash => cases hop
  | token => cases hop
  | code => cases hop
  | sign => cases hop
  | mail => cases hop
  | now => cases hop
  | newUUID => cases hop

/-- A statement that succeeds did what it says. -/
theorem call_ok {a : op.Res} (hop : op.isStatement = true)
    (h : Call hashToken op w (.ok a) w') : World.answer op w = (.ok a, w') := by
  rcases call_statement hop h with h | ⟨_, hr, -⟩
  · exact h
  · cases hr

theorem World.answer_error {e : GoError} (h : (World.answer op w).1 = .error e) :
    (World.answer op w).2 = w := by
  cases op <;> simp only [World.answer, reduceCtorEq] at h ⊢ <;> split <;> first
    | rfl
    | next hok =>
        -- the constraints hold: no failure
        simp only [hok, if_true, if_false, Bool.false_eq_true, reduceCtorEq] at h

/-- A call that fails changes nothing. -/
theorem call_error {e : GoError} (h : Call hashToken op w (.error e) w') : w' = w := by
  generalize hr : (Except.error e : Except GoError op.Res) = r at h
  cases h with
  | answer hop w => exact World.answer_error hr.symm
  | fault => rfl
  | hash => rfl
  | token => cases hr
  | code => rfl
  | sign => rfl
  | mail => rfl
  | now => rfl
  | newUUID => rfl

end Calls

/-! ### Chosen answers -/

/-- How a call is answered: a statement is run, a call fails, or a value is drawn. -/
inductive Choice
  | run
  | fault
  | text (value : String)
  | time (t : Time)
  | uuid (u : UUID)

/-- What a choice comes to, if it fits the call. -/
def World.serve (hashToken : String → String) :
    Choice → (op : Op) → World → Option (Except GoError op.Res × World)
  | .run, .sendVerificationCode _ _, w => some (.ok (), w)
  | .run, op, w => if op.isStatement then some (World.answer op w) else none
  | .fault, op, w => if op.fallible then some (.error (.other "connection reset"), w) else none
  | .text h, .generateFromPassword _, w => some (.ok h, w)
  | .text raw, .drawRefreshToken, w =>
      if hashToken raw ∈ w.drawn then none
      else some (.ok raw, { w with drawn := hashToken raw :: w.drawn })
  | .text code, .drawVerificationCode, w => some (.ok code, w)
  | .text t, .generateAccessToken _ _ _, w => some (.ok t, w)
  | .time t, .now, w => some (.ok t, w)
  | .uuid u, .newUUID, w => some (.ok u, w)
  | _, _, _ => none

/-- A chosen answer is one of the possible answers. -/
theorem World.serve_call {hashToken : String → String} {a : Choice} {op : Op} {w w' : World}
    {r : Except GoError op.Res} (h : World.serve hashToken a op w = some (r, w')) :
    Call hashToken op w r w' := by
  unfold World.serve at h
  split at h
  · cases h
    exact .mail ..
  · split at h
    · next hop =>
        obtain ⟨rfl, rfl⟩ := Prod.mk.inj (Option.some.inj h)
        exact .answer hop w
    · cases h
  · split at h
    · next hop =>
        cases h
        exact .fault hop w _
    · cases h
  · cases h
    exact .hash ..
  · split at h
    · cases h
    · next hraw =>
        cases h
        exact .token w _ hraw
  · cases h
    exact .code ..
  · cases h
    exact .sign ..
  · cases h
    exact .now ..
  · cases h
    exact .newUUID ..
  · cases h

end Iwifunni.Auth
