/-
Iwifunni/Auth/Service.lean

The authentication service (`modules/auth`): accounts, one-time codes, sessions,
and the organization a user gets with the account.

    Signup, SigninWithSocial          create an account
    ForgotPassword, ResendVerification    store a code and mail it
    VerifyEmail, ResetPassword        spend a code
    Signin, Refresh                   issue a session
    Logout                            ends one

Every program is a sequence of calls on the store, none of them in a transaction.
-/
import Iwifunni.Auth.Store
import Iwifunni.Effect.Schedule

namespace Iwifunni.Auth

open Go Db Effect Effect.Prog

/-- The service.  `hashToken` is the hex form of SHA-256, `compareHash` is
`bcrypt.CompareHashAndPassword`. -/
structure Service where
  hashToken : String → String
  compareHash : (hash password : String) → Bool
  refreshTTL : ℕ
  verificationTTL : ℕ

def errEmailAlreadyExists : GoError := .other "email already exists"
def errInvalidCredentials : GoError := .other "invalid credentials"
def errEmailNotVerified : GoError := .other "email not verified"
def errInvalidVerificationCode : GoError := .other "invalid verification code"
def errVerificationCodeExpired : GoError := .other "verification code expired"

/-! ### Credentials (`credentials.go`) -/

/-- `HashPassword`. -/
def hashPassword (password : String) : Act String :=
  if password = "" then fail (.other "password is required")
  else perform (Op.generateFromPassword password)

/-- `ComparePasswordHash` returns nil. -/
def Service.comparePasswordHash (s : Service) (password hash : String) : Bool :=
  password != "" && hash != "" && s.compareHash hash password

/-- `CompareVerificationCode`. -/
def Service.compareVerificationCode (s : Service) (code hash : String) : Bool :=
  code != "" && hash != "" && s.hashToken code == hash

/-- A row is expired, or has no expiry. -/
def isExpired (expiresAt : Option Time) (now : Time) : Bool :=
  match expiresAt with
  | none => true
  | some t => t < now

/-- An e-mail address as it is stored. -/
def normalizeEmail (email : String) : String := toLower (trimSpace email)

/-- The row a lookup finds; no row is turned into another error. -/
def fetch (missing : GoError) (op : Op) : Act (Op.Res op) := do
  match ← ask op with
  | .ok row => ret row
  | .error .noRows => fail missing
  | .error e => fail e

/-! ### The organization of a user (`tenant.go`) -/

/-- `createSeedEnvironments`: the development and the production environment. -/
def createSeedEnvironments (organizationID : UUID) : Act (Environment × Environment) := do
  let developmentID ← perform Op.newUUID
  let development ← perform (Op.createEnvironment
    ⟨developmentID, organizationID, "development", true⟩)
  let productionID ← perform Op.newUUID
  let production ← perform (Op.createEnvironment
    ⟨productionID, organizationID, "production", false⟩)
  ret (development, production)

/-- `ensurePrimaryTenant`: the membership and the default environment of a user, made
where they are missing. -/
def ensurePrimaryTenant (userID : UUID) (nowTs : Time) :
    Act (OrganizationMember × Environment) := do
  match ← ask (Op.getFirstOrganizationMembershipByUser userID) with
  | .ok membership =>
      match ← ask (Op.getDefaultEnvironmentByOrganization membership.organizationID) with
      | .ok defaultEnvironment => ret (membership, defaultEnvironment)
      | .error .noRows => do
          let (development, _) ← createSeedEnvironments membership.organizationID
          ret (membership, development)
      | .error e => fail e
  | .error .noRows => do
      let organizationID ← perform Op.newUUID
      let organization ← perform (Op.createOrganization
        ⟨organizationID, "Untitled Organization"⟩)
      let memberID ← perform Op.newUUID
      let membership : OrganizationMember :=
        ⟨memberID, organization.id, userID, "owner", nowTs⟩
      perform (Op.createOrganizationMember membership)
      let (development, _) ← createSeedEnvironments organization.id
      ret (membership, development)
  | .error e => fail e

/-! ### Sessions (`session.go`) -/

/-- `AuthResult`. -/
structure AuthResult where
  userID : UUID
  organizationID : UUID
  environmentID : UUID
  role : String
  accessToken : String
  refreshToken : String
  needsOnboarding : Bool

/-- What a request is answered with when it succeeds. -/
inductive Reply
  | session (result : AuthResult)
  | signedUp (userID organizationID environmentID : UUID) (email role : String)
      (verificationExpiresAt : Time)
  | expires (expiresAt : Option Time)
  | done

/-- `issueSession`: the access token and the refresh token. -/
def issueSession (s : Service) (userID organizationID : UUID) (role : String) (nowTs : Time) :
    Act (String × String) := do
  let accessToken ← perform
    (Op.generateAccessToken userID.toString organizationID.toString role)
  let rawRefreshToken ← perform Op.drawRefreshToken
  let id ← perform Op.newUUID
  perform (Op.createRefreshToken
    ⟨id, userID, s.hashToken rawRefreshToken, some (nowTs + s.refreshTTL)⟩)
  ret (accessToken, rawRefreshToken)

/-- `newAuthResult`. -/
def newAuthResult (s : Service) (userID organizationID environmentID : UUID) (role : String)
    (needsOnboarding : Bool) (nowTs : Time) : Act Reply := do
  let (accessToken, refreshToken) ← issueSession s userID organizationID role nowTs
  ret (.session ⟨userID, organizationID, environmentID, role, accessToken, refreshToken,
    needsOnboarding⟩)

/-- The end of every sign-in: the tenant of the user, and a session in it. -/
def signIn (s : Service) (userID : UUID) (needsOnboarding : Bool) (nowTs : Time) : Act Reply := do
  let (membership, environment) ← ensurePrimaryTenant userID nowTs
  newAuthResult s userID membership.organizationID environment.id membership.role
    needsOnboarding nowTs

/-- `Refresh`. -/
def Service.refresh (s : Service) (refreshToken : String) : Act Reply :=
  if trimSpace refreshToken = "" then fail (.other "refresh token is required")
  else do
    let storedToken ← fetch errInvalidCredentials
      (Op.getRefreshTokenByHash (s.hashToken (trimSpace refreshToken)))
    let now ← perform Op.now
    if isExpired storedToken.expiresAt now then fail errInvalidCredentials
    else do
      let user ← fetch errInvalidCredentials (Op.getUserByID storedToken.userID)
      if user.emailVerifiedAt.isNone then fail errInvalidCredentials
      else do
        perform (Op.deleteRefreshTokenByHash storedToken.tokenHash)
        let nowTs ← perform Op.now
        signIn s storedToken.userID user.onboardingCompletedAt.isNone nowTs

/-- `Logout`. -/
def Service.logout (s : Service) (refreshToken : String) : Act Reply :=
  if trimSpace refreshToken = "" then fail (.other "refresh token is required")
  else do
    perform (Op.deleteRefreshTokenByHash (s.hashToken (trimSpace refreshToken)))
    ret .done

/-! ### One-time codes (`email.go`) -/

/-- `createAndSendVerification`: the expiry of a new code, which is stored and mailed. -/
def createAndSendVerification (s : Service) (userID : UUID) (email : String) : Act Time := do
  let code ← perform Op.drawVerificationCode
  let now ← perform Op.now
  perform (Op.upsertEmailVerification userID (s.hashToken code) (some (now + s.verificationTTL)))
  perform (Op.sendVerificationCode email code)
  ret (now + s.verificationTTL)

/-- The checks on a code: the row it is for, if it is the code of that row. -/
def checkCode (s : Service) (userID : UUID) (code : String) : Act EmailVerification := do
  let verification ← fetch errInvalidVerificationCode
    (Op.getEmailVerificationByUserID userID)
  if verification.consumedAt.isSome then fail errInvalidVerificationCode
  else do
    let now ← perform Op.now
    if isExpired verification.expiresAt now then fail errVerificationCodeExpired
    else if s.compareVerificationCode code verification.codeHash then ret verification
    else fail errInvalidVerificationCode

/-- `ResendVerification`. -/
def Service.resendVerification (s : Service) (email : String) : Act Reply := do
  match ← ask (Op.getUserByEmail (normalizeEmail email)) with
  | .error .noRows => ret (.expires none)
  | .error e => fail e
  | .ok user =>
      if user.emailVerifiedAt.isSome then fail (.other "email already verified")
      else do
        let expiresAt ← createAndSendVerification s user.id (normalizeEmail email)
        ret (.expires (some expiresAt))

/-- `VerifyEmail`. -/
def Service.verifyEmail (s : Service) (email code : String) : Act Reply := do
  let user ← fetch errInvalidVerificationCode (Op.getUserByEmail (normalizeEmail email))
  let _ ← checkCode s user.id (trimSpace code)
  let nowTs ← perform Op.now
  perform (Op.updateUserEmailVerifiedAt user.id nowTs)
  perform (Op.deleteEmailVerificationByUserID user.id)
  signIn s user.id user.onboardingCompletedAt.isNone nowTs

/-- `VerifyResetCode`. -/
def Service.verifyResetCode (s : Service) (email code : String) : Act Reply := do
  let user ← fetch errInvalidVerificationCode (Op.getUserByEmail (normalizeEmail email))
  let _ ← checkCode s user.id (trimSpace code)
  ret .done

/-- `ForgotPassword`: an unknown address is passed over in silence. -/
def Service.forgotPassword (s : Service) (email : String) : Act Reply := do
  match ← ask (Op.getUserByEmail (normalizeEmail email)) with
  | .error .noRows => ret .done
  | .error e => fail e
  | .ok user => do
      let _ ← createAndSendVerification s user.id (normalizeEmail email)
      ret .done

/-- `ResetPassword`. -/
def Service.resetPassword (s : Service) (email code newPassword : String) : Act Reply :=
  if trimSpace newPassword = "" then fail (.other "password is required")
  else do
    let user ← fetch errInvalidVerificationCode (Op.getUserByEmail (normalizeEmail email))
    let _ ← checkCode s user.id (trimSpace code)
    let passwordHash ← hashPassword (trimSpace newPassword)
    let _ ← perform Op.now
    perform (Op.updateUserPassword user.id passwordHash)
    perform (Op.deleteEmailVerificationByUserID user.id)
    ret .done

/-! ### Accounts (`auth.go`) -/

/-- `strings.Fields`. -/
def fields (s : String) : List String :=
  let word (acc : List (List Char)) (c : Char) : List (List Char) :=
    if isSpace c then [] :: acc
    else match acc with
      | [] => [[c]]
      | w :: ws => (w ++ [c]) :: ws
  (((s.toList.foldl word [[]]).filter (!·.isEmpty)).reverse).map String.ofList

/-- `normalizeSocialNames`. -/
def normalizeSocialNames (firstName lastName fullName email : String) : String × String :=
  let firstName := trimSpace firstName
  let lastName := trimSpace lastName
  if firstName ≠ "" ∧ lastName ≠ "" then (firstName, lastName)
  else
    let parts := fields (trimSpace fullName)
    let firstName := if firstName = "" then parts.headD "" else firstName
    let lastName := if lastName = "" then join " " parts.tail else lastName
    let firstName := if firstName = "" then (split email '@').headD "" else firstName
    (firstName, if lastName = "" then "User" else lastName)

/-- `Signup`. -/
def Service.signup (s : Service) (firstName lastName email password : String) : Act Reply := do
  let email := normalizeEmail email
  match ← ask (Op.getUserByEmail email) with
  | .ok _ => fail errEmailAlreadyExists
  | .error .noRows => do
      let nowTs ← perform Op.now
      let userID ← perform Op.newUUID
      let passwordHash ← hashPassword (trimSpace password)
      perform (Op.createUser ⟨⟨userID, email, trimSpace firstName, trimSpace lastName⟩,
        passwordHash, none, none⟩)
      let (membership, environment) ← ensurePrimaryTenant userID nowTs
      let verificationExpiresAt ← createAndSendVerification s userID email
      ret (.signedUp userID membership.organizationID environment.id email membership.role
        verificationExpiresAt)
  | .error e => fail e

/-- What a social provider says about the person who signs in. -/
structure SocialSigninInput where
  provider : String
  providerUserID : String
  email : String
  firstName : String := ""
  lastName : String := ""
  fullName : String := ""

/-- Mark the address of a user as verified, unless it is. -/
def verifyAddress (user : Account) (nowTs : Time) : Act Unit :=
  if user.emailVerifiedAt.isNone then perform (Op.updateUserEmailVerifiedAt user.id nowTs)
  else ret ()

/-- The account of a social sign-in with an unknown identity: the one with the address, or
a new one without password. -/
def socialAccount (found : Except GoError Account) (email firstName lastName : String)
    (nowTs : Time) : Act (UUID × Bool) :=
  match found with
  | .ok user => do
      verifyAddress user nowTs
      ret (user.id, user.onboardingCompletedAt.isNone)
  | .error .noRows => do
      let userID ← perform Op.newUUID
      perform (Op.createUser ⟨⟨userID, email, firstName, lastName⟩, "", some nowTs, none⟩)
      ret (userID, true)
  | .error e => fail e

/-- `SigninWithSocial`. -/
def Service.signinWithSocial (s : Service) (input : SocialSigninInput) : Act Reply :=
  let provider := toLower (trimSpace input.provider)
  let providerUserID := trimSpace input.providerUserID
  let email := normalizeEmail input.email
  if ¬(["google", "github"].contains provider = true) then
    fail (.other "unsupported social provider")
  else if providerUserID = "" then fail (.other "provider user id is required")
  else if email = "" then fail (.other "social account email is required")
  else do
    let (firstName, lastName) :=
      normalizeSocialNames input.firstName input.lastName input.fullName email
    let nowTs ← perform Op.now
    match ← ask (Op.getAuthIdentityByProviderUserID provider providerUserID) with
    | .ok identity => do
        let user ← perform (Op.getUserByID identity.userID)
        verifyAddress user nowTs
        signIn s identity.userID user.onboardingCompletedAt.isNone nowTs
    | .error .noRows => do
        let found ← ask (Op.getUserByEmail email)
        let (userID, needsOnboarding) ← socialAccount found email firstName lastName nowTs
        let id ← perform Op.newUUID
        perform (Op.createAuthIdentity ⟨id, userID, provider, providerUserID, email⟩)
        signIn s userID needsOnboarding nowTs
    | .error e => fail e

/-- `Signin`. -/
def Service.signin (s : Service) (email password : String) : Act Reply := do
  let user ← fetch errInvalidCredentials (Op.getUserByEmail (normalizeEmail email))
  if user.emailVerifiedAt.isNone then fail errEmailNotVerified
  else if s.comparePasswordHash (trimSpace password) user.passwordHash then do
    let nowTs ← perform Op.now
    signIn s user.id user.onboardingCompletedAt.isNone nowTs
  else fail errInvalidCredentials

/-! ### The server -/

/-- The requests. -/
inductive Request
  | signup (firstName lastName email password : String)
  | signinWithSocial (input : SocialSigninInput)
  | signin (email password : String)
  | forgotPassword (email : String)
  | resetPassword (email code newPassword : String)
  | resendVerification (email : String)
  | verifyEmail (email code : String)
  | verifyResetCode (email code : String)
  | refresh (refreshToken : String)
  | logout (refreshToken : String)

def Request.body (s : Service) : Request → Act Reply
  | signup firstName lastName email password => s.signup firstName lastName email password
  | signinWithSocial input => s.signinWithSocial input
  | signin email password => s.signin email password
  | forgotPassword email => s.forgotPassword email
  | resetPassword email code newPassword => s.resetPassword email code newPassword
  | resendVerification email => s.resendVerification email
  | verifyEmail email code => s.verifyEmail email code
  | verifyResetCode email code => s.verifyResetCode email code
  | refresh refreshToken => s.refresh refreshToken
  | logout refreshToken => s.logout refreshToken

/-- The server: any number of requests at once, each one call at a time; a request may
be cut short. -/
def server (s : Service) : Machine World Request Empty Op.Res GoError Reply where
  body := Request.body s
  spawn _ w w' := w' = w
  sem := Call s.hashToken
  close _ _ w w' := w' = w
  lose _ w w' := w' = w
  env _ _ _ := False

abbrev ServerEvent : Type := Event Request Empty Op.Res GoError Reply

abbrev ServerPool : Type := Pool World Request Op.Res GoError Reply

/-- A pool without requests in progress. -/
def idle (w : World) : ServerPool := ⟨w, fun _ => none⟩

/-- Schedules of requests. -/
def serverPlayer (s : Service) {C : ServerPool → ServerEvent → Prop}
    (test : ServerPool → ServerEvent → Bool) (hC : ∀ {p e}, test p e = true → C p e) :
    Player (server s) C Choice where
  serve := World.serve s.hashToken
  test := test
  serve_sem := World.serve_call
  cond_of_test := hC
  spawn _ _ := rfl
  close _ _ _ := rfl
  drop _ _ := rfl

/-! ### A service -/

namespace Sample

/-- SHA-256 of the tokens and codes of the sample runs. -/
def hashToken (token : String) : String :=
  if token = "first-token" then
    "55b4b48f529c3d2daa027cbffa6cfb6a03690424550f22109e39917406c8243b"
  else if token = "second-token" then
    "7a35833597e6687c599a0988b7a53b9b6a7ec18b88ca2a8e60f3265c8be6d527"
  else if token = "third-token" then
    "4805ab0624bf846ebd4ee89b43701d8e83e3912a3294b46907753515fe8d9a09"
  else if token = "123456" then
    "8d969eef6ecad3c29a3a629280e686cf0c3f5d5a86aff3ca12020c923adc6c92"
  else if token = "654321" then
    "481f6cc0511143ccdd7e2d1b1b94faf0a700a8b49cd13922a70b5ae28acaa8c5"
  else ""

/-- The bcrypt hash of "stranger-pass" with one salt. -/
def strangerHash : String := "$2a$10$abcdefghijklmnopqrstuuYtpv.DLiXwtmScb8es4y0OKEYlLyAPC"

def service : Service where
  hashToken := hashToken
  compareHash hash password := hash == strangerHash && password == "stranger-pass"
  refreshTTL := 1000
  verificationTTL := 100

def userID : UUID := .ofDigit 1
def organizationID : UUID := .ofDigit 2

/-- The account of Ada, whose address is verified. -/
def ada : Account := ⟨⟨userID, "ada@example.com", "Ada", "Lovelace"⟩, "", some 1, none⟩

end Sample

end Iwifunni.Auth
