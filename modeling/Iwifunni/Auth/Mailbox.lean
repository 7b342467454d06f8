/-
Iwifunni/Auth/Mailbox.lean

Whose password a sign-in accepts.

`Signup` lets anybody set a password for any address.  The owner of the mailbox
accepts it with the code that is mailed there (`VerifyEmail`), or replaces it
(`ResetPassword`), and until then the address counts as not verified and
`Signin` refuses:

    Signup --> password, not verified --VerifyEmail--> password, verified
                     |
                     +--SigninWithSocial--> password, verified

The second arrow is the hole: a social sign-in marks the address of the account
as verified whatever password it has, and the password of whoever signed up
works from then on (`signin_of_stranger`).  Without it, and if no `VerifyEmail`
breaks off after it has marked the address, every password that opens a session
was accepted by the owner (`password_accepted`).
-/
import Iwifunni.Auth.Codes
import Iwifunni.Auth.Refresh
import Iwifunni.Effect.Sequence

namespace Iwifunni.Auth

open Go Db Effect Effect.Prog

/-! ### What a request has found out about an account -/

def Request.isSocial : Request → Bool
  | .signinWithSocial _ => true
  | _ => false

def Request.verifies : Request → Bool
  | .verifyEmail _ _ => true
  | _ => false

/-- The address and the code of a request that presents a code. -/
def Request.proof : Request → Option (String × String)
  | .verifyEmail email code => some (normalizeEmail email, trimSpace code)
  | .resetPassword email code _ => some (normalizeEmail email, trimSpace code)
  | _ => none

/-- The password a reset sets. -/
def Request.newPassword : Request → Option String
  | .resetPassword _ _ newPassword => some (trimSpace newPassword)
  | _ => none

/-- A call that fails, other than by finding no row. -/
def fails : Answered Op.Res GoError → Bool
  | ⟨_, .ok _⟩ => false
  | ⟨_, .error .noRows⟩ => false
  | ⟨_, .error _⟩ => true

/-- What a request has read and made, and whether it has changed an account. -/
structure Checking where
  user : Option Account := none
  code : Option EmailVerification := none
  /-- A password and its hash. -/
  hashed : Option (String × String) := none
  changed : Bool := false
  failed : Bool := false

/-- One more call. -/
def Checking.after (st : Checking) : Answered Op.Res GoError → Checking
  | ⟨.getUserByEmail _, .ok a⟩ => { st with user := some a }
  | ⟨.getEmailVerificationByUserID _, .ok r⟩ => { st with code := some r }
  | ⟨.generateFromPassword password, .ok h⟩ => { st with hashed := some (password, h) }
  | ⟨.createUser _, .ok _⟩ => { st with changed := true }
  | ⟨.updateUserEmailVerifiedAt _ _, .ok _⟩ => { st with changed := true }
  | ⟨.updateUserPassword _ _, .ok _⟩ => { st with changed := true }
  | ⟨_, .error .noRows⟩ => st
  | ⟨_, .error _⟩ => { st with failed := true }
  | _ => st

/-- The request presents the code that is stored for the account `id`, which has the address
of the request. -/
def Checking.proves (s : Service) (l : Request) (st : Checking) (id : UUID) : Bool :=
  l.proof.any fun x =>
    (st.user.any fun a => a.id == id && a.email == x.1) &&
    st.code.any fun r => r.userID == id && s.compareVerificationCode x.2 r.codeHash

/-- Rows are read once, before accounts are changed.  A new account is not verified or has no
password; an address is marked by a social sign-in or with the code of the account, and a
password is set with it. -/
def Checking.allows (s : Service) (l : Request) (st : Checking) :
    Answered Op.Res GoError → Bool
  | ⟨.getUserByEmail _, _⟩ => st.user.isNone && !st.changed
  | ⟨.getEmailVerificationByUserID _, _⟩ => st.code.isNone
  | ⟨.upsertEmailVerification _ _ _, _⟩ => l.proof.isNone
  | ⟨.deleteEmailVerificationByUserID _, _⟩ => st.code.isSome
  | ⟨.createUser arg, _⟩ => arg.emailVerifiedAt.isNone || arg.passwordHash == ""
  | ⟨.updateUserEmailVerifiedAt id _, _⟩ =>
      !st.changed && (l.isSocial || l.verifies && st.proves s l id)
  | ⟨.updateUserPassword id h, _⟩ =>
      !st.changed && st.proves s l id && l.newPassword.any fun p => st.hashed == some (p, h)
  | _ => true

/-- The account a sign-in has read lets it in. -/
def Checking.admits (s : Service) (st : Checking) (email password : String) : Bool :=
  st.user.any fun a => a.email == normalizeEmail email && a.emailVerifiedAt.isSome &&
    s.comparePasswordHash (trimSpace password) a.passwordHash

/-- The outcomes: a `Signin` that succeeds was admitted; a `VerifyEmail` that has marked an
address does not fail unless a call has failed. -/
def Checking.ends (s : Service) (st : Checking) : Request → Except GoError Reply → Prop
  | .signin email password, out => out.isOk = true → st.admits s email password = true
  | .verifyEmail _ _, out => out.isOk = false → st.changed = true → st.failed = true
  | _, _ => True

/-- The protocol of the requests, as far as accounts are concerned. -/
def accounts (s : Service) : Protocol Request Op.Res GoError Reply Checking where
  init _ := {}
  expects l _ a := (∀ email r, a = ⟨.getUserByEmail email, .ok r⟩ → r.email = email) ∧
    codes.expects l {} a ∧ (tokens s).expects l {} a
  next l st a := if st.allows s l a then some (st.after a) else none
  ends l st out := st.ends s l out

/-- A call that neither reads nor changes what a sign-in depends on. -/
def Op.silent (l : Request) : Op → Bool
  | getUserByEmail _ | getEmailVerificationByUserID _ | deleteEmailVerificationByUserID _
  | createUser _ | updateUserEmailVerifiedAt _ _ | updateUserPassword _ _ => false
  | upsertEmailVerification _ _ _ => l.proof.isNone
  | _ => true

/-- Nothing about accounts and codes has happened in between. -/
def Checking.Same (st st' : Checking) : Prop :=
  st'.user = st.user ∧ st'.code = st.code ∧ st'.changed = st.changed

section Keeps

variable {s : Service} {l : Request} {st : Checking} {β γ : Type}
  {post : Checking → Except GoError β → Prop}

theorem after_failure {op : Op} (e : GoError) :
    st.after ⟨op, .error e⟩ = { st with failed := st.failed || fails ⟨op, .error e⟩ } := by
  cases e with
  | noRows =>
      show _ = { st with failed := st.failed || false }
      rw [Bool.or_false]
      cases op <;> rfl
  | _ =>
      show _ = { st with failed := st.failed || true }
      rw [Bool.or_true]
      cases op <;> rfl

theorem after_failed (st : Checking) (a : Answered Op.Res GoError) :
    (st.after a).failed = (st.failed || fails a) := by
  rcases a with ⟨op, e | x⟩
  · rw [after_failure]
  · show _ = (st.failed || false)
    rw [Bool.or_false]
    cases op <;> rfl

/-- A request has failed if one of its calls has. -/
theorem progress_failed {t : Progress} (a : Answered Op.Res GoError) :
    (t.after a).failed = (t.failed || fails a) := by
  rcases a with ⟨op, e | x⟩
  · cases e with
    | noRows =>
        show _ = (t.failed || false)
        rw [Bool.or_false, after_noRows]
    | _ =>
        show _ = (t.failed || true)
        rw [Bool.or_true]
        cases op <;> rfl
  · show _ = (t.failed || false)
    rw [Bool.or_false]
    cases op <;> rfl

theorem next_silent (st : Checking) {op : Op} (hop : op.silent l = true)
    (r : Except GoError op.Res) :
    ∃ st', (accounts s).next l st ⟨op, r⟩ = some st' ∧ st.Same st' := by
  have hallow : st.allows s l ⟨op, r⟩ = true := by
    cases op <;> first | rfl | exact hop | cases hop
  refine ⟨_, if_pos hallow, ?_⟩
  rcases r with e | a
  · rw [after_failure]
    exact ⟨rfl, rfl, rfl⟩
  · cases op <;> first | exact ⟨rfl, rfl, rfl⟩ | cases hop

/-- Groups of silent calls. -/
def Silent (l : Request) (gs : List Group) : Prop :=
  ∀ g ∈ gs, g ≠ .user ∧ g ≠ .account ∧ g ≠ .code ∧ (g = .issue → l.proof.isNone = true)

theorem silent_of_group {gs : List Group} (hgs : Silent l gs) {op : Op} (hop : op.group ∈ gs) :
    op.silent l = true := by
  obtain ⟨hu, ha, hc, hi⟩ := hgs _ hop
  cases op <;> first
    | rfl
    | exact hi rfl
    | exact absurd rfl hu
    | exact absurd rfl ha
    | exact absurd rfl hc

theorem silent_of_forall {gs : List Group}
    (hgs : ∀ g ∈ gs, g ≠ .user ∧ g ≠ .account ∧ g ≠ .code ∧ g ≠ .issue) : Silent l gs := by
  intro g hg
  obtain ⟨hu, ha, hc, hi⟩ := hgs g hg
  exact ⟨hu, ha, hc, fun h => absurd h hi⟩

theorem silent_signIn : Silent l [.tenant, .token, .value] := silent_of_forall (by decide)

/-- Parts of a request without calls on accounts and codes. -/
theorem keeps_silent {gs : List Group} {p : Act γ} {f : γ → Act β} (hp : Within gs p)
    (hgs : Silent l gs) (hf : ∀ st' a, st.Same st' → Keeps (accounts s) l post (f a) st')
    (herr : ∀ st' e, st.Same st' → post st' (.error e)) :
    Keeps (accounts s) l post (p >>= f) st := by
  have hsame : Keeps (accounts s) l (fun st' _ => st.Same st') p st :=
    keeps_of_calls (fun _ => ⟨rfl, rfl, rfl⟩)
      (fun _ _ _ h h' => ⟨h'.1.trans h.1, h'.2.1.trans h.2.1, h'.2.2.trans h.2.2⟩)
      (fun op r st hop _ => next_silent st (silent_of_group hgs hop) r) hp.calls st
  exact keeps_bind hsame (fun st' a h => hf st' a h) fun st' e h => herr st' e h

/-- One silent call. -/
theorem keeps_perform_silent {op : Op} {f : op.Res → Act β} (hop : op.silent l = true)
    (hf : ∀ st' a, st.Same st' → Keeps (accounts s) l post (f a) st')
    (herr : ∀ st' e, st.Same st' → post st' (.error e)) :
    Keeps (accounts s) l post (perform op >>= f) st := by
  refine keeps_perform_bind (fun a _ => ?_) fun e _ => ?_
  · obtain ⟨st', hnext, hsame⟩ := next_silent (s := s) st hop (.ok a)
    exact ⟨st', hnext, hf st' a hsame⟩
  · obtain ⟨st', hnext, hsame⟩ := next_silent (s := s) st hop (.error e)
    exact ⟨st', hnext, herr st' e hsame⟩

/-- The end of every sign-in: if it fails, a call has failed. -/
theorem keeps_signIn_account (hl : l.isRefresh = false) (userID : UUID) (b : Bool) (nowTs : Time) :
    Keeps (accounts s) l (fun st' out => st.Same st' ∧ (out.isOk = false → st'.failed = true))
      (signIn s userID b nowTs) st := by
  have htokens : Keeps (tokens s) l Signed (signIn s userID b nowTs) {} :=
    keeps_signIn rfl (by rw [hl, Bool.not_false, Bool.true_or]) userID b nowTs
  refine keeps_follow (R := fun t st' => st.Same st' ∧ (t.failed = true → st'.failed = true))
    ?_ ?_ ?_ (within_signIn userID b nowTs).calls htokens ⟨⟨rfl, rfl, rfl⟩, nofun⟩
  · rintro t st' a - ⟨-, -, hexp⟩
    exact hexp
  · rintro t st' op r t' ⟨hsame, hfailed⟩ hop hnext
    obtain ⟨st'', hnext', hsame'⟩ :=
      next_silent (s := s) st' (silent_of_group silent_signIn hop) r
    refine ⟨st'', hnext', ⟨hsame'.1.trans hsame.1, hsame'.2.1.trans hsame.2.1,
      hsame'.2.2.trans hsame.2.2⟩, fun ht' => ?_⟩
    obtain ⟨-, hst⟩ := Option.ite_none_right_eq_some.mp hnext
    obtain ⟨-, hst'⟩ := Option.ite_none_right_eq_some.mp hnext'
    cases hst
    cases hst'
    rw [progress_failed, Bool.or_eq_true] at ht'
    rw [after_failed, Bool.or_eq_true]
    exact ht'.imp hfailed id
  · rintro t st' out ⟨hsame, hfailed⟩ hsigned
    exact ⟨hsame, fun hout => hfailed (hsigned.2 hout)⟩

/-- The user is looked up by the address. -/
theorem keeps_fetch_user {missing : GoError} {email : String} {f : Account → Act β}
    (hf : ∀ a, a.email = email → Keeps (accounts s) l post (f a) { user := some a })
    (herr : ∀ b e, post { failed := b } (.error e)) :
    Keeps (accounts s) l post (fetch missing (.getUserByEmail email) >>= f) {} := by
  refine keeps_fetch_bind (fun a ha => ⟨_, rfl, hf a (ha.1 email a rfl)⟩) fun e _ => ?_
  refine ⟨_, rfl, fun e' => ?_⟩
  rw [after_failure]
  exact herr _ e'

/-- `checkCode` returns the row of the user, if the code is the one that is stored. -/
theorem keeps_checkCode_account {a : Account} (code : String) :
    Keeps (accounts s) l (fun st out => st.changed = false ∧ ∀ r, out = .ok r →
        (st.user = some a ∧ st.code = some r) ∧ r.userID = a.id ∧
          s.compareVerificationCode code r.codeHash = true)
      (checkCode s a.id code) { user := some a } := by
  refine keeps_fetch_bind (fun r hr => ⟨_, rfl, ?_⟩) fun e _ => ⟨_, rfl, fun e' => ⟨?_, nofun⟩⟩
  · have hu : r.userID = a.id := hr.2.1 a.id r rfl
    split
    · exact keeps_fail.mpr ⟨rfl, nofun⟩
    refine keeps_perform_silent rfl (fun st' now hsame => ?_) fun st' e hsame =>
      ⟨hsame.2.2, nofun⟩
    split
    · exact keeps_fail.mpr ⟨hsame.2.2, nofun⟩
    split
    · next hcode =>
        refine keeps_ret.mpr ⟨hsame.2.2, ?_⟩
        rintro r' ⟨⟩
        exact ⟨⟨hsame.1, hsame.2.1⟩, hu, hcode⟩
    · exact keeps_fail.mpr ⟨hsame.2.2, nofun⟩
  · rw [after_failure]

theorem proves_of_checked (st : Checking) {a : Account} {r : EmailVerification} {email code : String}
    (hl : l.proof = some (email, code)) (huser : st.user = some a) (hcode : st.code = some r)
    (ha : a.email = email) (hu : r.userID = a.id)
    (hr : s.compareVerificationCode code r.codeHash = true) : st.proves s l a.id = true := by
  simp only [Checking.proves, hl, Option.any_some, huser, hcode, ha, hu, hr, beq_self_eq_true,
    Bool.and_self]

/-! ### The requests -/

/-- A sign-in keeps the protocol of accounts. -/
theorem keeps_signin_account (email password : String) :
    Keeps (accounts s) (.signin email password) ((accounts s).ends (.signin email password))
      (s.signin email password) {} := by
  have herr : ∀ (st : Checking) (e : GoError),
      (accounts s).ends (.signin email password) st (.error e) := fun st e h => by cases h
  refine keeps_fetch_user (fun a ha => ?_) fun b e => herr _ e
  split
  · exact keeps_fail.mpr (herr _ _)
  next hver =>
  split
  · next hpass =>
      refine keeps_perform_silent rfl (fun st' nowTs hsame => ?_) fun st' e _ => herr st' e
      refine keeps_mono (fun st'' out h _ => ?_) (keeps_signIn_account rfl ..)
      simp only [Bool.not_eq_true, Option.isNone_eq_false_iff] at hver
      have huser : st''.user = some a := h.1.1.trans hsame.1
      simp only [Checking.admits, huser, Option.any_some, ha, beq_self_eq_true, hver, hpass,
        Bool.and_self]
  · exact keeps_fail.mpr (herr _ _)

/-- An address is marked after its code was checked only. -/
theorem keeps_verifyEmail_account (email code : String) :
    Keeps (accounts s) (.verifyEmail email code) ((accounts s).ends (.verifyEmail email code))
      (s.verifyEmail email code) {} := by
  have hends : ∀ (st : Checking) (e : GoError), st.changed = false →
      (accounts s).ends (.verifyEmail email code) st (.error e) := by
    intro st e hst _ hch
    rw [hst] at hch
    cases hch
  refine keeps_fetch_user (fun a ha => ?_) fun b e => hends _ e rfl
  refine keeps_bind (keeps_checkCode_account _) (fun st r h => ?_) fun st e h => hends st e h.1
  obtain ⟨hch, h⟩ := h
  obtain ⟨⟨huser, hrow⟩, hu, hcode⟩ := h r rfl
  refine keeps_perform_silent rfl (fun st' nowTs hsame => ?_) fun st' e hsame =>
    hends st' e (hsame.2.2.trans hch)
  -- the checked code allows the change
  have hallow : ∀ x : Except GoError Unit, Checking.allows s (.verifyEmail email code) st'
      ⟨.updateUserEmailVerifiedAt a.id nowTs, x⟩ = true := by
    intro x
    simp only [Checking.allows, hsame.2.2.trans hch, proves_of_checked (l := .verifyEmail email code)
      st' rfl (hsame.1.trans huser) (hsame.2.1.trans hrow) ha hu hcode, Request.verifies,
      Bool.not_false, Bool.and_self, Bool.or_true]
  refine keeps_perform_bind (fun _ _ => ⟨_, if_pos (hallow _), ?_⟩)
    fun e _ => ⟨_, if_pos (hallow _), ?_⟩
  · -- and is used up by it
    have hdelete : ∀ x : Except GoError Unit, Checking.allows s (.verifyEmail email code)
        { st' with changed := true } ⟨.deleteEmailVerificationByUserID a.id, x⟩ = true := by
      intro x
      simp only [Checking.allows, hsame.2.1.trans hrow, Option.isSome_some]
    refine keeps_perform_bind (fun _ _ => ⟨_, if_pos (hdelete _), ?_⟩)
      fun e he => ⟨_, if_pos (hdelete _), fun _ _ => ?_⟩
    · exact keeps_mono (fun st'' out h hout _ => h.2 hout) (keeps_signIn_account rfl ..)
    · rw [after_failure]
      cases e with
      | noRows => cases he.2.2.2 rfl
      | _ => exact Bool.or_true _
  · rw [after_failure]
    exact hends _ e (hsame.2.2.trans hch)

/-- A reset sets a password after its code was checked only. -/
theorem keeps_resetPassword_account (email code newPassword : String) :
    Keeps (accounts s) (.resetPassword email code newPassword)
      (fun _ _ => True) (s.resetPassword email code newPassword) {} := by
  unfold Service.resetPassword
  split
  · exact keeps_fail.mpr True.intro
  next hne =>
  refine keeps_fetch_user (fun a ha => ?_) fun _ _ => True.intro
  refine keeps_bind (keeps_checkCode_account _) (fun st r h => ?_) fun _ _ _ => True.intro
  obtain ⟨hch, h⟩ := h
  obtain ⟨⟨huser, hrow⟩, hu, hcode⟩ := h r rfl
  rw [hashPassword, if_neg hne]
  refine keeps_perform_bind (fun passwordHash _ => ⟨_, rfl, ?_⟩) fun _ _ => ⟨_, rfl, True.intro⟩
  refine keeps_perform_bind (fun nowTs _ => ⟨_, rfl, ?_⟩) fun _ _ => ⟨_, rfl, True.intro⟩
  -- the code that was checked is the one sent to this account
  have hproves := proves_of_checked (l := .resetPassword email code newPassword)
    { st with hashed := some (trimSpace newPassword, passwordHash) } rfl huser hrow ha hu hcode
  have hallow : ∀ x : Except GoError Unit,
      Checking.allows s (.resetPassword email code newPassword)
        { st with hashed := some (trimSpace newPassword, passwordHash) }
        ⟨.updateUserPassword a.id passwordHash, x⟩ = true := by
    intro x
    show (!st.changed && Checking.proves s _ _ _ && _) = true
    rw [hproves, hch]
    simp only [Request.newPassword, Option.any_some, beq_self_eq_true, Bool.not_false,
      Bool.and_self]
  refine keeps_perform_bind (fun _ _ => ⟨_, if_pos (hallow _), ?_⟩)
    fun _ _ => ⟨_, if_pos (hallow _), True.intro⟩
  -- what is used up is the row that was checked
  have hdelete : ∀ x : Except GoError Unit,
      Checking.allows s (.resetPassword email code newPassword)
        { st with hashed := some (trimSpace newPassword, passwordHash), changed := true }
        ⟨.deleteEmailVerificationByUserID a.id, x⟩ = true := by
    intro x
    simp only [Checking.allows, hrow, Option.isSome_some]
  exact keeps_perform_bind (fun _ _ => ⟨_, if_pos (hdelete _), keeps_ret.mpr True.intro⟩)
    fun _ _ => ⟨_, if_pos (hdelete _), True.intro⟩

/-- A request that says nothing about its outcome, from a phase on. -/
abbrev Free (s : Service) (l : Request) (p : Act β) (st : Checking) : Prop :=
  Keeps (accounts s) l (fun _ _ => True) p st

/-- Silent parts of such a request. -/
theorem free_silent {gs : List Group} {p : Act γ} {f : γ → Act β} (hp : Within gs p)
    (hgs : Silent l gs) (hf : ∀ st' a, st.Same st' → Free s l (f a) st') :
    Free s l (p >>= f) st :=
  keeps_silent hp hgs hf fun _ _ _ => True.intro

theorem free_perform {op : Op} {f : op.Res → Act β} (hop : op.silent l = true)
    (hf : ∀ st' a, st.Same st' → Free s l (f a) st') : Free s l (perform op >>= f) st :=
  keeps_perform_silent hop hf fun _ _ _ => True.intro

theorem free_signIn (userID : UUID) (b : Bool) (nowTs : Time) :
    Free s l (signIn s userID b nowTs) st := by
  rw [← bind_ret (signIn ..)]
  exact free_silent (within_signIn ..) silent_signIn fun _ _ _ => keeps_ret.mpr True.intro

/-- A lookup by address, before anything is changed. -/
theorem free_ask_user {email : String} {f : Except GoError Account → Act β}
    (hst : st.user = none ∧ st.changed = false)
    (hf : ∀ st' r, st'.changed = false → Free s l (f r) st') :
    Free s l (ask (Op.getUserByEmail email) >>= f) st := by
  have hallow : ∀ r, st.allows s l ⟨.getUserByEmail email, r⟩ = true := by
    intro r
    simp only [Checking.allows, hst.1, hst.2, Option.isNone_none, Bool.not_false, Bool.and_self]
  refine keeps_ask_bind fun r _ => ⟨_, if_pos (hallow r), hf _ r ?_⟩
  rcases r with e | a
  · rw [after_failure]
    exact hst.2
  · exact hst.2

/-- A new account. -/
theorem free_createUser {arg : Account} {f : Unit → Act β}
    (harg : (arg.emailVerifiedAt.isNone || arg.passwordHash == "") = true)
    (hf : ∀ st', Free s l (f ()) st') : Free s l (perform (Op.createUser arg) >>= f) st :=
  keeps_perform_bind (fun _ _ => ⟨_, if_pos harg, hf _⟩) fun _ _ => ⟨_, if_pos harg, True.intro⟩

theorem free_createAndSendVerification {f : Time → Act β} (hl : l.proof.isNone = true)
    (userID : UUID) (email : String) (hf : ∀ st' a, Free s l (f a) st') :
    Free s l (createAndSendVerification s userID email >>= f) st := by
  refine free_silent (within_createAndSendVerification userID email) ?_ fun st' a _ => hf st' a
  intro g hg
  cases g <;> simp at hg
  · exact ⟨nofun, nofun, nofun, fun _ => hl⟩
  · exact ⟨nofun, nofun, nofun, nofun⟩

theorem free_signup (firstName lastName email password : String) :
    Free s (.signup firstName lastName email password)
      (s.signup firstName lastName email password) {} := by
  refine free_ask_user ⟨rfl, rfl⟩ fun st r _ => ?_
  split
  · exact keeps_fail.mpr True.intro
  · refine free_perform rfl fun st nowTs _ => free_perform rfl fun st userID _ => ?_
    refine free_silent (within_hashPassword _) (silent_of_forall (by decide)) fun st passwordHash _ => ?_
    refine free_createUser rfl fun st => ?_
    refine free_silent (within_ensurePrimaryTenant ..) (silent_of_forall (by decide)) fun st x _ => ?_
    exact free_createAndSendVerification rfl _ _ fun st t => keeps_ret.mpr True.intro
  · exact keeps_fail.mpr True.intro

theorem free_forgotPassword (email : String) :
    Free s (.forgotPassword email) (s.forgotPassword email) {} := by
  refine free_ask_user ⟨rfl, rfl⟩ fun st r _ => ?_
  split
  · exact keeps_ret.mpr True.intro
  · exact keeps_fail.mpr True.intro
  · exact free_createAndSendVerification rfl _ _ fun st t => keeps_ret.mpr True.intro

theorem free_resendVerification (email : String) :
    Free s (.resendVerification email) (s.resendVerification email) {} := by
  refine free_ask_user ⟨rfl, rfl⟩ fun st r _ => ?_
  split
  · exact keeps_ret.mpr True.intro
  · exact keeps_fail.mpr True.intro
  · split
    · exact keeps_fail.mpr True.intro
    · exact free_createAndSendVerification rfl _ _ fun st t => keeps_ret.mpr True.intro

theorem free_verifyResetCode (email code : String) :
    Free s (.verifyResetCode email code) (s.verifyResetCode email code) {} := by
  refine keeps_fetch_user (fun a _ => ?_) fun _ _ => True.intro
  exact keeps_bind (keeps_checkCode_account _) (fun _ _ _ => keeps_ret.mpr True.intro)
    fun _ _ _ => True.intro

/-- Refreshing keeps the protocol of accounts. -/
theorem free_refresh (refreshToken : String) :
    Free s (.refresh refreshToken) (s.refresh refreshToken) {} := by
  have hfetch : ∀ {st : Checking} {missing : GoError} {op : Op} {f : op.Res → Act Reply},
      op.silent (.refresh refreshToken) = true →
      (∀ st' a, Free s (.refresh refreshToken) (f a) st') →
      Free s (.refresh refreshToken) (fetch missing op >>= f) st := by
    intro st missing op f hop hf
    refine keeps_fetch_bind (fun a _ => ?_) fun e _ => ?_
    · obtain ⟨st', hnext, -⟩ := next_silent (s := s) st hop (.ok a)
      exact ⟨st', hnext, hf st' a⟩
    · obtain ⟨st', hnext, -⟩ := next_silent (s := s) st hop (.error e)
      exact ⟨st', hnext, fun _ => True.intro⟩
  unfold Service.refresh
  split
  · exact keeps_fail.mpr True.intro
  refine hfetch rfl fun st t => free_perform rfl fun st now _ => ?_
  split
  · exact keeps_fail.mpr True.intro
  refine hfetch rfl fun st user => ?_
  split
  · exact keeps_fail.mpr True.intro
  exact free_perform rfl fun st _ _ => free_perform rfl fun st nowTs _ => free_signIn ..

theorem free_logout (refreshToken : String) :
    Free s (.logout refreshToken) (s.logout refreshToken) {} := by
  unfold Service.logout
  split
  · exact keeps_fail.mpr True.intro
  · exact free_perform rfl fun st _ _ => keeps_ret.mpr True.intro

/-- A social sign-in marks addresses freely. -/
theorem free_verifyAddress (hl : l.isSocial = true) (hst : st.changed = false) (user : Account)
    (nowTs : Time) {f : Unit → Act β} (hf : ∀ st', Free s l (f ()) st') :
    Free s l (verifyAddress user nowTs >>= f) st := by
  unfold verifyAddress
  split
  · have hallow : ∀ x, st.allows s l ⟨.updateUserEmailVerifiedAt user.id nowTs, x⟩ = true := by
      intro x
      simp only [Checking.allows, hst, hl, Bool.not_false, Bool.true_or, Bool.and_self]
    exact keeps_perform_bind (fun _ _ => ⟨_, if_pos (hallow _), hf _⟩)
      fun _ _ => ⟨_, if_pos (hallow _), True.intro⟩
  · exact hf st

theorem free_socialAccount (hl : l.isSocial = true) (hst : st.changed = false)
    (found : Except GoError Account) (email firstName lastName : String) (nowTs : Time) :
    Free s l (socialAccount found email firstName lastName nowTs) st := by
  unfold socialAccount
  split
  · exact free_verifyAddress hl hst _ _ fun st => keeps_ret.mpr True.intro
  · refine free_perform rfl fun st userID _ => ?_
    exact free_createUser (Bool.or_true _) fun st => keeps_ret.mpr True.intro
  · exact keeps_fail.mpr True.intro

/-- A social sign-in keeps the protocol. -/
theorem free_signinWithSocial (input : SocialSigninInput) :
    Free s (.signinWithSocial input) (s.signinWithSocial input) {} := by
  unfold Service.signinWithSocial
  extract_lets provider providerUserID email
  split
  · exact keeps_fail.mpr True.intro
  split
  · exact keeps_fail.mpr True.intro
  split
  · exact keeps_fail.mpr True.intro
  rcases normalizeSocialNames input.firstName input.lastName input.fullName email
    with ⟨firstName, lastName⟩
  refine free_perform rfl fun st nowTs hst => ?_
  refine free_silent (show Within [.identity] _ from within_ask (.head _))
    (silent_of_forall (by decide)) fun st' r hst' => ?_
  have hch : st'.changed = false := hst'.2.2.trans hst.2.2
  split
  · refine free_perform rfl fun st user hst => ?_
    exact free_verifyAddress rfl (hst.2.2.trans hch) _ _ fun st => free_signIn ..
  · refine free_ask_user ⟨hst'.1.trans hst.1, hch⟩ fun st found hst => ?_
    refine keeps_bind (free_socialAccount rfl hst ..) (fun st x _ => ?_) fun _ _ _ => True.intro
    exact free_perform rfl fun st id _ => free_perform rfl fun st _ _ => free_signIn ..
  · exact keeps_fail.mpr True.intro

/-- **Every request keeps to the protocol of accounts.** -/
theorem keeps_accounts (l : Request) :
    Keeps (accounts s) l ((accounts s).ends l) (l.body s) ((accounts s).init l) := by
  have hfree : ∀ {l : Request} {p : Act Reply}, (∀ st out, (accounts s).ends l st out) →
      Free s l p {} → Keeps (accounts s) l ((accounts s).ends l) p {} :=
    fun hl hp => keeps_mono (fun st out _ => hl st out) hp
  cases l with
  | signup => exact hfree (fun _ _ => True.intro) (free_signup ..)
  | signinWithSocial input =>
      show Keeps (accounts s) _ _ (s.signinWithSocial input) _
      exact hfree (fun _ _ => True.intro) (free_signinWithSocial input)
  | signin => exact keeps_signin_account ..
  | forgotPassword => exact hfree (fun _ _ => True.intro) (free_forgotPassword _)
  | resetPassword => exact hfree (fun _ _ => True.intro) (keeps_resetPassword_account ..)
  | resendVerification => exact hfree (fun _ _ => True.intro) (free_resendVerification _)
  | verifyEmail => exact keeps_verifyEmail_account ..
  | verifyResetCode => exact hfree (fun _ _ => True.intro) (free_verifyResetCode ..)
  | refresh => exact hfree (fun _ _ => True.intro) (free_refresh _)
  | logout => exact hfree (fun _ _ => True.intro) (free_logout _)

end Keeps

/-! ### Acceptance -/

/-- A request that was served, alone. -/
abbrev ServerVisit : Type := Visit World Request Op.Res GoError Reply

/-- Requests served one after the other; calls may fail, and requests may be cut short. -/
abbrev Served (s : Service) (C : ServerVisit → Prop) :
    World → List ServerVisit → World → Prop :=
  Visits (Request.body s) (Call s.hashToken) C

/-- The account `a` has the address `E`, and the code is the one that is stored for it.  Codes
are mailed to the address of their account and nowhere else, so that it is the owner of the
mailbox who presents it. -/
def HasCode (s : Service) (E : String) (w : World) (code : String) (a : Account) : Prop :=
  a ∈ w.users ∧ a.email = E ∧
    ∃ r, w.verifications.get a.id = some r ∧ s.compareVerificationCode code r.codeHash = true

/-- A `VerifyEmail` for `E` with the code, while the hash of the stored password is `h`. -/
def Presents (s : Service) (E : String) (w : World) (l : Request) (h : String) : Prop :=
  ∃ email code a, l = .verifyEmail email code ∧ normalizeEmail email = E ∧
    HasCode s E w (trimSpace code) a ∧ a.passwordHash = h

/-- A `ResetPassword` for `E` with the code has stored `h`, the hash of its new password. -/
def Replaces (s : Service) (E : String) (w : World) (l : Request)
    (log : List (Answered Op.Res GoError)) (h : String) : Prop :=
  ∃ email code newPassword a, l = .resetPassword email code newPassword ∧
    normalizeEmail email = E ∧ HasCode s E w (trimSpace code) a ∧
    (⟨.generateFromPassword (trimSpace newPassword), .ok h⟩ : Answered Op.Res GoError) ∈ log ∧
    (⟨.updateUserPassword a.id h, .ok ()⟩ : Answered Op.Res GoError) ∈ log

/-- The owner of the mailbox accepts the password with hash `h`. -/
def Accepts (s : Service) (E h : String) (v : ServerVisit) : Prop :=
  Presents s E v.before v.label h ∧ (∃ reply, v.rest = .ret reply) ∨
    Replaces s E v.before v.label v.log h

/-- The call marks the address of an account of `E` that has a password and was not
verified. -/
def opens (E : String) (w : World) : Answered Op.Res GoError → Bool
  | ⟨.updateUserEmailVerifiedAt id _, .ok _⟩ => w.users.any fun a =>
      a.id == id && a.email == E && a.emailVerifiedAt.isNone && a.passwordHash != ""
  | _ => false

/-- The condition: no social sign-in marks the address of such an account, and a `VerifyEmail`
that does is not cut short, and none of its calls fails. -/
def opensInOrder (E : String) (v : ServerVisit) : Prop :=
  v.log.any (opens E v.before) = true →
    v.label.isSocial = false ∧ v.rest.ended?.isSome = true ∧ v.log.any fails = false

instance (E : String) : DecidablePred (opensInOrder E) := fun v => by
  unfold opensInOrder
  infer_instance

/-! ### One request -/

/-- The id of an account determines its address. -/
def Emails (w : World) : Prop := ∀ a ∈ w.users, ∀ b ∈ w.users, a.id = b.id → a.email = b.email

/-- How a password can have been accepted, as far as a request has got. -/
inductive Known (s : Service) (E : String) (vs : List ServerVisit) (l : Request) (w : World)
    (log : List (Answered Op.Res GoError)) (h : String) : Prop
  | before (v) : v ∈ vs → Accepts s E h v → Known s E vs l w log h
  | opened : log.any (opens E w) = true → l.isSocial = true ∨ Presents s E w l h →
      Known s E vs l w log h
  | replaced : Replaces s E w l log h → Known s E vs l w log h

/-- What holds while a request is served that has found the world `w₀`. -/
structure Inside (s : Service) (E : String) (vs : List ServerVisit) (l : Request) (w₀ : World)
    (log : List (Answered Op.Res GoError)) (st : Checking) (w : World) : Prop where
  emails : Emails w
  unchanged : st.changed = false → w.users = w₀.users
  codes : l.proof.isSome = true → st.code = none → w.verifications = w₀.verifications
  user : ∀ a, st.user = some a → a ∈ w₀.users
  code : l.proof.isSome = true → ∀ r, st.code = some r → w₀.verifications.get r.userID = some r
  hashed : ∀ x, st.hashed = some x →
    (⟨.generateFromPassword x.1, .ok x.2⟩ : Answered Op.Res GoError) ∈ log
  failed : st.failed = true → log.any fails = true
  opened : log.any (opens E w₀) = true → st.changed = true
  known : ∀ a ∈ w.users, a.email = E → a.emailVerifiedAt.isSome = true → a.passwordHash ≠ "" →
    Known s E vs l w₀ log a.passwordHash

section Inside

variable {s : Service} {E : String} {vs : List ServerVisit} {l : Request} {w₀ w w' : World}
  {log : List (Answered Op.Res GoError)} {st st' : Checking} {a : Answered Op.Res GoError}
  {h : String}

/-- What is known stays known. -/
theorem Known.concat (hk : Known s E vs l w₀ log h) : Known s E vs l w₀ (log ++ [a]) h := by
  cases hk with
  | before v hv ha => exact .before v hv ha
  | opened ho hl =>
      refine .opened ?_ hl
      rw [List.any_append, ho, Bool.true_or]
  | replaced hr =>
      obtain ⟨email, code, newPassword, b, hl, he, hb, hgen, hset⟩ := hr
      exact .replaced ⟨email, code, newPassword, b, hl, he, hb, List.mem_append_left _ hgen,
        List.mem_append_left _ hset⟩

/-- A call that changes no account. -/
theorem Inside.keep (hI : Inside s E vs l w₀ log st w) (husers : w'.users = w.users)
    (hcodes : l.proof.isSome = true → st'.code = none → w'.verifications = w₀.verifications)
    (hchanged : st'.changed = st.changed) (huser : ∀ b, st'.user = some b → b ∈ w₀.users)
    (hcode : l.proof.isSome = true → ∀ r, st'.code = some r →
      w₀.verifications.get r.userID = some r)
    (hhashed : ∀ x, st'.hashed = some x →
      (⟨.generateFromPassword x.1, .ok x.2⟩ : Answered Op.Res GoError) ∈ log ++ [a])
    (hfailed : st'.failed = (st.failed || fails a)) (hopens : opens E w₀ a = false) :
    Inside s E vs l w₀ (log ++ [a]) st' w' where
  emails := by
    unfold Emails
    rw [husers]
    exact hI.emails
  unchanged h := by
    rw [husers]
    exact hI.unchanged (hchanged.symm.trans h)
  codes := hcodes
  user := huser
  code := hcode
  hashed := hhashed
  failed h := by
    rw [hfailed, Bool.or_eq_true] at h
    rw [List.any_append, Bool.or_eq_true]
    refine h.imp hI.failed fun h => ?_
    rw [List.any_cons, h, Bool.true_or]
  opened h := by
    rw [List.any_append, List.any_cons, hopens, List.any_nil, Bool.or_false, Bool.or_false] at h
    rw [hchanged]
    exact hI.opened h
  known b hb := by
    rw [husers] at hb
    exact fun he hv hp => (hI.known b hb he hv hp).concat

/-- A call that changes an account. -/
theorem Inside.change (hI : Inside s E vs l w₀ log st w) (hemails : Emails w')
    (hcodes : w'.verifications = w.verifications)
    (hknown : ∀ b ∈ w'.users, b.email = E → b.emailVerifiedAt.isSome = true →
      b.passwordHash ≠ "" → Known s E vs l w₀ (log ++ [a]) b.passwordHash) :
    Inside s E vs l w₀ (log ++ [a]) { st with changed := true } w' where
  emails := hemails
  unchanged h := by cases h
  codes hl h := hcodes.trans (hI.codes hl h)
  user := hI.user
  code := hI.code
  hashed x h := List.mem_append_left _ (hI.hashed x h)
  failed h := by
    rw [List.any_append, hI.failed h, Bool.true_or]
  opened _ := rfl
  known := hknown

/-- A request that proves it has the code of an account has shown it. -/
theorem Inside.hasCode (he : Emails w₀) (hI : Inside s E vs l w₀ log st w) {b : Account}
    (hb : b ∈ w₀.users) (hE : b.email = E) (hp : st.proves s l b.id = true) :
    ∃ code, l.proof = some (E, code) ∧ HasCode s E w₀ code b := by
  simp only [Checking.proves, Option.any_eq_true, Bool.and_eq_true, beq_iff_eq] at hp
  obtain ⟨⟨email, code⟩, hl, ⟨c, hc, hid, rfl⟩, r, hr, hu, hcompare⟩ := hp
  have hrow := hI.code (by rw [hl]; rfl) r hr
  rw [hu] at hrow
  -- the account it has read is this one
  have hemail : c.email = E := (he c (hI.user c hc) b hb hid).trans hE
  rw [hemail] at hl
  exact ⟨code, hl, hb, hE, r, hrow, hcompare⟩

/-- Calls on other tables leave the accounts alone. -/
theorem call_users {hashToken : String → String} {op : Op} {r : Except GoError op.Res}
    (hc : Call hashToken op w r w') (hop : op.group ≠ .account) : w'.users = w.users := by
  cases hc with
  | answer _ w =>
      cases op <;> simp only [World.answer] <;> first
        | exact absurd rfl hop
        | (split <;> rfl)
  | fault => rfl
  | hash => rfl
  | token => rfl
  | code => rfl
  | sign => rfl
  | mail => rfl
  | now => rfl
  | newUUID => rfl

theorem call_getUserByEmail {hashToken : String → String} {email : String} {b : Account}
    (hc : Call hashToken (.getUserByEmail email) w (.ok b) w') : b ∈ w.users ∧ w' = w := by
  have hanswer := call_ok rfl hc
  simp only [World.answer] at hanswer
  obtain ⟨hrow, rfl⟩ := Prod.mk.inj hanswer
  exact ⟨List.mem_of_find?_eq_some (orNoRows_ok hrow), rfl⟩

/-- An account is created under a new id. -/
theorem call_createUser {hashToken : String → String} {arg : Account} {x : Unit}
    (hc : Call hashToken (.createUser arg) w (.ok x) w') :
    (∀ b ∈ w.users, b.id ≠ arg.id) ∧ w' = { w with users := w.users ++ [arg] } := by
  have hanswer := call_ok rfl hc
  simp only [World.answer] at hanswer
  split at hanswer
  · next hall =>
      refine ⟨fun b hb => ?_, (Prod.mk.inj hanswer).2.symm⟩
      have hne := List.all_eq_true.mp hall b hb
      rw [Bool.and_eq_true, bne_iff_ne] at hne
      exact hne.1
  · cases hanswer

/-- An account after an update of the account `id`: it is as before, or it is that account. -/
theorem mem_modifyUser {id : UUID} {f : Account → Account} {b : Account}
    (hb : b ∈ (w.modifyUser id f).users) :
    ∃ c ∈ w.users, b = c ∧ c.id ≠ id ∨ b = f c ∧ c.id = id := by
  obtain ⟨c, hc, rfl⟩ := List.mem_map.mp hb
  refine ⟨c, hc, ?_⟩
  split
  · next hid => exact Or.inr ⟨rfl, eq_of_beq hid⟩
  · next hid => exact Or.inl ⟨rfl, fun h => hid (beq_iff_eq.mpr h)⟩

/-- Updates keep ids and addresses. -/
theorem Emails.modifyUser (he : Emails w) {id : UUID} {f : Account → Account}
    (hid : ∀ b, (f b).id = b.id) (hemail : ∀ b, (f b).email = b.email) :
    Emails (w.modifyUser id f) := by
  intro b hb c hc hbc
  obtain ⟨b₀, hb₀, hb⟩ := mem_modifyUser hb
  obtain ⟨c₀, hc₀, hc⟩ := mem_modifyUser hc
  have hb' : b.id = b₀.id ∧ b.email = b₀.email := by
    rcases hb with ⟨rfl, -⟩ | ⟨rfl, -⟩
    · exact ⟨rfl, rfl⟩
    · exact ⟨hid b₀, hemail b₀⟩
  have hc' : c.id = c₀.id ∧ c.email = c₀.email := by
    rcases hc with ⟨rfl, -⟩ | ⟨rfl, -⟩
    · exact ⟨rfl, rfl⟩
    · exact ⟨hid c₀, hemail c₀⟩
  rw [hb'.2, hc'.2]
  exact he b₀ hb₀ c₀ hc₀ (hb'.1.symm.trans (hbc.trans hc'.1))

/-- An account with a new id keeps this. -/
theorem Emails.concat (he : Emails w) {arg : Account} (hnew : ∀ b ∈ w.users, b.id ≠ arg.id) :
    Emails { w with users := w.users ++ [arg] } := by
  intro b hb c hc hbc
  rcases List.mem_append.mp hb with hb | hb
  · rcases List.mem_append.mp hc with hc | hc
    · exact he b hb c hc hbc
    · cases List.mem_singleton.mp hc
      exact absurd hbc (hnew b hb)
  · cases List.mem_singleton.mp hb
    rcases List.mem_append.mp hc with hc | hc
    · exact absurd hbc.symm (hnew c hc)
    · cases List.mem_singleton.mp hc
      rfl

/-- A new account. -/
theorem Inside.create (hI : Inside s E vs l w₀ log st w) {arg : Account} {x : Unit}
    (harg : (arg.emailVerifiedAt.isNone || arg.passwordHash == "") = true)
    (hc : Call s.hashToken (.createUser arg) w (.ok x) w') :
    Inside s E vs l w₀ (log ++ [⟨.createUser arg, .ok x⟩]) { st with changed := true } w' := by
  obtain ⟨hnew, rfl⟩ := call_createUser hc
  refine hI.change (hI.emails.concat hnew) rfl fun b hb hE hver hpass => ?_
  rcases List.mem_append.mp hb with hb | hb
  · exact (hI.known b hb hE hver hpass).concat
  · -- the new account does not let anybody in
    cases List.mem_singleton.mp hb
    rw [Bool.or_eq_true, beq_iff_eq, Option.isNone_iff_eq_none] at harg
    rcases harg with hnone | hempty
    · rw [hnone] at hver
      cases hver
    · exact absurd hempty hpass

/-- An address is marked as verified. -/
theorem Inside.mark (he : Emails w₀) (hI : Inside s E vs l w₀ log st w) {id : UUID} {t : Time}
    {x : Unit} (hch : st.changed = false)
    (hl : l.isSocial = true ∨ l.verifies = true ∧ st.proves s l id = true)
    (hc : Call s.hashToken (.updateUserEmailVerifiedAt id t) w (.ok x) w') :
    Inside s E vs l w₀ (log ++ [⟨.updateUserEmailVerifiedAt id t, .ok x⟩])
      { st with changed := true } w' := by
  have hanswer := call_ok rfl hc
  cases (Prod.mk.inj hanswer).2
  refine hI.change (hI.emails.modifyUser (fun _ => rfl) fun _ => rfl) rfl
    fun b hb hE hver hpass => ?_
  obtain ⟨c, hc, ⟨rfl, -⟩ | ⟨rfl, hid⟩⟩ := mem_modifyUser hb
  · exact (hI.known b hc hE hver hpass).concat
  rcases hnone : c.emailVerifiedAt with - | t'
  · -- it was not verified
    have hc₀ : c ∈ w₀.users := hI.unchanged hch ▸ hc
    refine .opened ?_ (hl.imp_right fun ⟨hv, hp⟩ => ?_)
    · rw [List.any_append, Bool.or_eq_true]
      refine Or.inr ?_
      rw [List.any_cons, Bool.or_eq_true]
      refine Or.inl (List.any_eq_true.mpr ⟨c, hc₀, ?_⟩)
      rw [hnone, beq_iff_eq.mpr hid, beq_iff_eq.mpr (show c.email = E from hE),
        bne_iff_ne.mpr hpass]
      rfl
    · -- the request has shown the code of the account
      rw [← hid] at hp
      obtain ⟨code, hproof, hcode⟩ := hI.hasCode he hc₀ hE hp
      cases l with
      | verifyEmail email code' =>
          obtain ⟨hemail, rfl⟩ := Prod.mk.inj (Option.some.inj hproof)
          exact ⟨email, code', c, rfl, hemail, hcode, rfl⟩
      | _ => cases hv
  · exact (hI.known c hc hE (by rw [hnone]; rfl) hpass).concat

/-- A password is set. -/
theorem Inside.setPassword (he : Emails w₀) (hI : Inside s E vs l w₀ log st w) {id : UUID}
    {x : Unit} (hch : st.changed = false) (hp : st.proves s l id = true)
    {newPassword : String} (hnew : l.newPassword = some newPassword)
    (hhashed : st.hashed = some (newPassword, h))
    (hc : Call s.hashToken (.updateUserPassword id h) w (.ok x) w') :
    Inside s E vs l w₀ (log ++ [⟨.updateUserPassword id h, .ok x⟩]) { st with changed := true }
      w' := by
  have hanswer := call_ok rfl hc
  cases (Prod.mk.inj hanswer).2
  refine hI.change (hI.emails.modifyUser (fun _ => rfl) fun _ => rfl) rfl
    fun b hb hE hver hpass => ?_
  obtain ⟨c, hmem, ⟨rfl, -⟩ | ⟨rfl, rfl⟩⟩ := mem_modifyUser hb
  · exact (hI.known b hmem hE hver hpass).concat
  have hc₀ : c ∈ w₀.users := hI.unchanged hch ▸ hmem
  obtain ⟨code, hproof, hcode⟩ := hI.hasCode he hc₀ hE hp
  cases l with
  | resetPassword email code' newPassword' =>
      obtain ⟨hemail, rfl⟩ := Prod.mk.inj (Option.some.inj hproof)
      have hgen := hI.hashed _ hhashed
      rw [← Option.some.inj hnew] at hgen
      exact .replaced ⟨email, code', newPassword', c, rfl, hemail, hcode,
        List.mem_append_left _ hgen, List.mem_append_right _ (List.mem_singleton_self _)⟩
  | _ => cases hnew

/-- **One call.** -/
theorem Inside.step (he : Emails w₀) (hI : Inside s E vs l w₀ log st w) {op : Op}
    {r : Except GoError op.Res} (hn : (accounts s).next l st ⟨op, r⟩ = some st')
    (hc : Call s.hashToken op w r w') : Inside s E vs l w₀ (log ++ [⟨op, r⟩]) st' w' := by
  obtain ⟨hallow, hst⟩ := Option.ite_none_right_eq_some.mp hn
  cases hst
  have hfailed := after_failed st ⟨op, r⟩
  have hhashed : ∀ x, st.hashed = some x →
      (⟨.generateFromPassword x.1, .ok x.2⟩ : Answered Op.Res GoError) ∈ log ++ [⟨op, r⟩] :=
    fun x hx => List.mem_append_left _ (hI.hashed x hx)
  rcases r with e | x
  -- a call that fails has only been asked for
  · cases call_error hc
    rw [after_failure] at hfailed ⊢
    exact hI.keep rfl hI.codes rfl hI.user hI.code hhashed hfailed (by cases op <;> rfl)
  cases op with
  | getUserByEmail email =>
      obtain ⟨hx, rfl⟩ := call_getUserByEmail hc
      simp only [Checking.allows, Bool.and_eq_true, Bool.not_eq_true'] at hallow
      refine hI.keep rfl hI.codes rfl ?_ hI.code hhashed hfailed rfl
      rintro b ⟨⟩
      -- the account is read before anything is written
      rw [← hI.unchanged hallow.2]
      exact hx
  | getEmailVerificationByUserID u =>
      obtain ⟨hx, rfl⟩ := call_getEmailVerificationByUserID hc
      refine hI.keep rfl (fun _ h => by cases h) rfl hI.user ?_ hhashed hfailed rfl
      rintro hl r ⟨⟩
      -- so is the code
      rw [← hI.codes hl (Option.isNone_iff_eq_none.mp hallow), Table.keyed _ hx]
      exact hx
  | generateFromPassword password =>
      refine hI.keep (call_users hc nofun) ?_ rfl hI.user hI.code ?_ hfailed rfl
      · intro hl hnone
        rw [(call_of_group hc nofun nofun).1]
        exact hI.codes hl hnone
      · rintro y ⟨⟩
        exact List.mem_append_right _ (List.mem_singleton_self _)
  | createUser arg => exact hI.create hallow hc
  | updateUserEmailVerifiedAt id t =>
      simp only [Checking.allows, Bool.and_eq_true, Bool.not_eq_true', Bool.or_eq_true] at hallow
      exact hI.mark he hallow.1 hallow.2 hc
  | updateUserPassword id h =>
      simp only [Checking.allows, Bool.and_eq_true, Bool.not_eq_true', Option.any_eq_true,
        beq_iff_eq] at hallow
      obtain ⟨⟨hch, hp⟩, newPassword, hnew, hhash⟩ := hallow
      exact hI.setPassword he hch hp hnew hhash hc
  | upsertEmailVerification u codeHash expiresAt =>
      refine hI.keep (call_users hc nofun) ?_ rfl hI.user hI.code hhashed hfailed rfl
      intro hl
      rw [Option.isNone_iff_eq_none.mp hallow] at hl
      cases hl
  | deleteEmailVerificationByUserID u =>
      refine hI.keep (call_users hc nofun) ?_ rfl hI.user hI.code hhashed hfailed rfl
      intro _ hnone
      simp only [Checking.allows, show st.code = none from hnone, Option.isSome_none,
        Bool.false_eq_true] at hallow
  | _ =>
      refine hI.keep (call_users hc nofun) ?_ rfl hI.user hI.code hhashed hfailed rfl
      intro hl hnone
      rw [(call_of_group hc nofun nofun).1]
      exact hI.codes hl hnone

/-- The answers a call brings are expected. -/
theorem expected_of_call {op : Op} {r : Except GoError op.Res}
    (hc : Call s.hashToken op w r w') : (accounts s).expects l st ⟨op, r⟩ := by
  refine ⟨?_, ?_, expects_of_call hc⟩
  · rintro email b ⟨⟩
    have hanswer := call_ok rfl hc
    simp only [World.answer] at hanswer
    have hfound := List.find?_some (orNoRows_ok (Prod.mk.inj hanswer).1)
    exact beq_iff_eq.mp hfound
  · rintro u b ⟨⟩
    exact Table.keyed _ (call_getEmailVerificationByUserID hc).1

/-- **One request**: what has been found out at its end. -/
theorem inside_of_leaves (he : Emails w₀) {v : ServerVisit} (hv : v.before = w₀)
    (hleaves : v.Leaves (Request.body s) (Call s.hashToken) w)
    (hknown : ∀ b ∈ w₀.users, b.email = E → b.emailVerifiedAt.isSome = true →
      b.passwordHash ≠ "" → ∃ u ∈ vs, Accepts s E b.passwordHash u) :
    ∃ st, Inside s E vs v.label w₀ v.log st w ∧
      Keeps (accounts s) v.label ((accounts s).ends v.label) v.rest st := by
  subst hv
  rw [← List.nil_append v.log]
  refine Keeps.runs (I := fun log st w => Inside s E vs v.label v.before log st w)
    (fun _ _ _ _ _ _ _ hc => expected_of_call hc) (fun _ _ _ _ _ _ _ hI hn hc => hI.step he hn hc)
    hleaves (keeps_accounts v.label) ?_
  refine ⟨he, fun _ => rfl, fun _ _ => rfl, nofun, fun _ => nofun, nofun, nofun, nofun, ?_⟩
  intro b hb hE hver hpass
  obtain ⟨u, hu, ha⟩ := hknown b hb hE hver hpass
  exact .before u hu ha

end Inside

/-! ### Whole sequences -/

/-- At the start, no account of `E` with a password is verified. -/
def Unvouched (E : String) (w : World) : Prop :=
  Emails w ∧ ∀ a ∈ w.users, a.email = E → a.emailVerifiedAt.isSome = true → a.passwordHash = ""

/-- Whenever `Signin` succeeds for `E`, the owner of the mailbox has accepted the password, for
sequences of requests that meet `C`. -/
def MailboxControl (s : Service) (E : String) (C : ServerVisit → Prop) (w : World) : Prop :=
  ∀ {vs : List ServerVisit} {v : ServerVisit} {w' email password reply},
    Served s C w vs v.before → v.Leaves (Request.body s) (Call s.hashToken) w' →
    v.label = .signin email password → normalizeEmail email = E → v.rest = .ret reply →
    ∃ a ∈ v.before.users, a.email = E ∧
      s.comparePasswordHash (trimSpace password) a.passwordHash = true ∧
      ∃ u ∈ vs, Accepts s E a.passwordHash u

section Served

variable {s : Service} {E : String} {w w' : World} {vs : List ServerVisit}

/-- **Every request keeps it**: the passwords of verified accounts were accepted. -/
theorem accepted_of_served (h0 : Unvouched E w) (hrun : Served s (opensInOrder E) w vs w') :
    Emails w' ∧ ∀ a ∈ w'.users, a.email = E → a.emailVerifiedAt.isSome = true →
      a.passwordHash ≠ "" → ∃ u ∈ vs, Accepts s E a.passwordHash u := by
  refine hrun.invariant (I := fun vs w => Emails w ∧ ∀ a ∈ w.users, a.email = E →
    a.emailVerifiedAt.isSome = true → a.passwordHash ≠ "" → ∃ u ∈ vs, Accepts s E a.passwordHash u)
    ?_ ⟨h0.1, fun a ha hE hver hpass => absurd (h0.2 a ha hE hver) hpass⟩
  rintro vs v w' ⟨he, hknown⟩ hC hv
  obtain ⟨st, hI, hkeep⟩ := inside_of_leaves he rfl hv hknown
  refine ⟨hI.emails, fun a ha hE hver hpass => ?_⟩
  cases hI.known a ha hE hver hpass with
  | before u hu hacc => exact ⟨u, List.mem_append_left _ hu, hacc⟩
  | replaced hr =>
      exact ⟨v, List.mem_append_right _ (List.mem_singleton_self _), Or.inr hr⟩
  | opened ho hl =>
      obtain ⟨hsocial, hended, hfails⟩ := hC ho
      refine ⟨v, List.mem_append_right _ (List.mem_singleton_self _), Or.inl ?_⟩
      rw [hsocial] at hl
      have hp := hl.resolve_left nofun
      obtain ⟨out, hout⟩ := Option.isSome_iff_exists.mp hended
      rw [Prog.ended_eq_some hout] at hkeep ⊢
      refine ⟨hp, ?_⟩
      cases out with
      | ok reply => exact ⟨reply, rfl⟩
      | error e =>
          -- it has marked the address, so that a call must have failed
          obtain ⟨email, code, b, hlabel, -⟩ := hp
          rw [hlabel] at hkeep
          have hfailed := keeps_ofExcept.mp hkeep rfl (hI.opened ho)
          rw [hI.failed hfailed] at hfails
          cases hfails

end Served

/-- **A password sign-in implies control of the mailbox**, in every sequence of requests in
which calls fail and requests are cut short at any point, as long as no social sign-in marks
the address of an unverified account with a password, and a `VerifyEmail` that does runs to
its end without a failing call. -/
theorem password_accepted {s : Service} {E : String} {w : World} (h0 : Unvouched E w) :
    MailboxControl s E (opensInOrder E) w := by
  intro vs v w' email password reply hrun hv hl hemail hret
  obtain ⟨he, hknown⟩ := accepted_of_served h0 hrun
  obtain ⟨st, hI, hkeep⟩ := inside_of_leaves he rfl hv hknown
  rw [hret, hl] at hkeep
  have hadmits : st.admits s email password = true := keeps_ret.mp hkeep rfl
  simp only [Checking.admits, Option.any_eq_true, Bool.and_eq_true, beq_iff_eq] at hadmits
  obtain ⟨a, hread, ⟨ha, hver⟩, hpass⟩ := hadmits
  have hmem := hI.user a hread
  refine ⟨a, hmem, ha.trans hemail, hpass, hknown a hmem (ha.trans hemail) hver ?_⟩
  rintro hempty
  simp only [Service.comparePasswordHash, hempty, bne_self_eq_false, Bool.and_false,
    Bool.false_and, Bool.false_eq_true] at hpass

/-! ### Sample sequences -/

namespace Sample

/-- Nobody has an account yet. -/
def vacant : World where
  users := []
  verifications := .empty _
  identities := []
  refreshTokens := []
  organizations := []
  members := []
  environments := []
  stored := 0
  drawn := []

theorem unvouched_vacant (E : String) : Unvouched E vacant := ⟨nofun, nofun⟩

/-- No call fails. -/
def choice : Op → World → Choice
  | .generateFromPassword _, _ => .text strangerHash
  | .drawRefreshToken, w => .text (if w.drawn.isEmpty then "first-token" else "second-token")
  | .drawVerificationCode, _ => .text "123456"
  | .generateAccessToken _ _ _, _ => .text "access-token"
  | .now, _ => .time 10
  | .newUUID, w => .uuid (.ofDigit (w.users.length + w.organizations.length + w.members.length +
      w.environments.length + w.refreshTokens.length))
  | _, _ => .run

def answer (op : Op) (w : World) : Except GoError op.Res × World :=
  (World.serve hashToken (choice op w) op w).getD (.error (.other "connection reset"), w)

theorem call_answer (op : Op) (w : World) :
    Call hashToken op w (answer op w).1 (answer op w).2 := by
  unfold answer
  rcases hserve : World.serve hashToken (choice op w) op w with - | ⟨r, w'⟩
  · have hop : op.fallible = true := by
      cases op <;> first | rfl | cases hserve
    exact .fault hop w _
  · exact World.serve_call hserve

def signup : Request := .signup "Ada" "Lovelace" "ada@example.com" "stranger-pass"

def signin : Request := .signin "ada@example.com" "stranger-pass"

/-- The requests, served without a failure. -/
def serve (ls : List Request) : List ServerVisit × World :=
  visits (Request.body service) answer ls vacant

/-- The sign-in that follows. -/
def lastSignin (ls : List Request) : ServerVisit × World :=
  visit (Request.body service) answer signin (serve ls).2

theorem served {C : ServerVisit → Prop} (ls : List Request) (h : ∀ v ∈ (serve ls).1, C v) :
    Served service C vacant (serve ls).1 (serve ls).2 :=
  visits_of_computed call_answer ls (.nil _) h

theorem lastSignin_succeeds (ls : List Request)
    (h : ((lastSignin ls).1.rest.ended?.any Except.isOk) = true) :
    ∃ reply, (lastSignin ls).1.rest = .ret reply := by
  obtain ⟨out, hout, hok⟩ := Option.any_eq_true _ _ |>.mp h
  cases out with
  | ok reply => exact ⟨reply, Prog.ended_eq_some hout⟩
  | error e => cases hok

end Sample

/-- The owner of the mailbox verifies the address, and signs in. -/
theorem password_accepted_verified :
    MailboxControl Sample.service "ada@example.com" (opensInOrder "ada@example.com")
        Sample.vacant ∧
      ∃ (vs : List ServerVisit) (w : World) (v : ServerVisit) (w' : World) (reply : Reply),
        Served Sample.service (opensInOrder "ada@example.com") Sample.vacant vs w ∧
        v.before = w ∧ v.Leaves (Request.body Sample.service) (Call Sample.service.hashToken) w' ∧
        v.label = Sample.signin ∧ v.rest = .ret reply := by
  refine ⟨password_accepted (Sample.unvouched_vacant _), ?_⟩
  let ls : List Request := [Sample.signup, .verifyEmail "ada@example.com" "123456"]
  obtain ⟨reply, hret⟩ := Sample.lastSignin_succeeds ls (by decide +kernel)
  exact ⟨_, _, (Sample.lastSignin ls).1, _, reply, Sample.served ls (by decide +kernel),
    rfl, leaves_visit Sample.call_answer _ _, rfl, hret⟩

/-- The stranger's password opens a session after the owner's social sign-in. -/
theorem signin_of_stranger :
    ¬ MailboxControl Sample.service "ada@example.com" (fun _ => True) Sample.vacant := by
  intro hcontrol
  let ls : List Request := [Sample.signup, .signinWithSocial
    { provider := "google", providerUserID := "ada-1", email := "ada@example.com" }]
  obtain ⟨reply, hret⟩ := Sample.lastSignin_succeeds ls (by decide +kernel)
  obtain ⟨a, -, -, -, u, hu, hacc⟩ := hcontrol (Sample.served ls fun _ _ => True.intro)
    (leaves_visit Sample.call_answer _ _) rfl (by decide +kernel) hret
  -- neither of the requests presents a code
  have hlabel := label_of_mem_visits hu
  rcases hacc with ⟨⟨email, code, b, hl, -⟩, -⟩ | ⟨email, code, password, b, hl, -⟩
  · rw [hl] at hlabel
    rcases List.mem_cons.mp hlabel with h | h
    · cases h
    · cases List.mem_singleton.mp h
  · rw [hl] at hlabel
    rcases List.mem_cons.mp hlabel with h | h
    · cases h
    · cases List.mem_singleton.mp h

end Iwifunni.Auth
