/-
Iwifunni/Auth/Codes.lean

One-time codes under concurrent requests.

A user has one row for a code.  `ForgotPassword`, `ResendVerification` and
`Signup` write it, whether there is a row or not; `VerifyEmail` and
`ResetPassword` read it, compare the code, act, and then delete whatever row
the user has by then:

    read row n ... compare ... act ... delete row of the user

The codes of a user are told apart by the serial number of their row.  A code is
spent at most once, not any more once a later one is stored, and spending it
never removes a later one (`spent_once`), as long as the row that is deleted is
the row that was read.  Otherwise two requests can spend one code
(`spent_twice`).
-/
import Iwifunni.Auth.Footprint

namespace Iwifunni.Auth

open Go Db Effect Effect.Prog

/-! ### What a request has done with a code -/

/-- The requests that spend a code. -/
def Request.spends : Request → Bool
  | .verifyEmail _ _ | .resetPassword _ _ _ => true
  | _ => false

/-- The row a request has read, and whether it has deleted it. -/
structure Spending where
  read : Option EmailVerification := none
  spent : Bool := false

/-- One more call. -/
def Spending.after (st : Spending) : Answered Op.Res GoError → Spending
  | ⟨.getEmailVerificationByUserID _, .ok r⟩ => { st with read := some r }
  | ⟨.deleteEmailVerificationByUserID _, .ok _⟩ => { st with spent := true }
  | _ => st

/-- What a request has done, by the calls it has made. -/
def spending (log : List (Answered Op.Res GoError)) : Spending := log.foldl Spending.after {}

/-- A row is read once; it is deleted, once, by requests that spend codes. -/
def Spending.allows (l : Request) (st : Spending) : Answered Op.Res GoError → Bool
  | ⟨.getEmailVerificationByUserID _, _⟩ => st.read.isNone && !st.spent
  | ⟨.deleteEmailVerificationByUserID u, _⟩ =>
      l.spends && !st.spent && st.read.any fun r => r.userID == u
  | _ => true

/-- The protocol of the requests, as far as codes are concerned. -/
def codes : Protocol Request Op.Res GoError Reply Spending where
  init _ := {}
  expects _ _ a := ∀ u r, a = ⟨.getEmailVerificationByUserID u, .ok r⟩ → r.userID = u
  next l st a := if st.allows l a then some (st.after a) else none
  ends l st out := l.spends = true → out.isOk = true → st.spent = true

section Keeps

variable {s : Service} {l : Request} {st : Spending} {β : Type}

theorem next_of_group {op : Op} (hop : op.group ≠ .code) (r : Except GoError op.Res) :
    codes.next l st ⟨op, r⟩ = some st := by
  cases op <;> first | rfl | exact absurd rfl hop

/-- A part of a request that does not touch codes. -/
theorem keeps_of_within {gs : List Group} {p : Act β} (hp : Within gs p) (hgs : .code ∉ gs)
    (st : Spending) : Keeps codes l (fun st' _ => st' = st) p st := by
  refine keeps_mono (fun st' _ h => h.symm) (keeps_of_calls (R := Eq) (fun _ => rfl)
    (fun _ _ _ h h' => h.trans h') (fun op r st hop _ => ⟨st, next_of_group ?_ r, rfl⟩) hp.calls st)
  rintro h
  rw [h] at hop
  exact hgs hop

/-- The same, with more to follow. -/
theorem keeps_then {gs : List Group} {γ : Type} {p : Act γ} {f : γ → Act β}
    {post : Spending → Except GoError β → Prop} (hp : Within gs p) (hgs : .code ∉ gs)
    (hf : ∀ a, Keeps codes l post (f a) st) (herr : ∀ e, post st (.error e)) :
    Keeps codes l post (p >>= f) st := by
  refine keeps_bind (keeps_of_within hp hgs st) (fun st' a h => ?_) fun st' e h => ?_
  · rw [h]
    exact hf a
  · rw [h]
    exact herr e

/-- `checkCode` has read the row it returns. -/
theorem keeps_checkCode (userID : UUID) (code : String) :
    Keeps codes l (fun st out => ∀ r, out = .ok r → st = { read := some r } ∧ r.userID = userID)
      (checkCode s userID code) {} := by
  refine keeps_fetch_bind (fun r hr => ⟨_, rfl, ?_⟩) fun e _ => ⟨_, rfl, fun e' => nofun⟩
  have hu : r.userID = userID := hr userID r rfl
  split
  · exact keeps_fail.mpr nofun
  · refine keeps_then (show Within [.value] _ from within_perform (by decide)) (by decide)
      (fun now => ?_) (fun e => nofun)
    split
    · exact keeps_fail.mpr nofun
    · split
      · refine keeps_ret.mpr ?_
        rintro r' ⟨⟩
        exact ⟨rfl, hu⟩
      · exact keeps_fail.mpr nofun

theorem codes_ends_of_not_spends (hl : l.spends = false) (st : Spending)
    (out : Except GoError Reply) : codes.ends l st out := by
  intro h
  rw [hl] at h
  cases h

theorem codes_ends_error (e : GoError) : codes.ends l st (.error e) := fun _ h => by cases h

/-- Deleting the row that was read. -/
theorem keeps_spend {r : EmailVerification} {u : UUID} {f : Unit → Act β}
    {post : Spending → Except GoError β → Prop} (hl : l.spends = true) (hu : r.userID = u)
    (hf : Keeps codes l post (f ()) { read := some r, spent := true })
    (herr : ∀ e, post { read := some r } (.error e)) :
    Keeps codes l post (perform (Op.deleteEmailVerificationByUserID u) >>= f)
      { read := some r } := by
  have hallow : ∀ x : Except GoError Unit, Spending.allows l { read := some r }
      ⟨.deleteEmailVerificationByUserID u, x⟩ = true := by
    intro x
    simp only [Spending.allows, hl, Bool.not_false, Option.any_some, hu, beq_self_eq_true,
      Bool.and_self]
  exact keeps_perform_bind (fun _ _ => ⟨_, if_pos (hallow _), hf⟩)
    fun e _ => ⟨_, if_pos (hallow _), herr e⟩

/-- A verification keeps the protocol of codes. -/
theorem keeps_verifyEmail (email code : String) :
    Keeps codes (.verifyEmail email code) (codes.ends (.verifyEmail email code))
      (s.verifyEmail email code) {} := by
  refine keeps_then (show Within [.user] _ from within_fetch _ (.head _)) (by decide) (fun user => ?_)
    codes_ends_error
  refine keeps_bind (keeps_checkCode user.id _) (fun st r h => ?_) fun st e _ => codes_ends_error e
  obtain ⟨rfl, hu⟩ := h r rfl
  refine keeps_then (show Within [.value] _ from within_perform (by decide)) (by decide) (fun nowTs => ?_)
    codes_ends_error
  refine keeps_then (show Within [.account] _ from within_perform (.head _)) (by decide) (fun _ => ?_)
    codes_ends_error
  refine keeps_spend rfl hu ?_ codes_ends_error
  refine keeps_mono (fun st' out h _ _ => ?_) (keeps_of_within (within_signIn ..) (by decide) _)
  rw [h]

/-- A reset keeps the protocol of codes. -/
theorem keeps_resetPassword (email code newPassword : String) :
    Keeps codes (.resetPassword email code newPassword)
      (codes.ends (.resetPassword email code newPassword))
      (s.resetPassword email code newPassword) {} := by
  unfold Service.resetPassword
  split
  · exact keeps_fail.mpr (codes_ends_error _)
  refine keeps_then (show Within [.user] _ from within_fetch _ (.head _)) (by decide) (fun user => ?_)
    codes_ends_error
  refine keeps_bind (keeps_checkCode user.id _) (fun st r h => ?_) fun st e _ => codes_ends_error e
  obtain ⟨rfl, hu⟩ := h r rfl
  refine keeps_then (within_hashPassword _) (by decide) (fun passwordHash => ?_) codes_ends_error
  refine keeps_then (show Within [.value] _ from within_perform (by decide)) (by decide) (fun nowTs => ?_)
    codes_ends_error
  refine keeps_then (show Within [.account] _ from within_perform (.head _)) (by decide) (fun _ => ?_)
    codes_ends_error
  exact keeps_spend rfl hu (keeps_ret.mpr fun _ _ => rfl) codes_ends_error

theorem keeps_verifyResetCode (email code : String) :
    Keeps codes (.verifyResetCode email code) (codes.ends (.verifyResetCode email code))
      (s.verifyResetCode email code) {} := by
  refine keeps_then (show Within [.user] _ from within_fetch _ (.head _)) (by decide) (fun user => ?_)
    codes_ends_error
  exact keeps_bind (keeps_checkCode user.id _)
    (fun st r _ => keeps_ret.mpr (codes_ends_of_not_spends rfl st _))
    fun st e _ => codes_ends_error e

/-- **Every request keeps to the protocol of codes.** -/
theorem keeps_codes (l : Request) :
    Keeps codes l (codes.ends l) (l.body s) (codes.init l) := by
  have hwithin : ∀ (l : Request) {gs : List Group} {p : Act Reply}, l.spends = false →
      Within gs p → .code ∉ gs → Keeps codes l (codes.ends l) p {} := fun l _ _ hl hp hgs =>
    keeps_mono (fun st out _ => codes_ends_of_not_spends hl st out) (keeps_of_within hp hgs {})
  cases l with
  | signup => exact hwithin _ rfl (within_signup ..) (by decide)
  | signinWithSocial input =>
      show Keeps codes _ _ (s.signinWithSocial input) _
      exact hwithin _ rfl (within_signinWithSocial input) (by decide)
  | signin => exact hwithin _ rfl (within_signin ..) (by decide)
  | forgotPassword => exact hwithin _ rfl (within_forgotPassword _) (by decide)
  | resetPassword => exact keeps_resetPassword ..
  | resendVerification => exact hwithin _ rfl (within_resendVerification _) (by decide)
  | verifyEmail => exact keeps_verifyEmail ..
  | verifyResetCode => exact keeps_verifyResetCode ..
  | refresh => exact hwithin _ rfl (within_refresh _) (by decide)
  | logout => exact hwithin _ rfl (within_logout _) (by decide)

end Keeps

/-! ### One call -/

section Calls

variable {hashToken : String → String} {w w' : World}

theorem call_getEmailVerificationByUserID {u : UUID} {r : EmailVerification}
    (hc : Call hashToken (.getEmailVerificationByUserID u) w (.ok r) w') :
    w.verifications.get u = some r ∧ w' = w := by
  have hanswer := call_ok rfl hc
  simp only [World.answer] at hanswer
  obtain ⟨hrow, rfl⟩ := Prod.mk.inj hanswer
  exact ⟨orNoRows_ok hrow, rfl⟩

theorem call_deleteEmailVerificationByUserID {u : UUID} {x : Unit}
    (hc : Call hashToken (.deleteEmailVerificationByUserID u) w (.ok x) w') :
    w' = { w with verifications := w.verifications.erase u } := by
  have hanswer := call_ok rfl hc
  simp only [World.answer] at hanswer
  exact (Prod.mk.inj hanswer).2.symm

theorem call_upsertEmailVerification {u : UUID} {codeHash : String} {expiresAt : Option Time}
    {x : Unit} (hc : Call hashToken (.upsertEmailVerification u codeHash expiresAt) w (.ok x) w') :
    w' = { w with
      verifications := w.verifications.set (w.verification u codeHash expiresAt)
      stored := w.stored + 1 } := by
  have hanswer := call_ok rfl hc
  simp only [World.answer] at hanswer
  split at hanswer
  · exact (Prod.mk.inj hanswer).2.symm
  · cases hanswer

/-- The other calls leave the codes alone. -/
theorem call_of_group {op : Op} {r : Except GoError op.Res} (hc : Call hashToken op w r w')
    (hcode : op.group ≠ .code) (hissue : op.group ≠ .issue) :
    w'.verifications = w.verifications ∧ w'.stored = w.stored := by
  cases hc with
  | answer _ w =>
      cases op <;> simp only [World.answer] <;> first
        | exact ⟨True.intro, True.intro⟩
        | exact ⟨rfl, rfl⟩
        | (split <;> exact ⟨rfl, rfl⟩)
        | exact absurd rfl hcode
        | exact absurd rfl hissue
  | token => exact ⟨rfl, rfl⟩
  | fault => exact ⟨rfl, rfl⟩
  | hash => exact ⟨rfl, rfl⟩
  | code => exact ⟨rfl, rfl⟩
  | sign => exact ⟨rfl, rfl⟩
  | mail => exact ⟨rfl, rfl⟩
  | now => exact ⟨rfl, rfl⟩
  | newUUID => exact ⟨rfl, rfl⟩

end Calls

/-- What a call does to what its request has done, and to the codes. -/
inductive CodeMove (l : Request) (st : Spending) (w : World) :
    (op : Op) → Except GoError op.Res → Spending → World → Prop
  | read (u r) : w.verifications.get u = some r → st.spent = false →
      CodeMove l st w (.getEmailVerificationByUserID u) (.ok r) { st with read := some r } w
  | spent (u r x) {w'} : l.spends = true → st.spent = false → st.read = some r → r.userID = u →
      w'.verifications = w.verifications.erase u → w'.stored = w.stored →
      CodeMove l st w (.deleteEmailVerificationByUserID u) (.ok x) { st with spent := true } w'
  | issued (u codeHash expiresAt x) {w'} :
      w'.verifications = w.verifications.set (w.verification u codeHash expiresAt) →
      w'.stored = w.stored + 1 →
      CodeMove l st w (.upsertEmailVerification u codeHash expiresAt) (.ok x) st w'
  | other (op r) {w'} : w'.verifications = w.verifications → w'.stored = w.stored →
      (∀ u codeHash expiresAt x, (⟨op, r⟩ : Answered Op.Res GoError) ≠
        ⟨.upsertEmailVerification u codeHash expiresAt, .ok x⟩) →
      CodeMove l st w op r st w'

/-- **Every call of a request is one of these.** -/
theorem codeMove_of_next {hashToken : String → String} {l : Request} {st st' : Spending} {op : Op}
    {r : Except GoError op.Res} {w w' : World} (hn : codes.next l st ⟨op, r⟩ = some st')
    (hc : Call hashToken op w r w') : CodeMove l st w op r st' w' := by
  obtain ⟨hallow, hst⟩ := Option.ite_none_right_eq_some.mp hn
  cases hst
  rcases r with e | a
  · have hsame : st.after ⟨op, .error e⟩ = st := by cases op <;> rfl
    rw [hsame, call_error hc]
    exact .other op _ rfl rfl fun u c t x h => by cases h
  cases op with
  | getEmailVerificationByUserID u =>
      obtain ⟨hrow, rfl⟩ := call_getEmailVerificationByUserID hc
      simp only [Spending.allows, Bool.and_eq_true, Bool.not_eq_true'] at hallow
      exact .read u a hrow hallow.2
  | deleteEmailVerificationByUserID u =>
      rw [call_deleteEmailVerificationByUserID hc]
      simp only [Spending.allows, Bool.and_eq_true, Bool.not_eq_true'] at hallow
      rcases hread : st.read with - | r
      · rw [hread] at hallow
        cases hallow.2
      · rw [hread, Option.any_some, beq_iff_eq] at hallow
        exact .spent u r _ hallow.1.1 hallow.1.2 hread hallow.2 rfl rfl
  | upsertEmailVerification u codeHash expiresAt =>
      rw [call_upsertEmailVerification hc]
      exact .issued u codeHash expiresAt _ rfl rfl
  | _ =>
      obtain ⟨hrows, hstored⟩ := call_of_group hc nofun nofun
      exact .other _ _ hrows hstored fun u c t x h => by cases h

/-! ### The laws, and the condition -/

/-- The request has read the row with serial `n` of the user `u`. -/
def Spending.Has (st : Spending) (u : UUID) (n : ℕ) : Prop :=
  ∃ r, st.read = some r ∧ r.userID = u ∧ r.serial = n

/-- Request `i` has deleted the row with serial `n` that it had read. -/
def SpentBy (u : UUID) (n : ℕ) (p : ServerPool) (i : ℕ) : Prop :=
  ∃ t, p.threads i = some t ∧ (spending t.log).spent = true ∧ (spending t.log).Has u n

/-- A `VerifyEmail` or `ResetPassword` with the code `n` of `u` succeeds. -/
def Succeeds (u : UUID) (n : ℕ) (p : ServerPool) (e : ServerEvent) : Prop :=
  ∃ i x t, e = .finish i (.ok x) ∧ p.threads i = some t ∧ t.label.spends = true ∧
    (spending t.log).Has u n

/-- A new code for `u` is stored. -/
def StoresCode (u : UUID) (e : ServerEvent) : Prop :=
  ∃ i codeHash expiresAt x, e = .call i ⟨.upsertEmailVerification u codeHash expiresAt, .ok x⟩

/-- The laws of the codes of `u`, for the runs that meet `C`. -/
structure OneTime (s : Service) (u : UUID) (C : ServerPool → ServerEvent → Prop)
    (p₀ : ServerPool) : Prop where
  /-- A code leads to one success. -/
  once : ∀ {n evs p₁ e p₂ evs' p₃ e' p₄}, Run (server s) C p₀ evs p₁ → C p₁ e →
    Step (server s) p₁ e p₂ → Succeeds u n p₁ e → Run (server s) C p₂ evs' p₃ → C p₃ e' →
    Step (server s) p₃ e' p₄ → ¬ Succeeds u n p₃ e'
  /-- A code that was not spent when a later one was stored does not lead to a success. -/
  superseded : ∀ {n evs p₁ e p₂ evs' p₃ e' p₄}, Run (server s) C p₀ evs p₁ → C p₁ e →
    Step (server s) p₁ e p₂ → StoresCode u e → n < p₁.world.stored →
    (∀ i, ¬ SpentBy u n p₁ i) → Run (server s) C p₂ evs' p₃ → C p₃ e' →
    Step (server s) p₃ e' p₄ → ¬ Succeeds u n p₃ e'
  /-- Who deletes a row does not delete a later one than the one that was read. -/
  kept : ∀ {evs p₁ i x p₂ t n}, Run (server s) C p₀ evs p₁ →
    C p₁ (.call i ⟨.deleteEmailVerificationByUserID u, .ok x⟩) →
    Step (server s) p₁ (.call i ⟨.deleteEmailVerificationByUserID u, .ok x⟩) p₂ →
    p₁.threads i = some t → (spending t.log).Has u n →
    ∀ r, p₁.world.verifications.get u = some r → r.serial ≤ n

/-- The row of `u` is deleted only if it is the row that was read. -/
def spendsInOrder (u : UUID) (p : ServerPool) : ServerEvent → Prop
  | .call i ⟨.deleteEmailVerificationByUserID u', .ok _⟩ => u' = u →
      ∀ t n, p.threads i = some t → (spending t.log).Has u n →
        ∃ r, p.world.verifications.get u = some r ∧ r.serial = n
  | _ => True

/-- Every row of `u` has a serial number of its own. -/
def Serial (u : UUID) (w : World) : Prop :=
  ∀ r, w.verifications.get u = some r → r.serial < w.stored

/-! ### The invariant -/

section Invariant

variable {s : Service} {u : UUID} {n : ℕ}

/-- `SpentBy`, seen through the protocol. -/
def SpentAt (u : UUID) (n : ℕ) (v : View World Request Spending) (i : ℕ) : Prop :=
  ∃ l st, v.phases i = some (l, st) ∧ st.spent = true ∧ st.Has u n

/-- The row with serial `n` is gone for good. -/
def Past (u : UUID) (n : ℕ) (w : World) : Prop :=
  ∀ r, w.verifications.get u = some r → n < r.serial

/-- What holds in every pool. -/
structure Numbered (u : UUID) (v : View World Request Spending) : Prop where
  row : Serial u v.world
  read : ∀ i l st n, v.phases i = some (l, st) → st.Has u n → n < v.world.stored
  past : ∀ n i, SpentAt u n v i → Past u n v.world
  single : ∀ n i j, SpentAt u n v i → SpentAt u n v j → i = j

/-- The code `n` is gone, and nobody has spent it without having ended. -/
def Over (u : UUID) (n : ℕ) (v : View World Request Spending) : Prop :=
  n < v.world.stored ∧ Past u n v.world ∧ ∀ i, ¬ SpentAt u n v i

theorem track_spending {l : Request} {st st' : Spending} {tr : List (Answered Op.Res GoError)}
    (ht : codes.track l st tr = some st') : tr.foldl Spending.after st = st' := by
  induction tr generalizing st with
  | nil =>
      cases ht
      rfl
  | cons a tr ih =>
      obtain ⟨st₁, hn, ht⟩ := Option.bind_eq_some_iff.mp ht
      obtain ⟨-, hst⟩ := Option.ite_none_right_eq_some.mp hn
      cases hst
      exact ih ht

/-- The phase of a request is what it has done. -/
theorem phase_of_thread {p : ServerPool} (hk : codes.Kept p) {i t}
    (ht : p.threads i = some t) : (codes.view p).phases i = some (t.label, spending t.log) := by
  obtain ⟨st, htrack, -⟩ := hk i t ht
  rw [Protocol.view_phases_of_thread ht htrack, ← track_spending htrack]
  rfl

theorem thread_of_phase {p : ServerPool} (hk : codes.Kept p) {i l st}
    (h : (codes.view p).phases i = some (l, st)) :
    ∃ t, p.threads i = some t ∧ t.label = l ∧ spending t.log = st := by
  obtain ⟨t, ht, hl, htrack, -⟩ := hk.thread_of_view h
  exact ⟨t, ht, hl, track_spending htrack⟩

theorem spentAt_iff {p : ServerPool} (hk : codes.Kept p) {i : ℕ} :
    SpentAt u n (codes.view p) i ↔ SpentBy u n p i := by
  constructor
  · rintro ⟨l, st, hi, hsp, hh⟩
    obtain ⟨t, ht, -, rfl⟩ := thread_of_phase hk hi
    exact ⟨t, ht, hsp, hh⟩
  · rintro ⟨t, ht, hsp, hh⟩
    exact ⟨_, _, phase_of_thread hk ht, hsp, hh⟩

section Step

variable {w w' : World} {ph : ℕ → Option (Request × Spending)} {i : ℕ} {l : Request}
  {st st' : Spending}

theorem spentAt_update {j : ℕ}
    (hj : SpentAt u n ⟨w', Function.update ph i (some (l, st'))⟩ j) :
    (j = i ∧ st'.spent = true ∧ st'.Has u n) ∨ (j ≠ i ∧ SpentAt u n ⟨w, ph⟩ j) := by
  obtain ⟨l₁, st₁, hp, hsp, hh⟩ := hj
  rcases update_some_eq_some hp with ⟨rfl, hx⟩ | ⟨hne, hold⟩
  · cases hx
    exact Or.inl ⟨rfl, hsp, hh⟩
  · exact Or.inr ⟨hne, l₁, st₁, hold, hsp, hh⟩

/-- A step of a request that spends nothing of `u`: the row stays, or it is a new one. -/
theorem Numbered.update (hN : Numbered u ⟨w, ph⟩) (hrow : Serial u w')
    (hstored : w.stored ≤ w'.stored)
    (hkept : ∀ r, w'.verifications.get u = some r →
      w.verifications.get u = some r ∨ r.serial = w.stored)
    (hread : ∀ n, st'.Has u n → n < w'.stored)
    (hspent : ∀ n, st'.spent = true → st'.Has u n → SpentAt u n ⟨w, ph⟩ i) :
    Numbered u ⟨w', Function.update ph i (some (l, st'))⟩ ∧
      ∀ n, Over u n ⟨w, ph⟩ → Over u n ⟨w', Function.update ph i (some (l, st'))⟩ := by
  -- no code is used up by the change that was not before
  have hback : ∀ n j, SpentAt u n ⟨w', Function.update ph i (some (l, st'))⟩ j →
      SpentAt u n ⟨w, ph⟩ j := by
    intro n j hj
    rcases spentAt_update (w := w) hj with ⟨rfl, hsp, hh⟩ | ⟨-, hold⟩
    · exact hspent n hsp hh
    · exact hold
  -- a row that is replaced gets a later number
  have hpast : ∀ n, n < w.stored → Past u n w → Past u n w' := by
    intro n hn hp r hr
    rcases hkept r hr with hold | hnew
    · exact hp r hold
    · rw [hnew]
      exact hn
  have hless : ∀ n j, SpentAt u n ⟨w, ph⟩ j → n < w.stored := by
    rintro n j ⟨l₁, st₁, hj, -, hh⟩
    exact hN.read j l₁ st₁ n hj hh
  refine ⟨⟨hrow, fun j l₁ st₁ n hj hh => ?_,
    fun n j hj => hpast n (hless n j (hback n j hj)) (hN.past n j (hback n j hj)),
    fun n j k hj hk => hN.single n j k (hback n j hj) (hback n k hk)⟩, fun n hO => ?_⟩
  · rcases update_some_eq_some hj with ⟨-, hx⟩ | ⟨-, hold⟩
    · cases hx
      exact hread n hh
    · exact Nat.lt_of_lt_of_le (hN.read j l₁ st₁ n hold hh) hstored
  · exact ⟨Nat.lt_of_lt_of_le hO.1 hstored, hpast n hO.1 hO.2.1,
      fun j hj => hO.2.2 j (hback n j hj)⟩

/-- A request that ends. -/
theorem Numbered.remove (hN : Numbered u ⟨w, ph⟩) :
    Numbered u ⟨w, Function.update ph i none⟩ ∧
      ∀ n, Over u n ⟨w, ph⟩ → Over u n ⟨w, Function.update ph i none⟩ := by
  have hback : ∀ n j, SpentAt u n ⟨w, Function.update ph i none⟩ j →
      j ≠ i ∧ SpentAt u n ⟨w, ph⟩ j := by
    rintro n j ⟨l₁, st₁, hp, hsp, hh⟩
    obtain ⟨hne, hold⟩ := update_none_eq_some hp
    exact ⟨hne, l₁, st₁, hold, hsp, hh⟩
  exact ⟨⟨hN.row, fun j l₁ st₁ n hj hh => hN.read j l₁ st₁ n (update_none_eq_some hj).2 hh,
    fun n j hj => hN.past n j (hback n j hj).2,
    fun n j k hj hk => hN.single n j k (hback n j hj).2 (hback n k hk).2⟩,
    fun n hO => ⟨hO.1, hO.2.1, fun j hj => hO.2.2 j (hback n j hj).2⟩⟩

/-- A request deletes the row of `u` that it read. -/
theorem Numbered.spend (hN : Numbered u ⟨w, ph⟩) {m : ℕ} (hi : ph i = some (l, st))
    (hm : st.Has u m) (hrow : ∃ r, w.verifications.get u = some r ∧ r.serial = m)
    (hgone : w'.verifications.get u = none) (hstored : w'.stored = w.stored) :
    Numbered u ⟨w', Function.update ph i (some (l, { st with spent := true }))⟩ ∧
      ∀ n, Over u n ⟨w, ph⟩ →
        Over u n ⟨w', Function.update ph i (some (l, { st with spent := true }))⟩ := by
  have hpast : ∀ n, Past u n w' := by
    intro n r hr
    rw [hgone] at hr
    cases hr
  have hsame : ∀ n, Spending.Has { st with spent := true } u n → n = m := by
    rintro n ⟨r, hr, -, rfl⟩
    obtain ⟨r', hr', -, rfl⟩ := hm
    rw [show st.read = some r from hr] at hr'
    cases hr'
    rfl
  -- the row is still there: nobody has spent it
  have hfirst : ¬ Past u m w := by
    intro hp
    obtain ⟨r, hr, hs⟩ := hrow
    have := hp r hr
    omega
  refine ⟨⟨?_, fun j l₁ st₁ n hj hh => ?_, fun n _ _ => hpast n, fun n j k hj hk => ?_⟩,
    fun n hO => ?_⟩
  · intro r hr
    rw [show w'.verifications.get u = none from hgone] at hr
    cases hr
  · show n < w'.stored
    rw [hstored]
    rcases update_some_eq_some hj with ⟨-, hx⟩ | ⟨-, hold⟩
    · cases hx
      rw [hsame n hh]
      exact hN.read i l st m hi hm
    · exact hN.read j l₁ st₁ n hold hh
  · rcases spentAt_update (w := w) hj with ⟨rfl, -, hh⟩ | ⟨-, hold⟩
    · rcases spentAt_update (w := w) hk with ⟨rfl, -, -⟩ | ⟨-, hold'⟩
      · rfl
      · rw [hsame n hh] at hold'
        exact absurd (hN.past m k hold') hfirst
    · rcases spentAt_update (w := w) hk with ⟨rfl, -, hh⟩ | ⟨-, hold'⟩
      · rw [hsame n hh] at hold
        exact absurd (hN.past m j hold) hfirst
      · exact hN.single n j k hold hold'
  · refine ⟨?_, hpast n, fun j hj => ?_⟩
    · show n < w'.stored
      rw [hstored]
      exact hO.1
    · rcases spentAt_update (w := w) hj with ⟨rfl, -, hh⟩ | ⟨-, hold⟩
      · rw [hsame n hh] at hO
        exact hfirst hO.2.1
      · exact hO.2.2 j hold

/-- **One step** keeps the numbers, and what is over stays over. -/
theorem Numbered.step {p : ServerPool} {e : ServerEvent} {v' : View World Request Spending}
    (hk : codes.Kept p) (hN : Numbered u (codes.view p)) (hc : spendsInOrder u p e)
    (hs : codes.ViewStep (server s) (codes.view p) e v') :
    Numbered u v' ∧ ∀ n, Over u n (codes.view p) → Over u n v' := by
  generalize hv : codes.view p = v at hs
  rw [hv] at hN
  cases hs with
  | start hi hw =>
      cases hw
      exact hN.update hN.row (Nat.le_refl _) (fun r hr => Or.inl hr)
        (fun n => by rintro ⟨r, ⟨⟩, -⟩) (fun n h => by cases h)
  | @call w w' ph i l st st' op r hi hn hcall =>
      have hworld : p.world = w := congrArg View.world hv
      -- the request has spent nothing new
      have hold : ∀ n, st.spent = true → st.Has u n → SpentAt u n ⟨w, ph⟩ i :=
        fun n hsp hh => ⟨l, st, hi, hsp, hh⟩
      cases codeMove_of_next hn hcall with
      | read u' r hrow hsp =>
          refine hN.update hN.row (Nat.le_refl _) (fun r hr => Or.inl hr) (fun n => ?_)
            (fun n h => ?_)
          · rintro ⟨r', ⟨⟩, hu, rfl⟩
            have huser := w.verifications.keyed hrow
            rw [hu] at huser
            subst huser
            exact hN.row r hrow
          · rw [show st.spent = true from h] at hsp
            cases hsp
      | spent u' r x hl hsp hread hu hrows hstored =>
          by_cases huu : u' = u
          · subst huu
            obtain ⟨t, ht, -, hst⟩ := thread_of_phase hk (by rw [hv]; exact hi)
            have hhas : st.Has u' r.serial := ⟨r, hread, hu, rfl⟩
            have hrow := hc rfl t r.serial ht (by rw [hst]; exact hhas)
            rw [hworld] at hrow
            exact hN.spend hi hhas hrow (by rw [hrows, Table.get_erase_self]) hstored
          · -- the row of another user
            have hget : w'.verifications.get u = w.verifications.get u := by
              rw [hrows, Table.get_erase_of_ne (Ne.symm huu)]
            have hnone : ∀ n, ¬ Spending.Has { st with spent := true } u n := by
              rintro n ⟨r', hr', hu', -⟩
              rw [show st.read = some r' from hr'] at hread
              cases hread
              exact huu (hu.symm.trans hu')
            refine hN.update (fun r hr => ?_) (by rw [hstored])
              (fun r hr => Or.inl (by rwa [hget] at hr)) (fun n h => absurd h (hnone n))
              (fun n _ h => absurd h (hnone n))
            rw [hget] at hr
            rw [hstored]
            exact hN.row r hr
      | issued u' codeHash expiresAt x hrows hstored =>
          refine hN.update (fun r hr => ?_) (by rw [hstored]; exact Nat.le_succ _)
            (fun r hr => ?_) (fun n h => ?_) hold
          · rw [hrows] at hr
            rw [hstored]
            rcases Table.get_set_eq_some hr with ⟨-, rfl⟩ | ⟨-, hr⟩
            · exact Nat.lt_succ_self _
            · exact Nat.lt_succ_of_lt (hN.row r hr)
          · rw [hrows] at hr
            rcases Table.get_set_eq_some hr with ⟨-, rfl⟩ | ⟨-, hr⟩
            · exact Or.inr rfl
            · exact Or.inl hr
          · rw [hstored]
            exact Nat.lt_succ_of_lt (hN.read i l st n hi h)
      | other _ _ hrows hstored _ =>
          refine hN.update (fun r hr => ?_) (by rw [hstored])
            (fun r hr => Or.inl (by rwa [hrows] at hr)) (fun n h => ?_) hold
          · rw [hrows] at hr
            rw [hstored]
            exact hN.row r hr
          · rw [hstored]
            exact hN.read i l st n hi h
  | finish hi _ hw =>
      cases hw
      exact hN.remove
  | lose hi hw =>
      cases hw
      exact hN.remove
  | env he => exact he.elim

end Step

/-! ### Every run -/

/-- The row that is read is a row of the user. -/
theorem codes_expected {p p' : ServerPool} {e : ServerEvent} (hs : Step (server s) p e p') :
    codes.Expected (codes.view p) e := by
  rintro i a l st rfl - u r rfl
  cases hs with
  | call _ hc => exact Table.keyed _ (call_getEmailVerificationByUserID hc).1

/-- What holds at the end of a run, and what stays over. -/
theorem numbered_of_run {p p' : ServerPool} {evs}
    (hrun : Run (server s) (spendsInOrder u) p evs p') (hk : codes.Kept p)
    (hN : Numbered u (codes.view p)) :
    codes.Kept p' ∧ Numbered u (codes.view p') ∧
      ∀ n, Over u n (codes.view p) → Over u n (codes.view p') := by
  refine hrun.view_invariant (P := codes)
    (I := fun _ v => Numbered u v ∧ ∀ n, Over u n (codes.view p) → Over u n v) keeps_codes
    (fun _ _ _ _ _ _ _ hs => codes_expected hs) ?_ hk ⟨hN, fun _ h => h⟩
  rintro - q e v' hk ⟨hN, hO⟩ hc hs
  obtain ⟨hN', hO'⟩ := hN.step hk hc hs
  exact ⟨hN', fun n h => hO' n (hO n h)⟩

/-- Who succeeds has spent the code. -/
theorem spentBy_of_succeeds {p p' : ServerPool} {e : ServerEvent} (hk : codes.Kept p)
    (hS : Succeeds u n p e) (hs : Step (server s) p e p') : ∃ i x, e = .finish i (.ok x) ∧
      SpentBy u n p i := by
  obtain ⟨i, x, t, rfl, ht, hl, hh⟩ := hS
  refine ⟨i, x, rfl, t, ht, ?_, hh⟩
  obtain ⟨st, htrack, hkeep⟩ := hk i t ht
  cases hs with
  | @finish _ _ _ _ l _ _ ht' _ =>
      cases ht.symm.trans ht'
      rw [show spending _ = st from track_spending htrack]
      have hends : Keeps codes l (codes.ends l) (Prog.ofExcept (.ok x)) st := hkeep
      exact keeps_ofExcept.mp hends hl rfl

/-- After it is over, nobody succeeds with the code. -/
theorem no_success_of_over {p p' p'' : ServerPool} {evs e}
    (hrun : Run (server s) (spendsInOrder u) p evs p') (hk : codes.Kept p)
    (hN : Numbered u (codes.view p)) (hO : Over u n (codes.view p))
    (hs : Step (server s) p' e p'') : ¬ Succeeds u n p' e := by
  obtain ⟨hk', -, hO'⟩ := numbered_of_run hrun hk hN
  intro hS
  obtain ⟨i, -, -, hsp⟩ := spentBy_of_succeeds hk' hS hs
  exact (hO' n hO).2.2 i ((spentAt_iff hk').mpr hsp)

/-- A success: the code is over. -/
theorem over_of_success {p p' : ServerPool} {e : ServerEvent} (hk : codes.Kept p)
    (hN : Numbered u (codes.view p)) (hS : Succeeds u n p e) (hs : Step (server s) p e p') :
    Over u n (codes.view p') := by
  obtain ⟨i, x, rfl, hsp⟩ := spentBy_of_succeeds hk hS hs
  have hat := (spentAt_iff hk).mpr hsp
  cases hs with
  | @finish w w' ts _ l tr _ ht hw =>
      cases hw
      obtain ⟨l₁, st₁, hi, -, hh⟩ := hat
      rw [Protocol.view_update]
      refine ⟨hN.read i l₁ st₁ n hi hh, hN.past n i ((spentAt_iff hk).mpr hsp), fun j => ?_⟩
      rintro ⟨l₂, st₂, hj, hsp₂, hh₂⟩
      obtain ⟨hne, hold⟩ := update_none_eq_some hj
      exact hne (hN.single n j i ⟨l₂, st₂, hold, hsp₂, hh₂⟩ ((spentAt_iff hk).mpr hsp))

/-- A later code is stored while nobody has spent the code: it is over. -/
theorem over_of_stored {p : ServerPool} {e : ServerEvent} {v' : View World Request Spending}
    (hk : codes.Kept p) (hS : StoresCode u e) (hn : n < p.world.stored)
    (hnone : ∀ i, ¬ SpentBy u n p i)
    (hs : codes.ViewStep (server s) (codes.view p) e v') : Over u n v' := by
  obtain ⟨i, codeHash, expiresAt, x, rfl⟩ := hS
  have hidle : ∀ j, ¬ SpentAt u n (codes.view p) j := fun j hj => hnone j ((spentAt_iff hk).mp hj)
  rw [← Protocol.view_world (P := codes) p] at hn
  generalize codes.view p = v at hs hidle hn
  cases hs with
  | @call w w' ph _ l st st' op r hi hnext hcall =>
      cases codeMove_of_next hnext hcall with
      | issued _ _ _ _ hrows hstored =>
          refine ⟨?_, fun r hr => ?_, fun j hj => ?_⟩
          · show n < w'.stored
            rw [hstored]
            exact Nat.lt_succ_of_lt hn
          · rw [show w'.verifications = _ from hrows] at hr
            rcases Table.get_set_eq_some hr with ⟨-, rfl⟩ | ⟨hne, -⟩
            · exact hn
            · exact absurd rfl hne
          · rcases spentAt_update (w := w) hj with ⟨rfl, hsp, hh⟩ | ⟨-, hold⟩
            · exact hidle j ⟨l, st, hi, hsp, hh⟩
            · exact hidle j hold
      | other _ _ _ _ hne => exact (hne _ _ _ _ rfl).elim

end Invariant

/-- **One-time codes are one-time**, in every run of requests in which calls fail and requests
are cut short at any point, as long as a row is deleted only if it is the row that the request
has read: a code leads to at most one success, one that was superseded unspent leads to none,
and spending a code never removes a later one. -/
theorem spent_once {s : Service} {u : UUID} {w : World} (h0 : Serial u w) :
    OneTime s u (spendsInOrder u) (idle w) := by
  have hk0 : codes.Kept (idle w) := Protocol.kept_of_idle fun _ => rfl
  have hN0 : Numbered u (codes.view (idle w)) :=
    ⟨h0, nofun, by rintro _ _ ⟨_, _, ⟨⟩, _⟩, by rintro _ _ _ ⟨_, _, ⟨⟩, _⟩⟩
  constructor
  · intro n evs p₁ e p₂ evs' p₃ e' p₄ hrun hc hs hS hrun' _ hs'
    obtain ⟨hk, hN, -⟩ := numbered_of_run hrun hk0 hN0
    obtain ⟨hv, hk'⟩ := Protocol.view_step keeps_codes hk hs (codes_expected hs)
    exact no_success_of_over hrun' hk' (hN.step hk hc hv).1 (over_of_success hk hN hS hs) hs'
  · intro n evs p₁ e p₂ evs' p₃ e' p₄ hrun hc hs hS hn hnone hrun' _ hs'
    obtain ⟨hk, hN, -⟩ := numbered_of_run hrun hk0 hN0
    obtain ⟨hv, hk'⟩ := Protocol.view_step keeps_codes hk hs (codes_expected hs)
    exact no_success_of_over hrun' hk' (hN.step hk hc hv).1 (over_of_stored hk hS hn hnone hv) hs'
  · intro evs p₁ i x p₂ t n _ hc _ ht hh r hr
    obtain ⟨r', hr', rfl⟩ := hc rfl t n ht hh
    cases hr.symm.trans hr'
    exact Nat.le_refl _

/-! ### Sample runs -/

/-- A test for `Succeeds`. -/
def succeeds (u : UUID) (n : ℕ) (p : ServerPool) : ServerEvent → Bool
  | .finish i (.ok _) => (p.threads i).any fun t => t.label.spends &&
      (spending t.log).read.any fun r => r.userID == u && r.serial == n
  | _ => false

/-- What passes the test succeeds. -/
theorem succeeds_sound {u : UUID} {n : ℕ} {p : ServerPool} {e : ServerEvent}
    (h : succeeds u n p e = true) : Succeeds u n p e := by
  unfold succeeds at h
  split at h
  · next i x =>
      rcases ht : p.threads i with - | t
      · rw [ht] at h
        cases h
      rw [ht, Option.any_some, Bool.and_eq_true] at h
      rcases hread : (spending t.log).read with - | r
      · rw [hread] at h
        cases h.2
      rw [hread, Option.any_some, Bool.and_eq_true, beq_iff_eq, beq_iff_eq] at h
      exact ⟨i, x, t, rfl, ht, h.1, r, hread, h.2⟩
  · cases h

/-- A test for the condition. -/
def spendsRead (u : UUID) (p : ServerPool) : ServerEvent → Bool
  | .call i ⟨.deleteEmailVerificationByUserID _, .ok _⟩ =>
      (p.world.verifications.get u).any fun r => (p.threads i).all fun t =>
        (spending t.log).read.all fun r' => r'.serial == r.serial
  | _ => true

/-- What passes the test meets the condition. -/
theorem spendsRead_sound {u : UUID} {p : ServerPool} {e : ServerEvent}
    (h : spendsRead u p e = true) : spendsInOrder u p e := by
  unfold spendsRead at h
  split at h
  · next i u' x =>
      rintro - t n ht ⟨r', hread, -, rfl⟩
      rcases hrow : p.world.verifications.get u with - | r
      · rw [hrow] at h
        cases h
      · rw [hrow, Option.any_some, ht, Option.all_some, hread, Option.all_some, beq_iff_eq] at h
        exact ⟨r, rfl, h.symm⟩
  · next hne =>
      unfold spendsInOrder
      split
      · exact absurd rfl (hne _ _ _)
      · exact True.intro

namespace Sample

/-- The code "123456" was mailed to Ada. -/
def forgetful : World where
  users := [ada]
  verifications := Table.set (.empty _) ⟨userID, hashToken "123456", some 500, none, 0⟩
  identities := []
  refreshTokens := []
  organizations := []
  members := []
  environments := []
  stored := 1
  drawn := []

theorem serial_forgetful : Serial userID forgetful := by
  intro r hr
  rcases Table.get_set_eq_some hr with ⟨-, rfl⟩ | ⟨-, hr⟩
  · exact Nat.one_pos
  · cases hr

def reset (newPassword : String) : Request := .resetPassword "ada@example.com" "123456" newPassword

/-- The calls of a reset. -/
def resetting (passwordHash : String) : List Choice :=
  [.run, .run, .time 10, .text passwordHash, .time 10, .run, .run]

end Sample

/-- Of two resets with one code the first one succeeds; the second one has found the account
before, and the code is gone when it looks for it. -/
theorem spent_once_twoRequests :
    OneTime Sample.service Sample.userID (spendsInOrder Sample.userID) (idle Sample.forgetful) ∧
      ∃ evs p₁ e p₂, Run (server Sample.service) (spendsInOrder Sample.userID)
          (idle Sample.forgetful) evs p₁ ∧
        Step (server Sample.service) p₁ e p₂ ∧ Succeeds Sample.userID 0 p₁ e := by
  refine ⟨spent_once Sample.serial_forgetful, ?_⟩
  obtain ⟨evs, p₁, e, p₂, hrun, -, hs, hS⟩ := Player.step_of_check
    (p := serverPlayer Sample.service (C := spendsInOrder Sample.userID)
      (spendsRead Sample.userID) spendsRead_sound)
    ([.start 0 (Sample.reset "first-password"), .start 1 (Sample.reset "second-password"),
      .call 1 .run] ++ Turn.calls 0 (Sample.resetting "hash") ++ [.call 1 .run])
    (.finish 0) (idle Sample.forgetful)
    (fun p e _ => succeeds Sample.userID 0 p e) (by decide +kernel)
  exact ⟨evs, p₁, e, p₂, hrun, hs, succeeds_sound hS⟩

/-- Two resets succeed with one code. -/
theorem spent_twice :
    ¬ OneTime Sample.service Sample.userID (fun _ _ => True) (idle Sample.forgetful) := by
  intro hlaws
  let player : Player (server Sample.service) (fun _ _ => True) Choice :=
    serverPlayer Sample.service (fun _ _ => true) fun _ => True.intro
  obtain ⟨evs, p₁, e, p₂, hrun, -, hs, hcheck⟩ := Player.step_of_check (p := player)
    ([.start 0 (Sample.reset "first-password"), .start 1 (Sample.reset "second-password")] ++
      Turn.calls 0 [.run, .run] ++ Turn.calls 1 (Sample.resetting "hash") ++
      Turn.calls 0 [.time 10, .text "other hash", .time 10, .run, .run])
    (.finish 0) (idle Sample.forgetful)
    (fun p e p' => succeeds Sample.userID 0 p e &&
      (player.play [] p').any fun x => (player.take x.2 (.finish 1)).any fun y =>
        succeeds Sample.userID 0 x.2 y.1) (by decide +kernel)
  rw [Bool.and_eq_true] at hcheck
  obtain ⟨evs', p₃, e', p₄, hrun', -, hs', hS'⟩ := Player.step_of_check (p := player) _ _ _
    (fun p e _ => succeeds Sample.userID 0 p e) hcheck.2
  exact hlaws.once hrun True.intro hs (succeeds_sound hcheck.1) hrun' True.intro hs'
    (succeeds_sound hS')

end Iwifunni.Auth
