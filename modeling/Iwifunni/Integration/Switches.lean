/-
Iwifunni/Integration/Switches.lean

Switching providers concurrently.

Each `UpdateState` is a transaction under READ COMMITTED.  A statement sees what has been
committed when it starts, and what its own transaction has written; an UPDATE waits for
the rows that others hold.  Transactions therefore overlap statement by statement:

    disable A   reads A (primary)   lists B    clears A   promotes B   disables A   commits
    disable B         reads B (not primary)                                disables B   commits

`enable` and `disable` decide by the row they have read.  A row that has become primary
meanwhile loses the flag without anybody to take over, as B does here.  That is the only
way a channel is left without its primary row (`Careful`).
-/
import Iwifunni.Effect.Pool
import Iwifunni.Effect.Sessions
import Iwifunni.Effect.Versions
import Iwifunni.Integration.Primaries

namespace Iwifunni.Integration

open Go Db Effect Effect.Prog Store

/-! ### Statements -/

/-- What `UpdateState` leaves as it is. -/
def key (r : Db.Integration) : UUID × UUID × String × String :=
  (r.id, r.environmentID, r.name, r.channel)

/-- The table `integrations`, with what is not committed yet. -/
abbrev Rows : Type := List (Version key)

def withFlags (isActive isPrimary : Bool) (r : Db.Integration) : Db.Integration :=
  { r with isActive := isActive, isPrimary := isPrimary }

def withoutPrimary (r : Db.Integration) : Db.Integration :=
  { r with isPrimary := false }

theorem key_withFlags (a b : Bool) (r : Db.Integration) : key (withFlags a b r) = key r := rfl

theorem key_withoutPrimary (r : Db.Integration) : key (withoutPrimary r) = key r := rfl

/-- `WHERE id = $1 AND environment_id = $2`. -/
def identified (id environmentID : UUID) (r : Db.Integration) : Bool :=
  r.id == id && r.environmentID == environmentID

/-- The rows as a transaction sees them. -/
def seenRows (i : ℕ) (t : Rows) : List Db.Integration := t.map (Version.seen i)

def newestRows (t : Rows) : List Db.Integration := t.map Version.newest

def committedRows (t : Rows) : List Db.Integration := t.map Version.row

section Write

variable (i : ℕ) (sel : Db.Integration → Bool) (f : Db.Integration → Db.Integration)
  (hf : ∀ r, key (f r) = key r)

/-- The table after an UPDATE. -/
def written (t : Rows) : Rows := t.map (Version.update i sel f hf)

/-- An UPDATE goes through: nobody else holds its rows, and the constraints are kept.  It
waits for a row, or for the fate of a row that would violate them. -/
structure Writes (t : Rows) : Prop where
  free : Free i sel t
  seen : Constrained (seenRows i (written i sel f hf t))
  newest : Constrained (newestRows (written i sel f hf t))

end Write

/-- The statements of `UpdateState`.  Any of them may fail, for a violated constraint or
otherwise.  An UPDATE of a channel looks for its rows when it starts; a row it had to wait
for may no longer be primary then, and one that is primary only now is passed over. -/
inductive Statement : (o : ℕ × Op) → Rows → Except GoError (InSession Op.Res o) → Rows → Prop
  | getIntegrationByID (i id environmentID t) :
      Statement (i, .getIntegrationByID id environmentID) t
        (orNoRows ((seenRows i t).find? (identified id environmentID))) t
  | listByChannel (i environmentID channel t) :
      Statement (i, .listByChannel environmentID channel) t
        (.ok (listed (seenRows i t) environmentID channel)) t
  | clearPrimaryByChannel {i environmentID channel t} (sel : Db.Integration → Bool) :
      (∀ r, sel r = true → In environmentID channel r ∧ r.isPrimary = true) →
      Writes i sel withoutPrimary key_withoutPrimary t →
      Statement (i, .clearPrimaryByChannel environmentID channel) t (.ok ())
        (written i sel withoutPrimary key_withoutPrimary t)
  | updateIntegrationState {i id environmentID isActive isPrimary t row} :
      (seenRows i t).find? (identified id environmentID) = some row →
      Writes i (identified id environmentID) (withFlags isActive isPrimary) (key_withFlags _ _) t →
      Statement (i, .updateIntegrationState id environmentID isActive isPrimary) t
        (.ok (withFlags isActive isPrimary row))
        (written i (identified id environmentID) (withFlags isActive isPrimary)
          (key_withFlags _ _) t)
  | fails (i op t) (e : GoError) : op.fallible = true → Statement (i, op) t (.error e) t

/-- Concurrent calls of `UpdateState`, each a transaction with a number. -/
def switches : Machine Rows (ℕ × StateInput) Empty (InSession Op.Res) GoError Db.Integration where
  body l := (updateState l.2).inSession l.1
  spawn _ t t' := t' = t
  sem := Statement
  close l out t t' := (∃ a, out = .ok a) ∧ t' = t.map (Version.commit l.1) ∨
    t' = t.map (Version.rollback l.1)
  lose l t t' := t' = t.map (Version.rollback l.1)
  env _ _ _ := False

/-- The table when no transaction is in progress. -/
def atRest (rows : List Db.Integration) : Rows := rows.map fun r => ⟨r, none, by simp⟩

/-- Nobody is switching. -/
def idle (rows : List Db.Integration) :
    Pool Rows (ℕ × StateInput) (InSession Op.Res) GoError Db.Integration :=
  ⟨atRest rows, fun _ => none⟩

/-- Transactions are numbered. -/
def Numbered (_ : Pool Rows (ℕ × StateInput) (InSession Op.Res) GoError Db.Integration)
    (e : Event (ℕ × StateInput) Empty (InSession Op.Res) GoError Db.Integration) : Prop :=
  ∀ i l, e = .start i l → l.1 = i

/-- No row that a transaction has read as not primary, and that is primary by now, is
written as not primary. -/
def UpToDate (s : Pool Rows (ℕ × StateInput) (InSession Op.Res) GoError Db.Integration)
    (e : Event (ℕ × StateInput) Empty (InSession Op.Res) GoError Db.Integration) : Prop :=
  ∀ i t id environmentID isActive r p,
    e = .call i ⟨(i, .updateIntegrationState id environmentID isActive false), r⟩ →
    s.threads i = some t →
    (⟨(i, .getIntegrationByID id environmentID), .ok p⟩ : Answered (InSession Op.Res) GoError) ∈
      t.log →
    p.isPrimary = false → ∀ v ∈ s.world, v.row.id = id → v.row.isPrimary = false

/-- Numbered transactions that write what they have read. -/
def Careful (s : Pool Rows (ℕ × StateInput) (InSession Op.Res) GoError Db.Integration)
    (e : Event (ℕ × StateInput) Empty (InSession Op.Res) GoError Db.Integration) : Prop :=
  Numbered s e ∧ UpToDate s e

/-! ### The phases of a transaction -/

/-- How far a transaction has got. -/
inductive Phase
  | ready
  | found (p : Db.Integration)
  | chosen (p q : Db.Integration)
  | cleared (q : Db.Integration) (next : Option Db.Integration)
  | promoted (p q : Db.Integration)
  | done
  | failed

/-- A statement that fails ends the transaction. -/
def Phase.ifOk (st : Phase) : Except GoError α → Phase
  | .ok _ => st
  | .error _ => failed

/-- The phase after a statement. -/
def Phase.next (l : StateInput) : Phase → Answered Op.Res GoError → Option Phase
  | ready, ⟨.getIntegrationByID id environmentID, r⟩ =>
      if id = l.id ∧ environmentID = l.environmentID then
        some (match r with
          | .ok p => found p
          | .error _ => failed)
      else none
  | found p, ⟨.listByChannel environmentID channel, r⟩ =>
      if In environmentID channel p then
        some (match r with
          | .ok rows => ((fallback p rows).map (chosen p)).getD failed
          | .error _ => failed)
      else none
  | found p, ⟨.clearPrimaryByChannel environmentID channel, r⟩ =>
      if In environmentID channel p then some ((cleared p none).ifOk r) else none
  | found p, ⟨.updateIntegrationState id environmentID _ isPrimary, r⟩ =>
      if identified id environmentID p ∧ isPrimary = p.isPrimary then some (done.ifOk r) else none
  | chosen p q, ⟨.clearPrimaryByChannel environmentID channel, r⟩ =>
      if In environmentID channel p then some ((cleared q (some p)).ifOk r) else none
  | cleared q next, ⟨.updateIntegrationState id environmentID _ isPrimary, r⟩ =>
      if identified id environmentID q ∧ isPrimary = true then
        some (((next.map fun p => promoted p q).getD done).ifOk r)
      else none
  | promoted p _, ⟨.updateIntegrationState id environmentID _ _, r⟩ =>
      if identified id environmentID p then some (done.ifOk r) else none
  | _, _ => none

/-- `UpdateState`, statement by statement. -/
def switching : Protocol StateInput Op.Res GoError Db.Integration Phase where
  init _ := .ready
  expects _ _ _ := True
  next l := Phase.next l
  ends _ st out := ∀ a, out = .ok a → st = .done

section Keeps

variable {l : StateInput} {p q : Db.Integration}

theorem identified_self (p : Db.Integration) : identified p.id p.environmentID p = true := by
  simp [identified]

/-- A failure that is caught is none. -/
theorem keeps_outcome {post : Phase → Except GoError Db.Integration → Prop}
    {c : Act Db.Integration} {st : Phase} (h : Prog.Keeps switching l post c st) :
    Prog.Keeps switching l (fun st out => ∃ r, out = .ok r ∧ post st r) c.outcome st := by
  induction c generalizing st with
  | ret a => exact keeps_ret.mpr ⟨_, rfl, keeps_ret.mp h⟩
  | fail e => exact keeps_ret.mpr ⟨_, rfl, keeps_fail.mp h⟩
  | call op k ih =>
      apply keeps_call.mpr
      intro r hr
      obtain ⟨st', hnext, hk⟩ := keeps_call.mp h r hr
      exact ⟨st', hnext, ih r hk⟩

/-- An UPDATE of one row at the end of a program. -/
theorem keeps_update (st' : Phase) {st : Phase} {id environmentID : UUID} {a b : Bool}
    {post : Phase → Except GoError Db.Integration → Prop}
    (hnext : ∀ r, Phase.next l st ⟨.updateIntegrationState id environmentID a b, r⟩ =
      some (st'.ifOk r)) (hpost : ∀ row, post st' (.ok row)) (herr : ∀ e, post .failed (.error e)) :
    Prog.Keeps switching l post (perform (Op.updateIntegrationState id environmentID a b)) st := by
  apply keeps_call.mpr
  intro r _
  refine ⟨_, hnext r, keeps_ofExcept.mpr ?_⟩
  rcases r with e | row
  · exact herr e
  · exact hpost row

theorem keeps_enable : Prog.Keeps switching l (switching.ends l) (enable p) (.found p) := by
  apply keeps_update .done
  · intro r
    exact if_pos ⟨identified_self p, rfl⟩
  · exact fun _ _ _ => rfl
  · exact fun e _ he => by cases he

/-- The statements of `setPrimary`, in their order. -/
theorem keeps_setPrimary : Prog.Keeps switching l (switching.ends l) (setPrimary p) (.found p) := by
  apply keeps_perform_bind
  · intro _ _
    refine ⟨.cleared p none, if_pos ⟨rfl, rfl⟩, ?_⟩
    apply keeps_update .done
    · intro r
      exact if_pos ⟨identified_self p, rfl⟩
    · exact fun _ _ _ => rfl
    · exact fun e _ he => by cases he
  · intro e _
    exact ⟨.failed, if_pos ⟨rfl, rfl⟩, fun _ he => by cases he⟩

/-- `promotePrimary` ends with somebody else promoted, or fails. -/
theorem keeps_promotePrimary : Prog.Keeps switching l
    (fun st out => ∀ row, out = .ok row → ∃ q, st = .promoted p q) (promotePrimary p) (.found p) := by
  apply keeps_perform_bind
  · intro rows _
    rcases hq : fallback p rows with - | q
    · have hnone : ((fallback p rows).map (Phase.chosen p)).getD .failed = .failed := by rw [hq]; rfl
      exact ⟨.failed, (if_pos ⟨rfl, rfl⟩).trans (congrArg some hnone),
        keeps_fail.mpr fun _ he => by cases he⟩
    · have hsome : ((fallback p rows).map (Phase.chosen p)).getD .failed = .chosen p q := by
        rw [hq]
        rfl
      refine ⟨.chosen p q, (if_pos ⟨rfl, rfl⟩).trans (congrArg some hsome), ?_⟩
      apply keeps_perform_bind
      · intro _ _
        refine ⟨.cleared q (some p), if_pos ⟨rfl, rfl⟩, ?_⟩
        apply keeps_update (.promoted p q)
        · intro r
          exact if_pos ⟨identified_self q, rfl⟩
        · exact fun _ _ _ => ⟨q, rfl⟩
        · exact fun e _ he => by cases he
      · intro e _
        exact ⟨.failed, if_pos ⟨rfl, rfl⟩, fun _ he => by cases he⟩
  · intro e _
    exact ⟨.failed, if_pos ⟨rfl, rfl⟩, fun _ he => by cases he⟩

/-- The statements of `disable`, in their order. -/
theorem keeps_disable : Prog.Keeps switching l (switching.ends l) (disable p) (.found p) := by
  unfold disable
  split
  · apply keeps_bind (keeps_outcome keeps_promotePrimary)
    · rintro st r ⟨out, hout, hpost⟩
      cases hout
      rcases r with e | row
      · exact keeps_fail.mpr fun _ he => by cases he
      · obtain ⟨q, rfl⟩ := hpost row rfl
        apply keeps_update .done
        · intro r
          exact if_pos (identified_self p)
        · exact fun _ _ _ => rfl
        · exact fun e _ he => by cases he
    · exact fun _ e _ _ he => by cases he
  · next hplain =>
    apply keeps_update .done
    · intro r
      exact if_pos ⟨identified_self p, by simpa using hplain⟩
    · exact fun _ _ _ => rfl
    · exact fun e _ he => by cases he

/-- **`UpdateState` goes through the phases.** -/
theorem keeps_updateState : Prog.Keeps switching l (switching.ends l) (updateState l) .ready := by
  apply keeps_perform_bind
  · intro p _
    refine ⟨.found p, if_pos ⟨rfl, rfl⟩, ?_⟩
    rcases l.action with - | - | - | text
    · exact keeps_enable
    · exact keeps_disable
    · exact keeps_setPrimary
    · exact keeps_fail.mpr fun _ he => by cases he
  · intro e _
    exact ⟨.failed, if_pos ⟨rfl, rfl⟩, fun _ he => by cases he⟩

end Keeps

/-! ### What a transaction leaves to be done -/

/-- The row leads a channel of an environment. -/
def Leads (c : UUID × String) (r : Db.Integration) : Prop :=
  In c.1 c.2 r ∧ r.isPrimary = true

/-- Transaction `i` has written nothing. -/
def Untouched (i : ℕ) (t : Rows) : Prop :=
  ∀ v ∈ t, v.writer ≠ some i

/-- The row is one of the table. -/
def Known (p : Db.Integration) (t : Rows) : Prop :=
  ∃ v ∈ t, key v.row = key p

/-- The writes of transaction `i` put somebody in charge of the channel, or take the charge
from nobody. -/
def Settles (i : ℕ) (c : UUID × String) (t : Rows) : Prop :=
  (∃ v ∈ t, v.writer = some i ∧ Leads c v.newest) ∨
    ∀ v ∈ t, v.writer = some i → Leads c v.row → Leads c v.newest

/-- What is known of a transaction in a phase. -/
def Fits (i : ℕ) (l : StateInput) (t : Rows) : Phase → Prop
  | .ready => Untouched i t
  | .found p => Untouched i t ∧ Known p t ∧ identified l.id l.environmentID p = true
  | .chosen p q => Untouched i t ∧ Known p t ∧ Known q t ∧ q.id ≠ p.id ∧
      In p.environmentID p.channel q
  | .cleared q next => Known q t ∧ (∀ c, ¬ In c.1 c.2 q → Settles i c t) ∧
      ∀ p ∈ next, Known p t ∧ q.id ≠ p.id ∧ In p.environmentID p.channel q
  | .promoted p q => Known p t ∧ q.id ≠ p.id ∧ (∀ c, Settles i c t) ∧
      ∃ v ∈ t, v.writer = some i ∧ v.row.id = q.id ∧ Leads (p.environmentID, p.channel) v.newest
  | .done => ∀ c, Settles i c t
  | .failed => True

section Frames

variable {i : ℕ} {l : StateInput} {t t' : Rows} {c : UUID × String} {p : Db.Integration}

theorem Untouched.settles (h : Untouched i t) (c : UUID × String) : Settles i c t :=
  Or.inr fun v hv hw => absurd hw (h v hv)

theorem Untouched.congr (h : Untouched i t) (hsame : SameFor i t t') : Untouched i t' :=
  fun v hv hw => h v ((hsame v hw).mp hv) hw

theorem Settles.congr (h : Settles i c t) (hsame : SameFor i t t') : Settles i c t' := by
  rcases h with ⟨v, hv, hw, hleads⟩ | hkept
  · exact Or.inl ⟨v, (hsame v hw).mpr hv, hw, hleads⟩
  · exact Or.inr fun v hv hw => hkept v ((hsame v hw).mp hv) hw

/-- **What others do is nothing to a transaction**: they cannot touch the rows it holds. -/
theorem Fits.congr {st : Phase} (h : Fits i l t st) (hsame : SameFor i t t')
    (hknown : ∀ p, Known p t → Known p t') : Fits i l t' st := by
  cases st with
  | ready => exact Untouched.congr h hsame
  | found p => exact ⟨h.1.congr hsame, hknown _ h.2.1, h.2.2⟩
  | chosen p q => exact ⟨h.1.congr hsame, hknown _ h.2.1, hknown _ h.2.2.1, h.2.2.2⟩
  | cleared q next =>
      exact ⟨hknown _ h.1, fun c hc => (h.2.1 c hc).congr hsame,
        fun p hp => ⟨hknown _ (h.2.2 p hp).1, (h.2.2 p hp).2⟩⟩
  | promoted p q =>
      obtain ⟨hp, hne, hsettles, v, hv, hw, hrest⟩ := h
      exact ⟨hknown _ hp, hne, fun c => (hsettles c).congr hsame,
        v, (hsame v hw).mpr hv, hw, hrest⟩
  | done => exact fun c => Settles.congr (h c) hsame
  | failed => trivial

/-- No statement changes who is in the table. -/
theorem known_map {g : Version key → Version key} (hg : ∀ v, key (g v).row = key v.row)
    (h : Known p t) : Known p (t.map g) := by
  obtain ⟨v, hv, hkey⟩ := h
  exact ⟨g v, List.mem_map_of_mem hv, (hg v).trans hkey⟩

theorem key_commit (j : ℕ) (v : Version key) : key (v.commit j).row = key v.row := by
  rw [Version.commit_row]
  exact v.key_seen j

theorem key_rollback (j : ℕ) (v : Version key) : key (v.rollback j).row = key v.row := by
  rw [Version.rollback_row]

variable {sel : Db.Integration → Bool} {f : Db.Integration → Db.Integration}
  {hf : ∀ r, key (f r) = key r}

theorem known_written (h : Known p t) : Known p (written i sel f hf t) :=
  known_map (fun v => by rw [Version.update_row]) h

/-- Being in a channel is a matter of the key. -/
theorem in_congr {r r' : Db.Integration} (h : key r = key r') : In c.1 c.2 r ↔ In c.1 c.2 r' := by
  simp only [key, Prod.mk.injEq] at h
  rw [In, In, h.2.1, h.2.2.2]

/-- An UPDATE of rows outside the channel. -/
theorem Settles.written (h : Settles i c t) (hout : ∀ v ∈ t, sel (v.seen i) = true →
    ¬ In c.1 c.2 v.row) : Settles i c (Integration.written i sel f hf t) := by
  have hkept : ∀ v ∈ t, In c.1 c.2 v.row → v.update i sel f hf = v := by
    intro v hv hin
    exact if_neg fun hsel => hout v hv hsel hin
  rcases h with ⟨v, hv, hw, hleads⟩ | hkeeps
  · have hin : In c.1 c.2 v.row := (in_congr (Version.key_newest v)).mp hleads.1
    exact Or.inl ⟨v, hkept v hv hin ▸ List.mem_map_of_mem hv, hw, hleads⟩
  · refine Or.inr fun v' hv' hw hleads => ?_
    obtain ⟨v, hv, rfl⟩ := List.mem_map.mp hv'
    rw [Version.update_row] at hleads
    rw [hkept v hv hleads.1] at hw ⊢
    exact hkeeps v hv hw hleads

end Frames

/-! ### The constraints of the table -/

/-- Two rows do not violate a constraint. -/
structure Apart (r r' : Db.Integration) : Prop where
  id_ne : r'.id ≠ r.id
  name_ne : (r'.environmentID, r'.name) ≠ (r.environmentID, r.name)
  primary : r.isPrimary = true → r'.isPrimary = true →
    (r'.environmentID, r'.channel) ≠ (r.environmentID, r.channel)

theorem constrained_iff {rows : List Db.Integration} :
    Constrained rows ↔
      rows.Pairwise Apart ∧ ∀ r ∈ rows, r.isPrimary = true → r.isActive = true := by
  constructor
  · intro h
    refine ⟨?_, h.active⟩
    exact (h.ids.and (h.names.and h.primary)).imp fun ⟨hid, hname, hprimary⟩ => ⟨hid, hname, hprimary⟩
  · rintro ⟨hapart, hactive⟩
    exact ⟨hapart.imp Apart.id_ne, hapart.imp Apart.name_ne, hactive, hapart.imp Apart.primary⟩

/-- The constraints hold, whoever looks at the table. -/
structure Consistent (t : Rows) : Prop where
  sound : t.Pairwise (Version.Sound Apart)
  active : ∀ v ∈ t, (v.row.isPrimary = true → v.row.isActive = true) ∧
    (v.newest.isPrimary = true → v.newest.isActive = true)

section Consistent

variable {t : Rows} {v v' : Version key} {i : ℕ}

theorem Consistent.committed (h : Consistent t) : Constrained (committedRows t) := by
  refine constrained_iff.mpr ⟨?_, ?_⟩
  · exact List.pairwise_map.mpr (h.sound.imp fun hs => hs.row)
  · intro r hr
    obtain ⟨v, hv, rfl⟩ := List.mem_map.mp hr
    exact (h.active v hv).1

theorem Consistent.eq_of_id (h : Consistent t) (hv : v ∈ t) (hv' : v' ∈ t)
    (hid : v'.row.id = v.row.id) : v' = v := by
  by_contra hne
  have hsymm : Std.Symm fun a b : Version key => b.row.id ≠ a.row.id := ⟨fun _ _ h => h.symm⟩
  exact (h.sound.imp fun hs => hs.row.id_ne).forall hv hv' (fun he => hne he.symm) hid

theorem seen_active (h : (v.row.isPrimary = true → v.row.isActive = true) ∧
    (v.newest.isPrimary = true → v.newest.isActive = true)) :
    (v.seen i).isPrimary = true → (v.seen i).isActive = true := by
  unfold Version.seen
  split
  · exact h.2
  · exact h.1

theorem Consistent.commit (h : Consistent t) (i : ℕ) : Consistent (t.map (Version.commit i)) where
  sound := List.pairwise_map.mpr (h.sound.imp fun hs => hs.commit i)
  active v hv := by
    obtain ⟨u, hu, rfl⟩ := List.mem_map.mp hv
    rw [Version.commit_row, Version.commit_newest]
    exact ⟨seen_active (h.active u hu), (h.active u hu).2⟩

/-- A rollback keeps the constraints. -/
theorem Consistent.rollback (h : Consistent t) (i : ℕ) :
    Consistent (t.map (Version.rollback i)) where
  sound := List.pairwise_map.mpr (h.sound.imp fun hs => hs.rollback i)
  active v hv := by
    obtain ⟨u, hu, rfl⟩ := List.mem_map.mp hv
    have hu := h.active u hu
    unfold Version.rollback
    split
    · exact ⟨hu.1, hu.1⟩
    · exact hu

variable {sel : Db.Integration → Bool} {f : Db.Integration → Db.Integration}
  {hf : ∀ r, key (f r) = key r}

theorem Consistent.written (h : Consistent t) (hw : Writes i sel f hf t) :
    Consistent (written i sel f hf t) where
  sound := pairwise_update h.sound hw.free (constrained_iff.mp hw.seen).1
    (constrained_iff.mp hw.newest).1
  active v hv := by
    refine ⟨?_, (constrained_iff.mp hw.newest).2 _ (List.mem_map_of_mem hv)⟩
    obtain ⟨u, hu, rfl⟩ := List.mem_map.mp hv
    rw [Version.update_row]
    exact (h.active u hu).1

theorem mem_of_find {id environmentID : UUID} {row : Db.Integration}
    (h : (seenRows i t).find? (identified id environmentID) = some row) :
    ∃ v ∈ t, v.seen i = row ∧ row.id = id ∧ row.environmentID = environmentID := by
  obtain ⟨v, hv, hseen⟩ := List.mem_map.mp (List.mem_of_find?_eq_some h)
  have hsome := List.find?_some h
  simp only [identified, Bool.and_eq_true, beq_iff_eq] at hsome
  exact ⟨v, hv, hseen, hsome⟩

end Consistent

/-! ### What a statement does to its transaction -/

section Steps

variable {i : ℕ} {l : StateInput} {t t' : Rows} {p q : Db.Integration} {st st' : Phase}

theorem ifOk_error (st : Phase) {e : GoError} : st.ifOk (.error e : Except GoError α) = .failed :=
  rfl

/-- A failed statement. -/
theorem next_error {op : Op} {e : GoError} (h : Phase.next l st ⟨op, .error e⟩ = some st') :
    st' = .failed := by
  have hif : ∀ {c : Prop} [Decidable c] {st₁ : Phase},
      (if c then some st₁ else none) = some st' → st₁ = st' := by
    intro c _ st₁ h
    split at h
    · exact Option.some.inj h
    · cases h
  unfold Phase.next at h
  split at h
  case h_8 => cases h
  all_goals
    rename_i heq
    cases heq
    exact (hif h).symm

theorem identified_iff {id environmentID : UUID} :
    identified id environmentID p = true ↔ p.id = id ∧ p.environmentID = environmentID := by
  simp [identified]

/-- A row by its id, and what else it is. -/
theorem Consistent.key_of_id (h : Consistent t) {v : Version key} (hv : v ∈ t) (hp : Known p t)
    (hid : v.row.id = p.id) : key v.row = key p := by
  obtain ⟨u, hu, hkey⟩ := hp
  have huid : u.row.id = p.id := congrArg Prod.fst hkey
  rw [h.eq_of_id hu hv (hid.trans huid.symm)]
  exact hkey

theorem seen_id (i : ℕ) (v : Version key) : (v.seen i).id = v.row.id :=
  congrArg Prod.fst (Version.key_seen i v)

/-- Only the row with the id is written. -/
theorem key_of_identified (h : Consistent t) {v : Version key} (hv : v ∈ t) (hp : Known p t)
    {id environmentID : UUID} (hid : p.id = id)
    (hsel : identified id environmentID (v.seen i) = true) : key v.row = key p := by
  apply h.key_of_id hv hp
  rw [← seen_id i v, (identified_iff.mp hsel).1, hid]

/-- An UPDATE of one row concerns its channel only. -/
theorem settles_update (h : Consistent t) (hp : Known p t) {id environmentID : UUID} {a b : Bool}
    (hid : p.id = id) {c : UUID × String} (hout : ¬ In c.1 c.2 p) (hs : Settles i c t) :
    Settles i c (written i (identified id environmentID) (withFlags a b) (key_withFlags a b) t) := by
  apply hs.written
  intro v hv hsel
  rw [in_congr (key_of_identified h hv hp hid hsel)]
  exact hout

/-- The row that an UPDATE has found leads its channel if it is made primary. -/
theorem leads_update (h : Consistent t) (hp : Known p t) {id environmentID : UUID} {a : Bool}
    {row : Db.Integration} (hid : p.id = id)
    (hfind : (seenRows i t).find? (identified id environmentID) = some row) :
    ∃ v ∈ written i (identified id environmentID) (withFlags a true) (key_withFlags a true) t,
      v.writer = some i ∧ v.row.id = p.id ∧ Leads (p.environmentID, p.channel) v.newest := by
  obtain ⟨v, hv, hseen, hrow⟩ := mem_of_find hfind
  have hsel : identified id environmentID (v.seen i) = true := hseen ▸ identified_iff.mpr hrow
  have hkey := key_of_identified h hv hp hid hsel
  refine ⟨_, List.mem_map_of_mem hv, ?_⟩
  rw [Version.update, if_pos hsel]
  refine ⟨rfl, congrArg Prod.fst hkey, ?_, rfl⟩
  have hin : In p.environmentID p.channel p := ⟨rfl, rfl⟩
  exact (in_congr (c := (p.environmentID, p.channel)) ((Version.key_seen i v).trans hkey)).mpr hin

theorem of_if {c : Prop} [Decidable c] {st₁ : Phase} (h : (if c then some st₁ else none) = some st') :
    c ∧ st' = st₁ := by
  split at h
  · next hc => exact ⟨hc, (Option.some.inj h).symm⟩
  · cases h

/-- What a transaction sees is one of the rows. -/
theorem known_of_seen {row : Db.Integration} (h : row ∈ seenRows i t) : Known row t := by
  obtain ⟨v, hv, rfl⟩ := List.mem_map.mp h
  exact ⟨v, hv, (Version.key_seen i v).symm⟩

/-- The SELECT at the beginning of a transaction. -/
theorem fits_get {id environmentID : UUID} (hfits : Fits i l t st)
    (hnext : Phase.next l st ⟨.getIntegrationByID id environmentID,
      orNoRows ((seenRows i t).find? (identified id environmentID))⟩ = some st') :
    Fits i l t st' := by
  cases st with
  | ready =>
      obtain ⟨⟨rfl, rfl⟩, rfl⟩ := of_if hnext
      rcases hfind : (seenRows i t).find? (identified l.id l.environmentID) with - | row
      · exact trivial
      · exact ⟨hfits, known_of_seen (List.mem_of_find?_eq_some hfind), List.find?_some hfind⟩
  | _ => cases hnext

/-- The SELECT of the rows of a channel. -/
theorem fits_list {environmentID : UUID} {channel : String} (hfits : Fits i l t st)
    (hnext : Phase.next l st ⟨.listByChannel environmentID channel,
      .ok (listed (seenRows i t) environmentID channel)⟩ = some st') : Fits i l t st' := by
  cases st with
  | found p =>
      obtain ⟨⟨rfl, rfl⟩, rfl⟩ := of_if hnext
      show Fits i l t (((fallback p (listed (seenRows i t) p.environmentID p.channel)).map
        (Phase.chosen p)).getD .failed)
      rcases hq : fallback p (listed (seenRows i t) p.environmentID p.channel) with - | q
      · exact trivial
      · obtain ⟨hmem, hin, hne, -⟩ := fallback_spec hq
        exact ⟨hfits.1, hfits.2.1, known_of_seen hmem, hne, hin⟩
  | _ => cases hnext

/-- Only rows of the channel are cleared. -/
theorem settles_clear {environmentID : UUID} {channel : String} {sel : Db.Integration → Bool}
    (hsel : ∀ r, sel r = true → In environmentID channel r ∧ r.isPrimary = true)
    (hfits : Untouched i t) (hq : In environmentID channel q) {c : UUID × String}
    (hout : ¬ In c.1 c.2 q) :
    Settles i c (written i sel withoutPrimary key_withoutPrimary t) := by
  apply (hfits.settles c).written
  intro v hv hs hin
  have hrow : In environmentID channel v.row :=
    (in_congr (c := (environmentID, channel)) (Version.key_seen i v)).mp (hsel _ hs).1
  exact hout ⟨hq.1.trans (hrow.1.symm.trans hin.1), hq.2.trans (hrow.2.symm.trans hin.2)⟩

/-- The UPDATE that clears a channel. -/
theorem fits_clear {environmentID : UUID} {channel : String} {sel : Db.Integration → Bool}
    (hsel : ∀ r, sel r = true → In environmentID channel r ∧ r.isPrimary = true)
    (hfits : Fits i l t st) (hnext : Phase.next l st
      ⟨.clearPrimaryByChannel environmentID channel, .ok ()⟩ = some st') :
    Fits i l (written i sel withoutPrimary key_withoutPrimary t) st' := by
  cases st with
  | found p =>
      obtain ⟨hin, rfl⟩ := of_if hnext
      exact ⟨known_written hfits.2.1, fun c hout => settles_clear hsel hfits.1 hin hout,
        fun _ hp => by cases hp⟩
  | chosen p q =>
      obtain ⟨hin, rfl⟩ := of_if hnext
      obtain ⟨huntouched, hp, hq, hne, hqin⟩ := hfits
      have hqin' : In environmentID channel q := ⟨hqin.1.trans hin.1, hqin.2.trans hin.2⟩
      refine ⟨known_written hq, fun c hout => settles_clear hsel huntouched hqin' hout, ?_⟩
      rintro _ ⟨⟩
      exact ⟨known_written hp, hne, hqin⟩
  | _ => cases hnext

/-- A transaction that has written nothing writes a row as it has found it: either the row
leads its channel, or there is no charge to take from it. -/
theorem fits_plain (h : Consistent t) {id environmentID : UUID} {a : Bool} {row : Db.Integration}
    (hfits : Untouched i t) (hp : Known p t) (hid : identified id environmentID p = true)
    (hfind : (seenRows i t).find? (identified id environmentID) = some row)
    (hfresh : p.isPrimary = false → ∀ v ∈ t, v.row.id = id → v.row.isPrimary = false)
    (c : UUID × String) :
    Settles i c (written i (identified id environmentID) (withFlags a p.isPrimary)
      (key_withFlags a p.isPrimary) t) := by
  obtain ⟨rfl, rfl⟩ := identified_iff.mp hid
  by_cases hin : In c.1 c.2 p
  · obtain rfl : (p.environmentID, p.channel) = c := Prod.ext hin.1 hin.2
    rcases hprimary : p.isPrimary with - | -
    · refine Or.inr fun v' hv' hw hleads => ?_
      obtain ⟨v, hv, rfl⟩ := List.mem_map.mp hv'
      rw [Version.update_row] at hleads
      have hsel : identified p.id p.environmentID (v.seen i) = true := by
        by_contra hno
        rw [Version.update, if_neg hno] at hw
        exact hfits v hv hw
      have hplain := hfresh hprimary v hv ((seen_id i v).symm.trans (identified_iff.mp hsel).1)
      exact absurd (hplain.symm.trans hleads.2) (by simp)
    · obtain ⟨v, hv, hw, -, hleads⟩ := leads_update (a := a) h hp rfl hfind
      exact Or.inl ⟨v, hv, hw, hleads⟩
  · exact settles_update h hp rfl hin (hfits.settles c)

/-- The UPDATE of a row, as one step of its transaction. -/
theorem fits_update (h : Consistent t) {id environmentID : UUID} {a b : Bool} {row : Db.Integration}
    (hfits : Fits i l t st)
    (hnext : Phase.next l st ⟨.updateIntegrationState id environmentID a b, .ok row⟩ = some st')
    {found : Db.Integration}
    (hfind : (seenRows i t).find? (identified id environmentID) = some found)
    (hfresh : ∀ p, st = .found p → p.isPrimary = false → b = false → ∀ v ∈ t, v.row.id = id →
      v.row.isPrimary = false) :
    Fits i l (written i (identified id environmentID) (withFlags a b) (key_withFlags a b) t) st' := by
  cases st with
  | found p =>
      obtain ⟨⟨hid, rfl⟩, rfl⟩ := of_if hnext
      exact fits_plain h hfits.1 hfits.2.1 hid hfind fun hplain => hfresh p rfl hplain hplain
  | cleared q next =>
      obtain ⟨⟨hid, rfl⟩, rfl⟩ := of_if hnext
      obtain ⟨hq, hothers, hp⟩ := hfits
      have hqid := (identified_iff.mp hid).1
      have hleads := leads_update (a := a) h hq hqid hfind
      -- the channel of the row is led by it now, and the others are as they were
      have hall : ∀ c, Settles i c (written i (identified id environmentID) (withFlags a true)
          (key_withFlags a true) t) := by
        intro c
        by_cases hin : In c.1 c.2 q
        · obtain rfl : (q.environmentID, q.channel) = c := Prod.ext hin.1 hin.2
          obtain ⟨v, hv, hw, -, hlead⟩ := hleads
          exact Or.inl ⟨v, hv, hw, hlead⟩
        · exact settles_update h hq hqid hin (hothers c hin)
      rcases next with - | p
      · exact hall
      · obtain ⟨hp, hne, hin⟩ := hp p rfl
        obtain ⟨v, hv, hw, hvid, hlead⟩ := hleads
        rw [hin.1, hin.2] at hlead
        exact ⟨known_written hp, hne, hall, v, hv, hw, hvid, hlead⟩
  | promoted p q =>
      obtain ⟨hid, rfl⟩ := of_if hnext
      obtain ⟨rfl, rfl⟩ := identified_iff.mp hid
      obtain ⟨hp, hne, hsettles, v, hv, hw, hvid, hlead⟩ := hfits
      intro c
      by_cases hin : In c.1 c.2 p
      · obtain rfl : (p.environmentID, p.channel) = c := Prod.ext hin.1 hin.2
        -- the promoted row is another one than the one that is switched off
        have hkept : v.update i (identified p.id p.environmentID) (withFlags a b)
            (key_withFlags a b) = v := by
          apply if_neg
          intro hsel
          exact hne (hvid.symm.trans ((seen_id i v).symm.trans (identified_iff.mp hsel).1))
        exact Or.inl ⟨v, hkept ▸ List.mem_map_of_mem hv, hw, hlead⟩
      · exact settles_update h hp rfl hin (hsettles c)
  | _ => cases hnext

/-- **A statement** takes its transaction from one phase to the next. -/
theorem fits_next (h : Consistent t) {op : Op} {r : Except GoError op.Res} (hfits : Fits i l t st)
    (hnext : Phase.next l st ⟨op, r⟩ = some st') (hcall : Statement (i, op) t r t')
    (hfresh : ∀ p id environmentID a, op = .updateIntegrationState id environmentID a false →
      st = .found p → p.isPrimary = false → ∀ v ∈ t, v.row.id = id → v.row.isPrimary = false) :
    Fits i l t' st' := by
  cases hcall with
  | getIntegrationByID => exact fits_get hfits hnext
  | listByChannel => exact fits_list hfits hnext
  | clearPrimaryByChannel sel hsel => exact fits_clear hsel hfits hnext
  | updateIntegrationState hfind =>
      apply fits_update h hfits hnext hfind
      rintro p hst hplain rfl
      exact hfresh p _ _ _ rfl hst hplain
  | fails =>
      rw [next_error hnext]
      exact trivial

end Steps

/-! ### Runs -/

/-- A switch of providers, seen through its phases. -/
abbrev phases : Protocol (ℕ × StateInput) (InSession Op.Res) GoError Db.Integration Phase :=
  switching.inSession

/-- What holds between any two steps. -/
structure Switching (led : UUID × String → Prop) (v : View Rows (ℕ × StateInput) Phase) :
    Prop where
  consistent : Consistent v.world
  numbered : ∀ i l st, v.phases i = some (l, st) → l.1 = i
  held : ∀ x ∈ v.world, ∀ i, x.writer = some i → v.phases i ≠ none
  leads : ∀ c, led c → ∃ x ∈ v.world, Leads c x.row
  fits : ∀ i l st, v.phases i = some (l, st) → Fits i l.2 v.world st

section Invariant

variable {led : UUID × String → Prop} {t : Rows} {ph : ℕ → Option ((ℕ × StateInput) × Phase)}
  {i : ℕ} {l : ℕ × StateInput} {st : Phase}

/-- A new transaction has written nothing. -/
theorem Switching.start (h : Switching led ⟨t, ph⟩) (hi : ph i = none) (hl : l.1 = i) :
    Switching led ⟨t, Function.update ph i (some (l, .ready))⟩ where
  consistent := h.consistent
  numbered j l' st' hj := by
    rcases update_some_eq_some hj with ⟨rfl, heq⟩ | ⟨-, hold⟩
    · cases heq
      exact hl
    · exact h.numbered j l' st' hold
  held x hx j hw hnone := by
    by_cases hji : j = i
    · simp [hji] at hnone
    · simp only [Function.update_of_ne hji] at hnone
      exact h.held x hx j hw hnone
  leads := h.leads
  fits j l' st' hj := by
    rcases update_some_eq_some hj with ⟨rfl, heq⟩ | ⟨-, hold⟩
    · cases heq
      exact fun x hx hw => h.held x hx j hw hi
    · exact h.fits j l' st' hold

/-- A transaction that ends: the table has changed for nobody else. -/
theorem Switching.close (h : Switching led ⟨t, ph⟩) {g : Version key → Version key}
    (hconsistent : Consistent (t.map g)) (hsame : ∀ j, j ≠ i → SameFor j t (t.map g))
    (hgone : ∀ v, (g v).writer ≠ some i) (hkey : ∀ v, key (g v).row = key v.row)
    (hleads : ∀ c, led c → ∃ x ∈ t.map g, Leads c x.row) :
    Switching led ⟨t.map g, Function.update ph i none⟩ where
  consistent := hconsistent
  numbered j l' st' hj := h.numbered j l' st' (update_none_eq_some hj).2
  held x hx j hw hnone := by
    by_cases hji : j = i
    · subst hji
      obtain ⟨v, -, rfl⟩ := List.mem_map.mp hx
      exact hgone v hw
    · simp only [Function.update_of_ne hji] at hnone
      exact h.held x ((hsame j hji x hw).mp hx) j hw hnone
  leads := hleads
  fits j l' st' hj := by
    obtain ⟨hji, hold⟩ := update_none_eq_some hj
    exact (h.fits j l' st' hold).congr (hsame j hji) fun p hp => known_map hkey hp

theorem Switching.rollback (h : Switching led ⟨t, ph⟩) (i : ℕ) :
    Switching led ⟨t.map (Version.rollback i), Function.update ph i none⟩ := by
  apply h.close (h.consistent.rollback i)
  · exact fun j hji => sameFor_rollback hji
  · exact Version.writer_rollback i
  · exact key_rollback i
  · intro c hc
    obtain ⟨x, hx, hlead⟩ := h.leads c hc
    exact ⟨_, List.mem_map_of_mem hx, by rwa [Version.rollback_row]⟩

/-- What is committed leads every channel that was led. -/
theorem Switching.commit (h : Switching led ⟨t, ph⟩) (hsettles : ∀ c, Settles i c t) :
    Switching led ⟨t.map (Version.commit i), Function.update ph i none⟩ := by
  apply h.close (h.consistent.commit i)
  · exact fun j hji => sameFor_commit hji
  · exact Version.writer_commit i
  · exact key_commit i
  · intro c hc
    rcases hsettles c with ⟨x, hx, hw, hlead⟩ | hkept
    · refine ⟨_, List.mem_map_of_mem hx, ?_⟩
      rw [Version.commit_row, Version.seen_of_writer hw]
      exact hlead
    · obtain ⟨x, hx, hlead⟩ := h.leads c hc
      refine ⟨_, List.mem_map_of_mem hx, ?_⟩
      rw [Version.commit_row]
      by_cases hw : x.writer = some i
      · rw [Version.seen_of_writer hw]
        exact hkept x hx hw hlead
      · rw [Version.seen_of_ne hw]
        exact hlead

/-- A statement changes the table for its own transaction only. -/
theorem statement_frame {op : Op} {r : Except GoError op.Res} {t' : Rows} (h : Consistent t)
    (hcall : Statement (i, op) t r t') :
    Consistent t' ∧ (∀ j, j ≠ i → SameFor j t t') ∧ (∀ p, Known p t → Known p t') ∧
      (∀ x ∈ t', ∀ j, x.writer = some j → j = i ∨ x ∈ t) ∧
      ∀ c, (∃ x ∈ t, Leads c x.row) → ∃ x ∈ t', Leads c x.row := by
  have hread : Consistent t ∧ (∀ j, j ≠ i → SameFor j t t) ∧ (∀ p, Known p t → Known p t) ∧
      (∀ x ∈ t, ∀ j, x.writer = some j → j = i ∨ x ∈ t) ∧
      ∀ c, (∃ x ∈ t, Leads c x.row) → ∃ x ∈ t, Leads c x.row :=
    ⟨h, fun j _ v _ => Iff.rfl, fun p hp => hp, fun x hx j _ => Or.inr hx, fun c hc => hc⟩
  have hwrite : ∀ {sel f} {hf : ∀ r, key (f r) = key r}, Writes i sel f hf t →
      Consistent (written i sel f hf t) ∧ (∀ j, j ≠ i → SameFor j t (written i sel f hf t)) ∧
      (∀ p, Known p t → Known p (written i sel f hf t)) ∧
      (∀ x ∈ written i sel f hf t, ∀ j, x.writer = some j → j = i ∨ x ∈ t) ∧
      ∀ c, (∃ x ∈ t, Leads c x.row) → ∃ x ∈ written i sel f hf t, Leads c x.row := by
    intro sel f hf hw
    refine ⟨h.written hw, fun j hji => sameFor_update hji hw.free, fun p => known_written,
      fun x hx j hj => ?_, fun c ⟨x, hx, hlead⟩ => ?_⟩
    · by_cases hji : j = i
      · exact Or.inl hji
      · exact Or.inr ((sameFor_update hji hw.free x hj).mp hx)
    · exact ⟨_, List.mem_map_of_mem hx, by rwa [Version.update_row]⟩
  cases hcall with
  | getIntegrationByID => exact hread
  | listByChannel => exact hread
  | clearPrimaryByChannel sel _ hw => exact hwrite hw
  | updateIntegrationState _ hw => exact hwrite hw
  | fails => exact hread

/-- **One statement** of a transaction. -/
theorem Switching.call (h : Switching led ⟨t, ph⟩) {op : Op} {r : Except GoError op.Res} {t' : Rows}
    {st' : Phase} (hi : ph i = some (l, st)) (hnext : Phase.next l.2 st ⟨op, r⟩ = some st')
    (hcall : Statement (i, op) t r t')
    (hfresh : ∀ p id environmentID a, op = .updateIntegrationState id environmentID a false →
      st = .found p → p.isPrimary = false → ∀ v ∈ t, v.row.id = id → v.row.isPrimary = false) :
    Switching led ⟨t', Function.update ph i (some (l, st'))⟩ := by
  obtain ⟨hconsistent, hsame, hknown, hheld, hleads⟩ := statement_frame h.consistent hcall
  refine ⟨hconsistent, fun j l' s hj => ?_, fun x hx j hw hnone => ?_,
    fun c hc => hleads c (h.leads c hc), fun j l' s hj => ?_⟩
  · rcases update_some_eq_some hj with ⟨rfl, heq⟩ | ⟨-, hold⟩
    · cases heq
      exact h.numbered j l st hi
    · exact h.numbered j l' s hold
  · by_cases hji : j = i
    · simp [hji] at hnone
    · simp only [Function.update_of_ne hji] at hnone
      exact h.held x ((hheld x hx j hw).resolve_left hji) j hw hnone
  · rcases update_some_eq_some hj with ⟨rfl, heq⟩ | ⟨hji, hold⟩
    · cases heq
      exact fits_next h.consistent (h.fits j l st hi) hnext hcall hfresh
    · exact (h.fits j l' s hold).congr (hsame j hji) hknown

end Invariant

/-- A row is found by reading it. -/
theorem next_found {l : StateInput} {st : Phase} {a : Answered Op.Res GoError} {p : Db.Integration}
    (h : Phase.next l st a = some (.found p)) :
    a = ⟨.getIntegrationByID l.id l.environmentID, .ok p⟩ := by
  have hdone : ∀ {β : Type} {st₁ : Phase} {r : Except GoError β}, (∀ p, st₁ ≠ .found p) →
      st₁.ifOk r ≠ .found p := by
    intro β st₁ r hne he
    rcases r with e | a
    · cases he
    · exact hne p he
  -- every other call leads elsewhere
  unfold Phase.next at h
  split at h
  · obtain ⟨⟨rfl, rfl⟩, hst⟩ := of_if h
    next r =>
    rcases r with e | row
    · cases hst
    · cases hst
      rfl
  · obtain ⟨-, hst⟩ := of_if h
    next q _ _ r =>
    rcases r with e | rows
    · cases hst
    · have hst : ((fallback q rows).map (Phase.chosen q)).getD .failed = .found p := hst.symm
      rcases hq : fallback q rows with - | row
      · rw [hq] at hst
        cases hst
      · rw [hq] at hst
        cases hst
  · exact absurd (of_if h).2.symm (hdone (by simp))
  · exact absurd (of_if h).2.symm (hdone (by simp))
  · exact absurd (of_if h).2.symm (hdone (by simp))
  · obtain ⟨-, hst⟩ := of_if h
    next q next _ _ _ _ _ =>
    refine absurd hst.symm (hdone ?_)
    rcases next with - | row <;> simp
  · exact absurd (of_if h).2.symm (hdone (by simp))
  · cases h

/-- A row that is found was read by this activity. -/
theorem read_of_found {l : ℕ × StateInput} {log : List (Answered (InSession Op.Res) GoError)}
    {st : Phase} {p : Db.Integration} (h : phases.track l st log = some (.found p)) :
    st = .found p ∨
      (⟨(l.1, .getIntegrationByID l.2.id l.2.environmentID), .ok p⟩ :
        Answered (InSession Op.Res) GoError) ∈ log := by
  induction log generalizing st with
  | nil =>
      cases h
      exact Or.inl rfl
  | cons a log ih =>
      obtain ⟨st', hnext, hrest⟩ := Option.bind_eq_some_iff.mp h
      have hnext : (if a.1.1 = l.1 then Phase.next l.2 st (Answered.plain a) else none) = some st' :=
        hnext
      rcases ih hrest with rfl | hmem
      · split at hnext
        · next hown =>
          obtain ⟨⟨j, op⟩, r⟩ := a
          obtain rfl : j = l.1 := hown
          cases next_found hnext
          exact Or.inr (List.mem_cons_self ..)
        · cases hnext
      · exact Or.inr (List.mem_cons_of_mem _ hmem)

/-- **Every step** of a pool whose transactions are up to date. -/
theorem Switching.step {led : UUID × String → Prop}
    {s : Pool Rows (ℕ × StateInput) (InSession Op.Res) GoError Db.Integration}
    {e : Event (ℕ × StateInput) Empty (InSession Op.Res) GoError Db.Integration}
    {v' : View Rows (ℕ × StateInput) Phase} (hkept : phases.Kept s)
    (h : Switching led (phases.view s)) (hcareful : Careful s e)
    (hstep : phases.ViewStep switches (phases.view s) e v') : Switching led v' := by
  generalize hv : phases.view s = v at h hstep
  cases hstep with
  | start hi hspawn =>
      cases hspawn
      exact h.start hi (hcareful.1 _ _ rfl)
  | @call t t' ph i l st st' o r hi hnext hcall =>
      obtain ⟨j, op⟩ := o
      have hnext : (if j = l.1 then Phase.next l.2 st ⟨op, r⟩ else none) = some st' := hnext
      split at hnext
      · next hown =>
        obtain rfl : j = i := hown.trans (h.numbered i l st hi)
        apply h.call hi hnext hcall
        rintro p id environmentID a rfl rfl hplain
        -- the thread of the transaction has read the row
        have hphase : (phases.view s).phases j = some (l, .found p) := by rw [hv]; exact hi
        obtain ⟨th, hth, rfl, htrack, -⟩ := hkept.thread_of_view hphase
        have hread := (read_of_found htrack).resolve_left (by intro he; cases he)
        rw [← hown] at hread
        obtain ⟨-, -, hfound⟩ := h.fits j _ _ hi
        obtain ⟨⟨hid, -⟩, -⟩ := of_if hnext
        obtain ⟨hid, henv⟩ := identified_iff.mp hid
        obtain ⟨hid', henv'⟩ := identified_iff.mp hfound
        rw [← hid', ← henv', hid, henv] at hread
        have hworld : s.world = t := congrArg View.world hv
        rw [← hworld]
        exact hcareful.2 j th id environmentID a r p rfl hth hread hplain
      · cases hnext
  | @finish t t' ph i l st out hi hends hclose =>
      have hnumber := h.numbered i l st hi
      rcases hclose with ⟨⟨a, rfl⟩, rfl⟩ | rfl
      · obtain rfl : st = .done := hends a rfl
        rw [hnumber]
        exact h.commit (h.fits i l _ hi)
      · rw [hnumber]
        exact h.rollback i
  | @lose t t' ph i l st hi hlose =>
      rw [show t' = _ from hlose, h.numbered i l st hi]
      exact h.rollback i
  | env he => cases he

/-- A table at rest. -/
theorem switching_idle {rows : List Db.Integration} (hok : Constrained rows) :
    Switching (fun c => ∃ r ∈ rows, Leads c r) (phases.view (idle rows)) where
  consistent := by
    obtain ⟨hapart, hactive⟩ := constrained_iff.mp hok
    refine ⟨List.pairwise_map.mpr (hapart.imp fun h => ⟨h, fun _ => h, h⟩), fun v hv => ?_⟩
    obtain ⟨r, hr, rfl⟩ := List.mem_map.mp hv
    exact ⟨hactive r hr, hactive r hr⟩
  numbered _ _ _ hi := by cases hi
  held x hx i hw := by
    obtain ⟨r, -, rfl⟩ := List.mem_map.mp hx
    cases hw
  leads c hc := by
    obtain ⟨r, hr, hlead⟩ := hc
    exact ⟨_, List.mem_map_of_mem hr, hlead⟩
  fits _ _ _ hi := by cases hi

/-- **Concurrent switches are safe** as long as they are up to date: a channel with an active
row has one, and its one primary row is active. -/
theorem led_of_run {rows : List Db.Integration} (hok : integrationsOk rows = true)
    {environmentID : UUID} (hsettled : ∀ channel, HasActive rows environmentID channel →
      ∃ row, primaries rows environmentID channel = [row] ∧ row.isActive = true)
    {evs} {s : Pool Rows (ℕ × StateInput) (InSession Op.Res) GoError Db.Integration}
    (h : Run switches Careful (idle rows) evs s) :
    ∀ channel, HasActive rows environmentID channel →
      HasActive (committedRows s.world) environmentID channel ∧
      ∃ row, primaries (committedRows s.world) environmentID channel = [row] ∧
        row.isActive = true := by
  intro channel hactive
  obtain ⟨row, hrow, -⟩ := hsettled channel hactive
  have hmem : row ∈ primaries rows environmentID channel := by
    rw [hrow]
    exact List.mem_singleton_self row
  obtain ⟨hmem, hleads⟩ := mem_primaries.mp hmem
  have hbody : ∀ l, Prog.Keeps phases l (phases.ends l) (switches.body l) (phases.init l) :=
    fun l => keeps_inSession l.1 keeps_updateState
  have hend := (h.view_invariant (I := fun _ v => Switching (fun c => ∃ r ∈ rows, Leads c r) v)
    hbody (fun _ _ _ _ _ _ _ _ _ _ _ _ _ _ => trivial)
    (fun _ s e v' hkept hI hcareful hstep => hI.step hkept hcareful hstep)
    (Protocol.kept_of_idle fun _ => rfl) (switching_idle (integrationsOk_iff.mp hok))).2
  obtain ⟨x, hx, hlead⟩ := hend.leads (environmentID, channel) ⟨row, hmem, hleads⟩
  have hx : x.row ∈ committedRows s.world := List.mem_map_of_mem hx
  have hconstrained := hend.consistent.committed
  have hxactive := hconstrained.active x.row hx hlead.2
  exact ⟨⟨x.row, hx, hlead.1, hxactive⟩, x.row,
    hconstrained.primaries_eq (mem_primaries.mpr ⟨hx, hlead⟩), hxactive⟩

/-! ### Two rows disabled at the same time -/

namespace Sample

/-- Does an UPDATE go through? -/
def goesThrough (i : ℕ) (sel : Db.Integration → Bool) (f : Db.Integration → Db.Integration)
    (hf : ∀ r, key (f r) = key r) (t : Rows) : Bool :=
  (t.all fun v => !sel (v.seen i) || v.writer.all (· == i)) &&
    integrationsOk (seenRows i (written i sel f hf t)) &&
    integrationsOk (newestRows (written i sel f hf t))

theorem writes_of_goesThrough {i : ℕ} {sel : Db.Integration → Bool}
    {f : Db.Integration → Db.Integration} {hf : ∀ r, key (f r) = key r} {t : Rows}
    (h : goesThrough i sel f hf t = true) : Writes i sel f hf t := by
  simp only [goesThrough, Bool.and_eq_true, List.all_eq_true, Bool.or_eq_true,
    Bool.not_eq_true', Option.all_eq_true, beq_iff_eq] at h
  refine ⟨fun v hv hsel k hk => ?_, integrationsOk_iff.mp h.1.2, integrationsOk_iff.mp h.2⟩
  rcases h.1.1 v hv with hno | hall
  · rw [hsel] at hno
    cases hno
  · exact hall k hk

def mailA : Db.Integration := mail (UUID.ofDigit 3) "sendgrid" true true

def mailB : Db.Integration := mail (UUID.ofDigit 4) "smtp" true false

/-- A row is disabled. -/
def disabling (r : Db.Integration) : StateInput := ⟨r.id, r.environmentID, .disable⟩

def isPrimaryMail (r : Db.Integration) : Bool :=
  decide (In (UUID.ofDigit 2) "email" r) && r.isPrimary

/-! The table as the two transactions write it. -/

def atFirst : Rows := atRest [mailA, mailB]

def afterClear : Rows := written 0 isPrimaryMail withoutPrimary key_withoutPrimary atFirst

def afterPromote : Rows :=
  written 0 (identified mailB.id mailB.environmentID) (withFlags true true)
    (key_withFlags true true) afterClear

def afterDisableA : Rows :=
  written 0 (identified mailA.id mailA.environmentID) (withFlags false false)
    (key_withFlags false false) afterPromote

def afterCommitA : Rows := afterDisableA.map (Version.commit 0)

def afterDisableB : Rows :=
  written 1 (identified mailB.id mailB.environmentID) (withFlags false false)
    (key_withFlags false false) afterCommitA

def afterCommitB : Rows := afterDisableB.map (Version.commit 1)

theorem statement_getA : Statement (0, .getIntegrationByID mailA.id mailA.environmentID) atFirst
    (.ok mailA) atFirst := by
  have hfind : orNoRows ((seenRows 0 atFirst).find? (identified mailA.id mailA.environmentID)) =
      .ok mailA := rfl
  rw [← hfind]
  exact .getIntegrationByID ..

theorem statement_getB : Statement (1, .getIntegrationByID mailB.id mailB.environmentID) atFirst
    (.ok mailB) atFirst := by
  have hfind : orNoRows ((seenRows 1 atFirst).find? (identified mailB.id mailB.environmentID)) =
      .ok mailB := rfl
  rw [← hfind]
  exact .getIntegrationByID ..

theorem statement_list : Statement (0, .listByChannel mailA.environmentID mailA.channel) atFirst
    (.ok [mailA, mailB]) atFirst := by
  have hlist : listed (seenRows 0 atFirst) mailA.environmentID mailA.channel = [mailA, mailB] := rfl
  rw [← hlist]
  exact .listByChannel ..

theorem statement_clear : Statement (0, .clearPrimaryByChannel mailA.environmentID mailA.channel)
    atFirst (.ok ()) afterClear := by
  have hwrites : Writes 0 isPrimaryMail withoutPrimary key_withoutPrimary atFirst :=
    writes_of_goesThrough (by decide +kernel)
  refine Statement.clearPrimaryByChannel isPrimaryMail (fun r hr => ?_) hwrites
  show In (UUID.ofDigit 2) "email" r ∧ r.isPrimary = true
  simpa [isPrimaryMail] using hr

theorem statement_promote : Statement (0, .updateIntegrationState mailB.id mailB.environmentID
    true true) afterClear (.ok (withFlags true true mailB)) afterPromote := by
  have hwrites : Writes 0 (identified mailB.id mailB.environmentID) (withFlags true true)
      (key_withFlags true true) afterClear := writes_of_goesThrough (by decide +kernel)
  have hfind : (seenRows 0 afterClear).find? (identified mailB.id mailB.environmentID) =
      some mailB := rfl
  exact .updateIntegrationState hfind hwrites

theorem statement_disableA : Statement (0, .updateIntegrationState mailA.id mailA.environmentID
    false false) afterPromote (.ok (withFlags false false (withoutPrimary mailA))) afterDisableA := by
  have hwrites : Writes 0 (identified mailA.id mailA.environmentID) (withFlags false false)
      (key_withFlags false false) afterPromote := writes_of_goesThrough (by decide +kernel)
  have hfind : (seenRows 0 afterPromote).find? (identified mailA.id mailA.environmentID) =
      some (withoutPrimary mailA) := rfl
  exact .updateIntegrationState hfind hwrites

theorem statement_disableB : Statement (1, .updateIntegrationState mailB.id mailB.environmentID
    false false) afterCommitA (.ok (withFlags false false (withFlags true true mailB))) afterDisableB := by
  have hwrites : Writes 1 (identified mailB.id mailB.environmentID) (withFlags false false)
      (key_withFlags false false) afterCommitA := writes_of_goesThrough (by decide +kernel)
  have hfind : (seenRows 1 afterCommitA).find? (identified mailB.id mailB.environmentID) =
      some (withFlags true true mailB) := rfl
  exact .updateIntegrationState hfind hwrites

/-- The thread of a transaction that has still to make the calls of `c`. -/
def switch (i : ℕ) (r : Db.Integration) (log : List (Answered (InSession Op.Res) GoError))
    (c : Act Db.Integration) :
    Option (Thread (ℕ × StateInput) (InSession Op.Res) GoError Db.Integration) :=
  some ⟨(i, disabling r), log, c.inSession i⟩

section Steps

variable {C : Pool Rows (ℕ × StateInput) (InSession Op.Res) GoError Db.Integration →
    Event (ℕ × StateInput) Empty (InSession Op.Res) GoError Db.Integration → Prop}
  {s : Pool Rows (ℕ × StateInput) (InSession Op.Res) GoError Db.Integration} {evs} {t t' : Rows}
  {ts : ℕ → Option (Thread (ℕ × StateInput) (InSession Op.Res) GoError Db.Integration)} {i : ℕ}
  {r : Db.Integration} {log : List (Answered (InSession Op.Res) GoError)}

theorem run_start (h : ∃ evs, Run switches C s evs ⟨t, ts⟩) (hi : ts i = none)
    (hc : C ⟨t, ts⟩ (.start i (i, disabling r))) :
    ∃ evs, Run switches C s evs
      ⟨t, Function.update ts i (switch i r [] (updateState (disabling r)))⟩ := by
  obtain ⟨evs, h⟩ := h
  exact ⟨_, h.snoc hc (.start hi rfl)⟩

/-- One more call. -/
theorem run_call {op : Op} {k : Except GoError op.Res → Act Db.Integration}
    {a : Except GoError op.Res} (hcall : Statement (i, op) t a t')
    (h : ∃ evs, Run switches C s evs ⟨t, Function.update ts i (switch i r log (.call op k))⟩)
    (hc : C ⟨t, Function.update ts i (switch i r log (.call op k))⟩ (.call i ⟨(i, op), a⟩)) :
    ∃ evs, Run switches C s evs
      ⟨t', Function.update ts i (switch i r (log ++ [⟨(i, op), a⟩]) (k a))⟩ := by
  obtain ⟨evs, h⟩ := h
  have hthread := Function.update_self i (switch i r log (.call op k)) ts
  have hstep : Effect.Step switches ⟨t, Function.update ts i (switch i r log (.call op k))⟩
      (.call i ⟨(i, op), a⟩) _ := .call hthread hcall
  rw [Function.update_idem] at hstep
  exact ⟨_, h.snoc hc hstep⟩

/-- A transaction is committed. -/
theorem run_commit {row : Db.Integration}
    (h : ∃ evs, Run switches C s evs ⟨t, Function.update ts i (switch i r log (ret row))⟩)
    (hi : ts i = none)
    (hc : C ⟨t, Function.update ts i (switch i r log (ret row))⟩ (.finish i (.ok row))) :
    ∃ evs, Run switches C s evs ⟨t.map (Version.commit i), ts⟩ := by
  obtain ⟨evs, h⟩ := h
  have hthread := Function.update_self i (switch i r log (ret row)) ts
  have hstep : Effect.Step switches ⟨t, Function.update ts i (switch i r log (ret row))⟩
      (.finish i (.ok row)) ⟨t.map (Version.commit i), _⟩ :=
    .finish hthread (Or.inl ⟨⟨row, rfl⟩, rfl⟩)
  rw [Function.update_idem, ← hi, Function.update_eq_self] at hstep
  exact ⟨_, h.snoc hc hstep⟩

end Steps

/-- The second transaction, which has read its row. -/
def waiting : ℕ → Option (Thread (ℕ × StateInput) (InSession Op.Res) GoError Db.Integration) :=
  Function.update (fun _ => none) 1 (switch 1 mailB
    [⟨(1, .getIntegrationByID mailB.id mailB.environmentID), .ok mailB⟩] (disable mailB))

/-- Nothing but an UPDATE is out of date. -/
theorem careful_start {s : Pool Rows (ℕ × StateInput) (InSession Op.Res) GoError Db.Integration}
    (i : ℕ) (r : Db.Integration) : Careful s (.start i (i, disabling r)) :=
  ⟨fun _ _ he => (by cases he; rfl), fun _ _ _ _ _ _ _ he => (by cases he)⟩

theorem careful_call {s : Pool Rows (ℕ × StateInput) (InSession Op.Res) GoError Db.Integration}
    {i : ℕ} {op : Op} {a : Except GoError op.Res}
    (h : ∀ id environmentID isActive, op ≠ .updateIntegrationState id environmentID isActive false) :
    Careful s (.call i ⟨(i, op), a⟩) :=
  ⟨fun _ _ he => (by cases he),
    fun _ _ _ _ _ _ _ he => (by cases he; exact absurd rfl (h _ _ _))⟩

theorem careful_finish {s : Pool Rows (ℕ × StateInput) (InSession Op.Res) GoError Db.Integration}
    {i : ℕ} {out : Except GoError Db.Integration} : Careful s (.finish i out) :=
  ⟨fun _ _ he => (by cases he), fun _ _ _ _ _ _ _ he => (by cases he)⟩

/-- The first transaction goes through while the second one waits. -/
theorem run_waiting : ∃ evs, Run switches Careful (idle [mailA, mailB]) evs ⟨afterCommitA, waiting⟩ := by
  have hidle : ∃ evs, Run switches Careful (idle [mailA, mailB]) evs ⟨atFirst, fun _ => none⟩ :=
    ⟨[], .nil _⟩
  have hwaiting : ∃ evs, Run switches Careful (idle [mailA, mailB]) evs ⟨atFirst, waiting⟩ :=
    run_call statement_getB (run_start hidle rfl (careful_start 1 mailB))
      (careful_call fun _ _ _ he => by cases he)
  have hread := run_call statement_getA (run_start hwaiting rfl (careful_start 0 mailA))
    (careful_call fun _ _ _ he => by cases he)
  have hlisted := run_call statement_list hread (careful_call fun _ _ _ he => by cases he)
  have hcleared := run_call statement_clear hlisted (careful_call fun _ _ _ he => by cases he)
  have hpromoted := run_call statement_promote hcleared (careful_call fun _ _ _ he => by cases he)
  -- the first transaction has read its row as primary
  have hdisabled := run_call statement_disableA hpromoted ⟨fun _ _ he => (by cases he), by
    rintro _ _ _ _ _ _ p ⟨⟩ hthread hread hplain
    cases hthread
    simp only [List.mem_append, List.mem_singleton, List.not_mem_nil, false_or, or_assoc] at hread
    rcases hread with he | he | he | he
    · cases he
      cases hplain
    all_goals cases he⟩
  exact run_commit hdisabled rfl careful_finish

theorem settled_mails : ∀ channel, HasActive [mailA, mailB] (UUID.ofDigit 2) channel →
    ∃ row, primaries [mailA, mailB] (UUID.ofDigit 2) channel = [row] ∧ row.isActive = true := by
  rintro channel ⟨r, hr, hin, -⟩
  have hchannel : channel = "email" := by
    rcases List.mem_pair.mp hr with rfl | rfl <;> exact hin.2.symm
  rw [hchannel]
  exact ⟨mailA, rfl, rfl⟩

theorem active_mails : HasActive [mailA, mailB] (UUID.ofDigit 2) "email" :=
  ⟨mailA, List.mem_cons_self .., ⟨rfl, rfl⟩, rfl⟩

/-- And then the second one disables what the first one has promoted. -/
theorem run_both :
    ∃ evs, Run switches Numbered (idle [mailA, mailB]) evs ⟨afterCommitB, fun _ => none⟩ := by
  have hwaiting : ∃ evs, Run switches Numbered (idle [mailA, mailB]) evs ⟨afterCommitA, waiting⟩ := by
    obtain ⟨evs, hrun⟩ := run_waiting
    exact ⟨evs, hrun.mono fun _ _ hc => hc.1⟩
  have hdisabled := run_call statement_disableB hwaiting fun _ _ he => (by cases he)
  exact run_commit hdisabled rfl fun _ _ he => (by cases he)

end Sample

open Sample in
/-- One row is disabled while another transaction has read the row that takes over. -/
theorem led_of_run_waiting :
    HasActive (committedRows afterCommitA) (UUID.ofDigit 2) "email" ∧
      ∃ row, primaries (committedRows afterCommitA) (UUID.ofDigit 2) "email" = [row] ∧
        row.isActive = true := by
  obtain ⟨evs, hrun⟩ := run_waiting
  exact led_of_run rfl settled_mails hrun "email" active_mails

open Sample in
/-- Two active rows disabled at the same time: both transactions commit, and no row of the
channel is active. -/
theorem both_disabled :
    ¬ ∀ (rows : List Db.Integration) (environmentID : UUID), integrationsOk rows = true →
      (∀ channel, HasActive rows environmentID channel →
        ∃ row, primaries rows environmentID channel = [row] ∧ row.isActive = true) →
      ∀ evs s, Run switches Numbered (idle rows) evs s → (∀ i, s.threads i = none) →
      ∀ channel, HasActive rows environmentID channel →
        HasActive (committedRows s.world) environmentID channel ∧
          ∃ row, primaries (committedRows s.world) environmentID channel = [row] ∧
            row.isActive = true := by
  intro hsafe
  obtain ⟨evs, hrun⟩ := run_both
  obtain ⟨⟨row, hrow, -, hactive⟩, -⟩ := hsafe _ _ rfl settled_mails evs _ hrun (fun _ => rfl)
    "email" active_mails
  have hinactive : (committedRows afterCommitB).all (fun r => !r.isActive) = true := rfl
  have hnot := List.all_eq_true.mp hinactive row hrow
  rw [hactive] at hnot
  cases hnot

end Iwifunni.Integration
