/-
Iwifunni/Effect/Versions.lean

Rows under READ COMMITTED.

Of every row there is the committed version, and at most one transaction holds a newer
one that it has not committed yet; that is its lock on the row.

    seen i        what transaction i has written, else the committed version
    newest        what anybody has written, else the committed version
    commit i      what i has written is committed
    rollback i    what i has written is gone

A constraint between two rows (`Sound`) has to hold of the committed versions, of what
each transaction sees, and of the newest versions.  Then it survives commits and
rollbacks, in whatever order they come (`Sound.commit`, `Sound.rollback`), and a statement
has to look after its own view and the newest versions only (`pairwise_update`).
-/
import Mathlib.Data.List.Basic
import Mathlib.Data.Nat.Notation

namespace Effect

variable {Row κ : Type} {key : Row → κ}

/-- A row: its versions have one key. -/
structure Version (key : Row → κ) where
  row : Row
  pending : Option (ℕ × Row)
  same : ∀ x ∈ pending, key x.2 = key row

namespace Version

variable {v v' : Version key} {i j : ℕ}

/-- The transaction that holds the lock. -/
def writer (v : Version key) : Option ℕ := v.pending.map Prod.fst

def newest (v : Version key) : Row :=
  match v.pending with
  | some x => x.2
  | none => v.row

def seen (i : ℕ) (v : Version key) : Row :=
  if v.writer = some i then v.newest else v.row

theorem key_newest (v : Version key) : key v.newest = key v.row := by
  unfold newest
  split
  · next x hx => exact v.same x hx
  · rfl

theorem key_seen (i : ℕ) (v : Version key) : key (v.seen i) = key v.row := by
  unfold seen
  split
  · exact v.key_newest
  · rfl

theorem seen_of_writer (h : v.writer = some i) : v.seen i = v.newest := if_pos h

theorem seen_of_ne (h : v.writer ≠ some i) : v.seen i = v.row := if_neg h

theorem newest_of_none (h : v.writer = none) : v.newest = v.row := by
  have hnone : v.pending = none := Option.map_eq_none_iff.mp h
  rw [newest, hnone]

/-- The newest version is the one somebody sees. -/
theorem newest_eq_seen (h : v.writer = none ∨ v.writer = some i) : v.newest = v.seen i := by
  rcases h with h | h
  · rw [newest_of_none h, seen_of_ne (by simp [h])]
  · exact (seen_of_writer h).symm

/-! ### Commit and rollback -/

def commit (i : ℕ) (v : Version key) : Version key :=
  if v.writer = some i then ⟨v.newest, none, by simp⟩ else v

def rollback (i : ℕ) (v : Version key) : Version key :=
  if v.writer = some i then ⟨v.row, none, by simp⟩ else v

theorem commit_of_ne (h : v.writer ≠ some i) : v.commit i = v := if_neg h

theorem rollback_of_ne (h : v.writer ≠ some i) : v.rollback i = v := if_neg h

@[simp] theorem commit_row (i : ℕ) (v : Version key) : (v.commit i).row = v.seen i := by
  unfold commit seen
  split <;> rfl

@[simp] theorem rollback_row (i : ℕ) (v : Version key) : (v.rollback i).row = v.row := by
  unfold rollback
  split <;> rfl

@[simp] theorem commit_newest (i : ℕ) (v : Version key) : (v.commit i).newest = v.newest := by
  unfold commit
  split <;> rfl

theorem writer_commit (i : ℕ) (v : Version key) : (v.commit i).writer ≠ some i := by
  unfold commit
  split
  · simp [writer]
  · next h => exact h

theorem writer_rollback (i : ℕ) (v : Version key) : (v.rollback i).writer ≠ some i := by
  unfold rollback
  split
  · simp [writer]
  · next h => exact h

/-- After a commit a transaction sees what has been committed, unless it holds the row. -/
theorem seen_commit : (v.commit i).seen j = v.seen j ∨ (v.commit i).seen j = v.seen i := by
  by_cases h : v.writer = some i
  · right
    rw [commit, if_pos h, seen_of_writer h]
    exact seen_of_ne (by simp [writer])
  · left
    rw [commit_of_ne h]

/-! ### Constraints between rows -/

variable {R : Row → Row → Prop}

/-- Two rows keep a constraint, whoever looks at them. -/
structure Sound (R : Row → Row → Prop) (v v' : Version key) : Prop where
  row : R v.row v'.row
  seen : ∀ i, R (v.seen i) (v'.seen i)
  newest : R v.newest v'.newest

/-- One row as its writer has it, the other as somebody else sees it. -/
theorem Sound.left (h : Sound R v v') (hv : v.writer = some i) (hv' : v'.writer ≠ some i)
    (j : ℕ) : R v.newest (v'.seen j) := by
  by_cases hj : v'.writer = some j
  · rw [seen_of_writer hj]
    exact h.newest
  · rw [seen_of_ne hj, ← seen_of_ne hv', ← seen_of_writer hv]
    exact h.seen i

theorem Sound.right (h : Sound R v v') (hv : v.writer ≠ some i) (hv' : v'.writer = some i)
    (j : ℕ) : R (v.seen j) v'.newest := by
  by_cases hj : v.writer = some j
  · rw [seen_of_writer hj]
    exact h.newest
  · rw [seen_of_ne hj, ← seen_of_ne hv, ← seen_of_writer hv']
    exact h.seen i

/-- A commit makes the new versions the rows. -/
theorem Sound.commit (h : Sound R v v') (i : ℕ) : Sound R (v.commit i) (v'.commit i) where
  row := by
    rw [commit_row, commit_row]
    exact h.seen i
  newest := by
    rw [commit_newest, commit_newest]
    exact h.newest
  seen j := by
    have hnow : ∀ u : Version key, u.writer = some i → (u.commit i).seen j = u.newest := by
      intro u hu
      rw [Version.commit, if_pos hu]
      exact seen_of_ne (by simp [writer])
    by_cases hv : v.writer = some i <;> by_cases hv' : v'.writer = some i
    · rw [hnow v hv, hnow v' hv']
      exact h.newest
    · rw [hnow v hv, commit_of_ne hv']
      exact h.left hv hv' j
    · rw [commit_of_ne hv, hnow v' hv']
      exact h.right hv hv' j
    · rw [commit_of_ne hv, commit_of_ne hv']
      exact h.seen j

/-- A committed version next to what somebody else has written. -/
theorem Sound.row_left (h : Sound R v v') (hv : v.writer = some i) (hv' : v'.writer ≠ some i) :
    R v.row v'.newest := by
  rcases hw : v'.writer with - | k
  · rw [newest_of_none hw]
    exact h.row
  · have hki : v.writer ≠ some k := by
      intro hk
      rw [hv] at hk
      exact hv' (hw.trans hk.symm)
    rw [← seen_of_writer hw, ← seen_of_ne hki]
    exact h.seen k

theorem Sound.row_right (h : Sound R v v') (hv : v.writer ≠ some i) (hv' : v'.writer = some i) :
    R v.newest v'.row := by
  rcases hw : v.writer with - | k
  · rw [newest_of_none hw]
    exact h.row
  · have hki : v'.writer ≠ some k := by
      intro hk
      rw [hv'] at hk
      exact hv (hw.trans hk.symm)
    rw [← seen_of_writer hw, ← seen_of_ne hki]
    exact h.seen k

/-- A rollback takes back what its transaction has written, and nothing else. -/
theorem Sound.rollback (h : Sound R v v') (i : ℕ) : Sound R (v.rollback i) (v'.rollback i) := by
  have hback : ∀ u : Version key, u.writer = some i → ∀ j, (u.rollback i).seen j = u.row := by
    intro u hu j
    rw [Version.rollback, if_pos hu]
    exact seen_of_ne (by simp [writer])
  have hgone : ∀ u : Version key, u.writer = some i → (u.rollback i).newest = u.row := by
    intro u hu
    rw [Version.rollback, if_pos hu]
    rfl
  -- four cases: the transaction wrote both rows, one of them, or none
  refine ⟨by simpa using h.row, fun j => ?_, ?_⟩
  · by_cases hv : v.writer = some i <;> by_cases hv' : v'.writer = some i
    · rw [hback v hv, hback v' hv']
      exact h.row
    · rw [hback v hv, rollback_of_ne hv']
      by_cases hj : v'.writer = some j
      · rw [seen_of_writer hj]
        exact h.row_left hv hv'
      · rw [seen_of_ne hj]
        exact h.row
    · rw [rollback_of_ne hv, hback v' hv']
      by_cases hj : v.writer = some j
      · rw [seen_of_writer hj]
        exact h.row_right hv hv'
      · rw [seen_of_ne hj]
        exact h.row
    · rw [rollback_of_ne hv, rollback_of_ne hv']
      exact h.seen j
  · by_cases hv : v.writer = some i <;> by_cases hv' : v'.writer = some i
    · rw [hgone v hv, hgone v' hv']
      exact h.row
    · rw [hgone v hv, rollback_of_ne hv']
      exact h.row_left hv hv'
    · rw [rollback_of_ne hv, hgone v' hv']
      exact h.row_right hv hv'
    · rw [rollback_of_ne hv, rollback_of_ne hv']
      exact h.newest

/-! ### An UPDATE -/

/-- A new version of a row that nobody else holds. -/
def write (i : ℕ) (f : Row → Row) (hf : ∀ r, key (f r) = key r) (v : Version key) : Version key :=
  ⟨v.row, some (i, f (v.seen i)), by simp [hf, key_seen]⟩

@[simp] theorem write_row (i : ℕ) (f : Row → Row) (hf : ∀ r, key (f r) = key r)
    (v : Version key) : (v.write i f hf).row = v.row := rfl

@[simp] theorem write_writer (i : ℕ) (f : Row → Row) (hf : ∀ r, key (f r) = key r)
    (v : Version key) : (v.write i f hf).writer = some i := rfl

@[simp] theorem write_newest (i : ℕ) (f : Row → Row) (hf : ∀ r, key (f r) = key r)
    (v : Version key) : (v.write i f hf).newest = f (v.seen i) := rfl

@[simp] theorem write_seen (i : ℕ) (f : Row → Row) (hf : ∀ r, key (f r) = key r)
    (v : Version key) : (v.write i f hf).seen i = f (v.seen i) := seen_of_writer rfl

/-- The part of an UPDATE that concerns one row. -/
def update (i : ℕ) (sel : Row → Bool) (f : Row → Row) (hf : ∀ r, key (f r) = key r)
    (v : Version key) : Version key :=
  if sel (v.seen i) then v.write i f hf else v

variable {sel : Row → Bool} {f : Row → Row} {hf : ∀ r, key (f r) = key r}

@[simp] theorem update_row (v : Version key) : (v.update i sel f hf).row = v.row := by
  unfold update
  split <;> rfl

@[simp] theorem update_seen (v : Version key) :
    (v.update i sel f hf).seen i = if sel (v.seen i) then f (v.seen i) else v.seen i := by
  unfold update
  split
  · exact write_seen i f hf v
  · rfl

/-- Others see nothing of an UPDATE. -/
theorem update_seen_ne (hfree : sel (v.seen i) = true → ∀ k, v.writer = some k → k = i)
    (hj : j ≠ i) : (v.update i sel f hf).seen j = v.seen j := by
  unfold update
  split
  · next hsel =>
    have hfresh : v.writer ≠ some j := fun hk => hj (hfree hsel j hk)
    rw [seen_of_ne hfresh, seen_of_ne (by simpa using hj.symm)]
    rfl
  · rfl

end Version

/-! ### Tables -/

open Version

variable {t : List (Version key)} {i j : ℕ} {sel : Row → Bool} {f : Row → Row}
  {hf : ∀ r, key (f r) = key r} {R : Row → Row → Prop}

/-- Nobody else holds a row the UPDATE is for. -/
def Free (i : ℕ) (sel : Row → Bool) (t : List (Version key)) : Prop :=
  ∀ v ∈ t, sel (v.seen i) = true → ∀ k, v.writer = some k → k = i

/-- **An UPDATE** that keeps the constraint for its own transaction and for the newest
versions keeps it for everybody. -/
theorem pairwise_update (h : t.Pairwise (Sound R)) (hfree : Free i sel t)
    (hseen : ((t.map (update i sel f hf)).map (seen i)).Pairwise R)
    (hnewest : ((t.map (update i sel f hf)).map newest).Pairwise R) :
    (t.map (update i sel f hf)).Pairwise (Sound R) := by
  simp only [List.pairwise_map] at hseen hnewest ⊢
  refine (h.and (hseen.and hnewest)).imp_of_mem fun {v v'} hv hv' ⟨hold, hs, hn⟩ => ?_
  refine ⟨by simpa using hold.row, fun j => ?_, hn⟩
  by_cases hj : j = i
  · rw [hj]
    exact hs
  · rw [update_seen_ne (hfree v hv) hj, update_seen_ne (hfree v' hv') hj]
    exact hold.seen j

/-! ### What a transaction has written -/

/-- The rows that transaction `i` holds are the same. -/
def SameFor (i : ℕ) (t t' : List (Version key)) : Prop :=
  ∀ v, v.writer = some i → (v ∈ t' ↔ v ∈ t)

/-- Changes to rows that a transaction has not written. -/
theorem sameFor_map {g : Version key → Version key}
    (hkept : ∀ v ∈ t, v.writer = some i → g v = v)
    (hnew : ∀ v ∈ t, (g v).writer = some i → g v = v) : SameFor i t (t.map g) := by
  intro v hv
  constructor
  · intro hmem
    obtain ⟨u, hu, rfl⟩ := List.mem_map.mp hmem
    rw [hnew u hu hv]
    exact hu
  · intro hmem
    rw [← hkept v hmem hv]
    exact List.mem_map_of_mem hmem

theorem sameFor_commit (hij : i ≠ j) : SameFor i t (t.map (commit j)) := by
  apply sameFor_map
  · intro v _ hv
    exact commit_of_ne (by simpa [hv] using hij)
  · intro v _ hv
    by_cases hj : v.writer = some j
    · rw [commit, if_pos hj] at hv
      cases hv
    · exact commit_of_ne hj

theorem sameFor_rollback (hij : i ≠ j) : SameFor i t (t.map (rollback j)) := by
  apply sameFor_map
  · intro v _ hv
    exact rollback_of_ne (by simpa [hv] using hij)
  · intro v _ hv
    by_cases hj : v.writer = some j
    · rw [rollback, if_pos hj] at hv
      cases hv
    · exact rollback_of_ne hj

/-- A row that another transaction writes was free. -/
theorem sameFor_update (hij : i ≠ j) (hfree : Free j sel t) :
    SameFor i t (t.map (update j sel f hf)) := by
  apply sameFor_map
  · intro v hmem hv
    by_cases hsel : sel (v.seen j) = true
    · exact absurd (hfree v hmem hsel i hv) hij
    · exact if_neg hsel
  · intro v _ hv
    by_cases hsel : sel (v.seen j) = true
    · rw [update, if_pos hsel, write_writer] at hv
      exact absurd (Option.some.inj hv).symm hij
    · exact if_neg hsel

end Effect
