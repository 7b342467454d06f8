/-
Iwifunni/RateLimit/FixedWindow.lean

Counting calls in windows of fixed length.

The first call opens a window; the calls of the next `period` belong to it, and the first
call after that opens the next window.  The first `limit` calls of every window are
admitted.

Whether any `period` whatsoever has at most `limit` admitted calls depends on two
windows at a time (`bounded_iff`): call number `m` of a window must come a period after the
call of the window before whose place it takes.
-/
import Mathlib.Data.List.Basic
import Mathlib.Data.List.Induction
import Mathlib.Order.Defs.LinearOrder

namespace FixedWindow

/-! ### Windows -/

/-- The times of the calls in the last two windows. -/
structure Windows where
  previous : List ℕ := []
  current : List ℕ := []

variable (period limit : ℕ) {ts : List ℕ} {t : ℕ} {b : Windows}

/-- The present window is over. -/
def Opens (t : ℕ) (b : Windows) : Prop := ∀ start ∈ b.current.head?, start + period ≤ t

instance : Decidable (Opens period t b) := by
  unfold Opens
  infer_instance

/-- The windows after one more call. -/
def note (t : ℕ) (b : Windows) : Windows :=
  if Opens period t b then ⟨b.current, [t]⟩ else ⟨b.previous, b.current ++ [t]⟩

/-- The windows after a sequence of calls. -/
def windows (ts : List ℕ) : Windows := ts.foldl (fun b t => note period t b) {}

/-- The call is one of the first of its window. -/
def Admits (t : ℕ) (b : Windows) : Prop := (note period t b).current.length ≤ limit

instance : Decidable (Admits period limit t b) := by
  unfold Admits
  infer_instance

/-- The calls that are admitted, after those that have been already. -/
def admittedFrom : List ℕ → Windows → List ℕ
  | [], _ => []
  | t :: ts, b => (if Admits period limit t b then [t] else []) ++
      admittedFrom ts (note period t b)

/-- The calls that are admitted. -/
def admitted (ts : List ℕ) : List ℕ := admittedFrom period limit ts {}

@[simp] theorem windows_concat (ts : List ℕ) (t : ℕ) :
    windows period (ts ++ [t]) = note period t (windows period ts) := by
  simp [windows]

/-- One more call is admitted, or not. -/
theorem admitted_concat (ts : List ℕ) (t : ℕ) :
    admitted period limit (ts ++ [t]) = admitted period limit ts ++
      if Admits period limit t (windows period ts) then [t] else [] := by
  have hfrom : ∀ (ts : List ℕ) (b : Windows), admittedFrom period limit (ts ++ [t]) b =
      admittedFrom period limit ts b ++
        if Admits period limit t (ts.foldl (fun b t => note period t b) b) then [t] else [] := by
    intro ts
    induction ts with
    | nil => exact fun b => List.append_nil _
    | cons s ts ih =>
        intro b
        rw [List.cons_append, admittedFrom, ih, admittedFrom, List.append_assoc]
        rfl
  exact hfrom ts {}

theorem admittedFrom_sublist (ts : List ℕ) (b : Windows) :
    (admittedFrom period limit ts b).Sublist ts := by
  induction ts generalizing b with
  | nil => exact .refl _
  | cons t ts ih =>
      rw [admittedFrom]
      split
      · exact (ih _).cons_cons t
      · exact (ih _).cons t

/-- At most `limit` calls are admitted in any period. -/
def Bounded (ts : List ℕ) : Prop :=
  ∀ start, ((admitted period limit ts).filter fun t =>
    start ≤ t ∧ t < start + period).length ≤ limit

/-- Call number `m` of a window, if it is admitted, comes a period after the call of the
window before whose place it takes: with `k` calls admitted there, call number
`k + m - limit`. -/
def Staggered (t : ℕ) (b : Windows) : Prop :=
  let last := (note period t b).previous.take limit
  let m := (note period t b).current.length
  m ≤ limit → limit < last.length + m → ∀ v ∈ last[last.length + m - (limit + 1)]?, v + period ≤ t

instance : Decidable (Staggered period limit t b) := by
  unfold Staggered
  infer_instance

/-! ### The calls before the last two windows -/

/-- Calls in the order of time: what is admitted comes from two windows, or is over. -/
structure Ordered (ts : List ℕ) : Prop where
  /-- The windows come one after the other. -/
  sorted : ((windows period ts).previous ++ (windows period ts).current).Pairwise (· ≤ ·)
  calls : ∀ x ∈ (windows period ts).previous ++ (windows period ts).current, x ∈ ts
  opened : ts ≠ [] → (windows period ts).current ≠ []
  older : ∃ old, admitted period limit ts = old ++
    ((windows period ts).previous.take limit ++ (windows period ts).current.take limit) ∧
    ∀ o ∈ old, ∀ x ∈ (windows period ts).current, o + period ≤ x

theorem ordered_nil : Ordered period limit [] where
  sorted := .nil
  calls _ h := by cases h
  opened h := absurd rfl h
  older := ⟨[], by simp [admitted, admittedFrom, windows], fun _ h => by cases h⟩

variable {period limit}

theorem note_of_opens (h : Opens period t b) : note period t b = ⟨b.current, [t]⟩ := if_pos h

theorem note_of_not_opens (h : ¬ Opens period t b) :
    note period t b = ⟨b.previous, b.current ++ [t]⟩ := if_neg h

theorem take_singleton (t n : ℕ) : [t].take n = if 1 ≤ n then [t] else [] := by
  cases n <;> simp

/-- A call belongs to the window it opens, or to the present one. -/
theorem Ordered.concat (h : Ordered period limit ts) (ht : ∀ x ∈ ts, x ≤ t) :
    Ordered period limit (ts ++ [t]) := by
  obtain ⟨hsorted, hcalls, hopened, old, hadmitted, hold⟩ := h
  have hlater : ∀ x ∈ (windows period ts).previous ++ (windows period ts).current, x ≤ t :=
    fun x hx => ht x (hcalls x hx)
  have hempty : (windows period ts).current = [] → ts = [] := fun hnil =>
    Decidable.byContradiction fun hne => hopened hne hnil
  obtain ⟨hprevious, hcurrent, hbetween⟩ := List.pairwise_append.mp hsorted
  by_cases ho : Opens period t (windows period ts)
  -- the call opens a window, and the present one is the previous one now
  · have hnote := note_of_opens ho
    have hadmits : Admits period limit t (windows period ts) ↔ 1 ≤ limit := by
      rw [Admits, hnote, List.length_singleton]
    constructor
    · rw [windows_concat, hnote]
      refine List.pairwise_append.mpr ⟨hcurrent, List.pairwise_singleton .., fun x hx y hy => ?_⟩
      rw [List.mem_singleton.mp hy]
      exact hlater x (List.mem_append_right _ hx)
    · rw [windows_concat, hnote]
      intro x hx
      rcases List.mem_append.mp hx with hx | hx
      · exact List.mem_append_left _ (hcalls x (List.mem_append_right _ hx))
      · exact List.mem_append_right _ hx
    · intro _
      rw [windows_concat, hnote]
      exact List.cons_ne_nil _ _
    · refine ⟨old ++ (windows period ts).previous.take limit, ?_, ?_⟩
      · rw [admitted_concat, hadmitted, windows_concat, hnote, take_singleton]
        simp only [hadmits, List.append_assoc]
      · rw [windows_concat, hnote]
        intro o hmem x hx
        rw [List.mem_singleton.mp hx]
        rcases hcur : (windows period ts).current with - | ⟨start, rest⟩
        · -- nothing has happened yet
          obtain rfl := hempty hcur
          rw [show admitted period limit [] = [] from rfl] at hadmitted
          have hnone := List.append_eq_nil_iff.mp hadmitted.symm
          rw [hnone.1] at hmem
          simp [windows] at hmem
        · have hstart : start ∈ (windows period ts).current := by simp [hcur]
          have hover : start + period ≤ t := ho start (by simp [hcur])
          rcases List.mem_append.mp hmem with hmem | hmem
          · have := hold o hmem start hstart
            omega
          · have := hbetween o (List.mem_of_mem_take hmem) start hstart
            omega
  -- the call belongs to the present window
  · have hnote := note_of_not_opens ho
    have hadmits : Admits period limit t (windows period ts) ↔
        1 ≤ limit - (windows period ts).current.length := by
      rw [Admits, hnote, List.length_append, List.length_singleton]
      omega
    constructor
    · rw [windows_concat, hnote, ← List.append_assoc]
      refine List.pairwise_append.mpr ⟨hsorted, List.pairwise_singleton .., fun x hx y hy => ?_⟩
      rw [List.mem_singleton.mp hy]
      exact hlater x hx
    · rw [windows_concat, hnote, ← List.append_assoc]
      intro x hx
      rcases List.mem_append.mp hx with hx | hx
      · exact List.mem_append_left _ (hcalls x hx)
      · exact List.mem_append_right _ hx
    · intro _
      rw [windows_concat, hnote]
      simp
    · refine ⟨old, ?_, ?_⟩
      · rw [admitted_concat, hadmitted, windows_concat, hnote, List.take_append, take_singleton]
        simp only [hadmits, List.append_assoc]
      · rw [windows_concat, hnote]
        intro o hmem x hx
        rcases List.mem_append.mp hx with hx | hx
        · exact hold o hmem x hx
        · rw [List.mem_singleton.mp hx]
          rcases hcur : (windows period ts).current with - | ⟨start, rest⟩
          · exact absurd (fun start hs => by simp [hcur] at hs) ho
          · have hstart : start ∈ (windows period ts).current := by simp [hcur]
            have := hold o hmem start hstart
            have := hlater start (List.mem_append_right _ hstart)
            omega

/-! ### The calls of the last period -/

/-- How many of the calls lie in the period that ends with `t`. -/
def recent (period t : ℕ) (ts : List ℕ) : ℕ := ts.countP fun x => t < x + period

theorem recent_append (t : ℕ) (l l' : List ℕ) :
    recent period t (l ++ l') = recent period t l + recent period t l' := List.countP_append

theorem recent_le_length (period t : ℕ) (l : List ℕ) : recent period t l ≤ l.length :=
  List.countP_le_length

theorem recent_eq_zero {l : List ℕ} (h : ∀ x ∈ l, x + period ≤ t) : recent period t l = 0 :=
  List.countP_eq_zero.mpr fun x hx => by simpa using h x hx

theorem recent_eq_length {l : List ℕ} (h : ∀ x ∈ l, t < x + period) :
    recent period t l = l.length :=
  List.countP_eq_length.mpr fun x hx => by simpa using h x hx

/-- Of calls in the order of time, the ones before an index are over with the one at it. -/
theorem over_iff {l : List ℕ} (hsorted : l.Pairwise (· ≤ ·)) {i : ℕ} (hi : i < l.length) :
    l[i] + period ≤ t ↔ recent period t l ≤ l.length - (i + 1) := by
  have hle : ∀ {j k : ℕ} (hj : j < l.length) (hk : k < l.length), j ≤ k → l[j] ≤ l[k] := by
    intro j k hj hk hjk
    rcases Nat.lt_or_eq_of_le hjk with hlt | rfl
    · exact List.pairwise_iff_getElem.mp hsorted j k hj hk hlt
    · exact Nat.le_refl _
  constructor
  · intro hover
    have htake : recent period t (l.take (i + 1)) = 0 := by
      refine recent_eq_zero fun x hx => ?_
      obtain ⟨j, hj, rfl⟩ := List.mem_take_iff_getElem.mp hx
      have := hle (by omega : j < l.length) hi (by omega)
      omega
    have hdrop := recent_le_length period t (l.drop (i + 1))
    rw [List.length_drop] at hdrop
    rw [← List.take_append_drop (i + 1) l, recent_append, htake, List.take_append_drop]
    omega
  · intro hrecent
    by_contra hnot
    have hdrop : recent period t (l.drop i) = (l.drop i).length := by
      refine recent_eq_length fun x hx => ?_
      obtain ⟨j, hj, rfl⟩ := List.mem_drop_iff_getElem.mp hx
      have := hle hi (by omega : i + j < l.length) (by omega)
      omega
    rw [← List.take_append_drop i l, recent_append, hdrop, List.take_append_drop,
      List.length_drop] at hrecent
    omega

/-- Every call of the present window is in the period that ends with the last one. -/
theorem recent_current (hperiod : 0 < period) (h : Ordered period limit ts) :
    recent period t (note period t (windows period ts)).current =
      (note period t (windows period ts)).current.length := by
  apply recent_eq_length
  obtain ⟨-, hcurrent, -⟩ := List.pairwise_append.mp h.sorted
  by_cases ho : Opens period t (windows period ts)
  · rw [note_of_opens ho]
    intro x hx
    rw [List.mem_singleton.mp hx]
    omega
  · rw [note_of_not_opens ho]
    intro x hx
    rcases List.mem_append.mp hx with hx | hx
    · rcases hcur : (windows period ts).current with - | ⟨start, rest⟩
      · rw [hcur] at hx
        cases hx
      · have hstart : t < start + period := by
          by_contra hover
          refine ho fun s hs => ?_
          rw [hcur, List.head?_cons, Option.mem_some_iff] at hs
          omega
        rw [hcur] at hx hcurrent
        rcases List.mem_cons.mp hx with rfl | hx
        · exact hstart
        · have := List.rel_of_pairwise_cons hcurrent hx
          omega
    · rw [List.mem_singleton.mp hx]
      omega

/-- What is admitted in the period that ends with an admitted call. -/
theorem recent_admitted (hperiod : 0 < period) (h : Ordered period limit ts)
    (ht : ∀ x ∈ ts, x ≤ t) (hadmits : Admits period limit t (windows period ts)) :
    recent period t (admitted period limit (ts ++ [t])) =
      recent period t ((note period t (windows period ts)).previous.take limit) +
        (note period t (windows period ts)).current.length := by
  obtain ⟨old, hadmitted, hold⟩ := (h.concat ht).older
  rw [windows_concat] at hadmitted hold
  have ht' : t ∈ (note period t (windows period ts)).current := by
    by_cases ho : Opens period t (windows period ts)
    · simp [note_of_opens ho]
    · simp [note_of_not_opens ho]
  rw [hadmitted, recent_append, recent_eq_zero fun o ho => hold o ho t ht', recent_append,
    List.take_of_length_le hadmits, recent_current hperiod h, Nat.zero_add]

/-- The period that ends with the call has room for it exactly if the call is staggered. -/
theorem staggered_iff (hperiod : 0 < period) (h : Ordered period limit ts)
    (ht : ∀ x ∈ ts, x ≤ t) :
    Staggered period limit t (windows period ts) ↔
      (Admits period limit t (windows period ts) →
        recent period t (admitted period limit (ts ++ [t])) ≤ limit) := by
  have hsorted : ((note period t (windows period ts)).previous.take limit).Pairwise (· ≤ ·) := by
    have hboth := (h.concat ht).sorted
    rw [windows_concat] at hboth
    exact (List.pairwise_append.mp hboth).1.take
  unfold Staggered
  dsimp only
  refine forall_congr' fun hadmits => ?_
  rw [recent_admitted hperiod h ht hadmits]
  generalize (note period t (windows period ts)).previous.take limit = last at hsorted
  have hm : (note period t (windows period ts)).current.length ≤ limit := hadmits
  generalize (note period t (windows period ts)).current.length = m at hm
  have hlast := recent_le_length period t last
  by_cases hfull : limit < last.length + m
  · have hi : last.length + m - (limit + 1) < last.length := by omega
    rw [List.getElem?_eq_getElem hi]
    simp only [hfull, true_implies, Option.mem_some_iff, forall_eq']
    rw [over_iff hsorted hi]
    omega
  · refine iff_of_true (fun hnot => absurd hnot hfull) ?_
    omega

/-! ### Every period -/

/-- Only the calls of one period can end in a call too many. -/
theorem bounded_concat_iff (hperiod : 0 < period) (h : Ordered period limit ts)
    (ht : ∀ x ∈ ts, x ≤ t) :
    Bounded period limit (ts ++ [t]) ↔
      Bounded period limit ts ∧ Staggered period limit t (windows period ts) := by
  rw [staggered_iff hperiod h ht]
  by_cases hadmits : Admits period limit t (windows period ts)
  · have hconcat := admitted_concat period limit ts t
    rw [if_pos hadmits] at hconcat
    simp only [hadmits, true_implies]
    constructor
    · intro hbounded
      refine ⟨fun start => ?_, ?_⟩
      · have := hbounded start
        rw [hconcat, List.filter_append, List.length_append] at this
        omega
      · -- the period that ends with the call
        have hlast := hbounded (t + 1 - period)
        rw [← List.countP_eq_length_filter] at hlast
        refine le_of_eq_of_le (List.countP_congr fun x hx => ?_) hlast
        have hx' : x ≤ t := by
          rcases List.mem_append.mp ((admittedFrom_sublist ..).subset hx) with hx | hx
          · exact ht x hx
          · exact Nat.le_of_eq (List.mem_singleton.mp hx)
        simp only [decide_eq_true_eq, Bool.decide_and, Bool.and_eq_true]
        omega
    · rintro ⟨hbounded, hrecent⟩ start
      -- the new call is in this period or not
      by_cases hin : start ≤ t ∧ t < start + period
      · rw [← List.countP_eq_length_filter]
        refine Nat.le_trans (List.countP_mono_left fun x _ hx => ?_) hrecent
        simp only [decide_eq_true_eq, Bool.decide_and, Bool.and_eq_true] at hx ⊢
        omega
      · rw [hconcat, List.filter_append, List.filter_cons_of_neg (by simpa using hin),
          List.filter_nil, List.append_nil]
        exact hbounded start
  · have hconcat := admitted_concat period limit ts t
    rw [if_neg hadmits, List.append_nil] at hconcat
    simp only [Bounded, hconcat, hadmits, false_implies, and_true]

theorem ordered_of_sorted (h : ts.Pairwise (· ≤ ·)) : Ordered period limit ts := by
  induction ts using List.reverseRecOn with
  | nil => exact ordered_nil period limit
  | append_singleton ts t ih =>
      obtain ⟨hsorted, -, hlast⟩ := List.pairwise_append.mp h
      exact (ih hsorted).concat fun x hx => hlast x hx t (List.mem_singleton_self t)

/-- **No period has more than `limit` admitted calls exactly if every call is staggered.** -/
theorem bounded_iff (hperiod : 0 < period) (h : ts.Pairwise (· ≤ ·)) :
    Bounded period limit ts ↔
      ∀ before t after, ts = before ++ t :: after →
        Staggered period limit t (windows period before) := by
  induction ts using List.reverseRecOn with
  | nil =>
      refine iff_of_true (fun start => Nat.zero_le _) fun before t after he => ?_
      simp at he
  | append_singleton ts t ih =>
      obtain ⟨hsorted, -, hlast⟩ := List.pairwise_append.mp h
      have ht : ∀ x ∈ ts, x ≤ t := fun x hx => hlast x hx t (List.mem_singleton_self t)
      rw [bounded_concat_iff hperiod (ordered_of_sorted hsorted) ht, ih hsorted]
      constructor
      · rintro ⟨hbefore, hstaggered⟩ before x after he
        rcases List.eq_nil_or_concat' after with rfl | ⟨rest, y, rfl⟩
        · obtain ⟨rfl, hx⟩ := List.append_inj' he rfl
          cases hx
          exact hstaggered
        · rw [← List.cons_append, ← List.append_assoc] at he
          obtain ⟨hts, -⟩ := List.append_inj' he rfl
          exact hbefore before x rest hts
      · intro hall
        refine ⟨fun before x after he => hall before x (after ++ [t]) ?_, hall ts t [] rfl⟩
        rw [he, List.append_assoc, List.cons_append]

/-- A call after a quiet period is admitted. -/
theorem admits_of_quiet (hlimit : 1 ≤ limit) (h : ts.Pairwise (· ≤ ·))
    (hquiet : ∀ x ∈ ts, x + period ≤ t) : Admits period limit t (windows period ts) := by
  have hordered : Ordered period limit ts := ordered_of_sorted h
  have hopens : Opens period t (windows period ts) := fun start hstart =>
    hquiet start (hordered.calls start (List.mem_append_right _ (List.mem_of_mem_head? hstart)))
  rw [Admits, note_of_opens hopens]
  exact hlimit

end FixedWindow
