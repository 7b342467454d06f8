/-
Iwifunni/Web/Patterns.lean

Two patterns of the builder, and what the backend reads.

    builder          backend
    durationPattern  time.ParseDuration    terms of digits and units
    uuidPattern      uuid.Parse            five groups of digits

What `uuidPattern` matches is parsed.  What `durationPattern` matches is parsed if it
is not too long: the pattern does not look at the numbers, and a `time.Duration` has
63 bits (`parse_durationTerms`).  The terms are added in 64 bits, so that `2 ^ 63`
nanoseconds twice count as none (`Fits`).
-/
import Iwifunni.Go.Uuid
import Iwifunni.Web.Validation

namespace Iwifunni.Web

open Go Workflow

/-! ### Terms of a duration -/

namespace DurationTerm

/-- The number left of the point. -/
def number (ds : List Char) (x : ℕ) : ℕ :=
  ds.foldl (fun x c => x * 10 + Duration.digitValue c) x

/-- The nanoseconds of a term: whole units, and the part of one the fraction is. -/
def nanoseconds (term : DurationTerm) : ℕ :=
  let unit := (Duration.unitOf term.unit).getD 0
  let fraction := Duration.leadingFraction 0 1 false term.fraction
  number term.whole 0 * unit +
    if 0 < fraction.1 then Duration.scaleFraction fraction.1 unit fraction.2.1 else 0

theorem number_cons (c : Char) (ds : List Char) (x : ℕ) :
    number (c :: ds) x = number ds (x * 10 + Duration.digitValue c) := by
  simp only [number, List.foldl_cons]

theorem le_number (ds : List Char) (x : ℕ) : x ≤ number ds x := by
  induction ds generalizing x with
  | nil => exact le_rfl
  | cons c ds ih =>
      have := ih (x * 10 + Duration.digitValue c)
      rw [number_cons]
      omega

/-- The text of a term. -/
def text (term : DurationTerm) : List Char :=
  term.whole ++ (if term.fraction = [] then [] else '.' :: term.fraction) ++ term.unit

end DurationTerm

/-- Terms that 63 bits hold when they are added to `d` from the left.  The sum goes up to
`2 ^ 63` on the way; from there the one term it gets past is `2 ^ 63` again, with which it
starts over at zero. -/
def Fits : ℕ → List DurationTerm → Prop
  | d, [] => d < Duration.limit
  | d, term :: terms =>
      d + term.nanoseconds ≤ Duration.limit ∧ Fits (d + term.nanoseconds) terms ∨
        d = Duration.limit ∧ term.nanoseconds = Duration.limit ∧ Fits 0 terms

instance decidableFits : ∀ d terms, Decidable (Fits d terms)
  | d, [] => inferInstanceAs (Decidable (d < Duration.limit))
  | d, term :: terms =>
      have := decidableFits (d + term.nanoseconds) terms
      have := decidableFits 0 terms
      inferInstanceAs (Decidable (_ ∨ _))

/-- A single term is too long from `2 ^ 63` on. -/
theorem fits_singleton {term : DurationTerm} :
    Fits 0 [term] ↔ term.nanoseconds < Duration.limit := by
  have hpos : 0 < Duration.limit := by decide
  simp only [Fits]
  omega

/-- No digit comes next. -/
def Stops (cs : List Char) : Prop := ∀ c ∈ cs.head?, Duration.isDigit c = false

/-- What a matched term is like. -/
structure Matched (term : DurationTerm) (rest : List Char) : Prop where
  whole_ne : term.whole ≠ []
  whole : ∀ c ∈ term.whole, Duration.isDigit c = true
  fraction : ∀ c ∈ term.fraction, Duration.isDigit c = true
  unit : term.unit ∈ durationUnits
  rest : ∀ c ∈ rest.head?, Duration.isDigit c = true

theorem isDigit_of_mem_takeWhile {cs : List Char} {c : Char}
    (h : c ∈ cs.takeWhile Duration.isDigit) : Duration.isDigit c = true :=
  List.mem_takeWhile_imp h

/-- What follows the longest prefix of a kind is not of the kind. -/
theorem head?_dropWhile {p : Char → Bool} (cs : List Char) :
    ∀ c ∈ (cs.dropWhile p).head?, p c = false := by
  induction cs with
  | nil => simp
  | cons d cs ih =>
      rw [List.dropWhile_cons]
      split
      · exact ih
      · next hd => simpa using hd

theorem drop_length_takeWhile {p : Char → Bool} (cs : List Char) :
    cs.drop (cs.takeWhile p).length = cs.dropWhile p := by
  conv_lhs => rw [← List.takeWhile_append_dropWhile (p := p) (l := cs)]
  rw [List.drop_left']
  rw [List.takeWhile_append_dropWhile]

/-- What a text with a fraction is made of. -/
theorem fractionDigits_append (cs : List Char) :
    cs = (if fractionDigits cs = [] then [] else '.' :: fractionDigits cs) ++
      cs.drop (if fractionDigits cs = [] then 0 else (fractionDigits cs).length + 1) ∧
    ∀ c ∈ fractionDigits cs, Duration.isDigit c = true := by
  unfold fractionDigits
  split
  · next digits =>
    by_cases hfraction : digits.takeWhile Duration.isDigit = []
    · simp [hfraction]
    · refine ⟨?_, fun c hc => List.mem_takeWhile_imp hc⟩
      rw [if_neg hfraction, if_neg hfraction, List.drop_succ_cons, drop_length_takeWhile,
        List.cons_append, List.takeWhile_append_dropWhile]
  · simp

/-- **A matched term is the beginning of the text.** -/
theorem matchTerm_eq {cs rest : List Char} {term : DurationTerm}
    (h : matchTerm cs = some (term, rest)) : cs = term.text ++ rest ∧ Matched term rest := by
  obtain ⟨hsplit, hfraction⟩ := fractionDigits_append (cs.dropWhile Duration.isDigit)
  unfold matchTerm at h
  dsimp only at h
  generalize (cs.dropWhile Duration.isDigit).drop (if fractionDigits (cs.dropWhile
    Duration.isDigit) = [] then 0 else (fractionDigits (cs.dropWhile Duration.isDigit)).length + 1)
    = tail at h hsplit
  split at h
  · next hmatch =>
    obtain ⟨rfl, rfl⟩ := Prod.mk.inj (Option.some.inj h)
    rw [drop_length_takeWhile]
    refine ⟨?_, hmatch.1, fun c hc => List.mem_takeWhile_imp hc, hfraction, hmatch.2, ?_⟩
    · simp only [DurationTerm.text, List.append_assoc, List.takeWhile_append_dropWhile]
      rw [← hsplit, List.takeWhile_append_dropWhile]
    · intro c hc
      simpa using head?_dropWhile _ c hc
  · cases h

/-! ### What the backend reads of them -/

/-- The loop over the digits of a whole number. -/
theorem leadingInt_append {ds rest : List Char} (hds : ∀ c ∈ ds, Duration.isDigit c = true)
    (hrest : Stops rest) {x : ℕ} (hx : x ≤ Duration.limit) :
    Duration.leadingInt x (ds ++ rest) =
      if DurationTerm.number ds x ≤ Duration.limit then some (DurationTerm.number ds x, rest)
      else none := by
  induction ds generalizing x with
  | nil =>
      show Duration.leadingInt x rest = if x ≤ Duration.limit then some (x, rest) else none
      rw [if_pos hx]
      cases rest with
      | nil => rfl
      | cons c rest =>
          rw [Duration.leadingInt, hrest c rfl]
          rfl
  | cons c ds ih =>
      have hle := DurationTerm.le_number ds (x * 10 + Duration.digitValue c)
      rw [List.cons_append, Duration.leadingInt, if_pos (hds c (List.mem_cons_self ..)),
        DurationTerm.number_cons]
      -- the loop gives up as soon as the number is too large, and it only grows
      by_cases htoo : Duration.limit < x * 10 + Duration.digitValue c
      · rw [if_pos htoo, ite_self, if_neg (by omega)]
      · rw [if_neg (show ¬ Duration.limit / 10 < x by omega), if_neg htoo]
        exact ih (fun c hc => hds c (List.mem_cons_of_mem _ hc)) (by omega)

/-- The loop over the digits of a fraction. -/
theorem leadingFraction_append {ds rest : List Char}
    (hds : ∀ c ∈ ds, Duration.isDigit c = true) (hrest : Stops rest) (f scale : ℕ)
    (beyond : Bool) :
    Duration.leadingFraction f scale beyond (ds ++ rest) =
      ((Duration.leadingFraction f scale beyond ds).1,
        (Duration.leadingFraction f scale beyond ds).2.1, rest) := by
  induction ds generalizing f scale beyond with
  | nil =>
      show Duration.leadingFraction f scale beyond rest = (f, scale, rest)
      cases rest with
      | nil => rfl
      | cons c rest =>
          rw [Duration.leadingFraction, hrest c rfl]
          rfl
  | cons c ds ih =>
      have hds' : ∀ c ∈ ds, Duration.isDigit c = true :=
        fun c hc => hds c (List.mem_cons_of_mem _ hc)
      rw [List.cons_append, Duration.leadingFraction, if_pos (hds c (List.mem_cons_self ..)),
        Duration.leadingFraction, if_pos (hds c (List.mem_cons_self ..))]
      split
      · exact ih hds' ..
      · split
        · exact ih hds' ..
        · split
          · exact ih hds' ..
          · exact ih hds' ..

theorem unitOf_of_mem {unit : List Char} (h : unit ∈ durationUnits) :
    ∃ n, Duration.unitOf unit = some n ∧ 0 < n := by
  simp only [durationUnits, List.mem_cons, List.not_mem_nil, or_false] at h
  rcases h with rfl | rfl | rfl | rfl | rfl | rfl | rfl <;> exact ⟨_, rfl, by decide⟩

/-- What `parseTerm` does once it has read the number. -/
def finishTerm (v f scale : ℕ) (rest : List Char) : Option (ℕ × List Char) := do
  let name := rest.takeWhile fun c => !(c == '.' || Duration.isDigit c)
  let unit ← Duration.unitOf name
  if Duration.limit / unit < v then none
  let v := v * unit + (if 0 < f then Duration.scaleFraction f unit scale else 0)
  if Duration.limit < v then none
  return (v, rest.drop name.length)

section Term

variable {cs tail : List Char} {c : Char} {v : ℕ}

/-- A term without a point. -/
theorem parseTerm_whole (hhead : cs.head? = some c) (hc : Duration.isDigit c = true)
    (hint : Duration.leadingInt 0 cs = some (v, tail)) (hlength : tail.length ≠ cs.length)
    (htail : tail.head? ≠ some '.') : Duration.parseTerm cs = finishTerm v 0 1 tail := by
  rw [Duration.parseTerm, hhead]
  simp only [Option.bind_eq_bind, Option.bind_some, hc, Bool.or_true, Bool.not_true,
    Bool.false_eq_true, if_false, hint]
  cases tail with
  | nil =>
      have hlength' : ([] : List Char).length != cs.length := bne_iff_ne.mpr hlength
      simp only [hlength', Bool.not_true, Bool.false_and, Bool.false_eq_true, if_false]
      rfl
  | cons d ds =>
      have hd : d ≠ '.' := by simpa using htail
      have hlength' : (d :: ds).length != cs.length := bne_iff_ne.mpr hlength
      simp only [hlength', Bool.not_true, Bool.false_and, Bool.false_eq_true, if_false]
      simp [hd, finishTerm]

theorem parseTerm_point (hhead : cs.head? = some c) (hc : Duration.isDigit c = true)
    (hint : Duration.leadingInt 0 cs = some (v, '.' :: tail))
    (hlength : ('.' :: tail).length ≠ cs.length) :
    Duration.parseTerm cs = finishTerm v (Duration.leadingFraction 0 1 false tail).1
      (Duration.leadingFraction 0 1 false tail).2.1
      (Duration.leadingFraction 0 1 false tail).2.2 := by
  have hlength' : ('.' :: tail).length != cs.length := bne_iff_ne.mpr hlength
  rw [Duration.parseTerm, hhead]
  simp only [Option.bind_eq_bind, Option.bind_some, hc, Bool.or_true, Bool.not_true,
    Bool.false_eq_true, if_false, hint, hlength', Bool.false_and]
  rfl

theorem parseTerm_none (hhead : cs.head? = some c) (hc : Duration.isDigit c = true)
    (hint : Duration.leadingInt 0 cs = none) : Duration.parseTerm cs = none := by
  rw [Duration.parseTerm, hhead]
  simp only [Option.bind_eq_bind, Option.bind_some, hc, Bool.or_true, Bool.not_true,
    Bool.false_eq_true, if_false, hint]
  rfl

end Term

/-- A unit begins with a letter and has no digit and no point in it. -/
theorem unit_chars {unit : List Char} (h : unit ∈ durationUnits) :
    (∃ u us, unit = u :: us ∧ u ≠ '.' ∧ Duration.isDigit u = false) ∧
      ∀ u ∈ unit, (!(u == '.' || Duration.isDigit u)) = true := by
  simp only [durationUnits, List.mem_cons, List.not_mem_nil, or_false] at h
  rcases h with rfl | rfl | rfl | rfl | rfl | rfl | rfl <;>
    exact ⟨⟨_, _, rfl, by decide, by decide⟩, List.all_eq_true.mp (by decide)⟩

/-- The unit is read, and the term refused if it is too long. -/
theorem finishTerm_eq {unit rest : List Char} {n : ℕ} (hunit : unit ∈ durationUnits)
    (hrest : ∀ c ∈ rest.head?, Duration.isDigit c = true) (hn : Duration.unitOf unit = some n)
    (hpos : 0 < n) (v f scale : ℕ) :
    finishTerm v f scale (unit ++ rest) =
      if v * n + (if 0 < f then Duration.scaleFraction f n scale else 0) ≤ Duration.limit then
        some (v * n + (if 0 < f then Duration.scaleFraction f n scale else 0), rest)
      else none := by
  have hstop : rest.takeWhile (fun c => !(c == '.' || Duration.isDigit c)) = [] := by
    cases rest with
    | nil => rfl
    | cons c rest => simp [hrest c rfl]
  have hname : (unit ++ rest).takeWhile (fun c => !(c == '.' || Duration.isDigit c)) = unit := by
    rw [List.takeWhile_append_of_pos (unit_chars hunit).2, hstop, List.append_nil]
  have hlong : Duration.limit / n < v ↔ Duration.limit < v * n := Nat.div_lt_iff_lt_mul hpos
  rw [finishTerm]
  simp only [hname, hn, Option.bind_eq_bind, Option.bind_some, hlong, List.drop_left']
  generalize (if 0 < f then Duration.scaleFraction f n scale else 0) = fraction
  by_cases hwhole : Duration.limit < v * n
  · rw [if_pos hwhole, if_neg (show ¬ v * n + fraction ≤ Duration.limit by omega)]
    rfl
  · rw [if_neg hwhole]
    by_cases hsum : Duration.limit < v * n + fraction
    · rw [if_pos hsum, if_neg (show ¬ v * n + fraction ≤ Duration.limit by omega)]
      rfl
    · rw [if_neg hsum, if_pos (by omega)]
      rfl

/-- **A matched term is parsed unless it is too long.** -/
theorem parseTerm_eq {term : DurationTerm} {rest : List Char} (h : Matched term rest) :
    Duration.parseTerm (term.text ++ rest) =
      if term.nanoseconds ≤ Duration.limit then some (term.nanoseconds, rest) else none := by
  obtain ⟨n, hn, hpos⟩ := unitOf_of_mem h.unit
  obtain ⟨⟨u, us, hu, hpoint, hdigit⟩, -⟩ := unit_chars h.unit
  obtain ⟨c, ds, hwhole⟩ := List.exists_cons_of_ne_nil h.whole_ne
  have hc : Duration.isDigit c = true := h.whole c (by rw [hwhole]; simp)
  have hstop : Stops (term.unit ++ rest) := by
    intro d hd
    rw [hu] at hd
    cases hd
    exact hdigit
  have hnanos : term.nanoseconds = DurationTerm.number term.whole 0 * n +
      if 0 < (Duration.leadingFraction 0 1 false term.fraction).1 then
        Duration.scaleFraction (Duration.leadingFraction 0 1 false term.fraction).1 n
          (Duration.leadingFraction 0 1 false term.fraction).2.1 else 0 := by
    rw [DurationTerm.nanoseconds, hn]
    rfl
  have hint : ∀ tail, Stops tail → Duration.leadingInt 0 (term.whole ++ tail) =
      if DurationTerm.number term.whole 0 ≤ Duration.limit then
        some (DurationTerm.number term.whole 0, tail) else none :=
    fun tail htail => leadingInt_append h.whole htail (Nat.zero_le _)
  have hhead : ∀ tail, (term.whole ++ tail).head? = some c := by
    intro tail
    rw [hwhole]
    rfl
  have hlength : ∀ tail, tail.length ≠ (term.whole ++ tail).length := by
    intro tail
    rw [hwhole, List.cons_append, List.length_cons, List.length_append]
    omega
  -- the digits before the point are too many on their own, or the sum decides
  have hgrows := Nat.le_mul_of_pos_right (DurationTerm.number term.whole 0) hpos
  by_cases hfraction : term.fraction = []
  · have htext : term.text ++ rest = term.whole ++ (term.unit ++ rest) := by
      rw [DurationTerm.text, if_pos hfraction, List.append_nil, List.append_assoc]
    rw [htext]
    by_cases hnumber : DurationTerm.number term.whole 0 ≤ Duration.limit
    · rw [parseTerm_whole (hhead _) hc ((hint _ hstop).trans (if_pos hnumber)) (hlength _)
        (by rw [hu]; simpa using hpoint), finishTerm_eq h.unit h.rest hn hpos, hnanos, hfraction]
      rfl
    · rw [parseTerm_none (hhead _) hc ((hint _ hstop).trans (if_neg hnumber)), if_neg (by omega)]
  · have htext : term.text ++ rest =
        term.whole ++ '.' :: (term.fraction ++ (term.unit ++ rest)) := by
      rw [DurationTerm.text, if_neg hfraction, List.append_assoc, List.append_assoc,
        List.cons_append]
    have hpoint' : Stops ('.' :: (term.fraction ++ (term.unit ++ rest))) := by
      intro d hd
      cases hd
      rfl
    rw [htext]
    by_cases hnumber : DurationTerm.number term.whole 0 ≤ Duration.limit
    · rw [parseTerm_point (hhead _) hc ((hint _ hpoint').trans (if_pos hnumber)) (hlength _),
        leadingFraction_append h.fraction hstop, finishTerm_eq h.unit h.rest hn hpos, hnanos]
    · rw [parseTerm_none (hhead _) hc ((hint _ hpoint').trans (if_neg hnumber)),
        if_neg (by omega)]

/-- **One term of the sum**: where it gets past `limit` it is refused, unless 64 bits bring it
back to zero. -/
theorem parseTerms_cons {fuel d : ℕ} {c : Char} {cs rest : List Char} {term : DurationTerm}
    (hd : d ≤ Duration.limit) (htext : c :: cs = term.text ++ rest) (h : Matched term rest) :
    Duration.parseTerms (fuel + 1) d (c :: cs) =
      if d + term.nanoseconds ≤ Duration.limit then
        Duration.parseTerms fuel (d + term.nanoseconds) rest
      else if d = Duration.limit ∧ term.nanoseconds = Duration.limit then
        Duration.parseTerms fuel 0 rest
      else none := by
  have hlimit : Duration.limit = 2 ^ 63 := rfl
  rw [Duration.parseTerms, htext, parseTerm_eq h]
  by_cases hlong : term.nanoseconds ≤ Duration.limit
  · rw [if_pos hlong]
    show (if Duration.limit < (d + term.nanoseconds) % 2 ^ 64 then none
      else Duration.parseTerms fuel ((d + term.nanoseconds) % 2 ^ 64) rest) = _
    by_cases hsum : d + term.nanoseconds ≤ Duration.limit
    · have hsame : (d + term.nanoseconds) % 2 ^ 64 = d + term.nanoseconds :=
        Nat.mod_eq_of_lt (by omega)
      rw [hsame, if_neg (by omega), if_pos hsum]
    · rw [if_neg hsum]
      by_cases hboth : d = Duration.limit ∧ term.nanoseconds = Duration.limit
      · -- the one sum that 64 bits do not hold
        have hzero : (d + term.nanoseconds) % 2 ^ 64 = 0 := by
          rw [hboth.1, hboth.2, hlimit]
          rfl
        rw [hzero, if_neg (by omega), if_pos hboth]
      · have hsame : (d + term.nanoseconds) % 2 ^ 64 = d + term.nanoseconds :=
          Nat.mod_eq_of_lt (by omega)
        rw [hsame, if_pos (by omega), if_neg hboth]
  · rw [if_neg hlong, if_neg (by omega), if_neg (by omega)]
    rfl

/-- The terms, added up. -/
theorem parseTerms_iff {fuel : ℕ} {cs : List Char} {terms : List DurationTerm}
    (h : matchTerms fuel cs = some terms) {d : ℕ} (hd : d ≤ Duration.limit) :
    (∃ sum, Duration.parseTerms fuel d cs = some sum ∧ sum < Duration.limit) ↔ Fits d terms := by
  induction fuel generalizing cs terms d with
  | zero =>
      cases cs with
      | nil =>
          cases h
          simp [Duration.parseTerms, Fits]
      | cons c cs => cases h
  | succ fuel ih =>
      cases cs with
      | nil =>
          cases h
          simp [Duration.parseTerms, Fits]
      | cons c cs =>
          rw [matchTerms] at h
          obtain ⟨⟨term, rest⟩, hterm, h⟩ := Option.bind_eq_some_iff.mp h
          obtain ⟨others, hothers, h⟩ := Option.bind_eq_some_iff.mp h
          obtain rfl := Option.some.inj h
          -- one term is added, and the sum may wrap to zero
          obtain ⟨htext, hmatched⟩ := matchTerm_eq hterm
          rw [parseTerms_cons hd htext hmatched, Fits]
          by_cases hsum : d + term.nanoseconds ≤ Duration.limit
          · have hrest := ih hothers hsum
            have hpos : 0 < Duration.limit := by decide
            rw [if_pos hsum, hrest]
            refine ⟨fun hfits => .inl ⟨hsum, hfits⟩, ?_⟩
            rintro (⟨-, hfits⟩ | ⟨hfull, hterm, -⟩)
            · exact hfits
            · omega
          · rw [if_neg hsum]
            -- twice 2^63 is zero again
            by_cases hboth : d = Duration.limit ∧ term.nanoseconds = Duration.limit
            · rw [if_pos hboth, ih hothers (Nat.zero_le _)]
              exact ⟨fun hfits => .inr ⟨hboth.1, hboth.2, hfits⟩,
                Or.rec (fun hfits => absurd hfits.1 hsum) fun hfits => hfits.2.2⟩
            · rw [if_neg hboth]
              refine iff_of_false (by simp) ?_
              rintro (⟨hle, -⟩ | ⟨hfull, hterm, -⟩)
              · exact hsum hle
              · exact hboth ⟨hfull, hterm⟩

/-- A text with a term begins with a digit. -/
theorem isDigit_of_matchTerms {fuel : ℕ} {c : Char} {cs : List Char} {terms : List DurationTerm}
    (h : matchTerms fuel (c :: cs) = some terms) : Duration.isDigit c = true := by
  cases fuel with
  | zero => cases h
  | succ fuel =>
      rw [matchTerms] at h
      obtain ⟨⟨term, rest⟩, hterm, -⟩ := Option.bind_eq_some_iff.mp h
      obtain ⟨htext, hmatched⟩ := matchTerm_eq hterm
      obtain ⟨d, ds, hwhole⟩ := List.exists_cons_of_ne_nil hmatched.whole_ne
      rw [DurationTerm.text, hwhole] at htext
      obtain rfl : c = d := (List.cons.inj htext).1
      exact hmatched.whole c (by rw [hwhole]; simp)

/-- **What `durationPattern` matches is parsed unless it is too long.** -/
theorem parse_durationTerms {s : String} {terms : List DurationTerm}
    (h : durationTerms s = some terms) :
    (Duration.parse s).isSome ↔ Fits 0 terms := by
  unfold durationTerms at h
  split at h
  · cases h
  next hne =>
  rcases hcs : s.toList with - | ⟨c, cs⟩
  · exact absurd (String.toList_eq_nil_iff.mp hcs) hne
  rw [hcs] at h
  -- the text begins with a digit, and is not a single zero
  have hdigit := isDigit_of_matchTerms h
  have hzero : c :: cs ≠ ['0'] := by
    intro heq
    rw [heq] at h
    cases h
  have hminus : c ≠ '-' := by
    rintro rfl
    cases hdigit
  have hplus : c ≠ '+' := by
    rintro rfl
    cases hdigit
  have hsum := parseTerms_iff h (Nat.zero_le Duration.limit)
  simp only [Duration.parse, hcs, List.head?_cons, Option.some.injEq, hminus, hplus, or_self,
    if_false, hzero, reduceCtorEq, Option.bind_eq_bind]
  rw [← hsum]
  have hpos : 0 < Duration.limit := by decide
  rcases Duration.parseTerms (c :: cs).length 0 (c :: cs) with - | sum
  · exact iff_of_false (by simp) (by simp)
  · rw [Option.bind_some]
    by_cases hlast : Duration.limit - 1 < sum
    · rw [if_pos hlast]
      refine iff_of_false (by simp) ?_
      rintro ⟨sum', heq, hlt⟩
      obtain rfl := Option.some.inj heq
      omega
    · rw [if_neg hlast]
      exact iff_of_true rfl ⟨sum, rfl, by omega⟩

theorem isSpace_of_isDigit {c : Char} (h : Duration.isDigit c = true) : isSpace c = false := by
  simp only [Duration.isDigit, Bool.and_eq_true, decide_eq_true_eq, Char.le_def,
    UInt32.le_iff_toNat_le] at h
  have hlow : 48 ≤ c.toNat := h.1
  have hhigh : c.toNat ≤ 57 := h.2
  simp [isSpace]
  omega

/-- There is no white space in a term. -/
theorem isSpace_text {term : DurationTerm} {rest : List Char} (h : Matched term rest) {c : Char}
    (hc : c ∈ term.text) : isSpace c = false := by
  have hunit : ∀ unit ∈ durationUnits, ∀ u ∈ unit, isSpace u = false := by
    simp [durationUnits, isSpace]
  rcases List.mem_append.mp hc with hc | hc
  · rcases List.mem_append.mp hc with hc | hc
    · exact isSpace_of_isDigit (h.whole c hc)
    · split at hc
      · cases hc
      · rcases List.mem_cons.mp hc with rfl | hc
        · decide
        · exact isSpace_of_isDigit (h.fraction c hc)
  · exact hunit _ h.unit c hc

/-- What holds of the characters of a term holds of those of a text of terms. -/
theorem forall_mem_of_matchTerms {P : Char → Prop}
    (hterm : ∀ term rest, Matched term rest → ∀ c ∈ term.text, P c) {fuel : ℕ} {cs : List Char}
    {terms : List DurationTerm} (h : matchTerms fuel cs = some terms) : ∀ c ∈ cs, P c := by
  induction fuel generalizing cs terms with
  | zero =>
      cases cs with
      | nil => simp
      | cons c cs => cases h
  | succ fuel ih =>
      cases cs with
      | nil => simp
      | cons c cs =>
          rw [matchTerms] at h
          obtain ⟨⟨term, rest⟩, hmatch, h⟩ := Option.bind_eq_some_iff.mp h
          obtain ⟨others, hothers, -⟩ := Option.bind_eq_some_iff.mp h
          obtain ⟨htext, hmatched⟩ := matchTerm_eq hmatch
          intro d hd
          rw [htext] at hd
          rcases List.mem_append.mp hd with hd | hd
          · exact hterm term rest hmatched d hd
          · exact ih hothers d hd

/-- A text of terms has nothing to trim. -/
theorem trimSpace_durationTerms {s : String} {terms : List DurationTerm}
    (h : durationTerms s = some terms) : trimSpace s = s := by
  unfold durationTerms at h
  split at h
  · cases h
  · exact trimSpace_eq_self
      (forall_mem_of_matchTerms (fun _ _ hmatched _ => isSpace_text hmatched) h)

/-! ### UUIDs -/

/-- Characters that match a pattern, one by one. -/
abbrev Follows : List Char → List (Char → Bool) → Prop := List.Forall₂ fun c p => p c = true

/-- A text of the right length follows the pattern character by character. -/
theorem follows_of_all {cs : List Char} {pattern : List (Char → Bool)}
    (hlength : cs.length = pattern.length) (h : (cs.zipWith (fun c p => p c) pattern).all id) :
    Follows cs pattern := by
  induction cs generalizing pattern with
  | nil =>
      cases pattern with
      | nil => exact .nil
      | cons p pattern => cases hlength
  | cons c cs ih =>
      cases pattern with
      | nil => cases hlength
      | cons p pattern =>
          rw [List.zipWith_cons_cons, List.all_cons, Bool.and_eq_true] at h
          exact .cons h.1 (ih (Nat.succ.inj hlength) h.2)

theorem Follows.split {cs : List Char} {p q : List (Char → Bool)} (h : Follows cs (p ++ q)) :
    ∃ a b, cs = a ++ b ∧ Follows a p ∧ Follows b q :=
  ⟨_, _, (List.take_append_drop p.length cs).symm, List.forall₂_take_append cs p q h,
    List.forall₂_drop_append cs p q h⟩

theorem Follows.replicate {cs : List Char} {n : ℕ} {p : Char → Bool}
    (h : Follows cs (List.replicate n p)) : cs.length = n ∧ ∀ c ∈ cs, p c = true := by
  induction n generalizing cs with
  | zero =>
      cases h
      simp
  | succ n ih =>
      cases h with
      | cons hc hrest =>
          obtain ⟨hlength, hall⟩ := ih hrest
          exact ⟨by rw [List.length_cons, hlength], List.forall_mem_cons.mpr ⟨hc, hall⟩⟩

theorem Follows.singleton {cs : List Char} {p : Char → Bool} (h : Follows cs [p]) :
    ∃ c, cs = [c] ∧ p c = true := by
  cases h with
  | cons hc hrest =>
      cases hrest
      exact ⟨_, rfl, hc⟩

/-- Lower case changes nothing outside ASCII. -/
theorem toLower_of_le {c : Char} (h : 128 ≤ c.toNat) : c.toLower = c := by
  unfold Char.toLower
  rw [dif_neg]
  rintro ⟨-, hle⟩
  have hle' : c.toNat ≤ 90 := hle
  omega

/-- A digit in either case, or a character of the two patterns that are narrower. -/
theorem hexValue_isSome {c : Char}
    (h : (c.isDigit || decide (c.toLower ∈ ['a', 'b', 'c', 'd', 'e', 'f']) ||
      decide (c.toLower ∈ ['8', '9', 'a', 'b'])) = true) :
    c.toNat < 128 ∧ (UUID.hexValue c).isSome ∧ isSpace c = false := by
  have hascii : ∀ n ∈ List.range 128, ((Char.ofNat n).isDigit ||
      decide ((Char.ofNat n).toLower ∈ ['a', 'b', 'c', 'd', 'e', 'f']) ||
      decide ((Char.ofNat n).toLower ∈ ['8', '9', 'a', 'b'])) = true →
      (UUID.hexValue (Char.ofNat n)).isSome ∧ isSpace (Char.ofNat n) = false := by
    decide +kernel
  by_cases hc : c.toNat < 128
  · have hmem := hascii c.toNat (List.mem_range.mpr hc)
    rw [Char.ofNat_toNat] at hmem
    exact ⟨hc, hmem h⟩
  · -- outside ASCII there is no such character
    rw [toLower_of_le (by omega)] at h
    have hhex : ∀ d ∈ ['a', 'b', 'c', 'd', 'e', 'f'], d.toNat < 128 := by simp
    have hvariant : ∀ d ∈ ['8', '9', 'a', 'b'], d.toNat < 128 := by simp
    exfalso
    apply hc
    simp only [Bool.or_eq_true, decide_eq_true_eq, Char.isDigit_iff_toNat] at h
    rcases h with (h | h) | h
    · have hnine : '9'.toNat = 57 := rfl
      omega
    · exact hhex c h
    · exact hvariant c h

theorem hexValues_isSome {cs : List Char} (h : ∀ c ∈ cs, (UUID.hexValue c).isSome) :
    ∃ ds, UUID.hexValues cs = some ds ∧ ds.length = cs.length := by
  induction cs with
  | nil => exact ⟨[], rfl, rfl⟩
  | cons c cs ih =>
      obtain ⟨d, hd⟩ := Option.isSome_iff_exists.mp (h c (List.mem_cons_self ..))
      obtain ⟨ds, hds, hlength⟩ := ih fun c hc => h c (List.mem_cons_of_mem _ hc)
      refine ⟨d :: ds, ?_, by rw [List.length_cons, List.length_cons, hlength]⟩
      rw [UUID.hexValues, hd, hds]
      rfl

/-- The five groups of a text that matches. -/
theorem groups_of_isUuid {s : String} (h : isUuid s = true) :
    ∃ g₁ g₂ g₃ g₄ g₅ : List Char,
      s.toList = g₁ ++ '-' :: (g₂ ++ '-' :: (g₃ ++ '-' :: (g₄ ++ '-' :: g₅))) ∧
      (g₁.length = 8 ∧ g₂.length = 4 ∧ g₃.length = 4 ∧ g₄.length = 4 ∧ g₅.length = 12) ∧
      ∀ c ∈ g₁ ++ g₂ ++ g₃ ++ g₄ ++ g₅,
        c.toNat < 128 ∧ (UUID.hexValue c).isSome ∧ isSpace c = false := by
  rw [isUuid, Bool.and_eq_true, beq_iff_eq] at h
  have hfollows : Follows s.toList uuidPattern := follows_of_all h.1 h.2
  unfold uuidPattern at hfollows
  -- taken apart from the end: the groups, the dashes, the version and the variant
  obtain ⟨_, g₅, hs, hfollows, h₅⟩ := hfollows.split
  obtain ⟨_, d₄, rfl, hfollows, hd₄⟩ := hfollows.split
  obtain ⟨_, g₄, rfl, hfollows, h₄⟩ := hfollows.split
  obtain ⟨_, w, rfl, hfollows, hw⟩ := hfollows.split
  obtain ⟨_, d₃, rfl, hfollows, hd₃⟩ := hfollows.split
  obtain ⟨_, g₃, rfl, hfollows, h₃⟩ := hfollows.split
  obtain ⟨_, v, rfl, hfollows, hv⟩ := hfollows.split
  obtain ⟨_, d₂, rfl, hfollows, hd₂⟩ := hfollows.split
  obtain ⟨_, g₂, rfl, hfollows, h₂⟩ := hfollows.split
  obtain ⟨g₁, d₁, rfl, h₁, hd₁⟩ := hfollows.split
  obtain ⟨_, rfl, hdash₁⟩ := hd₁.singleton
  obtain ⟨_, rfl, hdash₂⟩ := hd₂.singleton
  obtain ⟨_, rfl, hdash₃⟩ := hd₃.singleton
  obtain ⟨_, rfl, hdash₄⟩ := hd₄.singleton
  obtain ⟨v, rfl, hversion⟩ := hv.singleton
  obtain ⟨w, rfl, hvariant⟩ := hw.singleton
  obtain rfl := beq_iff_eq.mp hdash₁
  obtain rfl := beq_iff_eq.mp hdash₂
  obtain rfl := beq_iff_eq.mp hdash₃
  obtain rfl := beq_iff_eq.mp hdash₄
  obtain ⟨hl₁, hhex₁⟩ := h₁.replicate
  obtain ⟨hl₂, hhex₂⟩ := h₂.replicate
  obtain ⟨hl₃, hhex₃⟩ := h₃.replicate
  obtain ⟨hl₄, hhex₄⟩ := h₄.replicate
  obtain ⟨hl₅, hhex₅⟩ := h₅.replicate
  refine ⟨g₁, g₂, v :: g₃, w :: g₄, g₅, by simpa using hs, ⟨hl₁, hl₂, ?_, ?_, hl₅⟩, ?_⟩
  · rw [List.length_cons, hl₃]
  · rw [List.length_cons, hl₄]
  · intro c hc
    apply hexValue_isSome
    simp only [List.mem_append, List.mem_cons] at hc
    rcases hc with (((hc | hc) | rfl | hc) | rfl | hc) | hc
    · rw [hhex₁ c hc, Bool.true_or]
    · rw [hhex₂ c hc, Bool.true_or]
    · -- the version is a digit, the variant one of four
      have hdigit : ∀ d ∈ ['1', '2', '3', '4', '5'], d.isDigit = true :=
        List.all_eq_true.mp (by decide)
      rw [hdigit c (of_decide_eq_true hversion), Bool.true_or, Bool.true_or]
    · rw [hhex₃ c hc, Bool.true_or]
    · rw [hvariant, Bool.or_true]
    · rw [hhex₄ c hc, Bool.true_or]
    · rw [hhex₅ c hc, Bool.true_or]

/-- **What `uuidPattern` matches is parsed**, and has nothing to trim. -/
theorem parse_of_isUuid {s : String} (h : isUuid s = true) :
    (UUID.parse s).isSome ∧ trimSpace s = s := by
  obtain ⟨g₁, g₂, g₃, g₄, g₅, hs, ⟨h₁, h₂, h₃, h₄, h₅⟩, hhex⟩ := groups_of_isUuid h
  have hchars : ∀ c ∈ s.toList, c.toNat < 128 ∧ isSpace c = false := by
    intro c hc
    by_cases hdash : c = '-'
    · subst hdash
      decide
    · have hmem : c ∈ g₁ ++ g₂ ++ g₃ ++ g₄ ++ g₅ := by
        rw [hs] at hc
        simp only [List.mem_append, List.mem_cons, hdash, false_or] at hc ⊢
        tauto
      exact ⟨(hhex c hmem).1, (hhex c hmem).2.2⟩
  refine ⟨?_, trimSpace_eq_self fun c hc => (hchars c hc).2⟩
  obtain ⟨ds, hds, hlength⟩ := hexValues_isSome fun c hc => (hhex c hc).2.1
  have hascii : s.toList.any (fun c => 0x80 ≤ c.toNat) = false := by
    rw [List.any_eq_false]
    intro c hc
    have := (hchars c hc).1
    simp only [decide_eq_true_eq]
    omega
  have hthirtySix : s.toList.length = 36 := by
    rw [hs]
    simp [h₁, h₂, h₃, h₄, h₅]
  have hdigits : ds.length = 32 := by
    rw [hlength]
    simp [h₁, h₂, h₃, h₄, h₅]
  simp only [UUID.parse, hascii, Bool.false_eq_true, if_false, hthirtySix, if_true]
  rw [hs, UUID.parseDashed_groups h₁ h₂ h₃ h₄ h₅, hds, Option.bind_some, UUID.ofDigits?,
    dif_pos hdigits]
  rfl

end Iwifunni.Web
