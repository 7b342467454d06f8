/-
Iwifunni/Web/Sms.lean

The counter of SMS segments (`utils/sms.ts`).

A message of one SMS has 160 septets or 70 UTF-16 units, the parts of a longer one have 153 or
67.  A character of the extension table of GSM 03.38 takes two septets, as it is sent after an
escape.  The counter takes the length of the string, so a message with characters of the table
is counted right if these fit in the room its length leaves (`counted_iff`).  And the class of
the counter is the alphabet without the currency sign and the form feed (`mem_gsm7Class`).
-/
import Mathlib.Data.Bool.AllAny
import Iwifunni.Web.SubscriberForm

namespace Iwifunni.Web

/-! ### The counter -/

/-- The coding of a message. -/
inductive SmsCharset
  | gsm7
  | ucs2
  deriving DecidableEq

/-- The characters of `gsm7Regex`, without letters and digits. -/
def gsm7Marks : List Char :=
  [' ', '\r', '\n', '@', '£', '$', '¥', 'è', 'é', 'ù', 'ì', 'ò', 'Ç', 'Ø', 'ø', 'Å', 'å', 'Δ',
    '_', 'Φ', 'Γ', 'Λ', 'Ω', 'Π', 'Ψ', 'Σ', 'Θ', 'Ξ', 'Æ', 'æ', 'ß', 'É', '!', '"', '#', '$',
    '%', '&', '\'', '(', ')', '*', '+', ',', '-', '.', '/', ':', ';', '<', '=', '>', '?', '¡',
    '¿', 'Ä', 'Ö', 'Ñ', 'Ü', '§', '¿', 'ä', 'ö', 'ñ', 'ü', 'à', '^', '\x7b', '\x7d', '\\', '[',
    '~', ']', '|', '€', ' ']

/-- The class of `gsm7Regex`. -/
def gsm7Class (c : Char) : Bool := c.isAlphanum || gsm7Marks.contains c

/-- `getSmsCharset`. -/
def getSmsCharset (text : String) : SmsCharset :=
  if text.toList.all gsm7Class then .gsm7 else .ucs2

/-- `calcSegments`. -/
def calcSegments (chars perSegment multiPerSegment : ℕ) : ℕ :=
  if chars = 0 then 0
  else if chars ≤ perSegment then 1
  else (chars + multiPerSegment - 1) / multiPerSegment

/-- `SmsSegmentInfo`. -/
structure SmsSegmentInfo where
  chars : ℕ
  segments : ℕ
  perSegment : ℕ
  charset : SmsCharset

/-- `getSmsSegmentInfo`. -/
def getSmsSegmentInfo (text : String) : SmsSegmentInfo :=
  let charset := getSmsCharset text
  let perSegment := if charset = .gsm7 then 160 else 70
  let multiPerSegment := if charset = .gsm7 then 153 else 67
  let chars := utf16Length text
  { chars := chars
    segments := calcSegments chars perSegment multiPerSegment
    perSegment := perSegment
    charset := charset }

/-! ### GSM 03.38 -/

/-- The default alphabet of GSM 03.38, without letters and digits. -/
def gsmMarks : List Char :=
  ['@', '£', '$', '¥', 'è', 'é', 'ù', 'ì', 'ò', 'Ç', '\n', 'Ø', 'ø', '\r', 'Å', 'å',
    'Δ', '_', 'Φ', 'Γ', 'Λ', 'Ω', 'Π', 'Ψ', 'Σ', 'Θ', 'Ξ', 'Æ', 'æ', 'ß', 'É',
    ' ', '!', '"', '#', '¤', '%', '&', '\'', '(', ')', '*', '+', ',', '-', '.', '/',
    ':', ';', '<', '=', '>', '?', '¡', 'Ä', 'Ö', 'Ñ', 'Ü', '§', '¿', 'ä', 'ö', 'ñ', 'ü', 'à']

/-- The extension table. -/
def gsmExtension : List Char := ['\x0c', '^', '\x7b', '\x7d', '\\', '[', '~', ']', '|', '€']

/-- A character of the default alphabet. -/
def inDefaultAlphabet (c : Char) : Bool := c.isAlphanum || gsmMarks.contains c

/-- A character with a code, of one septet or, in the extension table, of two. -/
def inGsm (c : Char) : Bool := inDefaultAlphabet c || gsmExtension.contains c

/-- The septets of a character. -/
def septets (c : Char) : ℕ := if gsmExtension.contains c then 2 else 1

/-- The length of a message as it is sent. -/
def encodedLength (text : String) : ℕ :=
  if text.toList.all inGsm then (text.toList.map septets).sum else utf16Length text

/-- The segments the networks count. -/
def networkSegments (text : String) : ℕ :=
  if text = "" then 0
  else if text.toList.all inGsm then
    if encodedLength text ≤ 160 then 1 else (encodedLength text + 152) / 153
  else if encodedLength text ≤ 70 then 1 else (encodedLength text + 66) / 67

/-- The counter agrees with the networks. -/
structure Counted (text : String) : Prop where
  charset : getSmsCharset text = .gsm7 ↔ ∀ c ∈ text.toList, inGsm c = true
  segments : (getSmsSegmentInfo text).segments = networkSegments text

/-- The septets a text of that many septets leaves in its last segment. -/
def room (n : ℕ) : ℕ := if n ≤ 160 then 160 - n else (153 - n % 153) % 153

/-! ### The class is the alphabet, but for two characters -/

/-- **The class of the counter** lacks the currency sign and the form feed. -/
theorem gsm7Class_iff (c : Char) :
    gsm7Class c = true ↔ inGsm c = true ∧ c ≠ '¤' ∧ c ≠ '\x0c' := by
  have hmarks : ∀ c ∈ gsm7Marks, inGsm c = true ∧ c ≠ '¤' ∧ c ≠ '\x0c' :=
    List.all_iff_forall_prop.mp (by decide +kernel)
  have hgsm : ∀ c ∈ gsmMarks ++ gsmExtension, c = '¤' ∨ c = '\x0c' ∨ c ∈ gsm7Marks :=
    List.all_iff_forall_prop.mp (by decide +kernel)
  by_cases halnum : c.isAlphanum = true
  · refine iff_of_true ?_ ⟨?_, ?_, ?_⟩
    · simp [gsm7Class, halnum]
    · simp [inGsm, inDefaultAlphabet, halnum]
    -- neither sign is a letter or a digit
    · rintro rfl
      cases halnum
    · rintro rfl
      cases halnum
  · have hclass : gsm7Class c = true ↔ c ∈ gsm7Marks := by simp [gsm7Class, halnum]
    have hin : inGsm c = true ↔ c ∈ gsmMarks ++ gsmExtension := by
      simp [inGsm, inDefaultAlphabet, halnum]
    rw [hclass]
    constructor
    · exact hmarks c
    · rintro ⟨hc, hcurrency, hfeed⟩
      rcases hgsm c (hin.mp hc) with h | h | h
      · exact absurd h hcurrency
      · exact absurd h hfeed
      · exact h

/-- The alphabet is in the first plane. -/
theorem toNat_lt_of_inGsm {c : Char} (h : inGsm c = true) : c.toNat < 0x10000 := by
  have hmarks : ∀ c ∈ gsmMarks ++ gsmExtension, c.toNat < 0x10000 :=
    List.all_iff_forall_prop.mp (by decide +kernel)
  by_cases halnum : c.isAlphanum = true
  · have hbelow : ∀ {high : UInt32}, c.val ≤ high → high.toNat < 0x10000 → c.toNat < 0x10000 :=
      fun hle hhigh => lt_of_le_of_lt (UInt32.le_iff_toNat_le.mp hle) hhigh
    rcases (Bool.or_eq_true _ _).mp halnum with halpha | hdigit
    · rcases (Bool.or_eq_true _ _).mp halpha with hupper | hlower
      · exact hbelow (of_decide_eq_true hupper).2 (by decide)
      · exact hbelow (of_decide_eq_true (Bool.and_eq_true_iff.mp hlower).2) (by decide)
    · exact hbelow (of_decide_eq_true (Bool.and_eq_true_iff.mp hdigit).2) (by decide)
  · exact hmarks c (by simpa [inGsm, inDefaultAlphabet, halnum] using h)

/-! ### Lengths -/

/-- The characters with a code are one unit each. -/
theorem utf16Length_of_inGsm {text : String} (h : ∀ c ∈ text.toList, inGsm c = true) :
    utf16Length text = text.toList.length := by
  have hone : text.toList.map (fun c => if c.toNat < 0x10000 then 1 else 2) =
      text.toList.map fun _ => 1 :=
    List.map_congr_left fun c hc => if_pos (toNat_lt_of_inGsm (h c hc))
  unfold utf16Length
  rw [hone]
  simp

theorem sum_septets (cs : List Char) :
    (cs.map septets).sum = cs.length + cs.countP gsmExtension.contains := by
  induction cs with
  | nil => rfl
  | cons c cs ih =>
      rw [List.map_cons, List.sum_cons, ih, List.length_cons, List.countP_cons, septets]
      split <;> omega

/-- The segments do not change with what is put in the room that is left. -/
theorem calcSegments_eq_iff {n : ℕ} (e : ℕ) (hn : n ≠ 0) :
    calcSegments n 160 153 = (if n + e ≤ 160 then 1 else (n + e + 152) / 153) ↔ e ≤ room n := by
  unfold calcSegments room
  rw [if_neg hn]
  split
  · split <;> omega
  · rw [if_neg (by omega)]
    omega

theorem utf16Length_pos {text : String} {c : Char} (h : c ∈ text.toList) :
    0 < utf16Length text := by
  refine List.sum_pos_iff_exists_pos_nat.mpr ⟨_, List.mem_map_of_mem h, ?_⟩
  split <;> decide

/-! ### The counter and the networks -/

theorem getSmsCharset_eq_iff (text : String) :
    getSmsCharset text = .gsm7 ↔ ∀ c ∈ text.toList, gsm7Class c = true := by
  unfold getSmsCharset
  rw [← List.all_eq_true]
  split
  · next h => exact iff_of_true rfl h
  · next h => exact iff_of_false (fun heq => by cases heq) h

theorem segments_of_gsm7 {text : String} (h : getSmsCharset text = .gsm7) :
    (getSmsSegmentInfo text).segments = calcSegments (utf16Length text) 160 153 := by
  simp [getSmsSegmentInfo, h]

theorem segments_of_ucs2 {text : String} (h : getSmsCharset text ≠ .gsm7) :
    (getSmsSegmentInfo text).segments = calcSegments (utf16Length text) 70 67 := by
  simp [getSmsSegmentInfo, h]

/-- What is counted for a text of characters with a code. -/
theorem networkSegments_of_inGsm {text : String} (hgsm : ∀ c ∈ text.toList, inGsm c = true)
    (hne : text ≠ "") :
    networkSegments text =
      if text.toList.length + text.toList.countP gsmExtension.contains ≤ 160 then 1
      else (text.toList.length + text.toList.countP gsmExtension.contains + 152) / 153 := by
  have hall : text.toList.all inGsm = true := List.all_eq_true.mpr hgsm
  unfold networkSegments encodedLength
  rw [if_neg hne, if_pos hall, if_pos hall, sum_septets]

/-- A text with another character is counted in units. -/
theorem counted_of_not_inGsm {text : String} {c : Char} (hc : c ∈ text.toList)
    (h : inGsm c = false) : Counted text := by
  have hall : ¬ ∀ c ∈ text.toList, inGsm c = true := fun hgsm => by
    rw [hgsm c hc] at h
    cases h
  have hcharset : getSmsCharset text ≠ .gsm7 := fun heq =>
    hall fun c hc => ((gsm7Class_iff c).mp ((getSmsCharset_eq_iff text).mp heq c hc)).1
  refine ⟨iff_of_false hcharset hall, ?_⟩
  have hpos := utf16Length_pos hc
  have hne : text ≠ "" := by
    rintro rfl
    cases hc
  have hall' : ¬ text.toList.all inGsm = true := fun hgsm => hall (List.all_eq_true.mp hgsm)
  rw [segments_of_ucs2 hcharset, networkSegments, encodedLength, calcSegments,
    if_neg hpos.ne', if_neg hne, if_neg hall', if_neg hall']
  rfl

/-- **The counter agrees with the networks exactly if** a character has no code, or neither of
the two signs is there and the extension characters fit in the room that is left. -/
theorem counted_iff (text : String) :
    Counted text ↔ (∃ c ∈ text.toList, inGsm c = false) ∨
      (∀ c ∈ text.toList, c ≠ '¤' ∧ c ≠ '\x0c') ∧
        text.toList.countP gsmExtension.contains ≤ room text.toList.length := by
  -- outside the alphabet both count UTF-16 units
  by_cases hother : ∃ c ∈ text.toList, inGsm c = false
  · obtain ⟨c, hc, h⟩ := hother
    exact iff_of_true (counted_of_not_inGsm hc h) (Or.inl ⟨c, hc, h⟩)
  rw [or_iff_right hother]
  have hgsm : ∀ c ∈ text.toList, inGsm c = true := fun c hc => by
    by_contra h
    exact hother ⟨c, hc, Bool.eq_false_iff.mpr h⟩
  have hcharset : getSmsCharset text = .gsm7 ↔ ∀ c ∈ text.toList, c ≠ '¤' ∧ c ≠ '\x0c' := by
    rw [getSmsCharset_eq_iff]
    exact forall₂_congr fun c hc => (gsm7Class_iff c).trans (and_iff_right (hgsm c hc))
  -- inside it the signs of the extension count twice, which needs room
  have hsegments : getSmsCharset text = .gsm7 →
      ((getSmsSegmentInfo text).segments = networkSegments text ↔
        text.toList.countP gsmExtension.contains ≤ room text.toList.length) := by
    intro h
    rw [segments_of_gsm7 h, utf16Length_of_inGsm hgsm]
    by_cases hne : text = ""
    · subst hne
      exact iff_of_true rfl (Nat.zero_le _)
    · rw [networkSegments_of_inGsm hgsm hne]
      refine calcSegments_eq_iff _ fun hlength => hne ?_
      exact String.toList_eq_nil_iff.mp (List.eq_nil_of_length_eq_zero hlength)
  constructor
  · intro h
    have hgsm7 := h.charset.mpr hgsm
    exact ⟨hcharset.mp hgsm7, (hsegments hgsm7).mp h.segments⟩
  · rintro ⟨hsigns, hroom⟩
    have hgsm7 := hcharset.mpr hsigns
    exact ⟨iff_of_true hgsm7 hgsm, (hsegments hgsm7).mpr hroom⟩

/-- A text of 159 letters and a euro sign takes 161 septets. -/
theorem not_counted : ¬ Counted (String.ofList ('€' :: List.replicate 159 'a')) := by
  intro h
  exact absurd h.segments (by decide +kernel)

end Iwifunni.Web
