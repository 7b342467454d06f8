/-
Iwifunni/Go/Lines.lean

Reading a text line by line, and a message with a header.

Lines end in CRLF; a lenient reader also takes a lone LF, as `net/textproto` does.  A
header is a sequence of lines up to the first empty one, and its fields are of the form
"Name: value".

What a reader takes for a line has no line break (`clean_of_breakLine`), and a text without
a line break is read back as it was written (`breakLine_append`).
-/
import Mathlib.Data.List.Infix

namespace Iwifunni.Go

variable {lenient : Bool}

/-- What follows the line break a text starts with. -/
def afterBreak (lenient : Bool) : List Char → Option (List Char)
  | '\r' :: '\n' :: rest => some rest
  | '\n' :: rest => if lenient then some rest else none
  | _ => none

/-- The first line of a text, and what follows it. -/
def breakLine (lenient : Bool) : List Char → Option (List Char × List Char)
  | [] => none
  | c :: cs =>
      match afterBreak lenient (c :: cs) with
      | some rest => some ([], rest)
      | none => (breakLine lenient cs).map fun p => (c :: p.1, p.2)

/-- No line break is in the text. -/
def Clean (lenient : Bool) (text : List Char) : Prop :=
  ∀ s t, text = s ++ t → afterBreak lenient t = none

/-! ### Line breaks -/

/-- There is no line break here. -/
theorem afterBreak_cons_eq_none {c : Char} {cs : List Char} :
    afterBreak lenient (c :: cs) = none ↔
      ¬ (c = '\r' ∧ cs.head? = some '\n') ∧ ¬ (c = '\n' ∧ lenient = true) := by
  by_cases hcr : c = '\r'
  · subst hcr
    rcases cs with - | ⟨d, ds⟩
    · simp [afterBreak]
    · by_cases hlf : d = '\n'
      · simp [afterBreak, hlf]
      · simp [afterBreak, hlf]
  · by_cases hlf : c = '\n'
    · subst hlf
      cases lenient <;> simp [afterBreak]
    · simp [afterBreak, hcr, hlf]

/-- Whether a text starts with a line break is said by its first two characters. -/
theorem afterBreak_of_head {c : Char} {cs ds : List Char} (h : afterBreak lenient (c :: cs) = none)
    (hhead : ds.head? = some '\n' → cs.head? = some '\n') :
    afterBreak lenient (c :: ds) = none := by
  rw [afterBreak_cons_eq_none] at h ⊢
  exact ⟨fun hcr => h.1 ⟨hcr.1, hhead hcr.2⟩, h.2⟩

theorem Clean.tail {c : Char} {cs : List Char} (h : Clean lenient (c :: cs)) : Clean lenient cs :=
  fun s t he => h (c :: s) t (by rw [he, List.cons_append])

theorem Clean.append_right {cs ds : List Char} (h : Clean lenient (cs ++ ds)) :
    Clean lenient ds :=
  fun s t he => h (cs ++ s) t (by rw [he, List.append_assoc])

theorem clean_cons {c : Char} {cs : List Char} (hc : afterBreak lenient (c :: cs) = none)
    (h : Clean lenient cs) : Clean lenient (c :: cs) := by
  intro s t he
  rcases s with - | ⟨d, s⟩
  · rw [← show c :: cs = t from he]
    exact hc
  · exact h s t (List.cons.inj he).2

/-- A line break is neither in a text nor in a prefix that has none: not across them. -/
theorem clean_append {cs ds : List Char} (hcs : Clean lenient cs) (hds : Clean lenient ds)
    (hlast : cs.getLast? ≠ some '\r') : Clean lenient (cs ++ ds) := by
  induction cs with
  | nil => exact hds
  | cons c cs ih =>
      rcases cs with - | ⟨d, cs⟩
      · refine clean_cons ?_ hds
        have hc := afterBreak_cons_eq_none.mp (hcs [] [c] rfl)
        exact afterBreak_cons_eq_none.mpr ⟨fun hcr => hlast (by rw [hcr.1]; rfl), hc.2⟩
      · refine clean_cons ?_ (ih hcs.tail (by simpa using hlast))
        exact afterBreak_of_head (hcs [] (c :: d :: cs) rfl) fun hhead => hhead

/-- A text without CR and LF. -/
theorem clean_of_notMem {text : List Char} (hcr : '\r' ∉ text) (hlf : '\n' ∉ text) :
    Clean lenient text := by
  rintro s (- | ⟨c, cs⟩) rfl
  · rfl
  · rw [afterBreak_cons_eq_none]
    constructor
    · rintro ⟨rfl, -⟩
      exact hcr (by simp)
    · rintro ⟨rfl, -⟩
      exact hlf (by simp)

/-! ### Lines -/

/-- What is read as a line has no line break. -/
theorem clean_of_breakLine {text line rest : List Char}
    (h : breakLine lenient text = some (line, rest)) : Clean lenient line ∧ line <+: text := by
  induction text generalizing line with
  | nil => cases h
  | cons c cs ih =>
      rw [breakLine] at h
      split at h
      · cases h
        refine ⟨fun s t he => ?_, List.nil_prefix⟩
        obtain ⟨-, rfl⟩ := List.append_eq_nil_iff.mp he.symm
        rfl
      · next hnone =>
        obtain ⟨⟨l, r⟩, hl, he⟩ := Option.map_eq_some_iff.mp h
        cases he
        obtain ⟨hclean, hprefix⟩ := ih hl
        refine ⟨clean_cons (afterBreak_of_head hnone fun hhead => ?_) hclean,
          List.cons_prefix_cons.mpr ⟨rfl, hprefix⟩⟩
        obtain ⟨tail, rfl⟩ := hprefix
        rcases l with - | ⟨d, l⟩
        · cases hhead
        · exact hhead

/-- A text without a line break is read back as a line. -/
theorem breakLine_append {text : List Char} (h : Clean lenient text) (rest : List Char) :
    breakLine lenient (text ++ '\r' :: '\n' :: rest) = some (text, rest) := by
  induction text with
  | nil => rfl
  | cons c cs ih =>
      have hnone : afterBreak lenient (c :: (cs ++ '\r' :: '\n' :: rest)) = none := by
        refine afterBreak_of_head (h [] (c :: cs) rfl) fun hhead => ?_
        rcases cs with - | ⟨d, cs⟩
        · simp at hhead
        · exact hhead
      rw [List.cons_append, breakLine, hnone]
      dsimp only
      rw [ih h.tail]
      rfl

/-! ### Messages -/

/-- A message is read: its header is the lines up to the first empty one, the body is what
follows. -/
inductive Reads (lenient : Bool) : List Char → List (List Char) → List Char → Prop
  | empty {text body} : breakLine lenient text = some ([], body) → Reads lenient text [] body
  | line {text line rest lines body} : breakLine lenient text = some (line, rest) → line ≠ [] →
      Reads lenient rest lines body → Reads lenient text (line :: lines) body

/-- No line of a header has a line break. -/
theorem Reads.clean {text body : List Char} {lines : List (List Char)}
    (h : Reads lenient text lines body) : ∀ line ∈ lines, Clean lenient line := by
  induction h with
  | empty => exact fun line hline => by cases hline
  | line hline _ _ ih =>
      exact List.forall_mem_cons.mpr ⟨(clean_of_breakLine hline).1, ih⟩

/-- The name and the value of a field. -/
def splitField : List Char → Option (List Char × List Char)
  | ':' :: ' ' :: value => some ([], value)
  | c :: cs => (splitField cs).map fun p => (c :: p.1, p.2)
  | [] => none

/-- A field is a name and a value. -/
theorem eq_of_splitField {text name value : List Char}
    (h : splitField text = some (name, value)) : text = name ++ ':' :: ' ' :: value := by
  induction text generalizing name with
  | nil => cases h
  | cons c cs ih =>
      rw [splitField.eq_def] at h
      split at h
      · next he =>
        cases h
        exact he
      · next he =>
        cases he
        obtain ⟨⟨n, v⟩, hn, he⟩ := Option.map_eq_some_iff.mp h
        cases he
        rw [ih hn, List.cons_append]
      · next he => cases he

theorem splitField_append {name : List Char} (h : ':' ∉ name) (value : List Char) :
    splitField (name ++ ':' :: ' ' :: value) = some (name, value) := by
  induction name with
  | nil => rfl
  | cons c cs ih =>
      have hc : c ≠ ':' := fun he => h (he ▸ List.mem_cons_self ..)
      rw [List.cons_append, splitField]
      · rw [ih fun hmem => h (List.mem_cons_of_mem _ hmem)]
        rfl
      · exact fun value he => absurd he hc

end Iwifunni.Go
