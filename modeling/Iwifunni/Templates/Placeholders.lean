/-
Iwifunni/Templates/Placeholders.lean

What the renderer does with text, and with placeholders that have a dotted path.

    text {{a.b}} text   -->   text {{.a.b}} text   -->   [text, field a b, text]

Text goes through both stages as it is, as long as it has no two opening braces in a row.
One brace at its end is enough to spoil the placeholder after it: the rewriting still finds
the placeholder, but the lexer takes the first two of the three braces.
-/
import Mathlib.Data.List.TakeWhile
import Iwifunni.Templates.Renderer
import Iwifunni.Text.Replace

namespace Iwifunni.Templates

open Go

/-- Text without an opening pair of braces. -/
structure Literal where
  text : List Char
  plain : ¬ ['{', '{'] <:+: text

/-- No text. -/
def noText : Literal := ⟨[], by simp⟩

/-- Text before a placeholder: the pair of braces is the one of the placeholder, or it starts
with the last character of the text. -/
theorem Literal.before_placeholder (l : Literal) : ¬ ['{', '{'] <:+: l.text ++ ['{'] ∨
    ∃ front, l.text = front ++ ['{'] ∧ ¬ ['{', '{'] <:+: front ++ ['{'] := by
  rcases List.eq_nil_or_concat l.text with hnil | ⟨front, last, hlast⟩
  · left
    rw [hnil]
    decide
  · rw [List.concat_eq_append] at hlast
    by_cases hc : last = '{'
    · right
      subst hc
      exact ⟨front, hlast, hlast ▸ l.plain⟩
    · left
      rintro ⟨pre, post, h⟩
      rcases List.eq_nil_or_concat post with rfl | ⟨post, x, rfl⟩
      · rw [List.append_nil, hlast] at h
        have hfront : pre ++ ['{'] = front ++ [last] := by
          have hpair : (pre ++ ['{']) ++ ['{'] = (front ++ [last]) ++ ['{'] := by
            rw [← h, List.append_assoc]
            rfl
          exact (List.append_inj' hpair rfl).1
        exact hc (List.cons.inj (List.append_inj' hfront rfl).2).1.symm
      · rw [List.concat_eq_append, ← List.append_assoc] at h
        exact l.plain ⟨pre, post, (List.append_inj' h rfl).1⟩

/-! ### Dotted paths -/

/-- The fields of a path. -/
def namesOf (path : List Char) : List String := (path.splitOn '.').map String.ofList

/-- An element of a list is a separator, or in one of the parts. -/
theorem mem_splitOn {α : Type} [BEq α] [LawfulBEq α] {a c : α} {xs : List α} (h : c ∈ xs) :
    c = a ∨ ∃ part ∈ xs.splitOn a, c ∈ part := by
  induction xs with
  | nil => cases h
  | cons x xs ih =>
      rw [List.splitOn_cons_eq_if_modifyHead]
      by_cases hx : x == a
      · rw [if_pos hx]
        rcases List.mem_cons.mp h with rfl | h
        · exact Or.inl (eq_of_beq hx)
        · exact (ih h).imp_right fun ⟨part, hpart, hc⟩ => ⟨part, List.mem_cons_of_mem _ hpart, hc⟩
      · rw [if_neg hx]
        obtain ⟨first, rest, hsplit⟩ := List.exists_cons_of_ne_nil (List.splitOn_ne_nil a xs)
        rw [hsplit] at ih ⊢
        rw [List.modifyHead_cons]
        rcases List.mem_cons.mp h with rfl | h
        · exact Or.inr ⟨c :: first, List.mem_cons_self .., List.mem_cons_self ..⟩
        · refine (ih h).imp_right fun ⟨part, hpart, hc⟩ => ?_
          rcases List.mem_cons.mp hpart with rfl | hpart
          · exact ⟨x :: part, List.mem_cons_self .., List.mem_cons_of_mem _ hc⟩
          · exact ⟨part, List.mem_cons_of_mem _ hpart, hc⟩

/-- The characters of a dotted path. -/
def isPathPart (c : Char) : Bool := isIdentPart c || c == '.'

/-- They are neither braces nor white space of any kind. -/
theorem isPathPart_spec {c : Char} (h : isPathPart c = true) :
    c ≠ '{' ∧ c ≠ '}' ∧ isBlank c = false ∧ isSpace c = false := by
  have hcode : 46 ≤ c.toNat ∧ c.toNat ≤ 122 := by
    simp only [isPathPart, isIdentPart, isIdentStart, Bool.or_eq_true, Bool.and_eq_true,
      decide_eq_true_eq, beq_iff_eq, Char.le_def, UInt32.le_iff_toNat_le] at h
    rcases h with (((h | h) | rfl) | h) | rfl
    · exact ⟨le_trans (by decide) h.1, h.2⟩
    · exact ⟨le_trans (by decide) h.1, le_trans h.2 (by decide)⟩
    · decide
    · exact ⟨le_trans (by decide) h.1, le_trans h.2 (by decide)⟩
    · decide
  have hne : ∀ d : Char, d.toNat < 46 ∨ 122 < d.toNat → c ≠ d := by
    rintro d hd rfl
    omega
  refine ⟨hne _ (by decide), hne _ (by decide), ?_, ?_⟩
  · simp [isBlank, hne]
  · simp only [isSpace, Bool.or_eq_false_iff, Bool.and_eq_false_iff, decide_eq_false_iff_not,
      beq_eq_false_iff_ne]
    omega

section DotPath

variable {path : List Char}

theorem parts_of_isDotPath (h : isDotPath path = true) :
    ∀ part ∈ path.splitOn '.', ((part.head?.any isIdentStart) && part.all isIdentPart) = true := by
  rw [isDotPath, Bool.and_eq_true] at h
  exact List.all_eq_true.mp h.2

theorem isPathPart_of_mem (h : isDotPath path = true) : ∀ c ∈ path, isPathPart c = true := by
  intro c hc
  rcases mem_splitOn (a := '.') hc with rfl | ⟨part, hpart, hmem⟩
  · rfl
  · have hpart := parts_of_isDotPath h part hpart
    rw [Bool.and_eq_true] at hpart
    rw [isPathPart, List.all_eq_true.mp hpart.2 c hmem, Bool.true_or]

theorem ne_nil_of_isDotPath (h : isDotPath path = true) : path ≠ [] := by
  rintro rfl
  cases h

end DotPath

/-! ### Rewriting -/

/-- The renderer replaces as other patterns are replaced. -/
theorem replaceAll_eq (skip : ℕ) (cs : List Char) :
    replaceAll skip cs = Replace.replaceAll dotNotation skip cs := by
  induction cs generalizing skip with
  | nil => rfl
  | cons c cs ih =>
      cases skip with
      | succ n => exact ih n
      | zero =>
          rw [replaceAll, Replace.replaceAll]
          rcases dotNotation (c :: cs) with - | ⟨replacement, n⟩
          · exact congrArg (c :: ·) (ih 0)
          · exact congrArg (replacement ++ ·) (ih (n - 1))

theorem dotNotation_eq_none {cs : List Char} (h : cs.take 2 ≠ ['{', '{']) :
    dotNotation cs = none :=
  if_neg h

/-- Three braces are no placeholder. -/
theorem dotNotation_brace (cs : List Char) : dotNotation ('{' :: '{' :: '{' :: cs) = none := rfl

/-- Text is left alone. -/
theorem replaceAll_literal (cs : List Char) (hcs : dotNotation ('{' :: cs) = none)
    (l : List Char) (hl : ¬ ['{', '{'] <:+: l) :
    replaceAll 0 (l ++ cs) = l ++ replaceAll 0 cs := by
  rw [replaceAll_eq, replaceAll_eq]
  refine Replace.replaceAll_literal fun s hs hne => ?_
  cases s with
  | nil => exact absurd rfl hne
  | cons c s =>
      cases s with
      | nil =>
          by_cases hc : c = '{'
          · rw [hc]
            exact hcs
          · exact dotNotation_eq_none fun h => hc (List.cons.inj h).1
      | cons c' s =>
          refine dotNotation_eq_none fun h => hl ?_
          obtain ⟨hc, htail⟩ := List.cons.inj h
          rw [hc, (List.cons.inj htail).1] at hs
          exact (List.prefix_append ['{', '{'] s).isInfix.trans hs.isInfix

/-- A placeholder gets its dot. -/
theorem dotNotation_dotPath {path : List Char} (h : isDotPath path = true) (cs : List Char) :
    dotNotation (['{', '{'] ++ path ++ ['}', '}'] ++ cs) =
      some (['{', '{', '.'] ++ path ++ ['}', '}'], (['{', '{'] ++ path ++ ['}', '}']).length) := by
  have hpart := isPathPart_of_mem h
  have hfirst : (path ++ '}' :: '}' :: cs).takeWhile isBlank = [] ∧
      (path ++ '}' :: '}' :: cs).dropWhile isBlank = path ++ '}' :: '}' :: cs := by
    obtain ⟨c, rest, rfl⟩ := List.exists_cons_of_ne_nil (ne_nil_of_isDotPath h)
    have hblank := (isPathPart_spec (hpart c (List.mem_cons_self ..))).2.2.1
    simp [hblank]
  have htake : (path ++ '}' :: '}' :: cs).takeWhile isPathPart = path := by
    rw [List.takeWhile_append_of_pos hpart]
    simp [isPathPart, isIdentPart, isIdentStart]
  have hdrop : (path ++ '}' :: '}' :: cs).dropWhile isPathPart = '}' :: '}' :: cs := by
    rw [List.dropWhile_append_of_pos hpart]
    simp [isPathPart, isIdentPart, isIdentStart]
  have htext : ['{', '{'] ++ path ++ ['}', '}'] ++ cs = '{' :: '{' :: (path ++ '}' :: '}' :: cs) := by
    simp
  rw [htext, dotNotation, if_pos (show List.take 2 _ = ['{', '{'] from rfl)]
  show (let before := (path ++ '}' :: '}' :: cs).takeWhile isBlank
    let rest := (path ++ '}' :: '}' :: cs).dropWhile isBlank
    let path := rest.takeWhile isPathPart
    let rest := rest.dropWhile isPathPart
    let after := rest.takeWhile isBlank
    let rest := rest.dropWhile isBlank
    if isDotPath path && rest.take 2 == ['}', '}'] then
      some (['{', '{'] ++ before ++ ['.'] ++ path ++ after ++ ['}', '}'],
        2 + before.length + path.length + after.length + 2)
    else none) = _
  simp only [hfirst, htake, hdrop]
  simp [h, isBlank]
  omega

theorem replaceAll_dotPath {path : List Char} (h : isDotPath path = true) (cs : List Char) :
    replaceAll 0 (['{', '{'] ++ path ++ ['}', '}'] ++ cs) =
      ['{', '{', '.'] ++ path ++ ['}', '}'] ++ replaceAll 0 cs := by
  rw [replaceAll_eq, replaceAll_eq]
  exact Replace.replaceAll_match (by simp) (dotNotation_dotPath h cs)

/-! ### Parsing -/

theorem parse_char {c : Char} {cs : List Char} (h : ¬ ['{', '{'] <+: c :: cs) (acc : List Char) :
    parse false acc (c :: cs) = parse false (acc ++ [c]) cs := by
  rw [parse]
  rintro rest rfl rfl
  exact h (List.prefix_append ['{', '{'] rest)

/-- Text up to the next pair of braces. -/
theorem parse_text (l : List Char) (hl : ¬ ['{', '{'] <:+: l ++ ['{']) (acc cs : List Char) :
    parse false acc (l ++ '{' :: '{' :: cs) = (parse true [] cs).map (.text (acc ++ l) :: ·) := by
  induction l generalizing acc with
  | nil => rw [List.append_nil, List.nil_append, parse]
  | cons c l ih =>
      have hrest : ¬ ['{', '{'] <:+: l ++ ['{'] :=
        fun h => hl (h.trans (List.suffix_cons c _).isInfix)
      have hpair : ¬ ['{', '{'] <+: c :: (l ++ '{' :: '{' :: cs) :=
        Replace.not_prefix_of_plain hl (List.suffix_refl (c :: l)) (List.cons_ne_nil _ _)
      rw [List.cons_append, parse_char hpair, ih hrest, List.append_assoc]
      rfl

/-- Text at the end. -/
theorem parse_text_end (l : List Char) (hl : ¬ ['{', '{'] <:+: l) (acc : List Char) :
    parse false acc l = .ok [.text (acc ++ l)] := by
  induction l generalizing acc with
  | nil => rw [List.append_nil, parse]
  | cons c l ih =>
      have hrest : ¬ ['{', '{'] <:+: l := fun h => hl (h.trans (List.suffix_cons c l).isInfix)
      rw [parse_char (fun h => hl h.isInfix), ih hrest, List.append_assoc]
      rfl

/-- The inside of an action, up to the next closing brace. -/
theorem parse_inside (content : List Char) (h : '}' ∉ content) (acc cs : List Char) :
    parse true acc (content ++ '}' :: cs) = parse true (acc ++ content) ('}' :: cs) := by
  induction content generalizing acc with
  | nil => rw [List.append_nil, List.nil_append]
  | cons c content ih =>
      rw [List.mem_cons, not_or] at h
      have hchar : parse true acc (c :: (content ++ '}' :: cs)) =
          parse true (acc ++ [c]) (content ++ '}' :: cs) := by
        rw [parse]
        rintro rest rfl
        exact absurd rfl h.1
      rw [List.cons_append, hchar, ih h.2, List.append_assoc]
      rfl

/-- There is nothing to trim. -/
theorem dropWhile_space {cs : List Char} (h : ∀ c ∈ cs, isBlank c = false) :
    cs.dropWhile (fun c => c == ' ' || c == '\t' || c == '\n' || c == '\r') = cs := by
  rcases cs with - | ⟨c, cs⟩
  · rfl
  · have hblank := h c (List.mem_cons_self ..)
    simp only [isBlank, Bool.or_eq_false_iff] at hblank
    refine List.dropWhile_cons_of_neg ?_
    simp [hblank.1.1.1.1, hblank.1.1.1.2, hblank.1.1.2, hblank.2]

theorem isBlank_of_mem {path : List Char} (h : isDotPath path = true) :
    ∀ c ∈ '.' :: path, isBlank c = false := by
  intro c hc
  rcases List.mem_cons.mp hc with rfl | hc
  · rfl
  · exact (isPathPart_spec (isPathPart_of_mem h c hc)).2.2.1

/-- A dotted path after a dot is a chain of fields. -/
theorem action_dotPath {path : List Char} (h : isDotPath path = true) :
    action ('.' :: path) = .ok (namesOf path) := by
  have hblank := isBlank_of_mem h
  have hparts : (path.splitOn '.').all (fun part =>
      (part.head?.any isIdentStart) && part.all isIdentPart) = true :=
    List.all_eq_true.mpr (parts_of_isDotPath h)
  simp only [action]
  rw [dropWhile_space hblank, dropWhile_space fun c hc => hblank c (List.mem_reverse.mp hc),
    List.reverse_reverse]
  exact if_pos hparts

/-- After a brace it is nothing. -/
theorem action_brace {path : List Char} (h : isDotPath path = true) :
    action ('{' :: '.' :: path) = .error .malformed := by
  have hblank : ∀ c ∈ '{' :: '.' :: path, isBlank c = false := by
    intro c hc
    rcases List.mem_cons.mp hc with rfl | hc
    · rfl
    · exact isBlank_of_mem h c hc
  simp only [action]
  rw [dropWhile_space hblank, dropWhile_space fun c hc => hblank c (List.mem_reverse.mp hc),
    List.reverse_reverse]
  rfl

theorem closing_notMem {path : List Char} (h : isDotPath path = true) : '}' ∉ path :=
  fun hmem => (isPathPart_spec (isPathPart_of_mem h _ hmem)).2.1 rfl

theorem parse_dotPath {path : List Char} (h : isDotPath path = true) (cs : List Char) :
    parse true [] ('.' :: path ++ '}' :: '}' :: cs) =
      (parse false [] cs).map (.field (namesOf path) :: ·) := by
  rw [parse_inside _ (by simp [closing_notMem h]), List.nil_append, parse, action_dotPath h]

/-- After a brace it cannot be parsed. -/
theorem parse_dotPath_brace {path : List Char} (h : isDotPath path = true) (cs : List Char) :
    parse true [] ('{' :: ('.' :: path ++ '}' :: '}' :: cs)) = .error .malformed := by
  rw [← List.cons_append, parse_inside _ (by simp [closing_notMem h]), List.nil_append, parse,
    action_brace h]

end Iwifunni.Templates
