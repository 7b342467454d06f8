/-
Iwifunni/Templates/Previewed.lean

Rendering and preview of one text.

    text₀ {{path₁}} text₁ {{path₂}} ... textₙ

The renderer finds a placeholder with white space in it, the preview does not: it asks its
context for the path with the white space (`{{ a.b }}` is looked up as " a.b ").  And a
brace in front of a placeholder spoils it for both: the renderer refuses the text, and the
preview reads `{{{a.b}}` as a placeholder of "{a.b".  On all other texts the two agree, and
every placeholder stands for its value (`agrees_iff`).
-/
import Iwifunni.Templates.Placeholders
import Iwifunni.Web.Preview

namespace Iwifunni.Templates

open Go Web

/-! ### Texts with placeholders -/

/-- A placeholder, with white space around its path. -/
structure Placeholder where
  before : List Char
  path : List Char
  after : List Char
  dotted : isDotPath path = true
  blank : ∀ c ∈ before ++ after, isSpace c = true

namespace Placeholder

/-- What is between the braces. -/
def inside (p : Placeholder) : List Char := p.before ++ p.path ++ p.after

def chars (p : Placeholder) : List Char := ['{', '{'] ++ p.inside ++ ['}', '}']

end Placeholder

/-- Text, and the placeholder after it. -/
structure Piece where
  literal : Literal
  placeholder : Placeholder

/-- A text with placeholders. -/
structure Composition where
  pieces : List Piece
  last : Literal

/-- Nothing but the path is between the braces, and no brace stands in front of them. -/
structure Piece.Tight (p : Piece) : Prop where
  before : p.placeholder.before = []
  after : p.placeholder.after = []
  brace : p.literal.text.getLast? ≠ some '{'

/-- The text at the end of a path, if there is one. -/
def textAt (vars : List (String × Json)) (names : List String) : String :=
  match evalFields (.obj vars) names with
  | some (.str s) => s
  | _ => ""

namespace Composition

/-- The text, with something in place of the placeholders. -/
def spell (f : Piece → List Char) (c : Composition) : List Char :=
  c.pieces.flatMap (fun p => p.literal.text ++ f p) ++ c.last.text

def text (c : Composition) : String := String.ofList (c.spell fun p => p.placeholder.chars)

/-- The text, with its value in place of every placeholder. -/
def filled (c : Composition) (vars : List (String × Json)) : String :=
  String.ofList (c.spell fun p => (textAt vars (namesOf p.placeholder.path)).toList)

/-- Every path ends in a text. -/
def Resolves (c : Composition) (vars : List (String × Json)) : Prop :=
  ∀ p ∈ c.pieces, ∃ s, evalFields (.obj vars) (namesOf p.placeholder.path) = some (.str s)

def Tight (c : Composition) : Prop := ∀ p ∈ c.pieces, p.Tight

end Composition

/-- The flat context of a nested one: a dotted path as a key for the value at its end. -/
def flattened (vars : List (String × Json)) : Context :=
  fun key => evalFields (.obj vars) (namesOf key.toList)

/-- Rendered, as a subject and as a body, and in the preview, the text has its value in
place of every placeholder. -/
structure Agrees (tt : TextTemplate) (c : Composition) (vars : List (String × Json)) : Prop where
  rendered : render tt c.text c.text vars = .ok (c.filled vars, c.filled vars)
  previewed : resolveTemplateVariables c.text (flattened vars) = c.filled vars

/-! ### Rendering -/

section Rendering

variable {tt : TextTemplate} {vars : List (String × Json)}

theorem Piece.Tight.inside {p : Piece} (h : p.Tight) :
    p.placeholder.inside = p.placeholder.path := by
  rw [Placeholder.inside, h.before, h.after, List.nil_append, List.append_nil]

theorem plain_of_getLast? {l : Literal} (h : l.text.getLast? ≠ some '{') :
    ¬ ['{', '{'] <:+: l.text ++ ['{'] := by
  rcases l.before_placeholder with hplain | ⟨front, hfront, -⟩
  · exact hplain
  · refine absurd ?_ h
    rw [hfront, List.getLast?_concat]

/-- What a placeholder is rewritten to. -/
def Piece.dotted (p : Piece) : List Char := ['{', '{', '.'] ++ p.placeholder.path ++ ['}', '}']

/-- What a composition is parsed to. -/
def segments (ps : List Piece) (last : Literal) : List Segment :=
  ps.flatMap (fun p => [.text p.literal.text, .field (namesOf p.placeholder.path)]) ++
    [.text last.text]

theorem spell_cons (f : Piece → List Char) (p : Piece) (ps : List Piece) (last : Literal) :
    Composition.spell f ⟨p :: ps, last⟩ =
      p.literal.text ++ (f p ++ Composition.spell f ⟨ps, last⟩) := by
  simp [Composition.spell]

/-- The placeholders get their dots. -/
theorem replaceAll_tight {ps : List Piece} (h : ∀ p ∈ ps, p.Tight) (last : Literal) :
    replaceAll 0 (Composition.spell (fun p => p.placeholder.chars) ⟨ps, last⟩) =
      Composition.spell Piece.dotted ⟨ps, last⟩ := by
  induction ps with
  | nil =>
      have hlast : replaceAll 0 (last.text ++ []) = last.text ++ [] :=
        replaceAll_literal [] rfl last.text last.plain
      simpa [Composition.spell] using hlast
  | cons p ps ih =>
      have hinside := (h p (List.mem_cons_self ..)).inside
      have hbrace : ∀ cs, dotNotation ('{' :: (p.placeholder.chars ++ cs)) = none :=
        fun _ => dotNotation_brace _
      rw [spell_cons, spell_cons, replaceAll_literal _ (hbrace _) _ p.literal.plain,
        Placeholder.chars, hinside, replaceAll_dotPath p.placeholder.dotted,
        ih fun q hq => h q (List.mem_cons_of_mem _ hq)]
      rfl

/-- Then they are parsed. -/
theorem parse_tight {ps : List Piece} (h : ∀ p ∈ ps, p.Tight) (last : Literal) :
    parse false [] (Composition.spell Piece.dotted ⟨ps, last⟩) = .ok (segments ps last) := by
  induction ps with
  | nil =>
      have hlast := parse_text_end last.text last.plain []
      simpa [Composition.spell, segments] using hlast
  | cons p ps ih =>
      have htext : p.dotted ++ Composition.spell Piece.dotted ⟨ps, last⟩ =
          '{' :: '{' :: ('.' :: p.placeholder.path ++
            '}' :: '}' :: Composition.spell Piece.dotted ⟨ps, last⟩) := by
        simp [Piece.dotted]
      rw [spell_cons, htext, parse_text _ (plain_of_getLast? (h p (List.mem_cons_self ..)).brace),
        parse_dotPath p.placeholder.dotted, ih fun q hq => h q (List.mem_cons_of_mem _ hq)]
      rfl

/-- And the fields are looked up. -/
theorem execute_segments {ps : List Piece} {last : Literal} (tmpl : String)
    (h : Composition.Resolves ⟨ps, last⟩ vars) :
    execute tt tmpl vars (segments ps last) = .ok (Composition.filled ⟨ps, last⟩ vars) := by
  induction ps with
  | nil =>
      simp [segments, execute, Composition.filled, Composition.spell]
  | cons p ps ih =>
      obtain ⟨s, hs⟩ := h p (List.mem_cons_self ..)
      have hrest := ih fun q hq => h q (List.mem_cons_of_mem _ hq)
      have hsegments : segments (p :: ps) last = .text p.literal.text ::
          .field (namesOf p.placeholder.path) :: segments ps last := rfl
      simp only [hsegments, execute, hs, hrest, Composition.filled, spell_cons]
      have hvalue : textAt vars (namesOf p.placeholder.path) = s := by rw [textAt, hs]
      rw [hvalue, String.ofList_append, String.ofList_append, String.ofList_toList]
      rfl

/-- An empty text stays empty. -/
theorem filled_of_text_eq_empty {c : Composition} (h : c.text = "") : c.filled vars = "" := by
  have hchars : c.spell (fun p => p.placeholder.chars) = [] := by
    have hlist := congrArg String.toList h
    rwa [Composition.text, String.toList_ofList] at hlist
  obtain ⟨ps, last⟩ := c
  cases ps with
  | nil =>
      rw [Composition.filled]
      exact congrArg String.ofList hchars
  | cons p ps =>
      rw [spell_cons] at hchars
      simp [Placeholder.chars] at hchars

/-- **A tight text is rendered**, as a subject and as a body. -/
theorem render_tight {c : Composition} (htight : c.Tight) (h : c.Resolves vars) :
    render tt c.text c.text vars = .ok (c.filled vars, c.filled vars) := by
  have hprocessed : (preprocessDotNotation c.text).toList = c.spell Piece.dotted := by
    rw [preprocessDotNotation, Composition.text, String.toList_ofList, String.toList_ofList]
    exact replaceAll_tight htight c.last
  have hrender : renderString tt c.text vars = .ok (c.filled vars) := by
    simp only [renderString, hprocessed]
    rw [show parse false [] (c.spell Piece.dotted) = .ok (segments c.pieces c.last) from
      parse_tight htight c.last]
    exact execute_segments _ h
  rw [render, hrender]
  dsimp only
  split
  · next hempty =>
    -- a subject without text is not rendered, and would not be different
    rw [filled_of_text_eq_empty hempty]
  · rfl

end Rendering

/-! ### The preview -/

section Preview

variable {context : Context}

/-- The preview has no value for a placeholder, with a brace in front of it or without. -/
structure Piece.Kept (context : Context) (p : Piece) : Prop where
  brace : resolved context ('{' :: p.placeholder.inside) ('{' :: p.placeholder.chars) =
    '{' :: p.placeholder.chars
  plain : p.literal.text.getLast? ≠ some '{' →
    resolved context p.placeholder.inside p.placeholder.chars = p.placeholder.chars

theorem inside_ne_nil (p : Placeholder) : p.inside ≠ [] := by
  simp [Placeholder.inside, ne_nil_of_isDotPath p.dotted]

theorem closing_notMem_inside (p : Placeholder) : '}' ∉ p.inside := by
  intro h
  have hblank : '}' ∉ p.before ++ p.after := fun h => by cases p.blank _ h
  simp only [Placeholder.inside, List.mem_append, not_or] at h hblank
  rcases h with (h | h) | h
  · exact hblank.1 h
  · exact closing_notMem p.dotted h
  · exact hblank.2 h

/-- Text in front of a brace. -/
theorem preview_literal {l : List Char} (h : ¬ ['{', '{'] <:+: l ++ ['{']) (cs : List Char) :
    Replace.replaceAll (variablePattern context) 0 (l ++ '{' :: cs) =
      l ++ Replace.replaceAll (variablePattern context) 0 ('{' :: cs) :=
  Replace.replaceAll_literal fun _ hs hne =>
    variablePattern_eq_none (Replace.not_prefix_of_plain h hs hne)

/-- A placeholder, or what the preview takes for one. -/
theorem preview_placeholder {path : List Char} (hne : path ≠ []) (hpath : '}' ∉ path)
    (cs : List Char) :
    Replace.replaceAll (variablePattern context) 0 (['{', '{'] ++ path ++ ['}', '}'] ++ cs) =
      resolved context path (['{', '{'] ++ path ++ ['}', '}']) ++
        Replace.replaceAll (variablePattern context) 0 cs :=
  Replace.replaceAll_match (by simp) (variablePattern_path hne hpath cs)

/-- **The preview**: a tight placeholder is resolved, and one without a value is kept. -/
theorem preview_spell {f : Piece → List Char} {ps : List Piece} (last : Literal)
    (h : ∀ p ∈ ps, p.Tight ∧
        f p = resolved context p.placeholder.path p.placeholder.chars ∨
      p.Kept context ∧ f p = p.placeholder.chars) :
    Replace.replaceAll (variablePattern context) 0
        (Composition.spell (fun p => p.placeholder.chars) ⟨ps, last⟩) =
      Composition.spell f ⟨ps, last⟩ := by
  -- one piece after the other, from the left
  induction ps with
  | nil =>
      -- the last literal has no opening braces
      have hlast : Replace.replaceAll (variablePattern context) 0 (last.text ++ []) =
          last.text ++ [] := by
        refine Replace.replaceAll_literal fun s hs hne => variablePattern_eq_none fun hpre => ?_
        rw [List.append_nil] at hpre
        exact last.plain (hpre.isInfix.trans hs.isInfix)
      simpa [Composition.spell] using hlast
  | cons p ps ih =>
      have hrest := ih fun q hq => h q (List.mem_cons_of_mem _ hq)
      rw [spell_cons, spell_cons, ← hrest]
      generalize Composition.spell (fun p => p.placeholder.chars) ⟨ps, last⟩ = rest
      have hne := inside_ne_nil p.placeholder
      have hclosing := closing_notMem_inside p.placeholder
      by_cases hbrace : p.literal.text.getLast? = some '{'
      · -- the match begins with the brace in front of the placeholder
        obtain ⟨front, hfront⟩ := List.getLast?_eq_some_iff.mp hbrace
        obtain ⟨hkept, hf⟩ := (h p (List.mem_cons_self ..)).resolve_left fun htight =>
          htight.1.brace hbrace
        have hplain : ¬ ['{', '{'] <:+: front ++ ['{'] := hfront ▸ p.literal.plain
        have hmatch : Replace.replaceAll (variablePattern context) 0
            ('{' :: p.placeholder.chars ++ rest) = '{' :: p.placeholder.chars ++
              Replace.replaceAll (variablePattern context) 0 rest :=
          (preview_placeholder (List.cons_ne_nil '{' p.placeholder.inside) (by simp [hclosing])
            rest).trans (congrArg (· ++ _) hkept.brace)
        rw [hf, hfront, List.append_assoc, List.append_assoc, List.singleton_append]
        rw [preview_literal hplain]
        exact congrArg (front ++ ·) hmatch
      · have hmatch : Replace.replaceAll (variablePattern context) 0
            (p.placeholder.chars ++ rest) = f p ++
              Replace.replaceAll (variablePattern context) 0 rest := by
          refine (preview_placeholder hne hclosing rest).trans (congrArg (· ++ _) ?_)
          rcases h p (List.mem_cons_self ..) with ⟨htight, hf⟩ | ⟨hkept, hf⟩
          · rw [hf, ← htight.inside]
            rfl
          · rw [hf]
            exact hkept.plain hbrace
        rw [← hmatch]
        exact preview_literal (plain_of_getLast? hbrace) _

end Preview

/-! ### Contexts without texts -/

mutual

/-- The value with every text blanked, and without the fields no dotted path can name. -/
def strip : Json → Json
  | .obj fields => .obj (stripFields fields)
  | .str _ => .str ""
  | v => v

def stripFields : List (String × Json) → List (String × Json)
  | [] => []
  | (name, v) :: fields =>
      if name.toList.all isIdentPart then (name, strip v) :: stripFields fields
      else stripFields fields

end

section Strip

variable {vars : List (String × Json)}

/-- Stripping keeps the names that are identifiers. -/
theorem lookup_stripFields (fields : List (String × Json)) (name : String) :
    Json.lookup (stripFields fields) name =
      if name.toList.all isIdentPart then (Json.lookup fields name).map strip else none := by
  induction fields with
  | nil =>
      rw [stripFields]
      split <;> rfl
  | cons f fields ih =>
      obtain ⟨key, v⟩ := f
      rw [stripFields, Json.lookup_cons]
      by_cases hname : name = key
      · subst hname
        by_cases hident : name.toList.all isIdentPart
        · rw [if_pos hident, if_pos hident, Json.lookup_cons, ih, if_pos hident, if_pos rfl,
            if_pos rfl]
          rcases Json.lookup fields name with - | v' <;> rfl
        · rw [if_neg hident, if_neg hident, ih, if_neg hident]
      · by_cases hident : key.toList.all isIdentPart
        · rw [if_pos hident, Json.lookup_cons, ih, if_neg hname, if_neg hname, Option.or_none,
            Option.or_none]
        · rw [if_neg hident, ih, if_neg hname, Option.or_none]

/-- A path of identifiers leads to the stripped value. -/
theorem evalFields_strip {names : List String} (h : ∀ n ∈ names, n.toList.all isIdentPart = true)
    (v : Json) : evalFields (strip v) names = (evalFields v names).map strip := by
  induction names generalizing v with
  | nil => rfl
  | cons n names ih =>
      cases v with
      | obj fields =>
          have hrest := ih fun m hm => h m (List.mem_cons_of_mem _ hm)
          simp only [strip, evalFields, lookup_stripFields, h n (List.mem_cons_self ..), if_true]
          rcases Json.lookup fields n with - | v
          · rfl
          · exact hrest v
      | _ => rfl

/-- Any other path leads nowhere. -/
theorem evalFields_strip_none {names : List String}
    (h : ∃ n ∈ names, n.toList.all isIdentPart = false) (v : Json) :
    evalFields (strip v) names = none := by
  induction names generalizing v with
  | nil =>
      obtain ⟨n, hn, -⟩ := h
      cases hn
  | cons n names ih =>
      cases v with
      | obj fields =>
          simp only [strip, evalFields, lookup_stripFields]
          by_cases hident : n.toList.all isIdentPart = true
          · rw [if_pos hident]
            have hrest : ∃ m ∈ names, m.toList.all isIdentPart = false := by
              obtain ⟨m, hm, hnot⟩ := h
              rcases List.mem_cons.mp hm with rfl | hm
              · rw [hident] at hnot
                cases hnot
              · exact ⟨m, hm, hnot⟩
            rcases Json.lookup fields n with - | v
            · rfl
            · exact ih hrest v
          · rw [if_neg hident]
            rfl
      | _ => rfl

theorem ident_of_mem_namesOf {path : List Char} (h : isDotPath path = true) :
    ∀ n ∈ namesOf path, n.toList.all isIdentPart = true := by
  intro n hn
  obtain ⟨part, hpart, rfl⟩ := List.mem_map.mp hn
  have hok := parts_of_isDotPath h part hpart
  rw [Bool.and_eq_true] at hok
  rw [String.toList_ofList]
  exact hok.2

/-- A key with a character that no path has is not in the flat context. -/
theorem flattened_strip_eq_none {key : List Char} {c : Char} (hc : c ∈ key)
    (hpart : isPathPart c = false) : flattened (stripFields vars) (String.ofList key) = none := by
  have hnames : ∃ n ∈ namesOf key, n.toList.all isIdentPart = false := by
    rcases mem_splitOn (a := '.') hc with rfl | ⟨part, hmem, hcpart⟩
    · cases hpart
    · refine ⟨String.ofList part, List.mem_map.mpr ⟨part, hmem, rfl⟩, ?_⟩
      rw [isPathPart, Bool.or_eq_false_iff] at hpart
      rw [String.toList_ofList, List.all_eq_false]
      exact ⟨c, hcpart, by simp [hpart.1]⟩
  have hnone := evalFields_strip_none hnames (.obj vars)
  rwa [flattened, String.toList_ofList, ← strip]

theorem resolves_strip {c : Composition} (h : c.Resolves vars) : c.Resolves (stripFields vars) := by
  intro p hp
  obtain ⟨s, hs⟩ := h p hp
  have hstrip := evalFields_strip (ident_of_mem_namesOf p.placeholder.dotted) (.obj vars)
  rw [hs, strip] at hstrip
  exact ⟨"", hstrip⟩

theorem textAt_strip {p : Piece} {s : String}
    (h : evalFields (.obj vars) (namesOf p.placeholder.path) = some (.str s)) :
    textAt (stripFields vars) (namesOf p.placeholder.path) = "" := by
  have hstrip := evalFields_strip (ident_of_mem_namesOf p.placeholder.dotted) (.obj vars)
  rw [h, strip] at hstrip
  rw [textAt, hstrip]
  rfl

theorem resolved_of_eq_none {context : Context} {path chars : List Char}
    (h : context (String.ofList path) = none) : resolved context path chars = chars := by
  rw [resolved, h]

/-- A placeholder that is not tight is not in the flat context. -/
theorem kept_strip {p : Piece} (h : ¬ p.Tight) : p.Kept (flattened (stripFields vars)) where
  brace := resolved_of_eq_none (flattened_strip_eq_none (List.mem_cons_self ..) rfl)
  plain hbrace := by
    have hspace : p.placeholder.before ++ p.placeholder.after ≠ [] := by
      intro hnil
      obtain ⟨hbefore, hafter⟩ := List.append_eq_nil_iff.mp hnil
      exact h ⟨hbefore, hafter, hbrace⟩
    obtain ⟨c, hc⟩ := List.exists_mem_of_ne_nil _ hspace
    have hpart : isPathPart c = false := by
      rw [Bool.eq_false_iff]
      intro hpart
      have hblank := p.placeholder.blank c hc
      rw [(isPathPart_spec hpart).2.2.2] at hblank
      cases hblank
    refine resolved_of_eq_none (flattened_strip_eq_none (c := c) ?_ hpart)
    rw [Placeholder.inside, List.mem_append, List.mem_append]
    rcases List.mem_append.mp hc with hc | hc
    · exact Or.inl (Or.inl hc)
    · exact Or.inr hc

end Strip

/-! ### Agreement -/

theorem length_spell (f : Piece → List Char) (ps : List Piece) (last : Literal) :
    (Composition.spell f ⟨ps, last⟩).length =
      (Composition.spell (fun _ => []) ⟨ps, last⟩).length + (ps.flatMap f).length := by
  induction ps with
  | nil => rfl
  | cons p ps ih =>
      rw [spell_cons, spell_cons, List.length_append, List.length_append, ih, List.length_append,
        List.length_append, List.length_nil, List.flatMap_cons, List.length_append]
      omega

/-- What is put into a text that grows no longer is empty. -/
theorem eq_nil_of_spell {f g : Piece → List Char} {c : Composition}
    (hg : ∀ p ∈ c.pieces, g p = []) (h : c.spell f = c.spell g) : ∀ p ∈ c.pieces, f p = [] := by
  have hlength := congrArg List.length h
  rw [length_spell f c.pieces c.last, length_spell g c.pieces c.last,
    List.flatMap_eq_nil_iff.mpr hg, List.length_nil] at hlength
  have hzero : (c.pieces.flatMap f).length = 0 := by omega
  exact List.flatMap_eq_nil_iff.mp (List.length_eq_zero_iff.mp hzero)

theorem previewed_tight {c : Composition} {vars : List (String × Json)} (htight : c.Tight)
    (h : c.Resolves vars) : resolveTemplateVariables c.text (flattened vars) = c.filled vars := by
  rw [resolveTemplateVariables, Composition.text, String.toList_ofList, Composition.filled]
  refine congrArg String.ofList (preview_spell c.last fun p hp => Or.inl ⟨htight p hp, ?_⟩)
  obtain ⟨s, hs⟩ := h p hp
  rw [resolved, flattened, String.toList_ofList, hs, textAt, hs]

/-- **Rendering and preview**, for every text with placeholders: in every context in which
each path ends in a text, the renderer and the preview put this text in place of every
placeholder and change nothing else, if and only if there is no white space in a
placeholder and no brace directly in front of one (or there is no such context). -/
theorem agrees_iff (tt : TextTemplate) (c : Composition) :
    (∀ vars, c.Resolves vars → Agrees tt c vars) ↔ c.Tight ∨ ∀ vars, ¬ c.Resolves vars := by
  constructor
  · intro h
    by_contra hnot
    obtain ⟨htight, hsome⟩ := not_or.mp hnot
    obtain ⟨vars, hvars⟩ := not_forall_not.mp hsome
    -- with nothing but empty texts to put in, the preview must not leave a placeholder
    classical
    have hpreview := (h _ (resolves_strip hvars)).previewed
    rw [resolveTemplateVariables, Composition.text, String.toList_ofList, Composition.filled,
      String.ofList_inj] at hpreview
    have hspell : Replace.replaceAll (variablePattern (flattened (stripFields vars))) 0
        (c.spell fun p => p.placeholder.chars) =
          c.spell fun p => if p.Tight then [] else p.placeholder.chars := by
      refine preview_spell c.last fun p hp => ?_
      by_cases hp' : p.Tight
      · obtain ⟨s, hs⟩ := resolves_strip hvars p hp
        have hempty := textAt_strip (hvars p hp).choose_spec
        rw [textAt, hs] at hempty
        left
        refine ⟨hp', ?_⟩
        rw [if_pos hp', resolved, flattened, String.toList_ofList, hs, show s = "" from hempty]
        rfl
      · exact Or.inr ⟨kept_strip hp', if_neg hp'⟩
    have hvalues : ∀ p ∈ c.pieces,
        (textAt (stripFields vars) (namesOf p.placeholder.path)).toList = [] := by
      intro p hp
      rw [textAt_strip (hvars p hp).choose_spec]
      rfl
    refine htight fun p hp => ?_
    have hnil := eq_nil_of_spell hvalues (hspell.symm.trans hpreview) p hp
    by_contra hp'
    rw [if_neg hp'] at hnil
    cases hnil
  · rintro (htight | hnone) vars hvars
    · exact ⟨render_tight htight hvars, previewed_tight htight hvars⟩
    · exact absurd hvars (hnone vars)

/-! ### White space in a placeholder -/

theorem blank_spaces : ∀ c ∈ [' '] ++ [' '], isSpace c = true := by
  intro c hc
  have hspace : c = ' ' := by simpa using hc
  rw [hspace]
  rfl

/-- `{{ a.b }}`, with a brace in front of it or not. -/
def spaced : Composition where
  pieces := [⟨noText, ⟨[' '], ['a', '.', 'b'], [' '], by decide, blank_spaces⟩⟩]
  last := noText

/-- `{{{a.b}}` -/
def braced : Composition where
  pieces := [⟨⟨['{'], by decide⟩, ⟨[], ['a', '.', 'b'], [], by decide, by simp⟩⟩]
  last := noText

def nested : List (String × Json) := [("a", .obj [("b", .str "x")])]

/-- White space is nothing to the renderer, but the preview does not find the path; and a
brace is too much for both. -/
theorem not_agrees_spaced :
    spaced.Resolves nested ∧ spaced.filled nested = "x" ∧
      (∀ tt, render tt spaced.text spaced.text nested = .ok ("x", "x")) ∧
      resolveTemplateVariables spaced.text (flattened nested) = "\x7b\x7b a.b \x7d\x7d" ∧
    braced.Resolves nested ∧ braced.filled nested = "\x7bx" ∧
      (∀ tt, render tt braced.text braced.text nested =
        .error ("rendering body: " ++ tt.parseError "\x7b\x7b\x7b.a.b\x7d\x7d")) ∧
      resolveTemplateVariables braced.text (flattened nested) = "\x7b\x7b\x7ba.b\x7d\x7d" := by
  refine ⟨?_, ?_, ?_, ?_, ?_, ?_, ?_, ?_⟩
  · rintro p (- | ⟨-, ⟨⟩⟩)
    exact ⟨"x", rfl⟩
  · rfl
  · intro tt
    rfl
  · rfl
  · rintro p (- | ⟨-, ⟨⟩⟩)
    exact ⟨"x", rfl⟩
  · rfl
  · intro tt
    rfl
  · rfl

end Iwifunni.Templates
