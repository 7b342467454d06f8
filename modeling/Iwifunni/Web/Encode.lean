/-
Iwifunni/Web/Encode.lean

Loading a template into the editor, and saving it (`workflows/editors/encode.ts`).

For the editor a placeholder becomes an element,

    {{path}}  ⟶  <span data-type="variable" data-id="path">label</span>

and for the backend such an element becomes a placeholder again.  The second pattern begins
at any `<span` or `<div` and goes as far as the element, so a tag that is open before a
placeholder is cut out with it, and an element ends where a label has a closing tag.

The texts are cut at the placeholders, and all is proved about the pieces.
-/
import Iwifunni.Web.Preview

namespace Iwifunni.Web

open Replace

/-! ### The two patterns -/

/-- `\w`. -/
def isWord (c : Char) : Bool := c.isAlphanum || c == '_'

/-- `\b` after a name. -/
def boundary : List Char → Bool
  | [] => true
  | c :: _ => !isWord c

def spanTag : List Char := ['<', 's', 'p', 'a', 'n']

def divTag : List Char := ['<', 'd', 'i', 'v']

def spanEnd : List Char := ['<', '/', 's', 'p', 'a', 'n', '>']

def divEnd : List Char := ['<', '/', 'd', 'i', 'v', '>']

/-- `data-id=`. -/
def dataID : List Char := ['d', 'a', 't', 'a', '-', 'i', 'd', '=']

/-- `<(?:span|div)\b`: what follows. -/
def afterTag (cs : List Char) : Option (List Char) :=
  if spanTag <+: cs ∧ boundary (cs.drop 5) = true then some (cs.drop 5)
  else if divTag <+: cs ∧ boundary (cs.drop 4) = true then some (cs.drop 4)
  else none

/-- `[^>]*\bdata-id="`: what follows, for each way to match.  The class takes as much as it
can, so the last way comes first. -/
def dataIDs (prev : Char) : List Char → List (List Char)
  | [] => []
  | c :: cs => (if c = '>' then [] else dataIDs c cs) ++
      if isWord prev = false ∧ dataID ++ ['"'] <+: c :: cs then [(c :: cs).drop 9] else []

/-- `<\/(?:span|div)>`: what follows. -/
def afterEnd (cs : List Char) : Option (List Char) :=
  if spanEnd <+: cs then some (cs.drop 7)
  else if divEnd <+: cs then some (cs.drop 6)
  else none

/-- `[^>]*>[^<]*<\/(?:span|div)>`: what follows. -/
def afterElement (cs : List Char) : Option (List Char) :=
  match cs.dropWhile (· != '>') with
  | [] => none
  | _ :: content => afterEnd (content.dropWhile (· != '<'))

/-- `([^"]*)"` and the rest of the element: the id, and what follows. -/
def afterID (cs : List Char) : Option (List Char × List Char) :=
  match cs.dropWhile (· != '"') with
  | [] => none
  | _ :: tag => (afterElement tag).map fun rest => (cs.takeWhile (· != '"'), rest)

/-- `MAILY_VARIABLE_RE`, at the start of a text: the id, and the length of the match. -/
def mailyVariable (cs : List Char) : Option (List Char × ℕ) :=
  (afterTag cs).bind fun tag => ((dataIDs 'n' tag).findSome? afterID).map fun found =>
    (found.1, cs.length - found.2.length)

/-! ### Loading and saving -/

/-- The fields of a `VariableDefinition` that are used. -/
structure VariableDefinition where
  path : String
  label : String

/-- `{{path}}`. -/
def placeholder (path : List Char) : List Char := ['{', '{'] ++ path ++ ['}', '}']

/-- The start of an element, up to the path. -/
def variableTag : List Char :=
  [' ', 'd', 'a', 't', 'a', '-', 't', 'y', 'p', 'e', '=', '"', 'v', 'a', 'r', 'i', 'a', 'b', 'l',
    'e', '"', ' '] ++ dataID ++ ['"']

/-- The element of a variable. -/
def variableElement (path label : List Char) : List Char :=
  spanTag ++ variableTag ++ path ++ ['"', '>'] ++ label ++ spanEnd

/-- `lookup.get(path) || path`; of the definitions of a path the last one counts. -/
def labelOf (variableDefinitions : List VariableDefinition) (path : List Char) : List Char :=
  match variableDefinitions.reverse.find? fun v => v.path.toList = path with
  | some v => if v.label = "" then path else v.label.toList
  | none => path

/-- The replacement of an element. -/
def savedPattern : Pattern Char := fun cs =>
  (mailyVariable cs).map fun found => (placeholder found.1, found.2)

/-- `mailyVariablesToText`. -/
def mailyVariablesToText (html : String) : String :=
  String.ofList (replaceAll savedPattern 0 html.toList)

/-- The replacement of a placeholder. -/
def loadedPattern (label : List Char → List Char) : Pattern Char := fun cs =>
  (templateVariable cs).map fun found => (variableElement found.1 (label found.1), found.2)

/-- `textToMailyVariables`. -/
def textToMailyVariables (html : String) (variableDefinitions : List VariableDefinition) :
    String :=
  String.ofList (replaceAll (loadedPattern (labelOf variableDefinitions)) 0 html.toList)

/-! ### The pieces of a template -/

/-- A character of the markup, or the path of a placeholder. -/
abbrev Piece : Type := Char ⊕ List Char

/-- The markup before the first placeholder. -/
def markup : List Piece → List Char
  | Sum.inl c :: ps => c :: markup ps
  | _ => []

/-- The path of that placeholder. -/
def upcoming : List Piece → Option (List Char)
  | Sum.inl _ :: ps => upcoming ps
  | Sum.inr path :: _ => some path
  | [] => none

/-- After `data-id="`, the value or the tag is still open. -/
def openID (cs : List Char) : Bool :=
  match cs.dropWhile (· != '"') with
  | [] => true
  | _ :: tag => !tag.contains '>'

/-- From its path on, an element is the rest of one: the first `>` closes a tag, and the first
`<` after it begins an end.  A path with both brackets may keep it from that. -/
def closes (path : List Char) : Bool := (afterElement (path ++ ['"', '>'] ++ spanEnd)).isSome

/-- After `data-id="`, the pattern goes through: in the text before the next placeholder, or,
if the value or the tag is still open there, with the element of that placeholder. -/
def TakesID (cs : List Char) (coming : Option (List Char)) : Prop :=
  (afterID cs).isSome = true ∨ ∃ path ∈ coming, openID cs = true ∧ closes path = true

/-- The markup begins with a tag from which the pattern goes through: one of its attributes
takes an id, or it is still open before a placeholder. -/
def Swallowed (ps : List Piece) : Prop :=
  ∃ tag, afterTag (markup ps) = some tag ∧
    ((∃ cs ∈ dataIDs 'n' tag, TakesID cs (upcoming ps)) ∨
      '>' ∉ tag ∧ (upcoming ps).isSome = true)

/-- The quote after this path looks like the one of a `data-id="` in the same tag.  Before the
path there is a quote. -/
def EndsInID (path : List Char) : Prop :=
  '>' ∉ path ∧ ∃ before, path = before ++ dataID ∧ isWord (before.getLast?.getD '"') = false

/-- The end of the path takes an id in what follows the placeholder. -/
def Hijacked (label : List Char → List Char) (path : List Char) (ps : List Piece) : Prop :=
  EndsInID path ∧ TakesID ('>' :: (label path ++ (spanEnd ++ markup ps))) (upcoming ps)

/-- No placeholder breaks its element or ends in the start of another one, and the markup
swallows none. -/
structure Faithful (label : List Char → List Char) (ps : List Piece) : Prop where
  path : ∀ path, Sum.inr path ∈ ps → '"' ∉ path
  placeholder : ∀ path s, Sum.inr path :: s <:+ ps → ¬ Hijacked label path s
  label : ∀ path, Sum.inr path ∈ ps → '<' ∉ label path
  markup : ∀ s, s <:+ ps → ¬ Swallowed s

/-- The first bracket of a label begins an end, so that its element ends there. -/
def HasEnd (label : List Char → List Char) (ps : List Piece) : Prop :=
  ∃ path, Sum.inr path ∈ ps ∧ (afterEnd ((label path).dropWhile (· != '<'))).isSome = true

/-! ### Tags and ends -/

section Tags

variable {cs rest : List Char} {prev : Char}

/-- A text that is followed by nothing or by a tag. -/
def Followed (rest : List Char) : Prop := rest = [] ∨ ∃ cs, rest = '<' :: cs

/-- A tag or an end stands in the text before another one. -/
theorem prefix_append_iff {w : List Char} (hw : '<' ∉ w) (hne : cs ≠ []) (h : Followed rest) :
    '<' :: w <+: cs ++ rest ↔ '<' :: w <+: cs := by
  obtain ⟨c, cs, rfl⟩ := List.exists_cons_of_ne_nil hne
  rcases h with rfl | ⟨rest, rfl⟩
  · rw [List.append_nil]
  · rw [List.cons_append, List.cons_prefix_cons, List.cons_prefix_cons,
      prefix_append_cons_iff hw]

theorem boundary_append (h : Followed rest) : boundary (cs ++ rest) = boundary cs := by
  cases cs with
  | cons c cs => rfl
  | nil =>
      rcases h with rfl | ⟨rest, rfl⟩
      · rfl
      · show (!isWord '<') = true
        decide

theorem drop_append_of_starts {w : List Char} (n : ℕ) (h : w <+: cs) (hlength : w.length = n) :
    (cs ++ rest).drop n = cs.drop n ++ rest :=
  List.drop_append_of_le_length (hlength ▸ h.length_le)

/-- A tag ends where it did, whatever follows. -/
theorem afterTag_append (hne : cs ≠ []) (h : Followed rest) :
    afterTag (cs ++ rest) = (afterTag cs).map (· ++ rest) := by
  have hspan : spanTag <+: cs ++ rest ↔ spanTag <+: cs := prefix_append_iff (by decide) hne h
  have hdiv : divTag <+: cs ++ rest ↔ divTag <+: cs := prefix_append_iff (by decide) hne h
  unfold afterTag
  by_cases hs : spanTag <+: cs
  · rw [drop_append_of_starts 5 hs rfl, boundary_append h]
    have hno : ¬ divTag <+: cs := fun hd => by
      have := List.prefix_of_prefix_length_le hd hs (by decide)
      revert this
      decide
    simp only [hspan, hdiv, hs, hno, true_and, false_and, if_false]
    split <;> rfl
  · by_cases hd : divTag <+: cs
    · rw [drop_append_of_starts 4 hd rfl, boundary_append h]
      simp only [hspan, hdiv, hs, hd, true_and, false_and, if_false]
      split <;> rfl
    · simp only [hspan, hdiv, hs, hd, false_and, if_false]
      rfl

/-- So does an element. -/
theorem afterEnd_append (hne : cs ≠ []) (h : Followed rest) :
    afterEnd (cs ++ rest) = (afterEnd cs).map (· ++ rest) := by
  have hspan : spanEnd <+: cs ++ rest ↔ spanEnd <+: cs := prefix_append_iff (by decide) hne h
  have hdiv : divEnd <+: cs ++ rest ↔ divEnd <+: cs := prefix_append_iff (by decide) hne h
  unfold afterEnd
  by_cases hs : spanEnd <+: cs
  · rw [if_pos (hspan.mpr hs), if_pos hs, drop_append_of_starts 7 hs rfl]
    rfl
  rw [if_neg (mt hspan.mp hs), if_neg hs]
  by_cases hd : divEnd <+: cs
  · rw [if_pos (hdiv.mpr hd), if_pos hd, drop_append_of_starts 6 hd rfl]
    rfl
  · rw [if_neg (mt hdiv.mp hd), if_neg hd]
    rfl

/-- A quote is no part of an end. -/
theorem isSome_afterEnd_quote (cs rest : List Char) :
    (afterEnd (cs ++ '"' :: rest)).isSome = (afterEnd cs).isSome := by
  have hspan : spanEnd <+: cs ++ '"' :: rest ↔ spanEnd <+: cs :=
    prefix_append_cons_iff (by decide)
  have hdiv : divEnd <+: cs ++ '"' :: rest ↔ divEnd <+: cs := prefix_append_cons_iff (by decide)
  simp only [afterEnd, hspan, hdiv]
  split
  · rfl
  split <;> rfl

/-- What begins with a tag begins with a bracket. -/
theorem exists_of_afterTag {tag : List Char} (h : afterTag cs = some tag) :
    ∃ rest, cs = '<' :: rest := by
  unfold afterTag at h
  split at h
  · next hspan =>
    obtain ⟨rest, rfl⟩ := hspan.1
    exact ⟨_, rfl⟩
  split at h
  · next hdiv =>
    obtain ⟨rest, rfl⟩ := hdiv.1
    exact ⟨_, rfl⟩
  · cases h

theorem exists_of_mailyVariable (h : (mailyVariable cs).isSome = true) :
    ∃ rest, cs = '<' :: rest := by
  rcases htag : afterTag cs with - | tag
  · rw [mailyVariable, htag] at h
    cases h
  · exact exists_of_afterTag htag

end Tags

/-! ### Attributes -/

section Attributes

variable {prev : Char} {cs rest : List Char}

/-- In a closed tag the attributes are those of the tag. -/
theorem dataIDs_append (h : '>' ∈ cs) :
    dataIDs prev (cs ++ rest) = (dataIDs prev cs).map (· ++ rest) := by
  induction cs generalizing prev with
  | nil => cases h
  | cons c cs ih =>
      have hprefix : dataID ++ ['"'] <+: c :: cs ++ rest ↔ dataID ++ ['"'] <+: c :: cs := by
        obtain ⟨a, b, hab⟩ := List.append_of_mem h
        rw [hab, List.append_assoc, List.cons_append,
          prefix_append_cons_iff (by decide), prefix_append_cons_iff (by decide)]
      have hhere : (if isWord prev = false ∧ dataID ++ ['"'] <+: c :: (cs ++ rest) then
            [(c :: (cs ++ rest)).drop 9] else []) =
          (if isWord prev = false ∧ dataID ++ ['"'] <+: c :: cs then [(c :: cs).drop 9]
            else []).map (· ++ rest) := by
        by_cases hd : isWord prev = false ∧ dataID ++ ['"'] <+: c :: cs
        · rw [if_pos hd, if_pos ⟨hd.1, hprefix.mpr hd.2⟩, ← List.cons_append,
            drop_append_of_starts 9 hd.2 rfl]
          rfl
        · rw [if_neg hd, if_neg fun hd' => hd ⟨hd'.1, hprefix.mp hd'.2⟩]
          rfl
      rw [List.cons_append, dataIDs, dataIDs, List.map_append, hhere]
      refine congrArg (· ++ _) ?_
      split
      · rfl
      · next hc =>
        exact ih ((List.mem_cons.mp h).resolve_left fun heq => hc heq.symm)

/-- An attribute in an open tag. -/
theorem mem_dataIDs {c : Char} (h : '>' ∉ cs ++ [c]) (hc : isWord c = false) :
    rest ∈ dataIDs prev (cs ++ c :: (dataID ++ '"' :: rest)) := by
  induction cs generalizing prev with
  | nil =>
      have hne : c ≠ '>' := fun heq => h (heq ▸ List.mem_singleton_self c)
      have hhere : dataIDs c (dataID ++ '"' :: rest) =
          dataIDs 'd' ('a' :: 't' :: 'a' :: '-' :: 'i' :: 'd' :: '=' :: '"' :: rest) ++ [rest] := by
        show dataIDs c ('d' :: _) = _
        rw [dataIDs, if_neg (by decide), if_pos ⟨hc, rest, rfl⟩]
        rfl
      rw [List.nil_append, dataIDs, if_neg hne, hhere]
      exact List.mem_append_left _ (List.mem_append_right _ (List.mem_singleton_self rest))
  | cons a cs ih =>
      have hne : a ≠ '>' := fun heq => h (heq ▸ List.mem_cons_self)
      rw [List.cons_append, dataIDs, if_neg hne]
      exact List.mem_append_left _ (ih fun hmem => h (List.mem_cons_of_mem a hmem))

/-- An attribute in the path of an element begins after a quote of the path, or with the quote
that ends it. -/
theorem exists_of_mem_dataIDs {path found : List Char}
    (h : found ∈ dataIDs prev (path ++ '"' :: '>' :: rest)) :
    (∃ before after, path = before ++ after ∧ '"' ∈ before ∧ found = after ++ '"' :: '>' :: rest) ∨
      found = '>' :: rest ∧ '>' ∉ path ∧
        ∃ before, path = before ++ dataID ∧ isWord (before.getLast?.getD prev) = false := by
  induction path generalizing prev with
  | nil =>
      have hnone : dataIDs prev ('"' :: '>' :: rest) = [] := by
        simp [dataIDs, dataID]
      rw [List.nil_append, hnone] at h
      cases h
  | cons c path ih =>
      rw [List.cons_append, dataIDs] at h
      rcases List.mem_append.mp h with h | h
      · split at h
        · cases h
        -- it is found further on, and the word before it grows
        next hc =>
        rcases ih h with ⟨before, after, rfl, hquote, rfl⟩ | ⟨hfound, hclose, before, rfl, hword⟩
        · exact Or.inl ⟨c :: before, after, rfl, List.mem_cons_of_mem c hquote, rfl⟩
        · refine Or.inr ⟨hfound, ?_, c :: before, rfl, ?_⟩
          · exact List.not_mem_cons_of_ne_of_not_mem (fun heq => hc heq.symm) hclose
          · cases before with
            | nil => exact hword
            | cons d before => simpa [List.getLast?_cons] using hword
      · split at h
        · next hd =>
          obtain rfl := List.mem_singleton.mp h
          have hquote : '"' ∉ dataID := by decide
          -- it begins here: the quote it needs is in the path, or the one behind it
          rcases prefix_or_eq_of_concat hquote (l := c :: path) hd.2 with hp | heq
          · obtain ⟨after, hafter⟩ := hp
            refine Or.inl ⟨dataID ++ ['"'], after, hafter.symm, by decide, ?_⟩
            rw [← List.cons_append, ← hafter]
            rfl
          · refine Or.inr ⟨?_, heq ▸ (by decide), [], heq.symm, hd.1⟩
            rw [← List.cons_append, ← heq]
            rfl
        · cases h

/-- The attribute with the quote that ends the path. -/
theorem mem_dataIDs_path {before : List Char} (hclose : '>' ∉ before)
    (hword : isWord (before.getLast?.getD prev) = false) :
    '>' :: rest ∈ dataIDs prev (before ++ (dataID ++ '"' :: '>' :: rest)) := by
  induction before generalizing prev with
  | nil =>
      show _ ∈ dataIDs prev ('d' :: _)
      rw [dataIDs, if_neg (by decide : 'd' ≠ '>'), if_pos ⟨hword, '>' :: rest, rfl⟩]
      exact List.mem_append_right _ (List.mem_singleton_self _)
  | cons c before ih =>
      have hne : c ≠ '>' := fun heq => hclose (heq ▸ List.mem_cons_self)
      rw [List.cons_append, dataIDs, if_neg hne]
      refine List.mem_append_left _ (ih (fun hmem => hclose (List.mem_cons_of_mem c hmem)) ?_)
      cases before with
      | nil => exact hword
      | cons d before => simpa [List.getLast?_cons] using hword

end Attributes

/-! ### Elements -/

section Elements

variable {path label rest cs : List Char}

/-- An element is a tag, the path, and the content. -/
theorem variableElement_append (path label rest : List Char) :
    variableElement path label ++ rest =
      spanTag ++ (variableTag ++ (path ++ '"' :: '>' :: (label ++ (spanEnd ++ rest)))) := by
  simp [variableElement]

theorem afterTag_variableElement (path label rest : List Char) :
    afterTag (variableElement path label ++ rest) =
      some (variableTag ++ (path ++ '"' :: '>' :: (label ++ (spanEnd ++ rest)))) := by
  rw [variableElement_append, afterTag, if_pos ⟨List.prefix_append _ _, rfl⟩]
  rfl

theorem followed_variableElement (path label rest : List Char) :
    Followed (variableElement path label ++ rest) := by
  rw [variableElement_append]
  exact Or.inr ⟨_, rfl⟩

theorem dataIDs_variableTag (cs : List Char) :
    dataIDs 'n' (variableTag ++ cs) = dataIDs '"' cs ++ [cs] := by
  simp [dataIDs, variableTag, dataID, isWord]

/-- From a place in its tag on, an element is the rest of one exactly if it is from its path
on. -/
theorem isSome_afterElement {before : List Char} (hbefore : '>' ∉ before) (hlabel : '<' ∉ label) :
    (afterElement (before ++ (path ++ '"' :: '>' :: (label ++ (spanEnd ++ rest))))).isSome =
      closes path := by
  have hend : ∀ tail : List Char,
      afterEnd ((spanEnd ++ tail).dropWhile (· != '<')) = some tail := by
    intro tail
    show afterEnd (spanEnd ++ tail) = _
    rw [afterEnd, if_pos (List.prefix_append _ _)]
    rfl
  have hown : path ++ ['"', '>'] ++ spanEnd = path ++ '"' :: '>' :: ([] ++ (spanEnd ++ [])) := by
    simp
  -- both sides look for the end of a tag first
  rw [closes, hown, afterElement, afterElement, dropWhile_append_of_notMem hbefore]
  by_cases hclose : '>' ∈ path
  · -- the content begins in the path
    obtain ⟨a, b, rfl, ha⟩ := List.eq_append_cons_of_mem hclose
    rw [List.append_assoc, List.append_assoc, List.cons_append, List.cons_append,
      dropWhile_append_of_notMem ha, dropWhile_append_of_notMem ha, dropWhile_cons_self,
      dropWhile_cons_self]
    show (afterEnd _).isSome = (afterEnd _).isSome
    -- a tag may open in the path again
    by_cases hopen : '<' ∈ b
    · obtain ⟨c, d, rfl, hc⟩ := List.eq_append_cons_of_mem hopen
      have hinner : ∀ tail, (afterEnd ('<' :: (d ++ '"' :: tail))).isSome =
          (afterEnd ('<' :: d)).isSome := fun tail => isSome_afterEnd_quote ('<' :: d) tail
      rw [List.append_assoc, List.append_assoc, dropWhile_append_of_notMem hc,
        dropWhile_append_of_notMem hc, List.cons_append, List.cons_append, dropWhile_cons_self,
        dropWhile_cons_self, hinner, hinner]
    · have hb : ∀ label : List Char, '<' ∉ label → '<' ∉ b ++ ['"', '>'] ++ label := by
        intro label hlabel
        simp [hopen, hlabel]
      have hcontent : ∀ label tail : List Char, b ++ '"' :: '>' :: (label ++ (spanEnd ++ tail)) =
          (b ++ ['"', '>'] ++ label) ++ (spanEnd ++ tail) := by simp
      rw [hcontent, hcontent, dropWhile_append_of_notMem (hb label hlabel),
        dropWhile_append_of_notMem (hb [] List.not_mem_nil), hend, hend]
      rfl
  · have htag : '>' ∉ path ++ ['"'] := by simp [hclose]
    have hcontent : ∀ tail : List Char, path ++ '"' :: '>' :: tail =
        (path ++ ['"']) ++ '>' :: tail := by simp
    rw [hcontent, hcontent, dropWhile_append_of_notMem htag, dropWhile_append_of_notMem htag,
      dropWhile_cons_self, dropWhile_cons_self]
    show (afterEnd _).isSome = (afterEnd _).isSome
    rw [dropWhile_append_of_notMem hlabel, List.nil_append, hend, hend]
    rfl

/-- The id of an element is its path. -/
theorem afterID_path (hpath : '"' ∉ path) :
    afterID (path ++ '"' :: '>' :: rest) =
      (afterEnd (rest.dropWhile (· != '<'))).map fun rest => (path, rest) := by
  rw [afterID, dropWhile_append_of_notMem hpath, dropWhile_cons_self,
    takeWhile_append_of_notMem hpath, takeWhile_cons_self, List.append_nil]
  rfl

/-- The end of this path takes no id. -/
def Stays (path rest : List Char) : Prop :=
  EndsInID path → afterID ('>' :: rest) = none

/-- What is found of an element without quotes in its path. -/
theorem mailyVariable_variableElement (hpath : '"' ∉ path)
    (hkeeps : Stays path (label ++ (spanEnd ++ rest))) :
    mailyVariable (variableElement path label ++ rest) =
      (afterEnd ((label ++ (spanEnd ++ rest)).dropWhile (· != '<'))).map fun after =>
        (path, (variableElement path label ++ rest).length - after.length) := by
  -- an attribute in the path is the one with its end, and comes to nothing
  have hown : (dataIDs '"' (path ++ '"' :: '>' :: (label ++ (spanEnd ++ rest)))).findSome? afterID =
      none := by
    refine List.findSome?_eq_none_iff.mpr fun found hfound => ?_
    rcases exists_of_mem_dataIDs hfound with ⟨before, after, rfl, hquote, -⟩ | ⟨rfl, hends⟩
    · exact absurd (List.mem_append_left _ hquote) hpath
    · exact hkeeps hends
  rw [mailyVariable, afterTag_variableElement, Option.bind_some, dataIDs_variableTag,
    List.findSome?_append, hown, Option.none_or, List.findSome?_singleton, afterID_path hpath,
    Option.map_map]
  rfl

/-- An element is found as a whole. -/
theorem mailyVariable_element (hpath : '"' ∉ path) (hkeeps : Stays path (label ++ (spanEnd ++ rest)))
    (hlabel : '<' ∉ label) :
    mailyVariable (variableElement path label ++ rest) =
      some (path, (variableElement path label).length) := by
  have hend : afterEnd ((spanEnd ++ rest).dropWhile (· != '<')) = some rest := by
    show afterEnd (spanEnd ++ rest) = _
    rw [afterEnd, if_pos (List.prefix_append _ _)]
    rfl
  rw [mailyVariable_variableElement hpath hkeeps, dropWhile_append_of_notMem hlabel, hend,
    Option.map_some, List.length_append, Nat.add_sub_cancel]

/-- If the label has a bracket, but no end there, no element is found. -/
theorem mailyVariable_of_mem_label (hpath : '"' ∉ path)
    (hkeeps : Stays path (label ++ (spanEnd ++ rest))) (hlabel : '<' ∈ label)
    (hend : afterEnd (label.dropWhile (· != '<')) = none) :
    mailyVariable (variableElement path label ++ rest) = none := by
  obtain ⟨a, b, rfl, ha⟩ := List.eq_append_cons_of_mem hlabel
  have hfollowed : Followed (spanEnd ++ rest) := Or.inr ⟨_, rfl⟩
  rw [dropWhile_append_of_notMem ha, dropWhile_cons_self] at hend
  rw [mailyVariable_variableElement hpath hkeeps, List.append_assoc, dropWhile_append_of_notMem ha,
    List.cons_append, dropWhile_cons_self, ← List.cons_append,
    afterEnd_append (List.cons_ne_nil _ _) hfollowed, hend]
  rfl

/-- The id that is found from an attribute. -/
theorem takeWhile_of_afterID {found : List Char × List Char} (h : afterID cs = some found) :
    found.1 = cs.takeWhile (· != '"') := by
  unfold afterID at h
  split at h
  · cases h
  · obtain ⟨after, -, rfl⟩ := Option.map_eq_some_iff.mp h
    rfl

theorem takeWhile_quote_initial (after rest : List Char) :
    (after ++ '"' :: rest).takeWhile (· != '"') <+: after := by
  by_cases hafter : '"' ∈ after
  · obtain ⟨a, b, rfl, ha⟩ := List.eq_append_cons_of_mem hafter
    rw [List.append_assoc, List.cons_append, takeWhile_append_of_notMem ha,
      takeWhile_cons_self, List.append_nil]
    exact List.prefix_append _ _
  · rw [takeWhile_append_of_notMem hafter, takeWhile_cons_self, List.append_nil]

/-- A placeholder for a shorter path is another one. -/
theorem placeholder_ne {id cs' : List Char} (h : id.length < path.length) (hpath : '}' ∉ path) :
    placeholder id ++ cs ≠ placeholder path ++ cs' := by
  intro heq
  have hcons : id ++ '}' :: '}' :: cs = path ++ '}' :: '}' :: cs' := by
    simpa [placeholder] using heq
  have hget := congrArg (fun l => l[id.length]?) hcons
  simp only [List.getElem?_append_right le_rfl, Nat.sub_self, List.getElem?_cons_zero,
    List.getElem?_append_left h] at hget
  exact hpath (List.mem_of_getElem? hget.symm)

/-- What an attribute in the path takes is not the path. -/
theorem placeholder_ne_of_mem_dataIDs {found cs' : List Char} {id : List Char × List Char}
    (hbrace : '}' ∉ path) (hmem : found ∈ dataIDs '"' (path ++ '"' :: '>' :: rest))
    (h : afterID found = some id) : placeholder id.1 ++ cs ≠ placeholder path ++ cs' := by
  rw [takeWhile_of_afterID h]
  rcases exists_of_mem_dataIDs hmem with ⟨before, after, rfl, hquote, rfl⟩ |
    ⟨rfl, hclose, before, rfl, -⟩
  · -- it is a part of the path
    have hle := (takeWhile_quote_initial after ('>' :: rest)).length_le
    have hpos := List.length_pos_of_mem hquote
    refine placeholder_ne ?_ hbrace
    rw [List.length_append]
    omega
  · -- it begins with the bracket after the path, which the path has not
    intro heq
    have htake : ('>' :: rest).takeWhile (· != '"') = '>' :: rest.takeWhile (· != '"') :=
      List.takeWhile_cons_of_pos rfl
    rw [htake] at heq
    cases before with
    | nil => simp [placeholder, dataID] at heq
    | cons c before =>
        simp only [placeholder, List.cons_append, List.nil_append, List.cons.injEq] at heq
        exact hclose (heq.2.2.1 ▸ List.mem_cons_self)

/-- **A placeholder comes back only from a whole element**: its path has no quote, and its end
takes no id. -/
theorem keeps_of_mailyVariable {id cs' : List Char} {n : ℕ} (hbrace : '}' ∉ path)
    (h : mailyVariable (variableElement path label ++ rest) = some (id, n))
    (heq : placeholder id ++ cs = placeholder path ++ cs') :
    '"' ∉ path ∧ Stays path (label ++ (spanEnd ++ rest)) := by
  rw [mailyVariable, afterTag_variableElement, Option.bind_some, dataIDs_variableTag] at h
  obtain ⟨⟨id', after⟩, hfound, hid⟩ := Option.map_eq_some_iff.mp h
  obtain rfl : id' = id := (Prod.mk.inj hid).1
  rw [List.findSome?_append] at hfound
  rcases hinner : (dataIDs '"' (path ++ '"' :: '>' :: (label ++ (spanEnd ++ rest)))).findSome?
    afterID with - | found
  · rw [hinner, Option.none_or, List.findSome?_singleton] at hfound
    refine ⟨fun hquote => ?_, fun ⟨hclose, before, hpath, hword⟩ => ?_⟩
    · -- the id ends at the first quote
      obtain ⟨a, b, rfl, ha⟩ := List.eq_append_cons_of_mem hquote
      have htake := takeWhile_of_afterID hfound
      rw [List.append_assoc, List.cons_append, takeWhile_append_of_notMem ha,
        takeWhile_cons_self, List.append_nil] at htake
      refine placeholder_ne ?_ hbrace heq
      rw [show id' = a from htake, List.length_append, List.length_cons]
      omega
    · refine List.findSome?_eq_none_iff.mp hinner _ ?_
      rw [hpath, List.append_assoc]
      exact mem_dataIDs_path (fun hmem => hclose (hpath ▸ List.mem_append_left _ hmem)) hword
  · -- an attribute in the path would give another placeholder
    rw [hinner, Option.some_or] at hfound
    obtain rfl := Option.some.inj hfound
    obtain ⟨cs, hmem, hcs⟩ := List.exists_of_findSome?_eq_some hinner
    exact absurd heq (placeholder_ne_of_mem_dataIDs hbrace hmem hcs)

end Elements

/-! ### Markup before an element -/

section Markup

variable {path label rest cs : List Char}

/-- After a closed attribute an element changes nothing. -/
theorem afterID_append (h : openID cs = false) (hrest : Followed rest)
    (hend : afterEnd rest = none) :
    afterID (cs ++ rest) = (afterID cs).map fun found => (found.1, found.2 ++ rest) := by
  have hquote : '"' ∈ cs := by
    by_contra hno
    rw [openID, dropWhile_of_notMem hno] at h
    cases h
  -- the value, the rest of the tag, and the content
  obtain ⟨a, tag, rfl, ha⟩ := List.eq_append_cons_of_mem hquote
  have hclose : '>' ∈ tag := by
    rw [openID, dropWhile_append_of_notMem ha, dropWhile_cons_self] at h
    simpa using h
  obtain ⟨b, content, rfl, hb⟩ := List.eq_append_cons_of_mem hclose
  have hrest' : rest.dropWhile (· != '<') = rest := by
    rcases hrest with rfl | ⟨rest, rfl⟩
    · rfl
    · exact dropWhile_cons_self
  -- what follows gives no end, so the end is in the content or nowhere
  have hcontent : afterEnd ((content ++ rest).dropWhile (· != '<')) =
      (afterEnd (content.dropWhile (· != '<'))).map (· ++ rest) := by
    by_cases hmem : '<' ∈ content
    · obtain ⟨c, inner, rfl, hc⟩ := List.eq_append_cons_of_mem hmem
      rw [List.append_assoc, List.cons_append, dropWhile_append_of_notMem hc,
        dropWhile_append_of_notMem hc, dropWhile_cons_self, dropWhile_cons_self,
        ← List.cons_append, afterEnd_append (List.cons_ne_nil _ _) hrest]
    · rw [dropWhile_append_of_notMem hmem, hrest', hend, dropWhile_of_notMem hmem]
      rfl
  have helement : afterElement (b ++ '>' :: content ++ rest) =
      (afterElement (b ++ '>' :: content)).map (· ++ rest) := by
    rw [afterElement, afterElement, List.append_assoc, List.cons_append,
      dropWhile_append_of_notMem hb, dropWhile_append_of_notMem hb, dropWhile_cons_self,
      dropWhile_cons_self]
    exact hcontent
  rw [afterID, afterID, List.append_assoc, List.cons_append, dropWhile_append_of_notMem ha,
    dropWhile_append_of_notMem ha, dropWhile_cons_self, dropWhile_cons_self,
    takeWhile_append_of_notMem ha, takeWhile_append_of_notMem ha, takeWhile_cons_self,
    takeWhile_cons_self]
  show (afterElement (b ++ '>' :: content ++ rest)).map _ = _
  rw [helement, Option.map_map, Option.map_map]
  rfl

/-- An attribute that is closed is not open. -/
theorem openID_of_isSome (h : (afterID cs).isSome = true) : openID cs = false := by
  unfold afterID at h
  unfold openID
  split at h
  · cases h
  · next tag hdrop =>
    by_contra hopen
    have hclose : '>' ∉ tag := by simpa using hopen
    rw [Option.isSome_map, afterElement, dropWhile_of_notMem hclose] at h
    cases h

/-- An open attribute goes on into the element. -/
theorem isSome_afterID_open (h : openID cs = true) (hlabel : '<' ∉ label) :
    (afterID (cs ++ (variableElement path label ++ rest))).isSome = closes path := by
  rw [variableElement_append]
  by_cases hquote : '"' ∈ cs
  · obtain ⟨a, tag, rfl, ha⟩ := List.eq_append_cons_of_mem hquote
    have hopen : '>' ∉ tag := by
      rw [openID, dropWhile_append_of_notMem ha, dropWhile_cons_self] at h
      simpa using h
    have hbefore : '>' ∉ tag ++ (spanTag ++ variableTag) := by
      rw [List.mem_append]
      exact fun hmem => hmem.elim hopen (by decide)
    rw [afterID, List.append_assoc, List.cons_append, dropWhile_append_of_notMem ha,
      dropWhile_cons_self]
    show ((afterElement _).map _).isSome = _
    rw [Option.isSome_map, ← List.append_assoc spanTag, ← List.append_assoc tag,
      isSome_afterElement hbefore hlabel]
  · -- the value ends at the first quote of the element
    have hstart : spanTag ++ (variableTag ++ (path ++ '"' :: '>' :: (label ++ (spanEnd ++ rest)))) =
        (spanTag ++ variableTag.take 11) ++ '"' :: (variableTag.drop 12 ++
          (path ++ '"' :: '>' :: (label ++ (spanEnd ++ rest)))) := rfl
    have hquote' : '"' ∉ cs ++ (spanTag ++ variableTag.take 11) := by
      rw [List.mem_append]
      exact fun hmem => hmem.elim hquote (by decide)
    rw [hstart, ← List.append_assoc cs, afterID, dropWhile_append_of_notMem hquote',
      dropWhile_cons_self]
    show ((afterElement _).map _).isSome = _
    rw [Option.isSome_map, isSome_afterElement (by decide) hlabel]

/-- **An attribute before an element takes an id** in the text up to it, or with it. -/
theorem isSome_afterID_iff (hlabel : '<' ∉ label) :
    (afterID (cs ++ (variableElement path label ++ rest))).isSome = true ↔
      TakesID cs (some path) := by
  have htakes : TakesID cs (some path) ↔
      (afterID cs).isSome = true ∨ openID cs = true ∧ closes path = true := by
    simp [TakesID]
  rw [htakes]
  rcases hopen : openID cs with - | -
  · have hend : afterEnd (variableElement path label ++ rest) = none := by
      rw [variableElement_append]
      rfl
    rw [afterID_append hopen (followed_variableElement path label rest) hend, Option.isSome_map]
    simp
  · have hnone : (afterID cs).isSome ≠ true := fun hsome => by
      rw [openID_of_isSome hsome] at hopen
      cases hopen
    rw [isSome_afterID_open hopen hlabel]
    simp [hnone]

theorem isSome_mailyVariable_iff :
    (mailyVariable cs).isSome = true ↔
      ∃ tag, afterTag cs = some tag ∧ ∃ found ∈ dataIDs 'n' tag, (afterID found).isSome = true := by
  unfold mailyVariable
  rcases afterTag cs with - | tag
  · simp
  · simp [List.findSome?_isSome_iff]

/-- **A tag before an element swallows it** if an attribute takes an id, or if it is still
open. -/
theorem isSome_mailyVariable_append_iff (hne : cs ≠ []) (hquote : '"' ∉ path)
    (hlabel : '<' ∉ label) :
    (mailyVariable (cs ++ (variableElement path label ++ rest))).isSome = true ↔
      ∃ tag, afterTag cs = some tag ∧
        ((∃ found ∈ dataIDs 'n' tag, TakesID found (some path)) ∨ '>' ∉ tag) := by
  have htags := afterTag_append hne (followed_variableElement path label rest)
  rw [isSome_mailyVariable_iff, htags]
  constructor
  · rintro ⟨tag', htag', found', hfound', hafter⟩
    obtain ⟨tag, htag, rfl⟩ := Option.map_eq_some_iff.mp htag'
    -- if the tag is closed, the attribute is in it
    refine ⟨tag, htag, or_iff_not_imp_right.mpr fun hclose => ?_⟩
    rw [dataIDs_append (not_not.mp hclose)] at hfound'
    obtain ⟨found, hfound, rfl⟩ := List.mem_map.mp hfound'
    exact ⟨found, hfound, (isSome_afterID_iff hlabel).mp hafter⟩
  · rintro ⟨tag, htag, htakes⟩
    refine ⟨_, Option.map_eq_some_iff.mpr ⟨tag, htag, rfl⟩, ?_⟩
    by_cases hclose : '>' ∈ tag
    · obtain ⟨found, hfound, hid⟩ := htakes.resolve_right (not_not.mpr hclose)
      rw [dataIDs_append hclose]
      exact ⟨_, List.mem_map_of_mem hfound, (isSome_afterID_iff hlabel).mpr hid⟩
    · -- the attribute of the element is one of the open tag
      refine ⟨path ++ '"' :: '>' :: (label ++ (spanEnd ++ rest)), ?_, ?_⟩
      · rw [variableElement_append]
        have htext : tag ++ (spanTag ++ (variableTag ++
            (path ++ '"' :: '>' :: (label ++ (spanEnd ++ rest))))) =
              (tag ++ (spanTag ++ variableTag.take 21)) ++ ' ' :: (dataID ++ '"' ::
                (path ++ '"' :: '>' :: (label ++ (spanEnd ++ rest)))) := by
          simp [variableTag]
        rw [htext]
        refine mem_dataIDs ?_ (by decide)
        simp only [List.mem_append, not_or]
        exact ⟨⟨hclose, by decide, by decide⟩, by decide⟩
      · rw [afterID_path hquote, Option.isSome_map, dropWhile_append_of_notMem hlabel]
        rfl

end Markup

/-! ### Pieces -/

section Pieces

variable {label : List Char → List Char} {ps : List Piece} {c : Char} {path : List Char}

/-- The pieces as they are loaded. -/
def loaded (label : List Char → List Char) (ps : List Piece) : List Char :=
  pasted (fun path => variableElement path (label path)) ps

/-- The markup goes through as it is, up to the element of the first placeholder. -/
theorem loaded_eq (label : List Char → List Char) (ps : List Piece) :
    upcoming ps = none ∧ loaded label ps = markup ps ∨
      ∃ path rest, upcoming ps = some path ∧ Sum.inr path ∈ ps ∧
        loaded label ps = markup ps ++ (variableElement path (label path) ++ rest) := by
  induction ps with
  | nil => exact Or.inl ⟨rfl, rfl⟩
  | cons p ps ih =>
      cases p with
      | inr path => exact Or.inr ⟨path, _, rfl, List.mem_cons_self, rfl⟩
      | inl c =>
          rcases ih with ⟨hno, heq⟩ | ⟨path, rest, hsome, hmem, heq⟩
          · exact Or.inl ⟨hno, congrArg (c :: ·) heq⟩
          · exact Or.inr ⟨path, rest, hsome, List.mem_cons_of_mem _ hmem, congrArg (c :: ·) heq⟩

/-- Before the pieces, an attribute takes an id if it does up to the next element, or with
it. -/
theorem isSome_afterID_loaded (hlabel : ∀ path, Sum.inr path ∈ ps → '<' ∉ label path)
    (cs : List Char) :
    (afterID (cs ++ loaded label ps)).isSome = true ↔ TakesID (cs ++ markup ps) (upcoming ps) := by
  rcases loaded_eq label ps with ⟨hno, heq⟩ | ⟨path, rest, hsome, hmem, heq⟩
  · rw [heq, hno]
    simp [TakesID]
  · rw [heq, hsome, ← List.append_assoc]
    exact isSome_afterID_iff (hlabel path hmem)

/-- **An element begins in the markup** exactly if the markup swallows one. -/
theorem isSome_mailyVariable_loaded (hpath : ∀ path, Sum.inr path ∈ ps → '"' ∉ path)
    (hlabel : ∀ path, Sum.inr path ∈ ps → '<' ∉ label path) :
    (mailyVariable (loaded label (Sum.inl c :: ps))).isSome = true ↔
      Swallowed (Sum.inl c :: ps) := by
  rcases loaded_eq label (Sum.inl c :: ps) with ⟨hno, heq⟩ | ⟨path, rest, hsome, hmem, heq⟩
  · rw [heq, isSome_mailyVariable_iff, Swallowed, hno]
    simp [TakesID]
  · have hmem' : Sum.inr path ∈ ps := (List.mem_cons.mp hmem).resolve_left nofun
    have hne : markup (Sum.inl c :: ps) ≠ [] := List.cons_ne_nil _ _
    rw [heq, isSome_mailyVariable_append_iff hne (hpath path hmem') (hlabel path hmem'), Swallowed,
      hsome]
    simp

/-- The end of a path keeps from the ids of what follows exactly if it hijacks none. -/
theorem keeps_iff (path : List Char) (hlabel : ∀ path, Sum.inr path ∈ ps → '<' ∉ label path) :
    Stays path (label path ++ (spanEnd ++ loaded label ps)) ↔ ¬ Hijacked label path ps := by
  have htakes := isSome_afterID_loaded hlabel ('>' :: (label path ++ spanEnd))
  have hcs : ∀ tail, '>' :: (label path ++ (spanEnd ++ tail)) =
      '>' :: (label path ++ spanEnd) ++ tail := by simp
  rw [Stays, Hijacked, not_and, hcs, hcs, ← htakes, Bool.not_eq_true, Option.isSome_eq_false_iff,
    Option.isNone_iff_eq_none]

namespace Faithful

theorem nil : Faithful label [] := by
  refine ⟨nofun, fun path s hs => ?_, nofun, fun s hs => ?_⟩
  · cases List.suffix_nil.mp hs
  · obtain rfl := List.suffix_nil.mp hs
    rintro ⟨tag, htag, -⟩
    cases htag

theorem tail {p : Piece} (h : Faithful label (p :: ps)) : Faithful label ps :=
  ⟨fun path hmem => h.path path (List.mem_cons_of_mem p hmem),
    fun path s hs => h.placeholder path s (hs.trans (List.suffix_cons p ps)),
    fun path hmem => h.label path (List.mem_cons_of_mem p hmem),
    fun s hs => h.markup s (hs.trans (List.suffix_cons p ps))⟩

/-- A placeholder in front of what is faithful. -/
theorem cons_placeholder (h : Faithful label ps) (hquote : '"' ∉ path) (hlabel : '<' ∉ label path)
    (hkeeps : ¬ Hijacked label path ps) : Faithful label (Sum.inr path :: ps) := by
  refine ⟨fun path' hmem => ?_, fun path' s hs => ?_, fun path' hmem => ?_, fun s hs => ?_⟩
  · rcases List.mem_cons.mp hmem with heq | hmem
    · obtain rfl := Sum.inr.inj heq
      exact hquote
    · exact h.path path' hmem
  · rcases List.suffix_cons_iff.mp hs with heq | hs
    · obtain ⟨hpath, rfl⟩ := List.cons.inj heq
      obtain rfl := Sum.inr.inj hpath
      exact hkeeps
    · exact h.placeholder path' s hs
  · rcases List.mem_cons.mp hmem with heq | hmem
    · obtain rfl := Sum.inr.inj heq
      exact hlabel
    · exact h.label path' hmem
  · rcases List.suffix_cons_iff.mp hs with rfl | hs
    · rintro ⟨tag, htag, -⟩
      cases htag
    · exact h.markup s hs

/-- A character of the markup in front of what is faithful. -/
theorem cons_markup (h : Faithful label ps) (hswallowed : ¬ Swallowed (Sum.inl c :: ps)) :
    Faithful label (Sum.inl c :: ps) := by
  refine ⟨fun path hmem => ?_, fun path s hs => ?_, fun path hmem => ?_, fun s hs => ?_⟩
  · exact h.path path ((List.mem_cons.mp hmem).resolve_left nofun)
  · rcases List.suffix_cons_iff.mp hs with heq | hs
    · cases (List.cons.inj heq).1
    · exact h.placeholder path s hs
  · exact h.label path ((List.mem_cons.mp hmem).resolve_left nofun)
  · rcases List.suffix_cons_iff.mp hs with rfl | hs
    · exact hswallowed
    · exact h.markup s hs

end Faithful

/-! ### Loading and saving again -/

/-- What is saved of a whole element. -/
theorem replaceAll_element {label rest : List Char} (hquote : '"' ∉ path)
    (hkeeps : Stays path (label ++ (spanEnd ++ rest))) (hlabel : '<' ∉ label) :
    replaceAll savedPattern 0 (variableElement path label ++ rest) =
      placeholder path ++ replaceAll savedPattern 0 rest := by
  have hne : variableElement path label ≠ [] := nofun
  refine replaceAll_match hne ?_
  rw [savedPattern, mailyVariable_element hquote hkeeps hlabel]
  rfl

theorem replaceAll_markup {cs : List Char} (h : mailyVariable (c :: cs) = none) :
    replaceAll savedPattern 0 (c :: cs) = c :: replaceAll savedPattern 0 cs := by
  refine replaceAll_cons_of_none ?_
  rw [savedPattern, h]
  rfl

/-- What is found is saved as a placeholder. -/
theorem replaceAll_found {cs id : List Char} {n : ℕ} (h : mailyVariable cs = some (id, n)) :
    ∃ rest, replaceAll savedPattern 0 cs = placeholder id ++ rest := by
  obtain ⟨tail, rfl⟩ := exists_of_mailyVariable (by rw [h]; rfl)
  have hpattern : savedPattern ('<' :: tail) = some (placeholder id, n) := by
    rw [savedPattern, h]
    rfl
  rw [replaceAll, hpattern]
  exact ⟨_, rfl⟩

/-- Faithful pieces are loaded and saved again. -/
theorem saved_loaded (h : Faithful label ps) :
    replaceAll savedPattern 0 (loaded label ps) = pasted placeholder ps := by
  induction ps with
  | nil => rfl
  | cons p ps ih =>
      have hrest := ih h.tail
      cases p with
      | inl c =>
          have hnone : mailyVariable (c :: loaded label ps) = none := by
            by_contra hsome
            exact h.markup _ (List.suffix_refl _) ((isSome_mailyVariable_loaded h.tail.path
              h.tail.label).mp (Option.isSome_iff_ne_none.mpr hsome))
          show replaceAll savedPattern 0 (c :: loaded label ps) = c :: pasted placeholder ps
          rw [replaceAll_markup hnone, hrest]
      | inr path =>
          have hkeeps := (keeps_iff path h.tail.label).mpr
            (h.placeholder path ps (List.suffix_refl _))
          show replaceAll savedPattern 0 (variableElement path (label path) ++ loaded label ps) =
            placeholder path ++ pasted placeholder ps
          rw [replaceAll_element (h.path path List.mem_cons_self) hkeeps
            (h.label path List.mem_cons_self), hrest]

/-- A placeholder is saved again only if its element is found as a whole. -/
theorem placeholder_restored {rest cs : List Char} (hbrace : '}' ∉ path)
    (hend : afterEnd ((label path).dropWhile (· != '<')) = none)
    (h : replaceAll savedPattern 0 (variableElement path (label path) ++ rest) =
      placeholder path ++ cs) :
    '"' ∉ path ∧ '<' ∉ label path ∧ Stays path (label path ++ (spanEnd ++ rest)) ∧
      replaceAll savedPattern 0 rest = cs := by
  -- if nothing were found, the text would begin with a bracket and not with a brace
  have hsome : mailyVariable (variableElement path (label path) ++ rest) ≠ none := by
    intro hnone
    obtain ⟨tail, htail⟩ : ∃ tail, variableElement path (label path) ++ rest = '<' :: tail :=
      ⟨_, rfl⟩
    rw [htail] at h hnone
    rw [replaceAll_markup hnone] at h
    exact absurd (List.cons.inj h).1 (by decide)
  obtain ⟨⟨id, n⟩, hfound⟩ := Option.ne_none_iff_exists'.mp hsome
  obtain ⟨after, hafter⟩ := replaceAll_found hfound
  obtain ⟨hquote, hkeeps⟩ := keeps_of_mailyVariable hbrace hfound (hafter.symm.trans h)
  have hlabel : '<' ∉ label path := fun hmem =>
    hsome (mailyVariable_of_mem_label hquote hkeeps hmem hend)
  rw [replaceAll_element hquote hkeeps hlabel] at h
  exact ⟨hquote, hlabel, hkeeps, List.append_cancel_left h⟩

/-- Markup is saved again only if nothing begins in it. -/
theorem markup_restored {rest cs : List Char}
    (h : replaceAll savedPattern 0 (c :: rest) = c :: cs) :
    mailyVariable (c :: rest) = none ∧ replaceAll savedPattern 0 rest = cs := by
  have hnone : mailyVariable (c :: rest) = none := by
    by_contra hsome
    obtain ⟨⟨id, n⟩, hfound⟩ := Option.ne_none_iff_exists'.mp hsome
    -- a match begins with a bracket, and its replacement with a brace
    obtain ⟨tail, htail⟩ := exists_of_mailyVariable (by rw [hfound]; rfl)
    obtain ⟨after, hafter⟩ := replaceAll_found hfound
    have hc := (List.cons.inj (hafter.symm.trans h)).1
    rw [(List.cons.inj htail).1] at hc
    exact absurd hc (by decide)
  rw [replaceAll_markup hnone] at h
  exact ⟨hnone, (List.cons.inj h).2⟩

/-- Pieces that are loaded and saved again are faithful, if no label has an end. -/
theorem faithful_of_saved_loaded (hend : ¬ HasEnd label ps)
    (hbrace : ∀ path, Sum.inr path ∈ ps → '}' ∉ path)
    (h : replaceAll savedPattern 0 (loaded label ps) = pasted placeholder ps) :
    Faithful label ps := by
  induction ps with
  | nil => exact Faithful.nil
  | cons p ps ih =>
      have ih' := ih
        (fun ⟨path, hmem, hpath⟩ => hend ⟨path, List.mem_cons_of_mem p hmem, hpath⟩)
        (fun path hmem => hbrace path (List.mem_cons_of_mem p hmem))
      cases p with
      | inr path =>
          have hnone : afterEnd ((label path).dropWhile (· != '<')) = none := by
            by_contra hsome
            exact hend ⟨path, List.mem_cons_self, Option.isSome_iff_ne_none.mpr hsome⟩
          obtain ⟨hquote, hlabel, hkeeps, hrest⟩ :=
            placeholder_restored (hbrace path List.mem_cons_self) hnone h
          have hfaithful := ih' hrest
          exact hfaithful.cons_placeholder hquote hlabel
            ((keeps_iff path hfaithful.label).mp hkeeps)
      | inl c =>
          obtain ⟨hnone, hrest⟩ := markup_restored h
          have hfaithful := ih' hrest
          refine hfaithful.cons_markup fun hswallowed => ?_
          have hsome : (mailyVariable (c :: loaded label ps)).isSome = true :=
            (isSome_mailyVariable_loaded hfaithful.path hfaithful.label).mpr hswallowed
          exact Option.isSome_iff_ne_none.mp hsome hnone

end Pieces

/-! ### Templates -/

/-- The pieces of a template. -/
def pieces (html : String) : List Piece := cut templateVariable 0 html.toList

/-- What is found of a placeholder. -/
theorem templateVariable_eq_some {cs path : List Char} {n : ℕ}
    (h : templateVariable cs = some (path, n)) :
    '}' ∉ path ∧ placeholder path ≠ [] ∧ n = (placeholder path).length ∧
      placeholder path <+: cs := by
  unfold templateVariable at h
  split at h
  · next hopen =>
    dsimp only at h
    split at h
    · next hclose =>
      obtain ⟨hpath, hn⟩ := Prod.mk.inj (Option.some.inj h)
      have hcs : cs = placeholder path ++ ((cs.drop 2).dropWhile (· != '}')).drop 2 := by
        have hdrop := List.takeWhile_append_dropWhile (p := (· != '}')) (l := cs.drop 2)
        rw [hpath] at hdrop
        calc cs = cs.take 2 ++ cs.drop 2 := (List.take_append_drop 2 cs).symm
          _ = ['{', '{'] ++ (path ++ (cs.drop 2).dropWhile (· != '}')) := by rw [hopen, hdrop]
          _ = ['{', '{'] ++ (path ++ (((cs.drop 2).dropWhile (· != '}')).take 2 ++
                ((cs.drop 2).dropWhile (· != '}')).drop 2)) := by rw [List.take_append_drop]
          _ = _ := by rw [hclose.2]; simp [placeholder]
      refine ⟨fun hmem => ?_, nofun, ?_, hcs ▸ List.prefix_append _ _⟩
      · rw [← hpath] at hmem
        have hne := List.all_eq_true.mp List.all_takeWhile '}' hmem
        exact absurd hne (by decide)
      · rw [← hn, hpath]
        simp [placeholder]
        omega
    · cases h
  · cases h

theorem pasted_pieces (html : String) : pasted placeholder (pieces html) = html.toList := by
  refine pasted_cut (fun cs path n h => ?_) html.toList
  obtain ⟨-, hne, hn, hprefix⟩ := templateVariable_eq_some h
  exact ⟨hne, hn, hprefix⟩

/-- A template is loaded and saved again. -/
def Restored (html : String) (variableDefinitions : List VariableDefinition) : Prop :=
  mailyVariablesToText (textToMailyVariables html variableDefinitions) = html

/-- Saving has to find every element that loading has made, and no other. -/
theorem restored_iff_pasted (html : String) (variableDefinitions : List VariableDefinition) :
    Restored html variableDefinitions ↔
      replaceAll savedPattern 0 (loaded (labelOf variableDefinitions) (pieces html)) =
        pasted placeholder (pieces html) := by
  have hload : replaceAll (loadedPattern (labelOf variableDefinitions)) 0 html.toList =
      loaded (labelOf variableDefinitions) (pieces html) := replaceAll_eq_pasted
        (f := fun path => variableElement path (labelOf variableDefinitions path)) 0 html.toList
  unfold Restored mailyVariablesToText textToMailyVariables
  rw [hload, String.toList_ofList, pasted_pieces]
  constructor
  · intro h
    have hlist := congrArg String.toList h
    rwa [String.toList_ofList] at hlist
  · intro h
    rw [h, String.ofList_toList]

/-- **A template is loaded and saved again if** no path has a quote or ends in an attribute that
takes an id, no label has a bracket, and no tag swallows an element; and only then, but for
labels with an end. -/
theorem restored_of_faithful (html : String) (variableDefinitions : List VariableDefinition) :
    (Faithful (labelOf variableDefinitions) (pieces html) → Restored html variableDefinitions) ∧
      (Restored html variableDefinitions →
        Faithful (labelOf variableDefinitions) (pieces html) ∨
          HasEnd (labelOf variableDefinitions) (pieces html)) := by
  rw [restored_iff_pasted]
  refine ⟨saved_loaded, fun h => ?_⟩
  by_cases hend : HasEnd (labelOf variableDefinitions) (pieces html)
  · exact Or.inr hend
  · refine Or.inl (faithful_of_saved_loaded hend (fun path hmem => ?_) h)
    obtain ⟨cs, n, hfound⟩ := exists_find_of_mem_cut hmem
    exact (templateVariable_eq_some hfound).1

-- an end in a label and a tag that swallows can make up for each other
example : Restored "\x7b\x7bp\x7d\x7d\x7b\x7b\x7d\x7d<span \x7d\x7d\x7b\x7b\x7d\x7d\x7b\x7bq\x7d\x7d"
    [⟨"p", "a</span><span data-id=\"\x7d\x7d<span \">"⟩] := by
  unfold Restored
  decide +kernel

/-- A placeholder in the title of an element takes the start of the tag with it. -/
theorem not_restored :
    ¬ dataID <:+: "<span title=\"\x7b\x7bname\x7d\x7d\">x</span>".toList ∧
      ¬ Restored "<span title=\"\x7b\x7bname\x7d\x7d\">x</span>" [] := by
  constructor
  · decide +kernel
  · unfold Restored
    decide +kernel

end Iwifunni.Web
