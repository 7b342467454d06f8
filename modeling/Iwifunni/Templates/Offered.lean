/-
Iwifunni/Templates/Offered.lean

The variables the editor offers (`DEFAULT_VARIABLE_GROUPS`) at send time.

A template of the editor is text with placeholders between:

    text₀ {{path₁}} text₁ {{path₂}} text₂ ...

The renderer turns each placeholder into a chain of two fields, the first of
them `subscriber` or `workflow`.  No builder provides such a variable, and what
the caller provides under this name in its metadata is a text, which has no
fields.  So a template is rendered on both send paths exactly if it has no
placeholder at all (`offered_render_iff`).
-/
import Iwifunni.Templates.Placeholders
import Iwifunni.Templates.Variables

namespace Iwifunni.Templates

open Go Db

/-! ### Templates of the editor -/

/-- The paths of `DEFAULT_VARIABLE_GROUPS`. -/
def defaultVariables : List String :=
  ["subscriber.id", "subscriber.firstName", "subscriber.lastName", "subscriber.email",
    "subscriber.phone", "subscriber.name", "subscriber.tags", "workflow.id", "workflow.key",
    "workflow.name"]

/-- What stands for a variable: the subscriber's or the workflow's value. -/
def valueOf (subscriber : Subscriber) (workflow : WorkflowRecord) (path : String) : String :=
  if path = "subscriber.id" then subscriber.id.toString
  else if path = "subscriber.firstName" then subscriber.firstName.getD ""
  else if path = "subscriber.lastName" then subscriber.lastName.getD ""
  else if path = "subscriber.email" then subscriber.email.getD ""
  else if path = "subscriber.phone" then subscriber.phone.getD ""
  else if path = "subscriber.name" then subscriber.name
  else if path = "subscriber.tags" then sprint (.arr (subscriber.tags.map .str))
  else if path = "workflow.id" then workflow.id.toString
  else if path = "workflow.key" then workflow.key
  else workflow.name

/-- An offered variable, and the text after it. -/
structure Hole where
  path : String
  offered : path ∈ defaultVariables
  literal : Literal

/-- A template of the editor. -/
structure Pattern where
  literal : Literal
  holes : List Hole

/-- The text of a placeholder and of what follows it. -/
def Hole.text (h : Hole) : List Char :=
  ['{', '{'] ++ h.path.toList ++ ['}', '}'] ++ h.literal.text

/-- The same with the leading dot. -/
def Hole.dotted (h : Hole) : List Char :=
  ['{', '{', '.'] ++ h.path.toList ++ ['}', '}'] ++ h.literal.text

/-- The template as it is stored. -/
def Pattern.text (p : Pattern) : String :=
  String.ofList (p.literal.text ++ p.holes.flatMap Hole.text)

/-- The template with every placeholder replaced by its value. -/
def Pattern.filled (p : Pattern) (subscriber : Subscriber) (workflow : WorkflowRecord) : String :=
  String.ofList (p.literal.text ++ p.holes.flatMap fun h =>
    (valueOf subscriber workflow h.path).toList ++ h.literal.text)

/-! ### The rewriting of placeholders -/

theorem isDotPath_offered : ∀ path ∈ defaultVariables, isDotPath path.toList = true := by
  decide +kernel

/-- **The preprocessed template.** -/
theorem replaceAll_pattern (l : Literal) (holes : List Hole) :
    replaceAll 0 (l.text ++ holes.flatMap Hole.text) = l.text ++ holes.flatMap Hole.dotted := by
  induction holes generalizing l with
  | nil =>
      rw [List.flatMap_nil, List.flatMap_nil, replaceAll_literal [] rfl l.text l.plain]
      rfl
  | cons h holes ih =>
      rw [List.flatMap_cons, List.flatMap_cons,
        replaceAll_literal (h.text ++ holes.flatMap Hole.text) (dotNotation_brace _) l.text l.plain]
      congr 1
      rw [Hole.text, List.append_assoc, replaceAll_dotPath (isDotPath_offered _ h.offered), ih h.literal,
        ← List.append_assoc]
      rfl

/-! ### Parsing -/

/-- The fields of a path. -/
def fieldsOf (path : String) : List String := (path.toList.splitOn '.').map String.ofList

/-- **A preprocessed template is parsed, or it is no template**; what is parsed begins with the
first placeholder. -/
theorem parse_pattern (l : Literal) (holes : List Hole) :
    parse false [] (l.text ++ holes.flatMap Hole.dotted) = .error .malformed ∨
      ∃ segments, parse false [] (l.text ++ holes.flatMap Hole.dotted)
          = .ok (.text l.text :: segments) ∧
        ∀ h ∈ holes.head?, ∃ rest, segments = .field (fieldsOf h.path) :: rest := by
  induction holes generalizing l with
  | nil =>
      refine Or.inr ⟨[], ?_, nofun⟩
      rw [List.flatMap_nil, List.append_nil, parse_text_end l.text l.plain]
      rfl
  | cons h holes ih =>
      have hdotted : ∀ l : List Char, l ++ (h :: holes).flatMap Hole.dotted =
          l ++ '{' :: '{' :: ('.' :: h.path.toList ++ '}' :: '}' ::
            (h.literal.text ++ holes.flatMap Hole.dotted)) := by
        intro l
        simp only [List.flatMap_cons, Hole.dotted, List.append_assoc, List.cons_append,
          List.nil_append]
      -- a brace before the placeholder makes it malformed
      rcases l.before_placeholder with hplain | ⟨front, hfront, hplain⟩
      · rw [hdotted, parse_text l.text hplain, List.nil_append, parse_dotPath (isDotPath_offered _ h.offered)]
        rcases ih h.literal with herr | ⟨segments, hok, -⟩
        · left
          rw [herr]
          rfl
        · right
          rw [hok]
          refine ⟨_, rfl, ?_⟩
          rintro h' ⟨⟩
          exact ⟨_, rfl⟩
      · left
        rw [hdotted, hfront, List.append_assoc, List.singleton_append, parse_text front hplain,
          parse_dotPath_brace (isDotPath_offered _ h.offered)]
        rfl

/-! ### Rendering -/

section Render

variable {tt : TextTemplate} {vars : List (String × Json)}

theorem preprocess_pattern (p : Pattern) :
    (preprocessDotNotation p.text).toList = p.literal.text ++ p.holes.flatMap Hole.dotted := by
  rw [preprocessDotNotation, Pattern.text, String.toList_ofList, String.toList_ofList,
    replaceAll_pattern]

/-- A template without placeholders is its own rendering. -/
theorem renderString_plain {p : Pattern} (hp : p.holes = []) (subscriber : Subscriber)
    (workflow : WorkflowRecord) :
    renderString tt p.text vars = .ok (p.filled subscriber workflow) := by
  have hparse : parse false [] (preprocessDotNotation p.text).toList
      = .ok [.text p.literal.text] := by
    rw [preprocess_pattern, hp, List.flatMap_nil, List.append_nil,
      parse_text_end p.literal.text p.literal.plain, List.nil_append]
  simp only [renderString, hparse, execute, Pattern.filled, hp, List.flatMap_nil, List.append_nil]
  exact congrArg Except.ok (String.append_empty ..)

/-- A template with placeholders is not rendered where no offered variable has a value. -/
theorem renderString_error (tt : TextTemplate) (p : Pattern) (hp : p.holes ≠ [])
    (hvars : ∀ path ∈ defaultVariables, evalFields (.obj vars) (fieldsOf path) = none) :
    ∃ text, renderString tt p.text vars = .error text := by
  rcases parse_pattern p.literal p.holes with herr | ⟨segments, hok, hfirst⟩
  · exact ⟨_, by simp only [renderString, preprocess_pattern, herr]; rfl⟩
  · rcases hholes : p.holes with - | ⟨h, holes⟩
    · exact absurd hholes hp
    · obtain ⟨rest, rfl⟩ := hfirst h (by rw [hholes]; rfl)
      refine ⟨tt.execError (preprocessDotNotation p.text) (fieldsOf h.path), ?_⟩
      simp only [renderString, preprocess_pattern, hok, execute, hvars h.path h.offered]
      rfl

/-- The variables of a direct send have no value for any of the offered ones. -/
theorem evalFields_workflowVariables (metadata : List (String × String))
    (subscriber : Subscriber) {path : String} (hpath : path ∈ defaultVariables) :
    evalFields (.obj (Notification.buildWorkflowRenderVariables metadata subscriber))
      (fieldsOf path) = none := by
  have hgroup : ∀ name field, name ∉ subscriberVariables → name ≠ "metadata" →
      evalFields (.obj (Notification.buildWorkflowRenderVariables metadata subscriber))
        [name, field] = none := by
    intro name field hname hmetadata
    show (Json.lookup _ name).bind _ = none
    rw [lookup_workflowVariables subscriber metadata hmetadata, own_of_not_mem subscriber hname,
      Option.none_or]
    -- a text of the metadata has no fields
    rcases Json.lookup metadata name with - | x <;> rfl
  have hfields : ∀ path ∈ defaultVariables, (fieldsOf path).length = 2 ∧
      ((fieldsOf path).head? = some "subscriber" ∨ (fieldsOf path).head? = some "workflow") := by
    decide +kernel
  obtain ⟨hlength, hhead⟩ := hfields path hpath
  obtain ⟨name, field, hpair⟩ := List.length_eq_two.mp hlength
  rw [hpair] at hhead ⊢
  rcases hhead with hhead | hhead <;> cases hhead
  · exact hgroup "subscriber" field (by decide) (by decide)
  · exact hgroup "workflow" field (by decide) (by decide)

/-- The variables of an execution can always be built. -/
theorem runtimeVariables_ok (event subscriberID : String)
    (data : Option (List (String × Json))) (subscriber : Subscriber) :
    ∃ vars, Workflow.buildRuntimeRenderVariables
      (some (Workflow.triggerPayload event subscriberID data)) subscriber = .ok vars := by
  cases data with
  | none => exact ⟨_, rfl⟩
  | some data =>
      obtain ⟨vars, hvars, -⟩ := lookup_runtimeVariables subscriber event subscriberID data
      exact ⟨vars, hvars⟩

end Render

/-- On both send paths the template is rendered, with the subscriber's or the workflow's value
for each placeholder. -/
structure OfferedRender (tt : TextTemplate) (subject body : Pattern) (subscriber : Subscriber)
    (workflow : WorkflowRecord) (event subscriberID : String)
    (data : Option (List (String × Json))) (metadata : List (String × String)) : Prop where
  runtime : ∃ vars, Workflow.buildRuntimeRenderVariables
      (some (Workflow.triggerPayload event subscriberID data)) subscriber = .ok vars ∧
    render tt subject.text body.text vars
      = .ok (subject.filled subscriber workflow, body.filled subscriber workflow)
  direct : render tt subject.text body.text
      (Notification.buildWorkflowRenderVariables metadata subscriber)
      = .ok (subject.filled subscriber workflow, body.filled subscriber workflow)

/-- **The variables the editor offers render** only where none is used: a template is rendered
on both send paths exactly if neither its subject nor its body has a placeholder. -/
theorem offered_render_iff (tt : TextTemplate) (subject body : Pattern) (subscriber : Subscriber)
    (workflow : WorkflowRecord) (event subscriberID : String)
    (data : Option (List (String × Json))) (metadata : List (String × String)) :
    OfferedRender tt subject body subscriber workflow event subscriberID data metadata ↔
      subject.holes = [] ∧ body.holes = [] := by
  constructor
  · rintro ⟨-, hdirect⟩
    have hvars : ∀ path ∈ defaultVariables, _ := fun _ hpath =>
      evalFields_workflowVariables metadata subscriber hpath
    -- the body comes first, and a placeholder in it is refused
    have hbody : body.holes = [] := by
      by_contra hne
      obtain ⟨text, herr⟩ := renderString_error tt _ hne hvars
      simp only [render, herr, reduceCtorEq] at hdirect
    refine ⟨?_, hbody⟩
    by_contra hne
    -- a subject that is empty would not be rendered
    have hsubject : subject.text ≠ "" := by
      intro hempty
      have hchars := congrArg String.toList hempty
      rw [Pattern.text, String.toList_ofList] at hchars
      obtain ⟨h, holes, hholes⟩ := List.exists_cons_of_ne_nil hne
      rw [hholes, List.flatMap_cons] at hchars
      have hnil := (List.append_eq_nil_iff.mp (List.append_eq_nil_iff.mp hchars).2).1
      cases hnil
    obtain ⟨text, herr⟩ := renderString_error tt _ hne hvars
    simp only [render, renderString_plain hbody subscriber workflow, hsubject, if_false, herr,
      reduceCtorEq] at hdirect
  · rintro ⟨hsubject, hbody⟩
    -- without holes any variables will do
    have hrender : ∀ vars, render tt subject.text body.text vars
        = .ok (subject.filled subscriber workflow, body.filled subscriber workflow) := by
      intro vars
      rw [render, renderString_plain hbody subscriber workflow]
      show (if subject.text = "" then _ else _) = _
      split
      · next hempty =>
          have hfilled : subject.filled subscriber workflow = subject.text := by
            rw [Pattern.filled, Pattern.text, hsubject, List.flatMap_nil, List.flatMap_nil]
          rw [hfilled, hempty]
      · rw [renderString_plain hsubject subscriber workflow]
    obtain ⟨vars, hvars⟩ := runtimeVariables_ok event subscriberID data subscriber
    exact ⟨⟨vars, hvars, hrender vars⟩, hrender _⟩

namespace Sample

/-- A greeting with the first name. -/
def greeting : Pattern where
  literal := ⟨"Hello ".toList, by decide⟩
  holes := [⟨"subscriber.firstName", by decide, noText⟩]

def noSubject : Pattern := ⟨noText, []⟩

def workflow : WorkflowRecord where
  id := .ofDigit 3
  environmentID := .ofDigit 2
  status := .active
  triggerEvent := some "signed_up"
  definitionJson := none
  name := "Welcome"
  key := "welcome"
  channels := ["email"]
  templateIDs := none

end Sample

/-- A greeting with the first name is not rendered. -/
theorem greeting_not_rendered : ¬ OfferedRender Sample.textTemplate Sample.noSubject
    Sample.greeting Sample.subscriber Sample.workflow "signed_up" "" none [] := by
  rintro ⟨-, hdirect⟩
  obtain ⟨text, herr⟩ := renderString_error Sample.textTemplate Sample.greeting
    (List.cons_ne_nil _ _)
    (fun _ hpath => evalFields_workflowVariables [] Sample.subscriber hpath)
  simp only [render, herr, reduceCtorEq] at hdirect

end Iwifunni.Templates
