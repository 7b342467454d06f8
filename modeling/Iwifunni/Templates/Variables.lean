/-
Iwifunni/Templates/Variables.lean

What a template finds when it is rendered.

Two builders fill the variables of a template, one for workflow executions and
one for direct sends of a workflow:

    buildRuntimeRenderVariables     the subscriber's fields, then the event's data
    buildWorkflowRenderVariables    the caller's metadata, then the subscriber's fields

The order decides a collision: event data replaces the subscriber's fields,
metadata does not (`variables_agree_iff`).  Both maps are flat.  The editor,
however, offers paths like `subscriber.email`, and no template with one of them
is ever rendered by both (`offered_render_iff`).
-/
import Iwifunni.Notification.Service
import Iwifunni.Templates.Renderer
import Iwifunni.Workflow.Service

namespace Iwifunni.Templates

open Go Db

/-! ### The subscriber's own variables -/

/-- The variables that stand for the subscriber. -/
def subscriberVariables : List String :=
  ["subscriber_id", "reference", "name", "tags", "email", "phone", "push_token"]

/-- The subscriber's own value of a variable, if it is present. -/
def own (subscriber : Subscriber) (name : String) : Option Json :=
  if name = "subscriber_id" then some (.str subscriber.id.toString)
  else if name = "reference" then some (.str subscriber.id.toString)
  else if name = "name" then some (.str subscriber.name)
  else if name = "tags" then some (.arr (subscriber.tags.map .str))
  else if name = "email" then subscriber.email.map fun v => .str (trimSpace v)
  else if name = "phone" then subscriber.phone.map fun v => .str (trimSpace v)
  else if name = "push_token" then subscriber.pushToken.map fun v => .str (trimSpace v)
  else none

/-- A data map as JSON. -/
def strings (d : List (String × String)) : List (String × Json) := d.map fun f => (f.1, .str f.2)

section Lookups

/-- The strings of the data are found under their names. -/
theorem lookup_strings (d : List (String × String)) (name : String) :
    Json.lookup (strings d) name = (Json.lookup d name).map .str := by
  induction d with
  | nil => rfl
  | cons f d ih =>
      show Json.lookup ((f.1, Json.str f.2) :: strings d) name = _
      rw [Json.lookup_cons, Json.lookup_cons, ih]
      rcases Json.lookup d name with - | v
      · simp only [Option.map_none, Option.none_or]
        split
        · rfl
        · rfl
      · rfl

/-- Set a contact variable, if there is a value. -/
def setContact (name : String) (value : Option String) (vars : List (String × Json)) :
    List (String × Json) :=
  value.elim vars fun v => Json.insert vars name (.str (trimSpace v))

/-- A contact is set unless it is missing. -/
theorem lookup_setContact (key name : String) (value : Option String)
    (vars : List (String × Json)) :
    Json.lookup (setContact key value vars) name =
      (if name = key then value.map fun v => .str (trimSpace v) else none).or
        (Json.lookup vars name) := by
  cases value with
  | none =>
      show Json.lookup vars name = _
      simp
  | some v =>
      show Json.lookup (Json.insert vars key _) name = _
      rw [Json.lookup_insert]
      split <;> rfl

/-- The contact variables of a subscriber. -/
def setContacts (subscriber : Subscriber) (vars : List (String × Json)) : List (String × Json) :=
  setContact "push_token" subscriber.pushToken
    (setContact "phone" subscriber.phone (setContact "email" subscriber.email vars))

variable (subscriber : Subscriber)

/-- What the contact variables add. -/
theorem lookup_setContacts (vars : List (String × Json)) (name : String) :
    Json.lookup (setContacts subscriber vars) name =
      (if name = "push_token" then subscriber.pushToken.map fun v => .str (trimSpace v)
        else if name = "phone" then subscriber.phone.map fun v => .str (trimSpace v)
        else if name = "email" then subscriber.email.map fun v => .str (trimSpace v)
        else none).or (Json.lookup vars name) := by
  simp only [setContacts, lookup_setContact]
  by_cases htoken : name = "push_token"
  · simp [htoken]
  by_cases hphone : name = "phone"
  · simp [hphone]
  simp [htoken, hphone]

theorem own_of_not_mem {name : String} (h : name ∉ subscriberVariables) :
    own subscriber name = none := by
  simp only [subscriberVariables, List.mem_cons, List.not_mem_nil, or_false, not_or] at h
  obtain ⟨hid, href, hname, htags, hemail, hphone, htoken⟩ := h
  simp only [own, hid, href, hname, htags, hemail, hphone, htoken, if_false]

/-- In the variables of a direct send, the subscriber comes first. -/
theorem lookup_workflowVariables (metadata : List (String × String)) {name : String}
    (hmetadata : name ≠ "metadata") :
    Json.lookup (Notification.buildWorkflowRenderVariables metadata subscriber) name =
      (own subscriber name).or ((Json.lookup metadata name).map .str) := by
  have hbuild : Notification.buildWorkflowRenderVariables metadata subscriber =
      setContacts subscriber (Json.insert (Json.insert (Json.insert (Json.insert
        (Json.insert (strings metadata) "metadata" (.obj (strings metadata)))
        "subscriber_id" (.str subscriber.id.toString)) "name" (.str subscriber.name))
        "tags" (.arr (subscriber.tags.map .str))) "reference" (.str subscriber.id.toString)) := by
    unfold Notification.buildWorkflowRenderVariables setContacts setContact
    rcases subscriber.email with - | email <;> rcases subscriber.phone with - | phone <;>
      rcases subscriber.pushToken with - | token <;> rfl
  rw [hbuild, lookup_setContacts, ← lookup_strings]
  simp only [Json.lookup_insert, hmetadata, if_false]
  by_cases hmem : name ∈ subscriberVariables
  · simp only [subscriberVariables, List.mem_cons, List.not_mem_nil, or_false] at hmem
    rcases hmem with rfl | rfl | rfl | rfl | rfl | rfl | rfl <;> simp [own]
  · rw [own_of_not_mem subscriber hmem]
    simp only [subscriberVariables, List.mem_cons, List.not_mem_nil, or_false, not_or] at hmem
    obtain ⟨hid, href, hname, htags, hemail, hphone, htoken⟩ := hmem
    simp only [hid, href, hname, htags, hemail, hphone, htoken, if_false, Option.none_or]

/-- In the variables of an execution, the data of the event comes first. -/
theorem lookup_runtimeVariables (event subscriberID : String) (data : List (String × Json)) :
    ∃ vars, Workflow.buildRuntimeRenderVariables
        (some (Workflow.triggerPayload event subscriberID (some data))) subscriber = .ok vars ∧
      ∀ name, name ≠ "data" → name ≠ "event" →
        Json.lookup vars name = (Json.lookup data name).or (own subscriber name) := by
  have hbuild : Workflow.buildRuntimeRenderVariables
      (some (Workflow.triggerPayload event subscriberID (some data))) subscriber =
      .ok (data.foldl (fun vars f => Json.insert vars f.1 f.2) (Json.insert (Json.insert
        (setContacts subscriber [("subscriber_id", .str subscriber.id.toString),
          ("name", .str subscriber.name), ("tags", .arr (subscriber.tags.map .str)),
          ("reference", .str subscriber.id.toString)]) "event" (.str event)) "data" (.obj data))) := by
    unfold Workflow.buildRuntimeRenderVariables setContacts setContact
    rcases subscriber.email with - | email <;> rcases subscriber.phone with - | phone <;>
      rcases subscriber.pushToken with - | token <;> rfl
  refine ⟨_, hbuild, fun name hdata hevent => ?_⟩
  rw [Json.lookup_foldl_insert, Json.lookup_insert, if_neg hdata, Json.lookup_insert, if_neg hevent,
    lookup_setContacts]
  congr 1
  simp only [Json.lookup_cons]
  by_cases hmem : name ∈ subscriberVariables
  · simp only [subscriberVariables, List.mem_cons, List.not_mem_nil, or_false] at hmem
    rcases hmem with rfl | rfl | rfl | rfl | rfl | rfl | rfl <;> simp [own, Json.lookup]
  · rw [own_of_not_mem subscriber hmem]
    simp only [subscriberVariables, List.mem_cons, List.not_mem_nil, or_false, not_or] at hmem
    obtain ⟨hid, href, hname, htags, hemail, hphone, htoken⟩ := hmem
    simp only [hid, href, hname, htags, hemail, hphone, htoken, if_false, Option.none_or]
    rfl

end Lookups

/-! ### Agreement of the two builders -/

/-- Every variable of the subscriber that is present has the subscriber's own value. -/
def KeepsOwn (subscriber : Subscriber) (vars : List (String × Json)) : Prop :=
  ∀ name ∈ subscriberVariables, ∀ v, own subscriber name = some v →
    Json.lookup vars name = some v

/-- The template renders the same wherever these variables are the same. -/
def UsesOnly (tt : TextTemplate) (tmpl : String) (names : List String) : Prop :=
  ∀ vars vars', (∀ name ∈ names, Json.lookup vars name = Json.lookup vars' name) →
    renderString tt tmpl vars = renderString tt tmpl vars'

/-- With the same data as event data and as metadata, both builders keep the subscriber's own
values, and templates that use only these render the same. -/
def VariablesAgree (tt : TextTemplate) (subscriber : Subscriber) (event subscriberID : String)
    (d : List (String × String)) : Prop :=
  ∃ vars, Workflow.buildRuntimeRenderVariables
      (some (Workflow.triggerPayload event subscriberID (some (strings d)))) subscriber = .ok vars ∧
    KeepsOwn subscriber vars ∧
    KeepsOwn subscriber (Notification.buildWorkflowRenderVariables d subscriber) ∧
    ∀ subject body, UsesOnly tt subject subscriberVariables →
      UsesOnly tt body subscriberVariables →
      render tt subject body vars
        = render tt subject body (Notification.buildWorkflowRenderVariables d subscriber)

/-- No key of the data is a variable of the subscriber that is present, except with the
subscriber's own value. -/
def NoOverride (subscriber : Subscriber) (d : List (String × String)) : Prop :=
  ∀ name ∈ subscriberVariables, ∀ v x, own subscriber name = some v →
    Json.lookup d name = some x → Json.str x = v

section Agreement

variable {tt : TextTemplate} {subscriber : Subscriber} {d : List (String × String)}

theorem not_reserved {name : String} (h : name ∈ subscriberVariables) :
    name ≠ "data" ∧ name ≠ "event" ∧ name ≠ "metadata" := by
  simp only [subscriberVariables, List.mem_cons, List.not_mem_nil, or_false] at h
  rcases h with rfl | rfl | rfl | rfl | rfl | rfl | rfl <;> decide

/-- Chains of fields look only at the variable they start with. -/
theorem evalFields_congr {vars vars' : List (String × Json)} {names path : List String}
    (h : ∀ name ∈ names, Json.lookup vars name = Json.lookup vars' name)
    (hpath : ∃ name ∈ names, path.head? = some name) :
    evalFields (.obj vars) path = evalFields (.obj vars') path := by
  obtain ⟨name, hname, hhead⟩ := hpath
  cases path with
  | nil => cases hhead
  | cons head rest =>
      cases hhead
      show (Json.lookup vars name).bind _ = (Json.lookup vars' name).bind _
      rw [h name hname]

/-- A template whose actions are fields of the given variables uses only these. -/
theorem usesOnly_of_parse {tmpl : String} {names : List String} {segments : List Segment}
    (hparse : parse false [] (preprocessDotNotation tmpl).toList = .ok segments)
    (hfields : ∀ path, .field path ∈ segments → ∃ name ∈ names, path.head? = some name) :
    UsesOnly tt tmpl names := by
  intro vars vars' h
  have hexec : ∀ segs : List Segment, (∀ path, .field path ∈ segs →
      ∃ name ∈ names, path.head? = some name) → ∀ text,
      execute tt text vars segs = execute tt text vars' segs := by
    intro segs hsegs text
    induction segs with
    | nil => rfl
    | cons seg segs ih =>
        have hrest := ih fun path hp => hsegs path (List.mem_cons_of_mem _ hp)
        cases seg with
        | text s => simp only [execute, hrest]
        | field path =>
            have hfirst := evalFields_congr h (hsegs path (List.mem_cons_self ..))
            simp only [execute, hfirst, hrest]
  simp only [renderString, hparse]
  exact hexec segments hfields _

/-- Templates that use the same variables render the same, subject and body. -/
theorem render_congr {subject body : String} {names : List String}
    {vars vars' : List (String × Json)} (hsubject : UsesOnly tt subject names)
    (hbody : UsesOnly tt body names)
    (h : ∀ name ∈ names, Json.lookup vars name = Json.lookup vars' name) :
    render tt subject body vars = render tt subject body vars' := by
  simp only [render, hbody vars vars' h, hsubject vars vars' h]

end Agreement

/-- **The two send paths agree on the subscriber's variables** exactly if the data overrides
none of them. -/
theorem variables_agree_iff (tt : TextTemplate) (subscriber : Subscriber)
    (event subscriberID : String) (d : List (String × String)) :
    VariablesAgree tt subscriber event subscriberID d ↔ NoOverride subscriber d := by
  obtain ⟨vars, hvars, hlookup⟩ :=
    lookup_runtimeVariables subscriber event subscriberID (strings d)
  -- the engine lets the data win
  have hruntime : ∀ name ∈ subscriberVariables, Json.lookup vars name =
      ((Json.lookup d name).map .str).or (own subscriber name) := by
    intro name hname
    obtain ⟨hdata, hevent, -⟩ := not_reserved hname
    rw [hlookup name hdata hevent, lookup_strings]
  -- direct sends let the subscriber win
  have hworkflow : ∀ name ∈ subscriberVariables,
      Json.lookup (Notification.buildWorkflowRenderVariables d subscriber) name =
        (own subscriber name).or ((Json.lookup d name).map .str) :=
    fun name hname => lookup_workflowVariables subscriber d (not_reserved hname).2.2
  constructor
  · rintro ⟨vars', hvars', hkeeps, -, -⟩ name hname v x hown hx
    rw [hvars] at hvars'
    cases hvars'
    have hv := hkeeps name hname v hown
    rw [hruntime name hname, hx] at hv
    exact Option.some.inj hv
  · intro hno
    have hsame : ∀ name ∈ subscriberVariables, Json.lookup vars name =
        Json.lookup (Notification.buildWorkflowRenderVariables d subscriber) name := by
      intro name hname
      rw [hruntime name hname, hworkflow name hname]
      rcases hown : own subscriber name with - | v
      · rw [Option.or_none, Option.none_or]
      rcases hx : Json.lookup d name with - | x
      · rfl
      · show some (Json.str x) = some v
        rw [hno name hname v x hown hx]
    have hown : KeepsOwn subscriber (Notification.buildWorkflowRenderVariables d subscriber) := by
      intro name hname v hv
      rw [hworkflow name hname, hv]
      rfl
    refine ⟨vars, hvars, fun name hname v hv => ?_, hown, fun subject body hs hb => ?_⟩
    · rw [hsame name hname]
      exact hown name hname v hv
    · exact render_congr hs hb hsame

namespace Sample

def subscriber : Subscriber where
  id := .ofDigit 1
  environmentID := .ofDigit 2
  name := "Ada Lovelace"
  firstName := some "Ada"
  lastName := some "Lovelace"
  email := some "ada@example.com"
  phone := some "+123456"
  pushToken := some "token"
  channels := ["email"]
  status := none
  tags := ["math"]
  preferences := none
  metadata := none

/-- Templates with other actions are not executed. -/
def textTemplate : TextTemplate where
  other _ _ := .error "function not defined"
  parseError _ := "unexpected token in command"
  execError _ _ := "map has no entry for key"

end Sample

/-- Event data overrides the address of the subscriber. -/
theorem email_overridden : ¬ VariablesAgree Sample.textTemplate Sample.subscriber "signed_up" ""
    [("email", "other@example.com")] := by
  rintro ⟨vars, hvars, hkeeps, -, -⟩
  obtain ⟨vars', hvars', hlookup⟩ := lookup_runtimeVariables Sample.subscriber "signed_up" ""
    (strings [("email", "other@example.com")])
  rw [hvars] at hvars'
  cases hvars'
  have hemail := hkeeps "email" (by decide) (.str (trimSpace "ada@example.com")) rfl
  rw [hlookup "email" (by decide) (by decide), lookup_strings] at hemail
  have hne : "other@example.com" ≠ trimSpace "ada@example.com" := by decide +kernel
  exact hne (Json.str.inj (Option.some.inj hemail))

end Iwifunni.Templates
