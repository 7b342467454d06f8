/-
Iwifunni/Web/Conditions.lean

What a condition node compares.

The builder stores the value of a condition as a string, whatever is typed; the
engine looks the field up in the payload of the event and compares printed forms.
A string and a boolean are printed as they are typed.  An integer comes out of the
JSON payload as a `float64`, and from seven digits on that is printed with an
exponent:

    payload       stored value    printed        equals
    "pro"         "pro"           pro            true
    true          "true"          true           true
    120           "120"           120            true
    1000000       "1000000"       1e+06          false

So the comparisons come out as meant exactly for the values that are printed as
they are typed (`compares_iff`).
-/
import Iwifunni.Go.Decimal
import Iwifunni.Web.Draft
import Iwifunni.Workflow.Runtime
import Iwifunni.Workflow.Service

namespace Iwifunni.Web

open Go Workflow

/-! ### Values -/

/-- The values a condition is meant to compare; an integer is one a `float64` holds. -/
inductive Literal
  | str (s : String)
  | bool (b : Bool)
  | int (n : Int) (bound : n.natAbs < 9007199254740992)

/-- The value in a payload. -/
def Literal.json : Literal → Json
  | str s => .str s
  | bool b => .bool b
  | int n _ => .num (.ofInt n)

/-- What is typed for it into the editor. -/
def Literal.text : Literal → String
  | str s => s
  | bool b => if b then "true" else "false"
  | int n _ => n.repr

/-- The values that are printed as they are typed. -/
def Literal.Plain : Literal → Prop
  | str _ => True
  | bool _ => True
  | int n _ => Short n

theorem sprint_json_iff {v : Literal} : sprint v.json = v.text ↔ v.Plain := by
  cases v with
  | str s => exact iff_of_true (by rw [Literal.json, sprint]; rfl) True.intro
  | bool b => exact iff_of_true (by rw [Literal.json, sprint]; rfl) True.intro
  | int n bound =>
      rw [Literal.json, sprint]
      exact formatFloat_ofInt_iff

theorem trim_eq_self {s : String} (h : ∀ c ∈ s.toList, isWhiteSpace c = false) : trim s = s := by
  have hall : ∀ cs : List Char, (∀ c ∈ cs, isWhiteSpace c = false) →
      cs.dropWhile isWhiteSpace = cs := by
    intro cs hcs
    cases cs with
    | nil => rfl
    | cons c cs => simp [hcs c (by simp)]
  rw [trim, hall _ h, List.rdropWhile, hall _ fun c hc => h c (List.mem_reverse.mp hc),
    List.reverse_reverse, String.ofList_toList]

/-- The decimal form of an integer has no white space. -/
theorem trim_repr (n : Int) : trim n.repr = n.repr := by
  apply trim_eq_self
  intro c hc
  rw [toList_repr] at hc
  rcases List.mem_append.mp hc with hsign | hdigit
  · split at hsign
    · rw [List.mem_singleton.mp hsign]
      rfl
    · cases hsign
  · have hrange : 48 ≤ c.toNat ∧ c.toNat ≤ 57 :=
      Char.isDigit_iff_toNat.mp (Nat.isDigit_of_mem_toDigits (by omega) (by omega) hdigit)
    have hspace : ∀ k ∈ List.range 10, isWhiteSpace (Char.ofNat (48 + k)) = false := by decide
    have hc' := hspace (c.toNat - 48) (List.mem_range.mpr (by omega))
    rwa [show 48 + (c.toNat - 48) = c.toNat by omega, Char.ofNat_toNat] at hc'

/-- Trimming changes what is typed only for a string. -/
theorem sprint_json_trim_iff {v : Literal} :
    sprint v.json = trim v.text ↔ v.Plain ∧ trim v.text = v.text := by
  rw [← sprint_json_iff]
  constructor
  · intro h
    have htrim : trim v.text = v.text := by
      cases v with
      | int n bound => exact trim_repr n
      | str s => exact h.symm.trans (sprint_json_iff.mpr True.intro)
      | bool b => exact h.symm.trans (sprint_json_iff.mpr True.intro)
    exact ⟨h.trans htrim, htrim⟩
  · rintro ⟨h, htrim⟩
    exact h.trans htrim.symm

/-! ### Conditions -/

/-- The path of a condition leads to this value of the payload. -/
def Resolves (payload : Json) (field : String) (value : Json) : Prop :=
  ∃ fields, payload.toMap = .ok fields ∧ lookupField fields field = some value

/-- The four operators come out as they should for equal values. -/
def Compares (outcome : String → Except GoError Bool) : Prop :=
  outcome "equals" = .ok true ∧ outcome "contains" = .ok true ∧
    outcome "exists" = .ok true ∧ outcome "not_equals" = .ok false

/-- And the two that tell values apart, for different ones. -/
def TellsApart (outcome : String → Except GoError Bool) : Prop :=
  outcome "equals" = .ok false ∧ outcome "not_equals" = .ok true

/-- The outcomes of the stored condition, by its operator. -/
def outcomeOf (payload : Json) (field stored : String) (operator : String) :
    Except GoError Bool :=
  evaluateCondition (some payload) ⟨field, operator, .str stored⟩

/-- The outcomes of a condition node of the builder, by its operator. -/
def builderOutcome (payload : Json) (node : BuilderNodeDraft) (operator : String) :
    Except GoError Bool :=
  conditionOutcome ⟨trim node.id, .condition,
    draftConfig { node with type := .condition, operator := operator }⟩ (some payload)

section Compare

variable {payload : Json} {field stored : String} {value : Json}

theorem containsChars_self (cs : List Char) : containsChars cs cs = true := by
  cases cs with
  | nil => rfl
  | cons c cs => simp [containsChars]

/-- The comparisons, once the field is found. -/
theorem outcomeOf_eq (h : Resolves payload field value) :
    outcomeOf payload field stored "equals" = .ok (sprint value == stored) ∧
    outcomeOf payload field stored "contains" =
      .ok (contains (toLower (sprint value)) (toLower stored)) ∧
    outcomeOf payload field stored "exists" = .ok true ∧
    outcomeOf payload field stored "not_equals" = .ok (sprint value != stored) := by
  obtain ⟨fields, hmap, hfield⟩ := h
  have hsprint : sprint (.str stored) = stored := by rw [sprint]
  have hop : ∀ op ∈ ["equals", "contains", "exists", "not_equals"],
      toLower (trimSpace op) = op := by decide
  unfold outcomeOf evaluateCondition
  simp only [hmap, hfield, hsprint, hop "equals" (by simp), hop "contains" (by simp),
    hop "exists" (by simp), hop "not_equals" (by simp)]
  simp

/-- Equal values compare as equal exactly if they are printed as they are stored. -/
theorem compares_iff_sprint (h : Resolves payload field value) :
    Compares (outcomeOf payload field stored) ↔ sprint value = stored := by
  obtain ⟨hequals, hcontains, hexists, hnot⟩ := @outcomeOf_eq payload field stored value h
  unfold Compares
  rw [hequals, hcontains, hexists, hnot]
  constructor
  · rintro ⟨heq, -⟩
    exact beq_iff_eq.mp (Except.ok.inj heq)
  · intro heq
    rw [heq]
    refine ⟨by simp, ?_, rfl, by simp⟩
    rw [contains, containsChars_self]

theorem tellsApart_of_ne (h : Resolves payload field value) (hne : sprint value ≠ stored) :
    TellsApart (outcomeOf payload field stored) := by
  obtain ⟨hequals, -, -, hnot⟩ := @outcomeOf_eq payload field stored value h
  unfold TellsApart
  rw [hequals, hnot]
  simp [hne]

/-- What the engine reads of a condition node of the builder. -/
theorem decode_draftConfig (node : BuilderNodeDraft) (hty : node.type = .condition) :
    Json.unmarshal (draftConfig node) decodeConditionConfig =
      .ok ⟨trim node.field, trim node.operator, .str (trim node.value)⟩ := by
  -- no key is taken for another
  have hfold : ∀ key ∈ ["name", "field", "operator", "value"],
      ∀ name ∈ ["field", "operator", "value"], equalFold key name = (key == name) := by decide
  unfold draftConfig
  rw [hty]
  rcases namedConfig_cases node with hnamed | ⟨v, hnamed⟩ <;>
    simp [hnamed, Json.unmarshal, decodeConditionConfig, Json.structFields, Json.field,
      Json.toStr, hfold]

theorem builderOutcome_eq (node : BuilderNodeDraft) (operator : String) :
    builderOutcome payload node operator =
      outcomeOf payload (trim node.field) (trim node.value) (trim operator) := by
  unfold builderOutcome conditionOutcome
  rw [decode_draftConfig _ rfl]
  rfl

/-- The builder's condition compares as the stored one. -/
theorem compares_builderOutcome (node : BuilderNodeDraft) :
    Compares (builderOutcome payload node) ↔
      Compares (outcomeOf payload (trim node.field) (trim node.value)) := by
  have hop : ∀ op ∈ ["equals", "contains", "exists", "not_equals"], trim op = op := by decide
  unfold Compares
  simp only [builderOutcome_eq, hop "equals" (by simp), hop "contains" (by simp),
    hop "exists" (by simp), hop "not_equals" (by simp)]

end Compare

/-! ### Comparing as meant -/

/-- **A condition compares a value of the event as meant exactly if the value is
printed as it is typed**, and, through the builder, typed without white space around
it; two integers are always told apart. -/
theorem compares_iff {eventName subscriberID : String} {data : List (String × Json)}
    {field : String} {v : Literal}
    (h : Resolves (triggerPayload eventName subscriberID (some data)) field v.json) :
    (Compares (outcomeOf (triggerPayload eventName subscriberID (some data)) field v.text) ↔
      v.Plain) ∧
    (∀ node : BuilderNodeDraft, trim node.field = field → node.value = v.text →
      (Compares (builderOutcome (triggerPayload eventName subscriberID (some data)) node) ↔
        v.Plain ∧ trim v.text = v.text)) ∧
    ∀ m n bound, v = .int m bound → m ≠ n →
      TellsApart (outcomeOf (triggerPayload eventName subscriberID (some data)) field n.repr) := by
  refine ⟨?_, ?_, ?_⟩
  · rw [compares_iff_sprint h, sprint_json_iff]
  · rintro node rfl hvalue
    rw [compares_builderOutcome, compares_iff_sprint h, hvalue, sprint_json_trim_iff]
  · rintro m n bound rfl hne
    apply tellsApart_of_ne h
    rw [Literal.json, sprint]
    exact fun heq => hne (formatFloat_ofInt_inj heq)

namespace Sample

/-- The data of an event with a large number of seats. -/
def seats : List (String × Json) :=
  [("plan", .obj [("name", .str "pro"), ("seats", .num (.ofInt 1000000))])]

/-- One million. -/
def million : Literal := .int 1000000 (by decide)

theorem resolves_seats : Resolves (triggerPayload "user.signup" "" (some seats))
    "data.plan.seats" million.json :=
  ⟨_, rfl, rfl⟩

end Sample

theorem compares_iff_seats :
    (Compares (outcomeOf (triggerPayload "user.signup" "" (some Sample.seats)) "data.plan.seats"
      "1000000") ↔ Short 1000000) ∧
    TellsApart (outcomeOf (triggerPayload "user.signup" "" (some Sample.seats))
      "data.plan.seats" "1000001") :=
  have h := compares_iff Sample.resolves_seats
  ⟨h.1, h.2.2 1000000 1000001 _ rfl (by decide)⟩

/-- One million is not equal to "1000000". -/
theorem million_unequal :
    Resolves (triggerPayload "user.signup" "" (some Sample.seats)) "data.plan.seats"
      Sample.million.json ∧
    outcomeOf (triggerPayload "user.signup" "" (some Sample.seats)) "data.plan.seats"
      Sample.million.text "equals" = .ok false ∧
    ¬ Compares (outcomeOf (triggerPayload "user.signup" "" (some Sample.seats))
      "data.plan.seats" Sample.million.text) := by
  have hequals : outcomeOf (triggerPayload "user.signup" "" (some Sample.seats))
      "data.plan.seats" Sample.million.text "equals" = .ok false := by decide +kernel
  refine ⟨Sample.resolves_seats, hequals, ?_⟩
  rintro ⟨htrue, -⟩
  rw [hequals] at htrue
  cases htrue

end Iwifunni.Web
