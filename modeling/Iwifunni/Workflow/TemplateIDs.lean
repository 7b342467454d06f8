/-
Iwifunni/Workflow/TemplateIDs.lean

The templates of a workflow, given for each channel.

The keys are normalized, and several of them may become the same channel:

    { "email": A, " Email ": B }     -->     { "email": A }  or  { "email": B }

Which one is kept depends on the order in which Go goes through the map, which is a
different one every time.  Whether there is an error does not depend on it: an entry is
rejected by itself.  So the order does not matter, and nothing is lost, exactly if the
entries of one channel agree (`orderFree_iff`).
-/
import Iwifunni.Go.Fields
import Iwifunni.Workflow.LastWrite

namespace Iwifunni.Workflow

open Go

/-- The channel a key is for. -/
def channelOf (key : String) : String := toLower (trimSpace key)

/-- What `normalizeTemplateIDs` returns when it goes through the map in this order: the text
of the JSON object has its keys sorted. -/
def templateIDsJson (channels : List String) (order : List (String × String)) :
    Except GoError Json :=
  (normalizeTemplateIDs channels [] order).map fun normalized =>
    stringMapJson (sortedFields normalized)

/-- The value of a key of a JSON object. -/
def templateAt (json : Json) (channel : String) : Option Json :=
  match json with
  | .obj fields => Json.lookup fields channel
  | _ => none

/-- An entry that is not rejected: its channel is one of these, and its template, if there
is one, is a UUID. -/
structure EntryAccepted (channels : List String) (entry : String × String) : Prop where
  channel : channelOf entry.1 ∈ channels
  template : trimSpace entry.2 = "" ∨ UUID.parse (trimSpace entry.2) ≠ none

/-- Entries for the same channel have the same template. -/
def Agree (templateIDs : List (String × String)) : Prop :=
  ∀ f ∈ templateIDs, ∀ g ∈ templateIDs, trimSpace f.2 ≠ "" → trimSpace g.2 ≠ "" →
    channelOf f.1 = channelOf g.1 → trimSpace f.2 = trimSpace g.2

/-- The order does not matter, and every template is kept. -/
structure OrderFree (channels : List String) (templateIDs : List (String × String)) : Prop where
  same : ∀ order order', order.Perm templateIDs → order'.Perm templateIDs →
    templateIDsJson channels order = templateIDsJson channels order'
  kept : ∀ order json, order.Perm templateIDs → templateIDsJson channels order = .ok json →
    ∀ f ∈ templateIDs, trimSpace f.2 ≠ "" →
      templateAt json (channelOf f.1) = some (.str (trimSpace f.2))

section

variable {channels : List String} {templateIDs order : List (String × String)}

/-! ### Errors -/

/-- An entry is rejected by itself. -/
theorem normalizeTemplateIDs_eq_ok_iff {normalized : List (String × String)} :
    (∃ m, normalizeTemplateIDs channels normalized order = .ok m) ↔
      ∀ f ∈ order, EntryAccepted channels f := by
  induction order generalizing normalized with
  | nil => simp [normalizeTemplateIDs]
  | cons f rest ih =>
      obtain ⟨key, templateID⟩ := f
      rw [normalizeTemplateIDs, List.forall_mem_cons]
      split
      · next hchannel =>
        refine iff_of_false ?_ fun h => hchannel h.1.channel
        rintro ⟨m, hm⟩
        cases hm
      next hchannel =>
      have hchannel' : channelOf key ∈ channels := not_not.mp hchannel
      split
      · next hblank =>
        rw [ih]
        exact ⟨fun h => ⟨⟨hchannel', Or.inl hblank⟩, h⟩, fun h => h.2⟩
      next hblank =>
      split
      · next huuid =>
        refine iff_of_false ?_ fun h => ?_
        · rintro ⟨m, hm⟩
          cases hm
        · exact h.1.template.elim hblank fun hne => hne huuid
      · next huuid =>
        rw [ih]
        exact ⟨fun h => ⟨⟨hchannel', Or.inr huuid⟩, h⟩, fun h => h.2⟩

/-- There is one error only. -/
theorem eq_invalidWorkflow {normalized : List (String × String)} {e : GoError}
    (h : normalizeTemplateIDs channels normalized order = .error e) : e = .invalidWorkflow := by
  induction order generalizing normalized with
  | nil => cases h
  | cons f rest ih =>
      obtain ⟨key, templateID⟩ := f
      rw [normalizeTemplateIDs] at h
      split at h
      · exact (Except.error.inj h).symm
      split at h
      · exact ih h
      split at h
      · exact (Except.error.inj h).symm
      · exact ih h

/-- With an entry that is rejected there is an error, wherever it comes. -/
theorem templateIDsJson_eq_error (h : ¬ ∀ f ∈ order, EntryAccepted channels f) :
    templateIDsJson channels order = .error .invalidWorkflow := by
  rcases hrun : normalizeTemplateIDs channels [] order with e | m
  · rw [templateIDsJson, hrun, eq_invalidWorkflow hrun]
    rfl
  · exact absurd (normalizeTemplateIDs_eq_ok_iff.mp ⟨m, hrun⟩) h

/-! ### What is kept -/

/-- The template of a channel is the one all its entries have. -/
theorem lookup_of_agree {m : List (String × String)} (hagree : Agree order)
    (h : normalizeTemplateIDs channels [] order = .ok m) {f : String × String} (hf : f ∈ order)
    (hne : trimSpace f.2 ≠ "") : Json.lookup m (channelOf f.1) = some (trimSpace f.2) := by
  rw [normalizeTemplateIDs_ok h]
  rcases hfind : order.reverse.find? fun g =>
      toLower (trimSpace g.1) == channelOf f.1 && trimSpace g.2 != "" with - | g
  · have hnone := List.find?_eq_none.mp hfind f (List.mem_reverse.mpr hf)
    simp [channelOf, hne] at hnone
  · have hg := List.mem_reverse.mp (List.mem_of_find?_eq_some hfind)
    have hmatch := List.find?_some hfind
    simp only [Bool.and_eq_true, beq_iff_eq, bne_iff_ne] at hmatch
    rw [hfind, hagree f hf g hg hne hmatch.2 hmatch.1.symm]
    rfl

/-- A channel has a template only from an entry for it. -/
theorem exists_of_lookup {m : List (String × String)}
    (h : normalizeTemplateIDs channels [] order = .ok m) {c templateID : String}
    (hlookup : Json.lookup m c = some templateID) :
    ∃ f ∈ order, channelOf f.1 = c ∧ trimSpace f.2 ≠ "" ∧ trimSpace f.2 = templateID := by
  rw [normalizeTemplateIDs_ok h] at hlookup
  rcases hfind : order.reverse.find? fun g =>
      toLower (trimSpace g.1) == c && trimSpace g.2 != "" with - | g
  · rw [hfind] at hlookup
    cases hlookup
  · have hmatch := List.find?_some hfind
    simp only [Bool.and_eq_true, beq_iff_eq, bne_iff_ne] at hmatch
    rw [hfind] at hlookup
    exact ⟨g, List.mem_reverse.mp (List.mem_of_find?_eq_some hfind), hmatch.1, hmatch.2,
      Option.some.inj hlookup⟩

theorem templateAt_stringMapJson (m : List (String × String)) (c : String) :
    templateAt (stringMapJson (sortedFields m)) c = (Json.lookup m c).map Json.str := by
  have hmap : ∀ l : List (String × String),
      Json.lookup (l.map fun f => (f.1, Json.str f.2)) c = (Json.lookup l c).map Json.str := by
    intro l
    rw [Json.lookup, Json.lookup, ← List.map_reverse, List.find?_map, Option.map_map,
      Option.map_map]
    rfl
  show Json.lookup ((sortedFields m).map fun f => (f.1, Json.str f.2)) c = _
  rw [hmap, lookup_sortedFields]

/-- Entries that agree are the same in any order. -/
theorem lookup_congr {order' m m' : List (String × String)} (hagree : Agree order)
    (hperm : order'.Perm order) (h : normalizeTemplateIDs channels [] order = .ok m)
    (h' : normalizeTemplateIDs channels [] order' = .ok m') (c : String) :
    Json.lookup m c = Json.lookup m' c := by
  have hagree' : Agree order' := fun f hf g hg =>
    hagree f (hperm.mem_iff.mp hf) g (hperm.mem_iff.mp hg)
  rcases hlookup : Json.lookup m c with - | templateID
  · rcases hlookup' : Json.lookup m' c with - | templateID
    · rfl
    · obtain ⟨f, hf, rfl, hne, rfl⟩ := exists_of_lookup h' hlookup'
      rw [lookup_of_agree hagree h (hperm.mem_iff.mp hf) hne] at hlookup
      cases hlookup
  · obtain ⟨f, hf, rfl, hne, rfl⟩ := exists_of_lookup h hlookup
    rw [lookup_of_agree hagree' h' (hperm.mem_iff.mpr hf) hne]

/-- **The order does not matter and nothing is lost exactly if** an entry is rejected, or the
entries for one channel agree. -/
theorem orderFree_iff : OrderFree channels templateIDs ↔
    ((∀ f ∈ templateIDs, EntryAccepted channels f) → Agree templateIDs) := by
  constructor
  · intro h haccepted f hf g hg hne hne' hchannel
    obtain ⟨m, hm⟩ := normalizeTemplateIDs_eq_ok_iff.mpr haccepted
    have hjson : templateIDsJson channels templateIDs =
        .ok (stringMapJson (sortedFields m)) := by
      rw [templateIDsJson, hm]
      rfl
    -- both entries are kept under the one key
    have hf' := h.kept _ _ (List.Perm.refl _) hjson f hf hne
    have hg' := h.kept _ _ (List.Perm.refl _) hjson g hg hne'
    rw [hchannel, hg'] at hf'
    exact (Json.str.inj (Option.some.inj hf')).symm
  · intro hagree
    by_cases haccepted : ∀ f ∈ templateIDs, EntryAccepted channels f
    · -- every order passes, and finds the same templates
      have hok : ∀ {order}, order.Perm templateIDs →
          ∃ m, normalizeTemplateIDs channels [] order = .ok m := fun hperm =>
        normalizeTemplateIDs_eq_ok_iff.mpr fun f hf => haccepted f (hperm.mem_iff.mp hf)
      have hagrees : ∀ {order}, order.Perm templateIDs → Agree order := fun hperm f hf g hg =>
        hagree haccepted f (hperm.mem_iff.mp hf) g (hperm.mem_iff.mp hg)
      constructor
      case same =>
        intro order order' hperm hperm'
        obtain ⟨m, hm⟩ := hok hperm
        obtain ⟨m', hm'⟩ := hok hperm'
        have hlookup := lookup_congr (hagrees hperm) (hperm'.trans hperm.symm) hm hm'
        rw [templateIDsJson, templateIDsJson, hm, hm']
        show Except.ok (stringMapJson (sortedFields m)) = .ok (stringMapJson (sortedFields m'))
        rw [sortedFields_congr hlookup]
      case kept =>
        intro order json hperm hjson f hf hne
        obtain ⟨m, hm⟩ := hok hperm
        rw [templateIDsJson, hm] at hjson
        obtain rfl := Except.ok.inj hjson
        rw [templateAt_stringMapJson, lookup_of_agree (hagrees hperm) hm (hperm.mem_iff.mpr hf) hne]
        rfl
    · -- an entry that is rejected is there in every order
      have herror : ∀ {order}, order.Perm templateIDs →
          templateIDsJson channels order = .error .invalidWorkflow := fun hperm =>
        templateIDsJson_eq_error fun h => haccepted fun f hf => h f (hperm.mem_iff.mpr hf)
      constructor
      case same =>
        intro order order' hperm hperm'
        rw [herror hperm, herror hperm']
      case kept =>
        intro order json hperm hjson
        rw [herror hperm] at hjson
        cases hjson

end

namespace Sample

/-- Two keys for the same channel, with a template each. -/
def emailTwice : List (String × String) :=
  [("email", "00000000-0000-0000-0000-000000000001"),
    (" Email ", "00000000-0000-0000-0000-000000000002")]

end Sample

/-- The template that is kept depends on the order. -/
theorem not_orderFree :
    (Sample.emailTwice.map Prod.fst).Nodup ∧ normalizeChannels ["email"] = .ok ["email"] ∧
      ¬ OrderFree ["email"] Sample.emailTwice := by
  refine ⟨by decide, by decide, fun h => ?_⟩
  have haccepted : ∀ f ∈ Sample.emailTwice, EntryAccepted ["email"] f := by
    intro f hf
    rcases List.mem_pair.mp hf with rfl | rfl
    · exact ⟨by decide, Or.inr (by decide +kernel)⟩
    · exact ⟨by decide, Or.inr (by decide +kernel)⟩
  obtain ⟨m, hm⟩ := normalizeTemplateIDs_eq_ok_iff.mpr haccepted
  have hjson : templateIDsJson ["email"] Sample.emailTwice =
      .ok (stringMapJson (sortedFields m)) := by
    rw [templateIDsJson, hm]
    rfl
  -- there is one value for two templates
  have hfirst := h.kept _ _ (List.Perm.refl _) hjson _ (List.mem_cons_self ..) (by decide)
  have hsecond := h.kept _ _ (List.Perm.refl _) hjson _
    (List.mem_cons_of_mem _ (List.mem_cons_self ..)) (by decide)
  have hchannel : channelOf " Email " = channelOf "email" := by decide
  rw [hchannel, hfirst] at hsecond
  have hequal := Json.str.inj (Option.some.inj hsecond)
  revert hequal
  decide

end Iwifunni.Workflow
