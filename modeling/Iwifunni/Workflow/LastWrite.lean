/-
Iwifunni/Workflow/LastWrite.lean

What a workflow is sent with after any number of calls of `Create` and `Update`.

A call gives channels and templates either as two columns or as a definition.
Both forms write the columns; the reader adds to them what the definition says:

                                channels, template_ids     definition_json
    CreateWorkflow                     written              the default {}
    CreateWorkflowDefinition           written                 written
    UpdateWorkflow                     written                   kept
    UpdateWorkflowDefinition           written                 written

So what is read is what the last call gave, unless that call had the form of
columns and an earlier definition mentions more (`last_write_decides_iff`).
-/
import Iwifunni.Effect.Sequence
import Iwifunni.Workflow.Columns
import Iwifunni.Workflow.Lifecycle

namespace Iwifunni.Workflow

open Go Db Effect Effect.Prog

/-! ### What a call gives -/

/-- The channels of a workflow, and the template of each. -/
structure Given where
  channels : List String
  template : String → Option String

/-- The form of a call. -/
inductive Form
  | definition (d : Definition)
  | columns (channels : List String) (templateIDs : List (String × String))

/-- The definition a call stores. -/
def Form.stores : Form → Option Definition
  | definition d => some d
  | columns _ _ => none

/-- The form of the input of `Create` and `Update`. -/
def formOf (definition : Option Definition) (channels : List String)
    (templateIDs : List (String × String)) : Form :=
  match definition with
  | some d => .definition d
  | none => .columns channels templateIDs

/-- What a call gives: the channels of the notification nodes and the first template_id of
each, or the channels and templates once normalized (of two entries for one channel, the
later one). -/
def Form.given : Form → Given
  | definition d => {
      channels := ((notificationConfigs d).flatMap (·.channels)).eraseDups
      template := fun c => ((notificationConfigs d).find? (links c)).map (·.templateID) }
  | columns channels templateIDs => {
      channels := (channels.map fun c => toLower (trimSpace c)).eraseDups
      template := fun c => (templateIDs.reverse.find? fun f =>
        toLower (trimSpace f.1) == c && trimSpace f.2 != "").map fun f => trimSpace f.2 }

/-- A direct send of the workflow uses what is given. -/
structure ReadsAs (workflow : WorkflowRecord) (given : Given) : Prop where
  channels : (Notification.extractChannelsAndTemplatesFromWorkflow workflow).1 = given.channels
  templates : ∀ c, Json.lookup
    (Notification.extractChannelsAndTemplatesFromWorkflow workflow).2 c = given.template c

/-- The definition mentions no channel, and no channel with a template, beyond those that
are given. -/
def Given.Covers (given : Given) (d : Definition) : Prop :=
  ∀ cfg ∈ notificationConfigs d, ∀ c ∈ cfg.channels,
    c ∈ given.channels ∧ (cfg.templateID ≠ "" → (given.template c).isSome)

/-! ### Normalization -/

/-- `normalizeChannels` adds the channels one after the other. -/
theorem collect_eq_foldl {result cs r : List String}
    (h : normalizeChannels.collect result cs = .ok r) :
    r = (cs.map fun c => toLower (trimSpace c)).foldl addChannel result ∧
      ∀ c ∈ cs.map fun c => toLower (trimSpace c), c ≠ "" := by
  induction cs generalizing result with
  | nil =>
      rw [normalizeChannels.collect] at h
      split at h
      · cases h
      · cases h
        exact ⟨rfl, fun c hc => by cases hc⟩
  | cons c cs ih =>
      rw [normalizeChannels.collect] at h
      split at h
      · next hcanon =>
        have hne : toLower (trimSpace c) ≠ "" := fun he => by
          rw [he] at hcanon
          revert hcanon
          decide
        rw [List.map_cons, List.foldl_cons, addChannel]
        split at h
        · next hold =>
          rw [if_pos (Or.inr hold)]
          exact ⟨(ih h).1, List.forall_mem_cons.mpr ⟨hne, (ih h).2⟩⟩
        · next hnew =>
          rw [if_neg (not_or.mpr ⟨hne, hnew⟩)]
          exact ⟨(ih h).1, List.forall_mem_cons.mpr ⟨hne, (ih h).2⟩⟩
      · cases h

/-- Normalized channels: each once, in the order of their first occurrence. -/
theorem normalizeChannels_ok {channels r : List String} (h : normalizeChannels channels = .ok r) :
    r = (channels.map fun c => toLower (trimSpace c)).eraseDups := by
  obtain ⟨hfold, hne⟩ := collect_eq_foldl h
  rw [hfold, foldl_addChannel hne]
  simp

/-- Normalized templates: the last entry for a channel that is not blank. -/
theorem normalizeTemplateIDs_ok {channels : List String}
    {templateIDs acc m : List (String × String)}
    (h : normalizeTemplateIDs channels acc templateIDs = .ok m) (c : String) :
    Json.lookup m c = ((templateIDs.reverse.find? fun f =>
      toLower (trimSpace f.1) == c && trimSpace f.2 != "").map fun f => trimSpace f.2).or
        (Json.lookup acc c) := by
  induction templateIDs generalizing acc with
  | nil =>
      cases h
      rfl
  | cons f rest ih =>
      obtain ⟨channel, templateID⟩ := f
      rw [normalizeTemplateIDs] at h
      rw [List.reverse_cons, List.find?_append, List.find?_singleton]
      split at h
      · cases h
      split at h
      · next hblank =>
        rw [ih h, hblank]
        simp
      split at h
      · cases h
      next hgiven _ =>
      rw [ih h, Option.map_or, Option.or_assoc]
      refine congrArg (Option.or _) ?_
      by_cases hc : toLower (trimSpace channel) = c
      · subst hc
        simp [Json.lookup_insert_self, hgiven]
      · rw [Json.lookup_insert_of_ne (Ne.symm hc)]
        simp [hc]

/-- What a write stores. -/
theorem buildParams_ok {id environmentID : UUID} {key name : String}
    {description : Option String} {channels : List String}
    {templateIDs : List (String × String)} {arg : WorkflowParams}
    (h : buildParams id environmentID key name description channels templateIDs = .ok arg) :
    arg.id = id ∧ arg.environmentID = environmentID ∧
      normalizeChannels channels = .ok arg.channels ∧
      ∃ m, normalizeTemplateIDs arg.channels [] templateIDs = .ok m ∧
        arg.templateIDs = stringMapJson m := by
  unfold buildParams at h
  rcases hk : normalizeKeyAndName key name with e | ⟨normalizedKey, normalizedName⟩
  · rw [hk] at h
    cases h
  rw [hk] at h
  dsimp only [except_ok_bind] at h
  rcases hc : normalizeChannels channels with e | r
  · rw [hc] at h
    cases h
  rw [hc] at h
  dsimp only [except_ok_bind] at h
  rcases ht : normalizeTemplateIDs r [] templateIDs with e | m
  · rw [ht] at h
    cases h
  · rw [ht] at h
    have harg := Except.ok.inj h
    subst harg
    exact ⟨rfl, rfl, rfl, m, ht, rfl⟩

/-- A template that is given is not empty. -/
theorem Form.template_ne_empty {form : Form} {c templateID : String}
    (h : form.given.template c = some templateID) : templateID ≠ "" := by
  cases form with
  | definition d =>
      obtain ⟨cfg, hcfg, rfl⟩ := Option.map_eq_some_iff.mp h
      have hpred : links c cfg = true := List.find?_some hcfg
      exact (of_decide_eq_true hpred).1
  | columns channels templateIDs =>
      obtain ⟨f, hf, rfl⟩ := Option.map_eq_some_iff.mp h
      have hpred := List.find?_some hf
      rw [Bool.and_eq_true, bne_iff_ne] at hpred
      exact hpred.2

/-! ### What is read -/

/-- A channel has a template, as the reader sees it. -/
def Linked (templateIDs : List (String × String)) (c : String) : Prop :=
  (Json.lookup templateIDs c).getD "" ≠ ""

section Read

variable {workflow : WorkflowRecord} {given : Given} {templateIDs : List (String × String)}
  {d : Definition}

/-- Merging a node adds its channels, and no others. -/
theorem mem_addNodeChannels (cfg : NotificationConfig)
    (acc : List String × List (String × String)) (c : String) :
    c ∈ (Notification.addNodeChannels cfg acc).1 ↔ c ∈ acc.1 ∨ c ∈ cfg.channels := by
  unfold Notification.addNodeChannels
  generalize cfg.channels = cs
  induction cs generalizing acc with
  | nil => simp
  | cons k cs ih =>
      rw [List.foldl_cons, ih, List.mem_cons, ← or_assoc]
      refine or_congr_left ?_
      dsimp only
      split
      · next hold =>
        constructor
        · exact Or.inl
        · rintro (h | rfl)
          · exact h
          · exact hold
      · rw [List.mem_append, List.mem_singleton]

/-- The channels that have a template after one more node. -/
theorem linked_addNodeChannels (cfg : NotificationConfig)
    (acc : List String × List (String × String)) (c : String) :
    Linked (Notification.addNodeChannels cfg acc).2 c
      ↔ Linked acc.2 c ∨ (cfg.templateID ≠ "" ∧ c ∈ cfg.channels) := by
  unfold Notification.addNodeChannels
  generalize cfg.channels = cs
  induction cs generalizing acc with
  | nil => simp
  | cons k cs ih =>
      rw [List.foldl_cons, ih, List.mem_cons, and_or_left, ← or_assoc]
      refine or_congr_left ?_
      dsimp only
      split
      · next hnew =>
        -- the channel k gets its template here
        by_cases hc : c = k
        · subst hc
          refine iff_of_true ?_ (Or.inr ⟨hnew.1, rfl⟩)
          rw [Linked, Json.lookup_insert_self]
          exact hnew.1
        · rw [Linked, Json.lookup_insert_of_ne hc, Linked]
          exact ⟨Or.inl, fun h => h.resolve_right fun hk => hc hk.2⟩
      · next hold =>
        constructor
        · exact Or.inl
        · rintro (h | ⟨hne, rfl⟩)
          · exact h
          · exact fun hblank => hold ⟨hne, hblank⟩

theorem mem_foldl_addNodeChannels (cfgs : List NotificationConfig)
    (acc : List String × List (String × String)) (c : String) :
    c ∈ (cfgs.foldl (fun acc cfg => Notification.addNodeChannels cfg acc) acc).1
      ↔ c ∈ acc.1 ∨ ∃ cfg ∈ cfgs, c ∈ cfg.channels := by
  induction cfgs generalizing acc with
  | nil => simp
  | cons cfg cfgs ih =>
      rw [List.foldl_cons, ih, mem_addNodeChannels, or_assoc]
      simp only [List.mem_cons, exists_eq_or_imp]

theorem linked_foldl_addNodeChannels (cfgs : List NotificationConfig)
    (acc : List String × List (String × String)) (c : String) :
    Linked (cfgs.foldl (fun acc cfg => Notification.addNodeChannels cfg acc) acc).2 c
      ↔ Linked acc.2 c ∨ ∃ cfg ∈ cfgs, cfg.templateID ≠ "" ∧ c ∈ cfg.channels := by
  induction cfgs generalizing acc with
  | nil => simp
  | cons cfg cfgs ih =>
      rw [List.foldl_cons, ih, linked_addNodeChannels, or_assoc]
      simp only [List.mem_cons, exists_eq_or_imp]

/-- **What is read is what the columns give, if they cover the definition beside them.** -/
theorem readsAs_iff (hchannels : workflow.channels = given.channels)
    (hstored : workflow.templateIDs = some (stringMapJson templateIDs))
    (htemplates : ∀ c, Json.lookup templateIDs c = given.template c)
    (hdefinition : workflow.definitionJson = some (marshalDefinition d))
    (hne : ∀ c templateID, given.template c = some templateID → templateID ≠ "") :
    ReadsAs workflow given ↔ given.Covers d := by
  have hread := extract_row hstored hdefinition
  constructor
  · rintro ⟨hsame, hlookup⟩ cfg hcfg c hc
    rw [hread] at hsame hlookup
    refine ⟨?_, fun ht => ?_⟩
    · rw [← hsame, mem_foldl_addNodeChannels]
      exact Or.inr ⟨cfg, hcfg, hc⟩
    -- a template of a node is linked, so the columns must have had it
    · have hlinked := (linked_foldl_addNodeChannels (notificationConfigs d)
        (workflow.channels, templateIDs) c).mpr (Or.inr ⟨cfg, hcfg, ht, hc⟩)
      rw [Linked, hlookup] at hlinked
      rcases hgiven : given.template c with - | templateID
      · rw [hgiven] at hlinked
        exact absurd rfl hlinked
      · rfl
  · intro hcovers
    -- what the columns give already is not changed by merging
    have hsame : (notificationConfigs d).foldl
        (fun acc cfg => Notification.addNodeChannels cfg acc) (workflow.channels, templateIDs)
          = (workflow.channels, templateIDs) := by
      refine foldl_eq_self fun cfg hcfg => addNodeChannels_eq_self (fun c hc => ?_) fun ht c hc => ?_
      · rw [hchannels]
        exact (hcovers cfg hcfg c hc).1
      · obtain ⟨templateID, hgiven⟩ :=
          Option.isSome_iff_exists.mp ((hcovers cfg hcfg c hc).2 ht)
        rw [htemplates, hgiven]
        exact hne c templateID hgiven
    rw [← hread] at hsame
    exact ⟨by rw [hsame]; exact hchannels, fun c => by rw [hsame]; exact htemplates c⟩

/-- Without a definition what is read is what the columns give. -/
theorem readsAs_of_default (hchannels : workflow.channels = given.channels)
    (hstored : workflow.templateIDs = some (stringMapJson templateIDs))
    (htemplates : ∀ c, Json.lookup templateIDs c = given.template c)
    (hdefinition : workflow.definitionJson = some (.obj [])) : ReadsAs workflow given := by
  have hparse : Notification.parseWorkflowTemplateIDs workflow.templateIDs = .ok templateIDs := by
    rw [hstored]
    exact decodeStringMap_stringMapJson _
  have hnodes : Json.unmarshal workflow.definitionJson Notification.decodeWorkflowDef
      = .ok [] := by
    rw [hdefinition]
    rfl
  have hread : Notification.extractChannelsAndTemplatesFromWorkflow workflow
      = (workflow.channels, templateIDs) := by
    unfold Notification.extractChannelsAndTemplatesFromWorkflow
    rw [hparse, hnodes]
    rfl
  exact ⟨by rw [hread]; exact hchannels, fun c => by rw [hread]; exact htemplates c⟩

/-- What a definition gives covers it. -/
theorem covers_self (hd : Accepted d) : (Form.definition d).given.Covers d := by
  intro cfg hcfg c hc
  obtain ⟨channel, hok⟩ := configOk_of_accepted hd hcfg
  refine ⟨List.mem_eraseDups.mpr (List.mem_flatMap.mpr ⟨cfg, hcfg, hc⟩), fun ht => ?_⟩
  show (((notificationConfigs d).find? (links c)).map (·.templateID)).isSome = true
  rw [Option.isSome_map, List.find?_isSome]
  exact ⟨cfg, hcfg, decide_eq_true ⟨ht, hc, hok.ne_empty hc⟩⟩

end Read

/-! ### The calls on a row -/

namespace Admin

abbrev AdminVisit : Type := Visit Rows Request Op.Res GoError Unit

/-- The row a visit saves and the form of the call, if it is a call of `Create` or `Update`
that succeeds. -/
def saved (v : AdminVisit) : Option (UUID × Form) :=
  match v.rest with
  | .ret () => match v.label with
    | .create input => match v.log with
      | ⟨.newUUID, .ok id⟩ :: _ =>
          some (id, formOf input.definition input.channels input.templateIDs)
      | _ => none
    | .update input =>
        some (input.id, formOf input.definition input.channels input.templateIDs)
    | _ => none
  | _ => none

/-- Add a call to the calls on each row. -/
def record (forms : UUID → List Form) : Option (UUID × Form) → UUID → List Form
  | none => forms
  | some (id, form) => Function.update forms id (forms id ++ [form])

/-- The forms of the calls on each row that succeeded, in order. -/
def saves (vs : List AdminVisit) : UUID → List Form :=
  vs.foldl (fun forms v => record forms (saved v)) fun _ => []

/-- The last definition among some calls. -/
def lastDefinition (forms : List Form) : Option Definition :=
  (forms.filterMap Form.stores).getLast?

/-- What the columns of a row have to do with the calls on it: the last one decides the
columns, the last one with a definition decides the definition. -/
structure Stored (row : WorkflowRow) (forms : List Form) : Prop where
  columns : ∃ form templateIDs, forms.getLast? = some form ∧ row.channels = form.given.channels ∧
    row.templateIDs = some (stringMapJson templateIDs) ∧
    ∀ c, Json.lookup templateIDs c = form.given.template c
  definition : row.definitionJson
    = some (((lastDefinition forms).map marshalDefinition).getD (.obj []))
  accepted : ∀ d, lastDefinition forms = some d → Accepted d

/-- The rows of a table have been written by the given calls, and by no others. -/
structure Written (forms : UUID → List Form) (rows : Rows) : Prop where
  nodup : (rows.map fun row => row.id).Nodup
  stored : ∀ row ∈ rows, Stored row (forms row.id)
  fresh : ∀ id, (∀ row ∈ rows, row.id ≠ id) → forms id = []

theorem saves_append (vs : List AdminVisit) (v : AdminVisit) :
    saves (vs ++ [v]) = record (saves vs) (saved v) := by
  rw [saves, List.foldl_append]
  rfl

theorem written_nil : Written (fun _ => []) [] :=
  ⟨List.nodup_nil, fun _ hrow => absurd hrow List.not_mem_nil, fun _ _ => rfl⟩

section Written

variable {forms : UUID → List Form} {rows : Rows} {row : WorkflowRow} {op : Op} {form : Form}
  {id : UUID}

theorem ids_updated (rows : Rows) (op : Op) :
    (rows.updated op).map (fun row => row.id) = rows.map fun row => row.id := by
  rw [Rows.updated, List.map_map]
  refine List.map_congr_left fun row _ => ?_
  show (if op.selects row then op.sets row else row).id = row.id
  split
  · exact sets_id op row
  · rfl

theorem exists_updated (op : Op) (hrow : row ∈ rows) :
    ∃ row' ∈ rows.updated op, row'.id = row.id := by
  have hin : row.id ∈ (rows.updated op).map fun row => row.id := by
    rw [ids_updated]
    exact List.mem_map_of_mem hrow
  exact List.mem_map.mp hin

/-- A statement that sets none of these columns. -/
theorem Written.kept (h : Written forms rows)
    (hsets : ∀ row forms, Stored row forms → Stored (op.sets row) forms) :
    Written forms (rows.updated op) where
  nodup := by
    rw [ids_updated]
    exact h.nodup
  stored row hrow := by
    obtain ⟨old, hold, rfl⟩ := List.mem_map.mp hrow
    split
    · rw [sets_id]
      exact hsets old _ (h.stored old hold)
    · exact h.stored old hold
  fresh id hid := by
    refine h.fresh id fun row hrow => ?_
    obtain ⟨row', hrow', heq⟩ := exists_updated op hrow
    exact heq ▸ hid row' hrow'

/-- An INSERT begins the calls on its row. -/
theorem Written.inserted (h : Written forms rows) (hstored : Stored row [form])
    (hkeys : KeysUnique (rows ++ [row])) :
    Written (record forms (some (row.id, form))) (rows ++ [row]) := by
  have hnodup : ((rows ++ [row]).map fun row => row.id).Nodup := hkeys.1
  have hnew : ∀ old ∈ rows, old.id ≠ row.id := by
    rw [List.map_append, List.nodup_append] at hnodup
    exact fun old hold => hnodup.2.2 old.id (List.mem_map_of_mem hold) row.id (by simp)
  refine ⟨hnodup, fun row' hrow' => ?_, fun id hid => ?_⟩
  · rcases List.mem_append.mp hrow' with hold | hin
    · rw [record, Function.update_of_ne (hnew row' hold)]
      exact h.stored row' hold
    · cases List.mem_singleton.mp hin
      rw [record, Function.update_self, h.fresh row.id hnew]
      exact hstored
  · have hne : row.id ≠ id := hid row (List.mem_append_right _ (List.mem_singleton_self row))
    rw [record, Function.update_of_ne hne.symm]
    exact h.fresh id fun old hold => hid old (List.mem_append_left _ hold)

/-- An UPDATE goes on with the calls on its row. -/
theorem Written.updated (h : Written forms rows) (hrow : row ∈ rows)
    (hsel : op.selects row = true)
    (hsets : ∀ row forms, Stored row forms → Stored (op.sets row) (forms ++ [form])) :
    Written (record forms (some (row.id, form))) (rows.updated op) := by
  refine ⟨?_, fun row' hrow' => ?_, fun id hid => ?_⟩
  · rw [ids_updated]
    exact h.nodup
  · obtain ⟨old, hold, rfl⟩ := List.mem_map.mp hrow'
    by_cases hid : old.id = row.id
    · have heq : old = row := List.inj_on_of_nodup_map h.nodup hold hrow hid
      subst heq
      rw [if_pos hsel, sets_id, record, Function.update_self]
      exact hsets old _ (h.stored old hold)
    · have hother : ¬ op.selects old = true := fun hsel' => by
        have htarget := (selects_iff.mp hsel').symm.trans (selects_iff.mp hsel)
        exact hid (Prod.mk.inj (Option.some.inj htarget)).1
      rw [if_neg hother, record, Function.update_of_ne hid]
      exact h.stored old hold
  · have hne : ∀ old ∈ rows, old.id ≠ id := fun old hold => by
      obtain ⟨row', hrow', heq⟩ := exists_updated op hold
      exact heq ▸ hid row' hrow'
    rw [record, Function.update_of_ne (hne row hrow).symm]
    exact h.fresh id hne

end Written

/-! ### What the statements leave in a row -/

theorem lastDefinition_append (forms : List Form) (form : Form) :
    lastDefinition (forms ++ [form]) = form.stores.or (lastDefinition forms) := by
  rw [lastDefinition, List.filterMap_append]
  cases form with
  | definition d => exact List.getLast?_concat ..
  | columns channels templateIDs =>
      show ((forms.filterMap Form.stores) ++ []).getLast? = _
      rw [List.append_nil]
      rfl

section Statements

variable {id environmentID : UUID} {version : Int32} {key name : String}
  {description : Option String} {d : Definition} {channels : List String}
  {templateIDs : List (String × String)} {row : WorkflowRow} {forms : List Form}

/-- The columns of a call in the form of columns. -/
theorem columns_of_buildParams {arg : WorkflowParams}
    (h : buildParams id environmentID key name description channels templateIDs = .ok arg) :
    arg.channels = (Form.columns channels templateIDs).given.channels ∧
      ∃ m, arg.templateIDs = stringMapJson m ∧
        ∀ c, Json.lookup m c = (Form.columns channels templateIDs).given.template c := by
  obtain ⟨-, -, hchannels, m, htemplates, heq⟩ := buildParams_ok h
  refine ⟨normalizeChannels_ok hchannels, m, heq, fun c => ?_⟩
  rw [normalizeTemplateIDs_ok htemplates c]
  exact Option.or_none

/-- The columns of a call with a definition. -/
theorem columns_of_buildDefinitionParams {arg : WorkflowDefinitionParams}
    (h : buildDefinitionParams id environmentID version key name description d = .ok arg) :
    Accepted d ∧ arg.channels = (Form.definition d).given.channels ∧
      arg.definitionJson = marshalDefinition d ∧
      ∃ m, arg.templateIDs = stringMapJson m ∧
        ∀ c, Json.lookup m c = (Form.definition d).given.template c := by
  obtain ⟨hvalid, hchannels, htemplates, hjson, -⟩ := buildDefinitionParams_ok h
  have hd := accepted_of_validateDefinition hvalid
  exact ⟨hd, hchannels.trans (channelsFromDefinition_of_accepted hd), hjson, _, htemplates,
    lookup_templateIDs d⟩

theorem stored_legacyRow {arg : WorkflowParams}
    (h : buildParams id environmentID key name description channels templateIDs = .ok arg) :
    Stored (legacyRow arg) [.columns channels templateIDs] := by
  obtain ⟨hchannels, m, hstored, hlookup⟩ := columns_of_buildParams h
  exact ⟨⟨_, m, rfl, hchannels, congrArg some hstored, hlookup⟩, rfl, fun d hd => by cases hd⟩

theorem stored_definitionRow {arg : WorkflowDefinitionParams}
    (h : buildDefinitionParams id environmentID version key name description d = .ok arg) :
    Stored (definitionRow arg) [.definition d] := by
  obtain ⟨hd, hchannels, hjson, m, hstored, hlookup⟩ := columns_of_buildDefinitionParams h
  refine ⟨⟨_, m, rfl, hchannels, congrArg some hstored, hlookup⟩, congrArg some hjson, ?_⟩
  intro d' hd'
  cases hd'
  exact hd

/-- `UpdateWorkflow` leaves the definition where it is. -/
theorem stored_update {arg : WorkflowParams} {isActive : Bool}
    (h : buildParams id environmentID key name description channels templateIDs = .ok arg)
    (hrow : Stored row forms) :
    Stored ((Op.update arg isActive).sets row) (forms ++ [.columns channels templateIDs]) := by
  obtain ⟨hchannels, m, hstored, hlookup⟩ := columns_of_buildParams h
  have hlast : lastDefinition (forms ++ [.columns channels templateIDs]) = lastDefinition forms :=
    lastDefinition_append forms _
  refine ⟨⟨_, m, List.getLast?_concat .., hchannels, congrArg some hstored, hlookup⟩, ?_, ?_⟩
  · rw [hlast]
    exact hrow.definition
  · rw [hlast]
    exact hrow.accepted

/-- An update stores its definition, with the columns built of it. -/
theorem stored_updateDefinition {arg : WorkflowDefinitionParams}
    (h : buildDefinitionParams id environmentID version key name description d = .ok arg) :
    Stored ((Op.updateDefinition arg).sets row) (forms ++ [.definition d]) := by
  obtain ⟨hd, hchannels, hjson, m, hstored, hlookup⟩ := columns_of_buildDefinitionParams h
  have hlast : lastDefinition (forms ++ [.definition d]) = some d := lastDefinition_append forms _
  refine ⟨⟨_, m, List.getLast?_concat .., hchannels, congrArg some hstored, hlookup⟩, ?_, ?_⟩
  · rw [hlast]
    exact congrArg some hjson
  · rw [hlast]
    intro d' hd'
    cases hd'
    exact hd

/-- The other columns. -/
theorem Stored.congr {row' : WorkflowRow} (h : Stored row forms)
    (hchannels : row'.channels = row.channels) (htemplates : row'.templateIDs = row.templateIDs)
    (hdefinition : row'.definitionJson = row.definitionJson) : Stored row' forms := by
  obtain ⟨⟨form, m, hlast, hc, ht, hlookup⟩, hd, haccepted⟩ := h
  exact ⟨⟨form, m, hlast, hchannels.trans hc, htemplates.trans ht, hlookup⟩,
    hdefinition.trans hd, haccepted⟩

end Statements

/-! ### What a call leaves in the table -/

section Visits

variable {forms : UUID → List Form} {rows rows' : Rows} {op : Op}

/-- An INSERT that succeeds has added its row, and the keys are unique. -/
theorem call_inserted {row : WorkflowRow} {a : op.Res} (hop : op.inserted = some row)
    (h : Call op rows (.ok a) rows') : rows' = rows ++ [row] ∧ KeysUnique (rows ++ [row]) := by
  have hinsert : ∀ {a}, (rows.insert row).1 = .ok a →
      (rows.insert row).2 = rows ++ [row] ∧ KeysUnique (rows ++ [row]) := by
    intro a ha
    unfold Rows.insert at ha ⊢
    split at ha
    · next hkeys =>
      rw [if_pos hkeys]
      exact ⟨rfl, hkeys⟩
    · cases ha
  generalize hr : (Except.ok a : Except GoError op.Res) = r at h
  cases h with
  | fault => cases hr
  | newUUID => cases hop
  | answer =>
      cases op with
      | createDefinition arg =>
          cases hop
          exact hinsert hr.symm
      | create arg =>
          cases hop
          exact hinsert hr.symm
      | _ => cases hop

/-- An UPDATE that returns a row has found one. -/
theorem call_found {key : UUID × UUID} {a : op.Res} (htarget : op.target = some key)
    (hdelete : ∀ id environmentID, op ≠ .delete id environmentID)
    (h : Call op rows (.ok a) rows') : ∃ row ∈ rows, op.selects row = true := by
  have hfound : ∀ {op : Op} {a}, (rows.update op).1 = .ok a →
      ∃ row ∈ rows, op.selects row = true := by
    intro op a ha
    unfold Rows.update at ha
    split at ha
    · cases ha
    · next row hrow => exact ⟨row, List.mem_of_find?_eq_some hrow, List.find?_some hrow⟩
  generalize hr : (Except.ok a : Except GoError op.Res) = r at h
  cases h with
  | fault => cases hr
  | newUUID => cases htarget
  | answer =>
      cases op with
      | updateDefinition arg => exact hfound hr.symm
      | update arg isActive => exact hfound hr.symm
      | updateStatus id environmentID status => exact hfound hr.symm
      | delete id environmentID => exact absurd rfl (hdelete id environmentID)
      | _ => cases htarget

/-- A statement that fails changes nothing. -/
theorem call_failed {e : GoError} (h : Call op rows (.error e) rows') : rows' = rows := by
  rcases call_cases h with heq | ⟨⟨a, ha⟩, -⟩
  · exact heq
  · cases ha

/-- A program that ends with a statement: it succeeds with it, or nothing has happened. -/
theorem runs_last {tr} {rest : Act Unit}
    (h : Runs Call (perform op >>= fun _ => (ret () : Act Unit)) rows tr rest rows') :
    ((∀ u, rest ≠ .ret u) ∧ rows' = rows) ∨ ∃ a, rest = .ret () ∧ Call op rows (.ok a) rows' := by
  rcases Runs.call_inv h with ⟨-, rfl, rfl⟩ | ⟨r, w₁, tr', -, hcall, hrest⟩
  · exact Or.inl ⟨fun u hu => (by cases hu), rfl⟩
  · rcases r with e | a
    · obtain ⟨-, rfl, rfl⟩ := runs_fail hrest
      exact Or.inl ⟨fun u hu => (by cases hu), call_failed hcall⟩
    · obtain ⟨-, rfl, rfl⟩ := runs_ret hrest
      exact Or.inr ⟨a, rfl, hcall⟩

/-- A call that does not succeed saves nothing. -/
theorem saved_unfinished {v : AdminVisit} (h : ∀ u, v.rest ≠ .ret u) : saved v = none := by
  unfold saved
  split
  · next hrest => exact absurd hrest (h ())
  · rfl

/-- A statement that is neither an INSERT nor an UPDATE. -/
theorem call_read {r : Except GoError op.Res} (hop : op.inserted = none) (htarget : op.target = none)
    (h : Call op rows r rows') : rows' = rows := by
  rcases call_cases h with heq | ⟨-, ⟨row, hrow, -⟩ | heq⟩
  · exact heq
  · rw [hop] at hrow
    cases hrow
  · rw [heq, Rows.updated]
    refine (List.map_congr_left fun row _ => if_neg fun hsel => ?_).trans (List.map_id' rows)
    rw [selects_iff, htarget] at hsel
    cases hsel

/-- What a read finds is the row under both ids. -/
theorem call_getByID_find {id environmentID : UUID} {row : WorkflowRow}
    (h : Call (.getByID id environmentID) rows (.ok row) rows') :
    rows.find? (fun row => row.id == id && row.environmentID == environmentID) = some row := by
  generalize hr : (Except.ok row : Except GoError (Op.getByID id environmentID).Res) = r at h
  cases h with
  | fault => cases hr
  | answer =>
      have hfound : World.orNoRows (rows.find? fun row =>
          row.id == id && row.environmentID == environmentID) = .ok row := hr.symm
      rcases hfind : rows.find? (fun row => row.id == id && row.environmentID == environmentID)
        with - | row'
      · rw [hfind] at hfound
        cases hfound
      · rw [hfind] at hfound
        cases hfound
        exact hfind

theorem call_getByID {id environmentID : UUID} {row : WorkflowRow}
    (h : Call (.getByID id environmentID) rows (.ok row) rows') : row.id = id := by
  have hkey := List.find?_some (call_getByID_find h)
  rw [Bool.and_eq_true, beq_iff_eq] at hkey
  exact hkey.1

/-- How a call ends: it has succeeded and the table is as it should be, or nothing has
happened. -/
def Ends (forms : UUID → List Form) (rows : Rows) (rest : Act Unit) (rows' : Rows) : Prop :=
  ((∀ u, rest ≠ .ret u) ∧ rows' = rows) ∨ rest = .ret () ∧ Written forms rows'

/-- The last statement of a call. -/
theorem ends_last {tr} {rest : Act Unit}
    (hsave : ∀ a rows', Call op rows (.ok a) rows' → Written forms rows')
    (hrun : Runs Call (perform op >>= fun _ => (ret () : Act Unit)) rows tr rest rows') :
    Ends forms rows rest rows' := by
  refine (runs_last hrun).imp_right ?_
  rintro ⟨a, hrest, hcall⟩
  exact ⟨hrest, hsave a rows' hcall⟩

/-- The end of a call: its parameters are built, and a statement saves them. -/
theorem ends_built {γ : Type} {built : Except GoError γ} {save : γ → Act WorkflowRow} {tr}
    {rest : Act Unit}
    (hsave : ∀ params, built = .ok params →
      Runs Call (save params >>= fun _ => (ret () : Act Unit)) rows tr rest rows' →
      Ends forms rows rest rows')
    (hrun : Runs Call ((ofExcept built >>= save) >>= fun _ => (ret () : Act Unit)) rows tr rest
      rows') : Ends forms rows rest rows' := by
  cases built with
  | error e =>
      obtain ⟨-, rfl, rfl⟩ := runs_fail hrun
      exact Or.inl ⟨fun u hu => (by cases hu), rfl⟩
  | ok params => exact hsave params rfl hrun

/-- A read that a call begins with. -/
theorem ends_read {next : op.Res → Act WorkflowRow} {tr} {rest : Act Unit}
    (hop : op.inserted = none) (htarget : op.target = none)
    (hnext : ∀ a tr', tr = ⟨op, .ok a⟩ :: tr' → Call op rows (.ok a) rows →
      Runs Call (next a >>= fun _ => (ret () : Act Unit)) rows tr' rest rows' →
      Ends forms rows rest rows')
    (hrun : Runs Call ((perform op >>= next) >>= fun _ => (ret () : Act Unit)) rows tr rest
      rows') : Ends forms rows rest rows' := by
  rcases Runs.call_inv hrun with ⟨-, rfl, rfl⟩ | ⟨r, w₁, tr', rfl, hcall, hrest⟩
  · exact Or.inl ⟨fun u hu => (by cases hu), rfl⟩
  have hsame := call_read hop htarget hcall
  subst hsame
  cases r with
  | error e =>
      obtain ⟨-, rfl, rfl⟩ := runs_fail hrest
      exact Or.inl ⟨fun u hu => (by cases hu), rfl⟩
  | ok a => exact hnext a tr' rfl hcall hrest

/-- An UPDATE that a call ends with. -/
theorem written_update {id environmentID : UUID} {form : Form} {a : op.Res}
    (h : Written forms rows) (htarget : op.target = some (id, environmentID))
    (hdelete : ∀ id environmentID, op ≠ .delete id environmentID)
    (hsets : ∀ row forms, Stored row forms → Stored (op.sets row) (forms ++ [form]))
    (hcall : Call op rows (.ok a) rows') : Written (record forms (some (id, form))) rows' := by
  obtain ⟨row, hrow, hsel⟩ := call_found htarget hdelete hcall
  have hid : row.id = id := by
    have hkey := (selects_iff.mp hsel).symm.trans htarget
    exact (Prod.mk.inj (Option.some.inj hkey)).1
  rw [call_updated htarget hcall, ← hid]
  exact h.updated hrow hsel hsets

/-- A statement that writes none of these columns. -/
def Op.Spares (op : Op) : Prop :=
  op.inserted = none ∧ ∀ row forms, Stored row forms → Stored (op.sets row) forms

/-- What `Delete`, `Pause` and `Resume` leave, at any moment. -/
theorem written_spared {p p' : Act Unit} {tr} (hcalls : Calls Op.Spares p)
    (hrun : Runs Call p rows tr p' rows') (h : Written forms rows) : Written forms rows' := by
  induction hrun with
  | stop => exact h
  | call hcall _ ih =>
      refine ih (hcalls.2 _) ?_
      obtain ⟨hop, hsets⟩ := hcalls.1
      rcases call_cases hcall with rfl | ⟨-, ⟨row, hrow, -⟩ | rfl⟩
      · exact h
      · rw [hop] at hrow
        cases hrow
      · exact h.kept hsets

theorem spares_getByID (id environmentID : UUID) : (Op.getByID id environmentID).Spares :=
  ⟨rfl, fun _ _ h => h⟩

theorem spares_updateStatus (id environmentID : UUID) (status : WorkflowStatus) :
    (Op.updateStatus id environmentID status).Spares :=
  ⟨rfl, fun _ _ h => h.congr rfl rfl rfl⟩

theorem spares_delete (id environmentID : UUID) : (Op.delete id environmentID).Spares :=
  ⟨rfl, fun _ _ h => h.congr rfl rfl rfl⟩

/-- The requests that save nothing. -/
theorem calls_spares {request : Request} (hcreate : ∀ input, request ≠ .create input)
    (hupdate : ∀ input, request ≠ .update input) : Calls Op.Spares request.body := by
  cases request with
  | create input => exact absurd rfl (hcreate input)
  | update input => exact absurd rfl (hupdate input)
  | delete id environmentID => exact calls_perform (spares_delete id environmentID)
  | pause id environmentID =>
      refine Calls.bind ?_ fun _ => True.intro
      refine (calls_perform (spares_getByID id environmentID)).bind fun workflow => ?_
      split
      · exact True.intro
      · exact calls_perform (spares_updateStatus id environmentID .paused)
  | resume id environmentID =>
      refine Calls.bind ?_ fun _ => True.intro
      exact calls_perform (spares_updateStatus id environmentID .active)

/-- The parameters are about the row they were built for. -/
theorem buildDefinitionParams_key {id environmentID : UUID} {version : Int32} {key name : String}
    {description : Option String} {d : Definition} {arg : WorkflowDefinitionParams}
    (h : buildDefinitionParams id environmentID version key name description d = .ok arg) :
    arg.id = id ∧ arg.environmentID = environmentID := by
  unfold buildDefinitionParams at h
  rcases hk : normalizeKeyAndName key name with e | ⟨normalizedKey, normalizedName⟩
  · rw [hk] at h
    cases h
  rw [hk] at h
  dsimp only [except_ok_bind] at h
  rcases hv : validateDefinition d with e | u
  · rw [hv] at h
    cases h
  · rw [hv] at h
    have harg := Except.ok.inj h
    subst harg
    exact ⟨rfl, rfl⟩

/-- A visit to `Create` in the form of columns. -/
theorem written_createColumns {id environmentID : UUID} {key name : String}
    {description : Option String} {channels : List String}
    {templateIDs : List (String × String)} {params : WorkflowParams} {row : WorkflowRow}
    (h : Written forms rows)
    (hbuilt : buildParams id environmentID key name description channels templateIDs = .ok params)
    (hcall : Call (.create params) rows (.ok row) rows') :
    Written (record forms (some (id, .columns channels templateIDs))) rows' := by
  obtain ⟨rfl, hkeys⟩ := call_inserted rfl hcall
  have hid : (legacyRow params).id = id := (buildParams_ok hbuilt).1
  rw [← hid]
  exact h.inserted (stored_legacyRow hbuilt) hkeys

/-- A visit to `Create` in the form of a definition. -/
theorem written_createDefinition {id environmentID : UUID} {version : Int32} {key name : String}
    {description : Option String} {d : Definition} {params : WorkflowDefinitionParams}
    {row : WorkflowRow} (h : Written forms rows)
    (hbuilt : buildDefinitionParams id environmentID version key name description d = .ok params)
    (hcall : Call (.createDefinition params) rows (.ok row) rows') :
    Written (record forms (some (id, .definition d))) rows' := by
  obtain ⟨rfl, hkeys⟩ := call_inserted rfl hcall
  have hid : (definitionRow params).id = id := (buildDefinitionParams_key hbuilt).1
  rw [← hid]
  exact h.inserted (stored_definitionRow hbuilt) hkeys

/-- **One call.**  It adds to the calls on the row it saves, and changes no other row. -/
theorem written_visit {v : AdminVisit} (h : Written forms v.before)
    (hv : v.Leaves Request.body Call rows) : Written (record forms (saved v)) rows := by
  obtain ⟨label, before, log, rest⟩ := v
  have hv : Runs Call (Request.body label) before log rest rows := hv
  by_cases hsaves : (∀ input, label ≠ .create input) ∧ ∀ input, label ≠ .update input
  · have hnone : saved ⟨label, before, log, rest⟩ = none := by
      cases label with
      | create input => exact absurd rfl (hsaves.1 input)
      | update input => exact absurd rfl (hsaves.2 input)
      | _ => cases rest <;> rfl
    rw [hnone]
    exact written_spared (calls_spares hsaves.1 hsaves.2) hv h
  -- it is enough to say what the call leaves if it succeeds
  suffices hends : Ends (record forms (saved ⟨label, before, log, .ret ()⟩)) before rest rows by
    rcases hends with ⟨hrest, rfl⟩ | ⟨rfl, hwritten⟩
    · rw [saved_unfinished hrest]
      exact h
    · exact hwritten
  cases label with
  | create input =>
      obtain ⟨environmentID, key, name, description, channels, templateIDs, definition⟩ := input
      cases definition with
      | none =>
          refine ends_read rfl rfl (fun id tr' hlog _ hrun => ?_) hv
          subst hlog
          refine ends_built (fun params hbuilt hrun => ends_last (fun row rows' hcall => ?_) hrun)
            hrun
          exact written_createColumns h hbuilt hcall
      | some d =>
          refine ends_read rfl rfl (fun id tr' hlog _ hrun => ?_) hv
          subst hlog
          refine ends_built (fun params hbuilt hrun => ends_last (fun row rows' hcall => ?_) hrun)
            hrun
          exact written_createDefinition h hbuilt hcall
  | update input =>
      obtain ⟨id, environmentID, key, name, description, channels, templateIDs, isActive,
        definition⟩ := input
      cases definition with
      | none =>
          refine ends_built (fun params hbuilt hrun => ends_last (fun row rows' hcall => ?_) hrun)
            hv
          have htarget : (Op.update params isActive).target = some (id, environmentID) := by
            obtain ⟨rfl, rfl, -⟩ := buildParams_ok hbuilt
            rfl
          exact written_update h htarget (fun _ _ hop => by cases hop)
            (fun row forms hrow => stored_update hbuilt hrow) hcall
      | some d =>
          refine ends_read rfl rfl (fun current tr' hlog hget hrun => ?_) hv
          have hid : current.id = id := call_getByID hget
          refine ends_built (fun params hbuilt hrun => ends_last (fun row rows' hcall => ?_) hrun)
            hrun
          have htarget : (Op.updateDefinition params).target = some (id, params.environmentID) := by
            show some (params.id, params.environmentID) = some (id, params.environmentID)
            rw [(buildDefinitionParams_key hbuilt).1, hid]
          exact written_update h htarget (fun _ _ hop => by cases hop)
            (fun row forms hrow => stored_updateDefinition hbuilt) hcall
  | _ => exact absurd ⟨fun _ hlabel => (by cases hlabel), fun _ hlabel => (by cases hlabel)⟩ hsaves

end Visits

/-- **After any sequence of calls the rows are as the calls on them have left them.** -/
theorem written_of_visits {vs : List AdminVisit} {rows : Rows}
    (h : Visits Request.body Call (fun _ => True) [] vs rows) : Written (saves vs) rows := by
  refine h.invariant (I := fun vs rows => Written (saves vs) rows) (fun vs v rows hI _ hv => ?_)
    written_nil
  rw [saves_append]
  exact written_visit hI hv

/-- If the last of some calls has the form of columns, it covers the definition of the
last one that has a definition. -/
def Superseded (forms : List Form) : Prop :=
  ∀ channels templateIDs d, forms.getLast? = some (.columns channels templateIDs) →
    lastDefinition forms = some d → (Form.columns channels templateIDs).given.Covers d

/-- **The last write decides, if it covers the definition it leaves in place.**  After any
sequence of calls on the service, a direct send of a workflow uses what the last call of
`Create` or `Update` on it gave that succeeded, if and only if that call has a definition,
or gives all channels and templates of the last definition the workflow was given. -/
theorem last_write_decides_iff {vs : List AdminVisit} {rows : Rows} {row : WorkflowRow}
    (h : Visits Request.body Call (fun _ => True) [] vs rows) (hrow : row ∈ rows) :
    (∃ form, (saves vs row.id).getLast? = some form ∧ ReadsAs row.toWorkflowRecord form.given)
      ↔ Superseded (saves vs row.id) := by
  obtain ⟨⟨form, m, hlast, hchannels, hstored, hlookup⟩, hdefinition, haccepted⟩ :=
    (written_of_visits h).stored row hrow
  have hne : ∀ c templateID, form.given.template c = some templateID → templateID ≠ "" :=
    fun c templateID => Form.template_ne_empty
  have hiff : (∃ form, (saves vs row.id).getLast? = some form ∧
      ReadsAs row.toWorkflowRecord form.given) ↔ ReadsAs row.toWorkflowRecord form.given := by
    constructor
    · rintro ⟨form', hform', hreads⟩
      rw [hlast] at hform'
      cases hform'
      exact hreads
    · exact fun hreads => ⟨form, hlast, hreads⟩
  rw [hiff]
  rcases hd : lastDefinition (saves vs row.id) with - | d
  · -- no definition was ever given
    rw [hd] at hdefinition
    refine iff_of_true (readsAs_of_default hchannels hstored hlookup hdefinition) ?_
    intro channels templateIDs d' _ hd'
    rw [hd] at hd'
    cases hd'
  · rw [hd] at hdefinition
    rw [readsAs_iff hchannels hstored hlookup hdefinition hne]
    constructor
    · intro hcovers channels templateIDs d' hlast' hd'
      rw [hlast] at hlast'
      rw [hd] at hd'
      cases hlast'
      cases hd'
      exact hcovers
    · intro hsuperseded
      cases form with
      | columns channels templateIDs => exact hsuperseded channels templateIDs d hlast hd
      | definition d' =>
          -- the last call is the one that stored the definition
          obtain ⟨init, hinit⟩ := List.getLast?_eq_some_iff.mp hlast
          rw [hinit, lastDefinition_append] at hd
          cases hd
          exact covers_self (haccepted d (by rw [hinit, lastDefinition_append]; rfl))

/-! ### An update in the form of columns -/

namespace Sample

/-- A definition of one text message. -/
def textMessage : Definition where
  trigger := ⟨"user.signup"⟩
  nodes := [⟨"text", .notification, some (.obj [
    ("template_id", .str Iwifunni.Workflow.Sample.templateID.toString),
    ("channels", .arr [.str "sms"])])⟩]
  edgeSlice := some []

/-- Create a workflow of one text message. -/
def createText : Request := .create {
  environmentID := environmentID
  key := "welcome"
  name := "Welcome"
  description := none
  channels := []
  templateIDs := []
  definition := some textMessage }

/-- Update it. -/
def updateTo (definition : Option Definition) (channels : List String) : Request := .update {
  id := workflowID
  environmentID := environmentID
  key := "welcome"
  name := "Welcome"
  description := none
  channels := channels
  templateIDs := []
  isActive := true
  definition := definition }

/-- Calls that nobody disturbs, and the table they leave. -/
def visited (requests : List Request) : List AdminVisit × Rows :=
  visits Request.body answer requests []

theorem visits_visited (requests : List Request) :
    Visits Request.body Call (fun _ => True) [] (visited requests).1 (visited requests).2 :=
  visits_of_computed Call.answer requests (.nil _) fun _ _ => True.intro

end Sample

/-- A definition is replaced by another one. -/
theorem last_write_decides_replaced : ∃ row ∈
    (Sample.visited [Sample.createText,
      Sample.updateTo (some Iwifunni.Workflow.Sample.single) []]).2,
    ∃ form, (saves (Sample.visited [Sample.createText,
      Sample.updateTo (some Iwifunni.Workflow.Sample.single) []]).1 row.id).getLast? = some form ∧
      ReadsAs row.toWorkflowRecord form.given := by
  have hrows : (Sample.visited [Sample.createText,
      Sample.updateTo (some Iwifunni.Workflow.Sample.single) []]).2.map (fun row => row.id)
        = [Sample.workflowID] := by decide +kernel
  have hlast : (saves (Sample.visited [Sample.createText,
      Sample.updateTo (some Iwifunni.Workflow.Sample.single) []]).1 Sample.workflowID).getLast?.all
        (fun form => form.stores.isSome) = true := by decide +kernel
  have hin : Sample.workflowID ∈ (Sample.visited [Sample.createText,
      Sample.updateTo (some Iwifunni.Workflow.Sample.single) []]).2.map (fun row => row.id) := by
    rw [hrows]
    exact List.mem_singleton_self _
  obtain ⟨row, hrow, hid⟩ := List.mem_map.mp hin
  refine ⟨row, hrow, (last_write_decides_iff (Sample.visits_visited _) hrow).mpr ?_⟩
  rw [hid]
  intro channels templateIDs d hcolumns
  rw [hcolumns] at hlast
  cases hlast

/-- A definition of a text message is kept by an update that asks for e-mail only, and the
workflow is sent on both channels. -/
theorem both_channels_read : ∃ row ∈
    (Sample.visited [Sample.createText, Sample.updateTo none ["email"]]).2,
    (Notification.extractChannelsAndTemplatesFromWorkflow row.toWorkflowRecord).1
      = ["email", "sms"] ∧
    ¬ ∃ form, (saves (Sample.visited [Sample.createText,
      Sample.updateTo none ["email"]]).1 row.id).getLast? = some form ∧
      ReadsAs row.toWorkflowRecord form.given := by
  have hrows : (Sample.visited [Sample.createText, Sample.updateTo none ["email"]]).2.map
      (fun row => (row.id,
        (Notification.extractChannelsAndTemplatesFromWorkflow row.toWorkflowRecord).1))
        = [(Sample.workflowID, ["email", "sms"])] := by decide +kernel
  have hlast : (saves (Sample.visited [Sample.createText,
      Sample.updateTo none ["email"]]).1 Sample.workflowID).getLast?.all
        (fun form => form.given.channels == ["email"]) = true := by decide +kernel
  have hin : (Sample.workflowID, ["email", "sms"]) ∈
      (Sample.visited [Sample.createText, Sample.updateTo none ["email"]]).2.map
        (fun row => (row.id,
          (Notification.extractChannelsAndTemplatesFromWorkflow row.toWorkflowRecord).1)) := by
    rw [hrows]
    exact List.mem_singleton_self _
  obtain ⟨row, hrow, hpair⟩ := List.mem_map.mp hin
  obtain ⟨hid, hread⟩ := Prod.mk.inj hpair
  refine ⟨row, hrow, hread, ?_⟩
  rintro ⟨form, hform, hreads⟩
  rw [hid] at hform
  rw [hform, Option.all_some, beq_iff_eq] at hlast
  rw [hreads.channels, hlast] at hread
  revert hread
  decide

end Admin

end Iwifunni.Workflow
