/-
Iwifunni/Web/Autosave.lean

The two pages that write a workflow without being asked: the builder
(`use-workflow-builder-draft.ts`) and the editor of a channel (`use-channel-config.ts`).

Each sends a whole definition, made from what it loaded when it was opened, and
`Service.Update` puts it in the place of the stored one:

    channel editor   what it loaded, but for template_id and channels of its node,
                     and the payload its text field shows
    builder          what is on the canvas, and no payload

Nobody looks at what was stored in the meantime.  So an autosave of the editor leaves the
rest of the definition alone exactly if what it loaded still is what is stored, and one
of the builder keeps the payload exactly if there is none (`kept_iff`).

The templates an autosave writes first are modelled as well; `Web/Sharing.lean` is about
them.
-/
import Mathlib.Data.List.Forall2
import Mathlib.Logic.Function.Basic
import Iwifunni.Web.Canvas
import Iwifunni.Web.Record
import Iwifunni.Workflow.LastWrite

namespace Iwifunni.Web

open Go Db Workflow Workflow.Admin Effect Effect.Prog

/-! ### Workflows as the pages see them -/

/-- The part of a `WorkflowItem` the pages use. -/
structure WorkflowItem where
  id : UUID
  key : String
  name : String
  description : Option String
  definition : Option Definition

/-- `workflowFromRecord`: a definition that cannot be read is left out. -/
def workflowFromRecord (row : WorkflowRow) : WorkflowItem where
  id := row.id
  key := row.key
  name := row.name
  description := row.description
  definition := (parseDefinition row.definitionJson).toOption.join

/-- What counts as true. -/
def isTruthy : Json → Bool
  | .null => false
  | .bool b => b
  | .num x => !x.digits.isEmpty
  | .str s => s != ""
  | .arr _ | .obj _ => true

/-- The body of `updateWorkflow`, as `Handler.update` passes it on. -/
def updateInput (environmentID : UUID) (workflow : WorkflowItem) (definition : Definition) :
    UpdateInput where
  id := workflow.id
  environmentID := environmentID
  key := workflow.key
  name := workflow.name
  description := workflow.description.filter (· != "")
  channels := []
  templateIDs := []
  isActive := false
  definition := some definition

/-! ### Templates -/

/-- A row of `templates`, with its name. -/
structure TemplateRow extends Db.Template where
  name : String

/-- The key of `UpsertTemplate`. -/
def TemplateRow.keyed (environmentID : UUID) (name channel : String) (t : TemplateRow) : Bool :=
  t.environmentID == environmentID && t.name == name && t.channel == channel

/-- `UpsertTemplate`, with the id `uuid.New` gives: the id of the row, and the rows after it. -/
def upsertTemplate (newID environmentID : UUID) (name channel : String) (subject : Option String)
    (body : String) (templates : List TemplateRow) : UUID × List TemplateRow :=
  match templates.find? (TemplateRow.keyed environmentID name channel) with
  | some t => (t.id, templates.map fun t =>
      if t.keyed environmentID name channel then { t with subject := subject, body := body } else t)
  | none => (newID, templates ++ [⟨⟨newID, environmentID, channel, subject, body, true⟩, name⟩])

/-- `UpdateTemplate`. -/
def updateTemplate (templateID environmentID : UUID) (subject : Option String) (body : String)
    (templates : List TemplateRow) : List TemplateRow :=
  templates.map fun t =>
    if t.id = templateID ∧ t.environmentID = environmentID then
      { t with subject := subject, body := body }
    else t

/-! ### The channel editor -/

/-- How far an autosave has come: its template is about to be saved, or its definition. -/
inductive Task
  | calling (templateId : String) (subject : String) (html : String)
  | saving (savedTemplateId : String)

/-- The state of `useChannelConfig`, once a workflow with a definition is loaded; of the
payload, what `JSON.parse` makes of its text. -/
structure ChannelEditor where
  workflow : WorkflowItem
  definition : Definition
  loaded : workflow.definition = some definition
  node : Node
  channel : String
  templateId : String
  payload : Option Json
  tasks : List Task

/-- What the text of the payload says when the page is opened. -/
def loadedPayload (parse : String → Option Json) (payload : Option Json) : Option Json :=
  match payload with
  | some (.str text) => if text = "" then some (.obj []) else parse text
  | some v => some (if isTruthy v then v else .obj [])
  | none => some (.obj [])

/-- The page of a node, if there is such a notification node. -/
def ChannelEditor.load (parse : String → Option Json) (workflow : WorkflowItem)
    (nodeId : String) : Option ChannelEditor :=
  match h : workflow.definition with
  | none => none
  | some definition =>
      match definition.nodes.find? fun node => node.id == nodeId with
      | none => none
      | some node =>
          if nodeId = "" ∨ node.type ≠ .notification then none
          else some {
            workflow := workflow
            definition := definition
            loaded := h
            node := node
            channel := (firstChannel node.config).getD "email"
            templateId := (configString node.config "template_id").getD ""
            payload := loadedPayload parse definition.payload
            tasks := [] }

/-- `getNodeDisplayName`. -/
def getNodeDisplayName (node : Node) (fallbackNodeId : String) : String :=
  (configName node.config).getD (orElse node.id fallbackNodeId)

/-- The name of a new template. -/
def ChannelEditor.templateName (e : ChannelEditor) : String :=
  e.workflow.name ++ " " ++ getNodeDisplayName e.node e.node.id ++ " " ++ e.channel

/-- The template call of `performAutosave`: the id that is answered and the templates after it.
The handlers want a body, an id that can be read, and a channel they know. -/
def ChannelEditor.saveTemplate (e : ChannelEditor) (newID environmentID : UUID)
    (templateId subject html : String) (templates : List TemplateRow) :
    Option (UUID × List TemplateRow) :=
  let subject :=
    if e.channel = "sms" ∨ trim subject = "" then none else some (trim subject)
  if html = "" then none
  else if templateId = "" then
    if e.channel ∈ ["email", "sms", "push"] then
      some (upsertTemplate newID environmentID e.templateName e.channel subject html templates)
    else none
  else
    match UUID.parse templateId with
    | none => none
    | some savedID =>
        if templates.any fun t => t.id == savedID && t.environmentID == environmentID then
          some (savedID, updateTemplate savedID environmentID subject html templates)
        else none

/-- The config of the node, with its template and its channel. -/
def linkedConfig (config : Option Json) (savedTemplateId channel : String) : Json :=
  .obj (((Record.ofEntries (configFields config)).set "template_id" (.str savedTemplateId)).set
    "channels" (.arr [.str channel])).entries

/-- A node of the definition that is sent. -/
def ChannelEditor.linkedNode (e : ChannelEditor) (savedTemplateId : String) (node : Node) : Node :=
  if node.id = e.node.id then
    { node with config := some (linkedConfig node.config savedTemplateId e.channel) }
  else node

/-- `updatedDefinition`. -/
def ChannelEditor.updatedDefinition (e : ChannelEditor) (savedTemplateId : String) :
    Definition where
  trigger := e.definition.trigger
  nodes := e.definition.nodes.map (e.linkedNode savedTemplateId)
  edgeSlice := e.definition.edgeSlice
  payload := e.payload.filter isTruthy

/-! ### The builder -/

/-- The state of `useWorkflowBuilderDraft`, with the canvas its draft is taken from. -/
structure BuilderPage where
  workflow : WorkflowItem
  canvas : WorkflowCanvas

/-- The page of a workflow, when it is opened or when it takes over what the server has.  There
is none for a definition that has no draft. -/
def BuilderPage.load (layout : Layout) (random : Random) (workflow : WorkflowItem) :
    Option BuilderPage :=
  (builderDraftFromDefinition workflow.definition).map fun draft =>
    { workflow := workflow, canvas := buildCanvasGraphFromDraft layout random draft }

/-- The definition that is sent. -/
def BuilderPage.definition (b : BuilderPage) : Definition :=
  workflowDefinitionFromBuilderDraft (buildDraftFromCanvas b.canvas)

/-- The page after an answer to `updateWorkflow`. -/
def BuilderPage.saved (b : BuilderPage) : Except GoError WorkflowRow → BuilderPage
  | .ok row => { b with workflow := workflowFromRecord row }
  | .error _ => b

/-! ### Pages and tables -/

/-- The tables, and the pages that are open in the browsers. -/
structure Desk where
  rows : Rows
  templates : List TemplateRow
  editors : ℕ → Option ChannelEditor
  builders : ℕ → Option BuilderPage

/-- A page of the channel editor is as it says now. -/
def Desk.setEditor (s : Desk) (page : ℕ) (e : ChannelEditor) : Desk :=
  { s with editors := Function.update s.editors page (some e) }

/-- A page of the builder is as it says now. -/
def Desk.setBuilder (s : Desk) (page : ℕ) (b : BuilderPage) : Desk :=
  { s with builders := Function.update s.builders page (some b) }

/-- What a page does. -/
inductive Action
  | openEditor (page : ℕ)
  | setPayload (page : ℕ)
  | autosave (page : ℕ)
  | saveTemplate (page : ℕ) (newID : UUID)
  | saveDefinition (page : ℕ)
  | openBuilder (page : ℕ)
  | edit (page : ℕ) (action : StoreAction)
  | setup (page : ℕ)
  | autosaveBuilder (page : ℕ)

/-- The row `GetWorkflowByID` finds. -/
def rowOf (environmentID id : UUID) (rows : Rows) : Option WorkflowRow :=
  rows.find? fun row => row.id == id && row.environmentID == environmentID

section Steps

variable (parse : String → Option Json) (layout : Layout) (environmentID : UUID)

/-- `Service.Update` as a whole, with any of its statements failing. -/
def Updates (workflow : WorkflowItem) (definition : Definition) (rows : Rows)
    (out : Except GoError WorkflowRow) (rows' : Rows) : Prop :=
  ∃ log, Runs Admin.Call (Admin.update (updateInput environmentID workflow definition)) rows log
    (ofExcept out) rows'

/-- One step of one page. -/
inductive Desk.Step : Desk → Action → Desk → Prop
  | openEditor {s : Desk} {page id row nodeId e} (hrow : rowOf environmentID id s.rows = some row)
      (hload : ChannelEditor.load parse (workflowFromRecord row) nodeId = some e) :
      Step s (.openEditor page) (s.setEditor page e)
  | setPayload {s : Desk} {page e} (payload : Option Json) (hpage : s.editors page = some e) :
      Step s (.setPayload page) (s.setEditor page { e with payload := payload })
  | autosave {s : Desk} {page e} (subject html : String) (hpage : s.editors page = some e) :
      Step s (.autosave page)
        (s.setEditor page { e with tasks := .calling e.templateId subject html :: e.tasks })
  | saveTemplate {s : Desk} {page e before after templateId subject html newID savedID templates}
      (hpage : s.editors page = some e)
      (htasks : e.tasks = before ++ .calling templateId subject html :: after)
      (hsaved : e.saveTemplate newID environmentID templateId subject html s.templates =
        some (savedID, templates)) :
      Step s (.saveTemplate page newID)
        ({ s with templates := templates }.setEditor page { e with
          templateId := if templateId = "" then savedID.toString else e.templateId
          tasks := before ++ Task.saving savedID.toString :: after })
  | taskFails {s : Desk} {page e before after task newID} (hpage : s.editors page = some e)
      (htasks : e.tasks = before ++ task :: after) :
      Step s (.saveTemplate page newID) (s.setEditor page { e with tasks := before ++ after })
  | saveDefinition {s : Desk} {page e before after savedTemplateId out rows}
      (hpage : s.editors page = some e)
      (htasks : e.tasks = before ++ .saving savedTemplateId :: after)
      (hrun : Updates environmentID e.workflow (e.updatedDefinition savedTemplateId) s.rows out
        rows) :
      Step s (.saveDefinition page)
        ({ s with rows := rows }.setEditor page { e with tasks := before ++ after })
  | openBuilder {s : Desk} {page id row b} (random : Random)
      (hrow : rowOf environmentID id s.rows = some row)
      (hload : BuilderPage.load layout random (workflowFromRecord row) = some b) :
      Step s (.openBuilder page) (s.setBuilder page b)
  | edit {s : Desk} {page b} (random : Random) (action : StoreAction)
      (hpage : s.builders page = some b) :
      Step s (.edit page action)
        (s.setBuilder page { b with canvas := action.apply layout random b.canvas })
  | setup {s : Desk} {page b} (name : String) (description : Option String)
      (hpage : s.builders page = some b) :
      Step s (.setup page)
        (s.setBuilder page { b with
          workflow := { b.workflow with name := name, description := description } })
  | autosaveBuilder {s : Desk} {page b out rows} (hpage : s.builders page = some b)
      (hrun : Updates environmentID b.workflow b.definition s.rows out rows) :
      Step s (.autosaveBuilder page) ({ s with rows := rows }.setBuilder page (b.saved out))

/-- One step, and the desk before and after it. -/
structure Turn where
  before : Desk
  action : Action
  after : Desk

/-- Steps of any pages in any order, all of which meet the condition `C`. -/
inductive Desk.Run (C : Turn → Prop) : Desk → List Turn → Desk → Prop
  | nil (s) : Run C s [] s
  | snoc {s₀ turns s a s'} : Run C s₀ turns s → C ⟨s, a, s'⟩ →
      Desk.Step parse layout environmentID s a s' → Run C s₀ (turns ++ [⟨s, a, s'⟩]) s'

end Steps

/-! ### What an update stores -/

section Updates

variable {environmentID id : UUID} {workflow : WorkflowItem} {d : Definition} {rows rows' : Rows}
  {out : Except GoError WorkflowRow}

/-- The definition of a row that was saved with it. -/
theorem definition_sets {arg : WorkflowDefinitionParams} {row : WorkflowRow}
    (h : arg.definitionJson = marshalDefinition d) :
    (workflowFromRecord ((Op.updateDefinition arg).sets row)).definition = some d := by
  show (parseDefinition (some arg.definitionJson)).toOption.join = some d
  rw [h, parseDefinition_marshalDefinition]
  rfl

/-- An UPDATE answers with the row it was for. -/
theorem row_of_update {arg : WorkflowDefinitionParams} {row : WorkflowRow}
    (h : Admin.Call (.updateDefinition arg) rows (.ok row) rows') : row.id = arg.id := by
  generalize hr : (Except.ok row : Except GoError (Op.updateDefinition arg).Res) = r at h
  cases h with
  | fault => cases hr
  | answer =>
      have hanswer : (rows.update (.updateDefinition arg)).1 = .ok row := hr.symm
      unfold Rows.update at hanswer
      split at hanswer
      · cases hanswer
      next old hold =>
      split at hanswer
      · obtain rfl := Except.ok.inj hanswer
        have htarget := selects_iff.mp (List.find?_some hold)
        rw [sets_id]
        exact congrArg Prod.fst (Option.some.inj htarget).symm
      · cases hanswer

/-- An update is refused, or it saves the definition in the row of the workflow. -/
theorem updates_cases (h : Updates environmentID workflow d rows out rows') :
    rows' = rows ∨ ∃ arg : WorkflowDefinitionParams,
      (rowOf environmentID workflow.id rows).isSome ∧ arg.id = workflow.id ∧
        arg.environmentID = environmentID ∧ arg.definitionJson = marshalDefinition d ∧
        rows' = rows.updated (.updateDefinition arg) := by
  obtain ⟨log, hrun⟩ := h
  rcases runs_perform_bind hrun with ⟨e, -, hcall, -⟩ | ⟨current, w, log', -, hcall, hrest⟩
  · exact Or.inl (call_read rfl rfl hcall)
  obtain rfl := call_read rfl rfl hcall
  have hfound : rowOf environmentID workflow.id w = some current := call_getByID_find hcall
  have hkey : current.id = workflow.id ∧ current.environmentID = environmentID := by
    simpa using List.find?_some hfound
  rcases hbuilt : buildUpdateDefinitionParams current (updateInput environmentID workflow d) d
    with e | arg
  · rw [hbuilt] at hrest
    exact Or.inl (runs_fail hrest).2.2
  rw [hbuilt] at hrest
  have hsave := runs_perform hrest
  cases out with
  | error e => exact Or.inl (call_failed hsave)
  | ok row =>
      refine Or.inr ⟨arg, ?_, ?_, ?_, (buildDefinitionParams_ok hbuilt).2.2.2.1,
        call_updated rfl hsave⟩
      · rw [hfound]
        rfl
      · exact (buildDefinitionParams_key hbuilt).1.trans hkey.1
      · exact (buildDefinitionParams_key hbuilt).2.trans hkey.2

/-- The row that is answered is the one of the workflow. -/
theorem updates_id {row : WorkflowRow} (h : Updates environmentID workflow d rows (.ok row) rows') :
    row.id = workflow.id := by
  obtain ⟨log, hrun⟩ := h
  rcases runs_perform_bind hrun with ⟨e, -, -, herror⟩ | ⟨current, w, log', -, hcall, hrest⟩
  · cases herror
  have hid : current.id = workflow.id := call_getByID hcall
  rcases hbuilt : buildUpdateDefinitionParams current (updateInput environmentID workflow d) d
    with e | arg
  · rw [hbuilt] at hrest
    have hfail : (.ret row : Admin.Act WorkflowRow) = .fail e := (runs_fail hrest).2.1
    cases hfail
  rw [hbuilt] at hrest
  have hsave : Admin.Call (.updateDefinition arg) w (.ok row) rows' := runs_perform hrest
  have hrow := row_of_update hsave
  rw [hrow, (buildDefinitionParams_key hbuilt).1, hid]

/-- An update leaves ids and environments as they are. -/
theorem rowOf_updated (op : Admin.Op) :
    rowOf environmentID id (rows.updated op) =
      (rowOf environmentID id rows).map fun row => if op.selects row then op.sets row else row := by
  have hsame : ((fun row : WorkflowRow => row.id == id && row.environmentID == environmentID) ∘
      fun row => if op.selects row then op.sets row else row) =
        fun row => row.id == id && row.environmentID == environmentID := by
    funext row
    show ((ite _ _ _ : WorkflowRow).id == id && (ite _ _ _ : WorkflowRow).environmentID ==
      environmentID) = _
    split
    · rw [sets_id, sets_environmentID]
    · rfl
  rw [rowOf, Rows.updated, List.find?_map, hsame]
  rfl

variable (environmentID id) in
/-- The definition that is stored for a workflow. -/
def storedDefinition (rows : Rows) : Option Definition :=
  (rowOf environmentID id rows).bind fun row => (workflowFromRecord row).definition

/-- An update is refused, or its definition is the one that is stored. -/
theorem storedDefinition_updates (h : Updates environmentID workflow d rows out rows') :
    rows' = rows ∨ (storedDefinition environmentID workflow.id rows' = some d) := by
  refine (updates_cases h).imp_right ?_
  rintro ⟨arg, hrow, hid, henvironment, hjson, rfl⟩
  obtain ⟨row, hrow⟩ := Option.isSome_iff_exists.mp hrow
  have hkey : row.id = workflow.id ∧ row.environmentID = environmentID := by
    simpa using List.find?_some hrow
  have hsel : (Op.updateDefinition arg).selects row = true := by
    rw [selects_iff, hkey.1, hkey.2, ← hid, ← henvironment]
    rfl
  rw [storedDefinition, rowOf_updated, hrow, Option.map_some, if_pos hsel]
  exact definition_sets hjson

end Updates

/-! ### Definitions that differ at one node -/

/-- The keys of a config an autosave of the channel editor is about. -/
def linkKeys : List String := ["template_id", "channels"]

/-- The node is the same, but for the template and the channels if it is the given one. -/
structure SameNode (nodeId : String) (node node' : Node) : Prop where
  id : node'.id = node.id
  type : node'.type = node.type
  config : node.id ≠ nodeId → node'.config = node.config
  others : node.id = nodeId → ∀ key, key ∉ linkKeys →
    configValue node'.config key = configValue node.config key

/-- The definitions are the same, but for the template and the channels of one node and
for the payload. -/
structure SameBut (nodeId : String) (d d' : Definition) : Prop where
  trigger : d'.trigger = d.trigger
  nodes : List.Forall₂ (SameNode nodeId) d.nodes d'.nodes
  edges : d'.edgeSlice = d.edgeSlice

section SameBut

variable {nodeId : String}

theorem SameNode.symm {node node' : Node} (h : SameNode nodeId node node') :
    SameNode nodeId node' node where
  id := h.id.symm
  type := h.type.symm
  config hne := (h.config (h.id ▸ hne)).symm
  others heq key hkey := (h.others (h.id ▸ heq) key hkey).symm

theorem SameNode.trans {a b c : Node} (hab : SameNode nodeId a b) (hbc : SameNode nodeId b c) :
    SameNode nodeId a c where
  id := hbc.id.trans hab.id
  type := hbc.type.trans hab.type
  config hne := (hbc.config (hab.id ▸ hne)).trans (hab.config hne)
  others heq key hkey := (hbc.others (hab.id ▸ heq) key hkey).trans (hab.others heq key hkey)

theorem SameBut.symm {d d' : Definition} (h : SameBut nodeId d d') : SameBut nodeId d' d where
  trigger := h.trigger.symm
  nodes := (h.nodes.imp fun _ _ => SameNode.symm).flip
  edges := h.edges.symm

theorem forall₂_sameNode_trans {as bs cs : List Node}
    (hab : List.Forall₂ (SameNode nodeId) as bs) (hbc : List.Forall₂ (SameNode nodeId) bs cs) :
    List.Forall₂ (SameNode nodeId) as cs := by
  induction hab generalizing cs with
  | nil =>
      cases hbc
      exact .nil
  | cons h _ ih =>
      cases hbc with
      | cons h' hrest => exact .cons (h.trans h') (ih hrest)

theorem SameBut.trans {a b c : Definition} (hab : SameBut nodeId a b) (hbc : SameBut nodeId b c) :
    SameBut nodeId a c where
  trigger := hbc.trigger.trans hab.trigger
  nodes := forall₂_sameNode_trans hab.nodes hbc.nodes
  edges := hbc.edges.trans hab.edges

/-- What is set is found under the two keys only. -/
theorem configValue_linkedConfig (config : Option Json) (savedTemplateId channel : String)
    {key : String} (h : key ∉ linkKeys) :
    configValue (some (linkedConfig config savedTemplateId channel)) key =
      configValue config key := by
  have hne : key ≠ "template_id" ∧ key ≠ "channels" := by simpa [linkKeys] using h
  have hget : ∀ r : Record Json, configValue (some (.obj r.entries)) key = r.get key := by
    intro r
    have hentries := r.get_ofEntries_entries (fun v => v) key
    rw [Option.map_id', show (r.entries.map fun entry => (entry.1, entry.2)) = r.entries from
      List.map_id' _, Record.get_ofEntries] at hentries
    exact hentries
  rw [linkedConfig, hget, Record.get_set_of_ne _ _ hne.2, Record.get_set_of_ne _ _ hne.1,
    Record.get_ofEntries]
  rfl

/-- **The editor sends what it has loaded**, but for its node and the payload. -/
theorem sameBut_updatedDefinition (e : ChannelEditor) (savedTemplateId : String) :
    SameBut e.node.id e.definition (e.updatedDefinition savedTemplateId) where
  trigger := rfl
  edges := rfl
  nodes := by
    apply List.forall₂_map_right_iff.mpr
    apply List.forall₂_same.mpr
    intro node _
    unfold ChannelEditor.linkedNode
    split
    · next hid =>
      exact ⟨rfl, rfl, fun hne => absurd hid hne, fun _ key hkey =>
        configValue_linkedConfig node.config savedTemplateId e.channel hkey⟩
    · exact ⟨rfl, rfl, fun _ => rfl, fun _ _ _ => rfl⟩

end SameBut

/-! ### Nothing is lost -/

/-- An autosave of the editor changes nothing but the template and the channels of its node and
the payload, and one of the builder does not change the payload. -/
def Turn.Kept (environmentID : UUID) (t : Turn) : Prop :=
  match t.action with
  | .saveDefinition page => ∀ e, t.before.editors page = some e →
      Option.Rel (SameBut e.node.id)
        (storedDefinition environmentID e.workflow.id t.before.rows)
        (storedDefinition environmentID e.workflow.id t.after.rows)
  | .autosaveBuilder page => ∀ b, t.before.builders page = some b →
      (storedDefinition environmentID b.workflow.id t.after.rows).bind (fun d => d.payload) =
        (storedDefinition environmentID b.workflow.id t.before.rows).bind fun d => d.payload
  | _ => True

/-- What an editor saves was made from what is stored; what the builder saves takes the place
of a definition without payload. -/
def Turn.Current (environmentID : UUID) (t : Turn) : Prop :=
  match t.action with
  | .saveDefinition page => ∀ e, t.before.editors page = some e →
      ∃ d, storedDefinition environmentID e.workflow.id t.before.rows = some d ∧
        SameBut e.node.id d e.definition
  | .autosaveBuilder page => ∀ b, t.before.builders page = some b →
      (storedDefinition environmentID b.workflow.id t.before.rows).bind (fun d => d.payload) = none
  | _ => True

section Kept

variable {parse : String → Option Json} {layout : Layout} {environmentID : UUID} {s s' : Desk}

theorem SameBut.refl (nodeId : String) (d : Definition) : SameBut nodeId d d where
  trigger := rfl
  nodes := List.forall₂_same.mpr fun _ _ => ⟨rfl, rfl, fun _ => rfl, fun _ _ _ => rfl⟩
  edges := rfl

theorem rel_sameBut_refl (nodeId : String) (a : Option Definition) :
    Option.Rel (SameBut nodeId) a a := by
  cases a with
  | none => exact .none
  | some d => exact .some (.refl nodeId d)

/-- What an autosave of the editor stores, against what was stored before. -/
theorem rel_updatedDefinition_iff {e : ChannelEditor} {before : Option Definition}
    (savedTemplateId : String) :
    Option.Rel (SameBut e.node.id) before (some (e.updatedDefinition savedTemplateId)) ↔
      ∃ d, before = some d ∧ SameBut e.node.id d e.definition := by
  have hsame := sameBut_updatedDefinition e savedTemplateId
  constructor
  · rintro ⟨⟩
    next d h => exact ⟨d, rfl, h.trans hsame.symm⟩
  · rintro ⟨d, rfl, h⟩
    exact .some (h.trans hsame)

theorem forall_page_iff {α : Type} {p : Option α} {a : α} {P : α → Prop} (h : p = some a) :
    (∀ b, p = some b → P b) ↔ P a :=
  ⟨fun hall => hall a h, fun ha _ hb => Option.some.inj (h.symm.trans hb) ▸ ha⟩

/-- **What a step keeps**: an autosave that is not refused keeps what is not its own exactly if
it was made from what is stored. -/
theorem kept_iff {a : Action} (h : Desk.Step parse layout environmentID s a s') :
    Turn.Kept environmentID ⟨s, a, s'⟩ ↔
      s'.rows = s.rows ∨ Turn.Current environmentID ⟨s, a, s'⟩ := by
  cases h with
  | @saveDefinition page e before after savedTemplateId out rows hpage htasks hrun =>
      apply (forall_page_iff hpage).trans
      apply Iff.trans _ (or_congr_right (forall_page_iff hpage).symm)
      show Option.Rel _ _ (storedDefinition environmentID e.workflow.id rows) ↔ rows = s.rows ∨ _
      constructor
      · intro hkept
        refine (storedDefinition_updates hrun).imp_right fun hstored => ?_
        -- what is stored now is what was sent
        rw [hstored] at hkept
        exact (rel_updatedDefinition_iff savedTemplateId).mp hkept
      · rintro (rfl | hcurrent)
        · exact rel_sameBut_refl _ _
        rcases storedDefinition_updates hrun with rfl | hstored
        · exact rel_sameBut_refl _ _
        · rw [hstored]
          exact (rel_updatedDefinition_iff savedTemplateId).mpr hcurrent
  | @autosaveBuilder page b out rows hpage hrun =>
      apply (forall_page_iff hpage).trans
      apply Iff.trans _ (or_congr_right (forall_page_iff hpage).symm)
      show (storedDefinition environmentID b.workflow.id rows).bind _ = _ ↔ rows = s.rows ∨ _
      constructor
      · intro hkept
        refine (storedDefinition_updates hrun).imp_right fun hstored => ?_
        rw [hstored] at hkept
        exact hkept.symm
      · rintro (rfl | hcurrent)
        · rfl
        rcases storedDefinition_updates hrun with rfl | hstored
        · rfl
        · rw [hstored]
          exact hcurrent.symm
  | _ => exact iff_of_true True.intro (Or.inr True.intro)

/-- **Nothing is lost in a run** in which every page saves what it made from what is stored. -/
theorem kept_of_run {s₀ : Desk} {turns : List Turn}
    (h : Desk.Run parse layout environmentID (Turn.Current environmentID) s₀ turns s) :
    ∀ t ∈ turns, t.Kept environmentID := by
  induction h with
  | nil => exact fun t ht => absurd ht List.not_mem_nil
  | snoc _ hcurrent hstep ih =>
      intro t ht
      rcases List.mem_append.mp ht with ht | ht
      · exact ih t ht
      · rw [List.mem_singleton.mp ht]
        exact (kept_iff hstep).mpr (Or.inr hcurrent)

/-! ### An editor that is alone -/

/-- Of the workflow, only editors of the node save definitions. -/
def Turn.Alone (id : UUID) (nodeId : String) (t : Turn) : Prop :=
  match t.action with
  | .saveDefinition page => ∀ e, t.before.editors page = some e → e.workflow.id = id →
      e.node.id = nodeId
  | .autosaveBuilder page => ∀ b, t.before.builders page = some b → b.workflow.id ≠ id
  | _ => True

/-- If the editor is one of the workflow, it has loaded what is stored, but for the node. -/
def ChannelEditor.Fresh (environmentID id : UUID) (nodeId : String) (rows : Rows)
    (e : ChannelEditor) : Prop :=
  e.workflow.id = id →
    ∃ d, storedDefinition environmentID id rows = some d ∧ SameBut nodeId d e.definition

variable {id : UUID} {nodeId : String} {rows rows' : Rows}

/-- A page is as it was, or it has been put there. -/
theorem editors_setEditor {e e' : ChannelEditor} {page page' : ℕ}
    (h : (s.setEditor page e).editors page' = some e') : e' = e ∨ s.editors page' = some e' := by
  by_cases hsame : page' = page
  · subst hsame
    left
    simpa [Desk.setEditor] using h.symm
  · right
    simpa [Desk.setEditor, Function.update_of_ne hsame] using h

/-- The editor is one of the workflow. -/
theorem workflow_of_load {workflow : WorkflowItem} {e : ChannelEditor}
    (h : ChannelEditor.load parse workflow nodeId = some e) : e.workflow = workflow := by
  unfold ChannelEditor.load at h
  split at h
  · cases h
  split at h
  · cases h
  split at h
  · cases h
  · rw [← Option.some.inj h]

/-- An update of another workflow changes nothing here. -/
theorem storedDefinition_other {workflow : WorkflowItem} {d : Definition}
    {out : Except GoError WorkflowRow} (h : Updates environmentID workflow d rows out rows')
    (hne : workflow.id ≠ id) :
    storedDefinition environmentID id rows' = storedDefinition environmentID id rows := by
  rcases updates_cases h with rfl | ⟨arg, -, hid, -, -, rfl⟩
  · rfl
  rw [storedDefinition, storedDefinition, rowOf_updated]
  rcases hrow : rowOf environmentID id rows with - | row
  · rfl
  have hkey : row.id = id ∧ row.environmentID = environmentID := by
    simpa using List.find?_some hrow
  have hsel : ¬ (Op.updateDefinition arg).selects row = true := by
    rw [selects_iff]
    intro htarget
    apply hne
    rw [← hid, ← hkey.1]
    exact congrArg Prod.fst (Option.some.inj htarget)
  rw [Option.map_some, if_neg hsel]

/-- An editor of the node may save what it made from what is stored: all that were fresh are. -/
theorem ChannelEditor.Fresh.saved {e e' : ChannelEditor} {savedTemplateId : String}
    {out : Except GoError WorkflowRow} (h : ChannelEditor.Fresh environmentID id nodeId rows e)
    (hnode : e.workflow.id = id → e.node.id = nodeId)
    (hrun : Updates environmentID e.workflow (e.updatedDefinition savedTemplateId) rows out rows')
    (h' : ChannelEditor.Fresh environmentID id nodeId rows e') :
    ChannelEditor.Fresh environmentID id nodeId rows' e' := by
  intro hid'
  by_cases hid : e.workflow.id = id
  · rcases storedDefinition_updates hrun with rfl | hstored
    · exact h' hid'
    obtain ⟨d, hd, hsame⟩ := h hid
    obtain ⟨d', hd', hsame'⟩ := h' hid'
    obtain rfl := Option.some.inj (hd.symm.trans hd')
    have hsent := sameBut_updatedDefinition e savedTemplateId
    rw [hnode hid] at hsent
    exact ⟨_, hid ▸ hstored, hsent.symm.trans (hsame.symm.trans hsame')⟩
  · rw [storedDefinition_other hrun hid]
    exact h' hid'

/-- All editors are fresh. -/
def Desk.Fresh (environmentID id : UUID) (nodeId : String) (s : Desk) : Prop :=
  ∀ page e, s.editors page = some e → ChannelEditor.Fresh environmentID id nodeId s.rows e

theorem Desk.Fresh.setEditor {e : ChannelEditor} {page : ℕ} (h : s.Fresh environmentID id nodeId)
    (he : ChannelEditor.Fresh environmentID id nodeId s.rows e) :
    (s.setEditor page e).Fresh environmentID id nodeId := by
  intro page' e' hpage
  rcases editors_setEditor hpage with rfl | hold
  · exact he
  · exact h page' e' hold

/-- **Editors of one node that are alone with their workflow stay fresh.** -/
theorem Desk.Fresh.step {a : Action} (h : s.Fresh environmentID id nodeId)
    (hstep : Desk.Step parse layout environmentID s a s')
    (halone : Turn.Alone id nodeId ⟨s, a, s'⟩) : s'.Fresh environmentID id nodeId := by
  cases hstep with
  | @openEditor page id' row nodeId' e hrow hload =>
      apply h.setEditor
      intro hid
      -- what it holds is what it has just loaded
      have hworkflow := workflow_of_load hload
      have hkey : row.id = id' ∧ row.environmentID = environmentID := by
        simpa using List.find?_some hrow
      have hid' : id' = id := by
        rw [← hid, hworkflow, ← hkey.1]
        rfl
      refine ⟨e.definition, ?_, .refl nodeId _⟩
      show (rowOf environmentID id s.rows).bind _ = _
      rw [← hid', hrow, Option.bind_some, ← hworkflow]
      exact e.loaded
  | setPayload payload hpage => exact h.setEditor (h _ _ hpage :)
  | autosave subject html hpage => exact h.setEditor (h _ _ hpage :)
  | @saveTemplate page e _ _ _ _ _ _ _ templates hpage =>
      -- a template is no part of a definition
      have htemplates : Desk.Fresh environmentID id nodeId { s with templates := templates } := h
      exact htemplates.setEditor (h page e hpage)
  | taskFails hpage => exact h.setEditor (h _ _ hpage :)
  | @saveDefinition page e _ _ savedTemplateId _ rows hpage _ hrun =>
      have hsaved : ∀ e', ChannelEditor.Fresh environmentID id nodeId s.rows e' →
          ChannelEditor.Fresh environmentID id nodeId rows e' :=
        fun _ => (h page e hpage).saved (halone e hpage) hrun
      have hrows : Desk.Fresh environmentID id nodeId { s with rows := rows } :=
        fun page' e' hpage' => hsaved e' (h page' e' hpage')
      exact hrows.setEditor (hsaved e (h page e hpage))
  | openBuilder => exact h
  | edit => exact h
  | setup => exact h
  | @autosaveBuilder page b _ rows hpage hrun =>
      intro page' e hpage' hid
      show ∃ d, storedDefinition environmentID id rows = some d ∧ _
      -- the builder is at another workflow
      rw [storedDefinition_other hrun (halone b hpage)]
      exact h page' e hpage' hid

/-- **An editor that is alone with its workflow loses nothing**: whatever it saves was made from
what is stored. -/
theorem current_of_alone {s₀ : Desk} {turns : List Turn}
    (h : Desk.Run parse layout environmentID (Turn.Alone id nodeId) s₀ turns s)
    (hclosed : ∀ page, s₀.editors page = none) :
    ∀ t ∈ turns, ∀ page e, t.action = .saveDefinition page → t.before.editors page = some e →
      e.workflow.id = id → t.Current environmentID := by
  have hfresh : s.Fresh environmentID id nodeId ∧ ∀ t ∈ turns, ∀ page e,
      t.action = .saveDefinition page → t.before.editors page = some e → e.workflow.id = id →
        t.Current environmentID := by
    induction h with
    | nil =>
        refine ⟨fun page e hpage => ?_, fun t ht => absurd ht List.not_mem_nil⟩
        rw [hclosed page] at hpage
        cases hpage
    | @snoc turns s a s' _ halone hstep ih =>
        obtain ⟨hs, hturns⟩ := ih
        refine ⟨hs.step hstep halone, fun t ht page e haction hpage hid => ?_⟩
        rcases List.mem_append.mp ht with ht | ht
        · exact hturns t ht page e haction hpage hid
        · obtain rfl := List.mem_singleton.mp ht
          obtain rfl : a = .saveDefinition page := haction
          intro e' hpage'
          obtain rfl := Option.some.inj (hpage.symm.trans hpage')
          obtain ⟨d, hd, hsame⟩ := hs page e hpage hid
          have hnode : e.node.id = nodeId := halone e hpage hid
          refine ⟨d, ?_, hnode ▸ hsame⟩
          rw [hid]
          exact hd
  exact hfresh.2

end Kept

/-! ### Whole autosaves -/

section Whole

variable {parse : String → Option Json} {layout : Layout} {environmentID newID savedID : UUID}
  {s₀ s : Desk} {C : Turn → Prop} {turns : List Turn} {page : ℕ} {e : ChannelEditor}
  {subject html : String} {templates : List TemplateRow} {out : Except GoError WorkflowRow}
  {rows : Rows}

/-- The editor when its template is saved. -/
def ChannelEditor.linked (e : ChannelEditor) (savedID : UUID) : ChannelEditor :=
  { e with templateId := if e.templateId = "" then savedID.toString else e.templateId }

/-- The desk when the template is saved, and the definition is not yet. -/
def Desk.saving (s : Desk) (page : ℕ) (e : ChannelEditor) (savedID : UUID)
    (templates : List TemplateRow) : Desk :=
  { s with templates := templates }.setEditor page
    { e.linked savedID with tasks := .saving savedID.toString :: e.tasks }

/-- The desk when both are saved. -/
def Desk.saved (s : Desk) (page : ℕ) (e : ChannelEditor) (savedID : UUID)
    (templates : List TemplateRow) (rows : Rows) : Desk :=
  { s with templates := templates, rows := rows }.setEditor page (e.linked savedID)

theorem Desk.setEditor_setEditor (s : Desk) (page : ℕ) (e e' : ChannelEditor) :
    (s.setEditor page e).setEditor page e' = s.setEditor page e' := by
  simp [Desk.setEditor]

/-- An autosave of the editor, from the beginning to the end. -/
theorem Desk.Run.autosave (h : Desk.Run parse layout environmentID C s₀ turns s)
    (hpage : s.editors page = some e)
    (hsaved : e.saveTemplate newID environmentID e.templateId subject html s.templates =
      some (savedID, templates))
    (hrun : Updates environmentID e.workflow (e.updatedDefinition savedID.toString) s.rows out rows)
    (hbegin : C ⟨s, .autosave page,
      s.setEditor page { e with tasks := .calling e.templateId subject html :: e.tasks }⟩)
    (htemplate : C ⟨s.setEditor page
      { e with tasks := .calling e.templateId subject html :: e.tasks },
        .saveTemplate page newID, s.saving page e savedID templates⟩)
    (hdefinition : C ⟨s.saving page e savedID templates, .saveDefinition page,
      s.saved page e savedID templates rows⟩) :
    ∃ turns', Desk.Run parse layout environmentID C s₀ turns'
      (s.saved page e savedID templates rows) ∧
        ⟨s.saving page e savedID templates, .saveDefinition page,
          s.saved page e savedID templates rows⟩ ∈ turns' := by
  -- the request is made, the template is saved, and then the definition
  have hstep₁ := @Desk.Step.autosave parse layout environmentID s page e subject html hpage
  have hstep₂ := @Desk.Step.saveTemplate parse layout environmentID
    (s.setEditor page { e with tasks := .calling e.templateId subject html :: e.tasks }) page
    { e with tasks := .calling e.templateId subject html :: e.tasks } [] e.tasks e.templateId
    subject html newID savedID templates (by simp [Desk.setEditor]) rfl hsaved
  have hstep₃ := @Desk.Step.saveDefinition parse layout environmentID
    (s.saving page e savedID templates) page
    { e.linked savedID with tasks := .saving savedID.toString :: e.tasks } [] e.tasks
    savedID.toString out rows (by simp [Desk.saving, Desk.setEditor]) rfl hrun
  -- between the steps only the last state of the editor counts
  have hsaving : ({ s.setEditor page { e with
      tasks := .calling e.templateId subject html :: e.tasks } with templates := templates }.setEditor
        page { e.linked savedID with tasks := .saving savedID.toString :: e.tasks }) =
          s.saving page e savedID templates :=
    Desk.setEditor_setEditor { s with templates := templates } page _ _
  have hsaved' : ({ s.saving page e savedID templates with rows := rows }.setEditor page
      (e.linked savedID)) = s.saved page e savedID templates rows :=
    Desk.setEditor_setEditor { s with templates := templates, rows := rows } page _ _
  refine ⟨_, ((h.snoc hbegin hstep₁).snoc htemplate (hsaving ▸ hstep₂)).snoc hdefinition
    (hsaved' ▸ hstep₃), ?_⟩
  exact List.mem_append_right _ (List.mem_singleton.mpr rfl)

end Whole

/-- The turn saves a definition. -/
def Turn.Saves (t : Turn) : Prop :=
  match t.action with
  | .saveDefinition _ | .autosaveBuilder _ => True
  | _ => False

/-! ### Two editors and a builder -/

namespace Sample

def environmentID : UUID := .ofDigit 1

/-- Two mails in a row. -/
def twoMails : Definition where
  trigger := ⟨"user.signup"⟩
  nodes := [⟨"start", .trigger, none⟩,
    ⟨"first", .notification, some (.obj [("channels", .arr [.str "email"])])⟩,
    ⟨"second", .notification, some (.obj [("channels", .arr [.str "email"])])⟩]
  edgeSlice := some [⟨"start", "first", ""⟩, ⟨"first", "second", ""⟩]

def row : WorkflowRow where
  id := .ofDigit 2
  environmentID := environmentID
  status := .active
  triggerEvent := some "user.signup"
  definitionJson := some (marshalDefinition twoMails)
  name := "Welcome"
  key := "welcome"
  channels := ["email"]
  templateIDs := none
  description := none
  isActive := true
  version := 1

/-- No page is open. -/
def closed : Desk := ⟨[row], [], fun _ => none, fun _ => none⟩

/-- The texts of the payload do not matter here. -/
def parse (_ : String) : Option Json := none

/-- The editor of a node, as it is opened. -/
def editor (row : WorkflowRow) (nodeId : String)
    (h : (ChannelEditor.load parse (workflowFromRecord row) nodeId).isSome) : ChannelEditor :=
  (ChannelEditor.load parse (workflowFromRecord row) nodeId).get h

theorem load_editor {row : WorkflowRow} {nodeId : String}
    (h : (ChannelEditor.load parse (workflowFromRecord row) nodeId).isSome) :
    ChannelEditor.load parse (workflowFromRecord row) nodeId = some (editor row nodeId h) :=
  (Option.some_get h).symm

/-- `Service.Update` with no statement failing. -/
def update (workflow : WorkflowItem) (d : Definition) (rows : Rows) :
    Except GoError WorkflowRow × Rows :=
  (drive answer (Admin.update (updateInput environmentID workflow d)) rows).2

theorem updates_update (workflow : WorkflowItem) (d : Definition) (rows : Rows) :
    Updates environmentID workflow d rows (update workflow d rows).1 (update workflow d rows).2 :=
  ⟨_, runs_drive (fun op w => Admin.Call.answer op w) _ _⟩

/-- The editors of both nodes, as they are opened. -/
def first : ChannelEditor := editor row "first" (by decide)

def second : ChannelEditor := editor row "second" (by decide)

def opened : Desk := (closed.setEditor 0 first).setEditor 1 second

/-- The templates the two editors save. -/
def firstTemplate : List TemplateRow :=
  [⟨⟨.ofDigit 5, environmentID, "email", some "Hi", "<p>Hi</p>", true⟩, "Welcome first email"⟩]

def bothTemplates : List TemplateRow := firstTemplate ++
  [⟨⟨.ofDigit 6, environmentID, "email", some "Bye", "<p>Bye</p>", true⟩, "Welcome second email"⟩]

/-- The tables after the first editor has saved, and after the second one has. -/
def firstSaved : Rows :=
  (update first.workflow (first.updatedDefinition (UUID.ofDigit 5).toString) [row]).2

def secondSaved : Rows :=
  (update second.workflow (second.updatedDefinition (UUID.ofDigit 6).toString) firstSaved).2


theorem run_opened (layout : Layout) (C : Turn → Prop)
    (h : ∀ t, ¬ t.Saves → C t) :
    ∃ turns, Desk.Run parse layout environmentID C closed turns opened := by
  have hopen₀ := @Desk.Step.openEditor parse layout environmentID closed 0 row.id row "first" first
    rfl (load_editor (by decide))
  have hopen₁ := @Desk.Step.openEditor parse layout environmentID (closed.setEditor 0 first) 1
    row.id row "second" second rfl (load_editor (by decide))
  exact ⟨_, ((Desk.Run.nil closed).snoc (h _ id) hopen₀).snoc (h _ id) hopen₁⟩

theorem run_firstSaved (layout : Layout) (C : Turn → Prop)
    (h : ∀ t, ¬ t.Saves → C t)
    (hfirst : C ⟨opened.saving 0 first (.ofDigit 5) firstTemplate, .saveDefinition 0,
      opened.saved 0 first (.ofDigit 5) firstTemplate firstSaved⟩) :
    ∃ turns, Desk.Run parse layout environmentID C closed turns
      (opened.saved 0 first (.ofDigit 5) firstTemplate firstSaved) := by
  obtain ⟨turns, hrun⟩ := run_opened layout C h
  obtain ⟨turns', hrun', -⟩ := @Desk.Run.autosave parse layout environmentID (.ofDigit 5) (.ofDigit 5)
    closed opened C turns 0 first "Hi" "<p>Hi</p>" firstTemplate _ firstSaved hrun rfl rfl
    (updates_update _ _ _) (h _ id) (h _ id) hfirst
  exact ⟨turns', hrun'⟩

theorem current_first : Turn.Current environmentID
    ⟨opened.saving 0 first (.ofDigit 5) firstTemplate, .saveDefinition 0,
      opened.saved 0 first (.ofDigit 5) firstTemplate firstSaved⟩ := by
  intro e he
  obtain rfl := Option.some.inj he
  exact ⟨first.definition, first.loaded, .refl _ _⟩

/-- The templates of the other nodes. -/
def otherTemplates (nodeId : String) (d : Definition) : List (Option String) :=
  d.nodes.map fun node => if node.id = nodeId then none else configString node.config "template_id"

/-- The templates of the other nodes stay. -/
theorem otherTemplates_sameBut {nodeId : String} {d d' : Definition} (h : SameBut nodeId d d') :
    otherTemplates nodeId d' = otherTemplates nodeId d := by
  obtain ⟨-, hnodes, -⟩ := h
  unfold otherTemplates
  generalize d.nodes = nodes at hnodes ⊢
  generalize d'.nodes = nodes' at hnodes ⊢
  induction hnodes with
  | nil => rfl
  | @cons node node' _ _ hnode _ ih =>
      rw [List.map_cons, List.map_cons, ih, hnode.id]
      congr 1
      split
      · rfl
      · next hne => rw [hnode.config hne]

/-- The second editor is about to save what it has loaded. -/
def stale : Desk :=
  (opened.saved 0 first (.ofDigit 5) firstTemplate firstSaved).saving 1 second (.ofDigit 6)
    bothTemplates

def overwritten : Desk :=
  (opened.saved 0 first (.ofDigit 5) firstTemplate firstSaved).saved 1 second (.ofDigit 6)
    bothTemplates secondSaved

/-- The template of the other node is gone. -/
theorem not_kept_overwritten :
    ¬ Turn.Kept environmentID ⟨stale, .saveDefinition 1, overwritten⟩ := by
  intro h
  have hpage : stale.editors 1 = some { second.linked (.ofDigit 6) with
      tasks := .saving (UUID.ofDigit 6).toString :: second.tasks } := rfl
  have hrel := h _ hpage
  have hbefore : (storedDefinition environmentID row.id firstSaved).map (otherTemplates "second") =
      some [none, some (UUID.ofDigit 5).toString, none] := by decide +kernel
  have hafter : (storedDefinition environmentID row.id secondSaved).map (otherTemplates "second") =
      some [none, none, none] := by decide +kernel
  have hsame : ∀ {a b : Option Definition}, Option.Rel (SameBut "second") a b →
      b.map (otherTemplates "second") = a.map (otherTemplates "second") := by
    intro a b hab
    cases hab with
    | none => rfl
    | some hsame => exact congrArg some (otherTemplates_sameBut hsame)
  have heq := (hafter.symm.trans (hsame hrel)).trans hbefore
  revert heq
  decide

/-- The builder, when it is opened then. -/
def builder : BuilderPage :=
  (BuilderPage.load onOneSpot random
    (workflowFromRecord ((rowOf environmentID row.id secondSaved).getD row))).getD
      ⟨workflowFromRecord row, ⟨"", [], []⟩⟩

theorem load_builder : BuilderPage.load onOneSpot random
    (workflowFromRecord ((rowOf environmentID row.id secondSaved).getD row)) = some builder := by
  have hload : (BuilderPage.load onOneSpot random (workflowFromRecord
      ((rowOf environmentID row.id secondSaved).getD row))).isSome = true := by decide +kernel
  obtain ⟨b, hb⟩ := Option.isSome_iff_exists.mp hload
  rw [builder, hb, Option.getD_some]

theorem rowOf_secondSaved : rowOf environmentID row.id secondSaved =
    some ((rowOf environmentID row.id secondSaved).getD row) := by
  have hrow : (rowOf environmentID row.id secondSaved).isSome = true := by decide +kernel
  obtain ⟨row', hrow'⟩ := Option.isSome_iff_exists.mp hrow
  rw [hrow', Option.getD_some]

def built : Desk := overwritten.setBuilder 0 builder

def builderSaved : Except GoError WorkflowRow × Rows :=
  update builder.workflow builder.definition secondSaved

/-- The payload is gone. -/
theorem not_kept_built : ¬ Turn.Kept environmentID ⟨built, .autosaveBuilder 0,
    { built with rows := builderSaved.2 }.setBuilder 0 (builder.saved builderSaved.1)⟩ := by
  intro h
  have hpage : built.builders 0 = some builder := rfl
  have heq := congrArg Option.isSome (h _ hpage)
  revert heq
  have hbefore : ((storedDefinition environmentID row.id secondSaved).bind fun d =>
      d.payload).isSome = true := by decide +kernel
  have hafter : ((storedDefinition environmentID row.id builderSaved.2).bind fun d =>
      d.payload).isSome = false := by decide +kernel
  show ((storedDefinition environmentID row.id builderSaved.2).bind fun d => d.payload).isSome =
    ((storedDefinition environmentID row.id secondSaved).bind fun d => d.payload).isSome → False
  rw [hbefore, hafter]
  nofun

end Sample

/-- An editor that is alone. -/
theorem kept_of_run_first : ∃ turns,
    Desk.Run Sample.parse Sample.onOneSpot Sample.environmentID (Turn.Current Sample.environmentID)
      Sample.closed turns
      (Sample.opened.saved 0 Sample.first (.ofDigit 5) Sample.firstTemplate Sample.firstSaved) ∧
    ∀ t ∈ turns, t.Kept Sample.environmentID := by
  have hother : ∀ t : Turn, ¬ t.Saves → t.Current Sample.environmentID := by
    rintro ⟨s, a, s'⟩ ht
    cases a with
    | saveDefinition page => exact absurd True.intro ht
    | autosaveBuilder page => exact absurd True.intro ht
    | _ => exact True.intro
  obtain ⟨turns, hrun⟩ := Sample.run_firstSaved Sample.onOneSpot
    (Turn.Current Sample.environmentID) hother Sample.current_first
  exact ⟨turns, hrun, kept_of_run hrun⟩

/-- An editor overwrites what another one has saved, and the builder drops the payload. -/
theorem overwritten_and_dropped : ∃ turns s,
    Desk.Run Sample.parse Sample.onOneSpot Sample.environmentID (fun _ => True) Sample.closed turns s ∧
    (∃ t ∈ turns, t.action = .saveDefinition 1 ∧ ¬ t.Kept Sample.environmentID) ∧
    ∃ t ∈ turns, t.action = .autosaveBuilder 0 ∧ ¬ t.Kept Sample.environmentID := by
  obtain ⟨turns, hrun⟩ := Sample.run_firstSaved Sample.onOneSpot (fun _ => True)
    (fun _ _ => True.intro) True.intro
  obtain ⟨turns', hrun', hmem⟩ := @Desk.Run.autosave _ _ _ (.ofDigit 6) (.ofDigit 6) _ _ _ turns 1
    Sample.second "Bye" "<p>Bye</p>" Sample.bothTemplates _ Sample.secondSaved hrun rfl rfl
    (Sample.updates_update _ _ _) True.intro True.intro True.intro
  have hopen := @Desk.Step.openBuilder Sample.parse Sample.onOneSpot Sample.environmentID
    Sample.overwritten 0 Sample.row.id
    ((rowOf Sample.environmentID Sample.row.id Sample.secondSaved).getD Sample.row)
    Sample.builder Sample.random Sample.rowOf_secondSaved Sample.load_builder
  have hsave := @Desk.Step.autosaveBuilder Sample.parse Sample.onOneSpot Sample.environmentID
    Sample.built 0 Sample.builder _ _ rfl (Sample.updates_update _ _ _)
  refine ⟨_, _, (hrun'.snoc True.intro hopen).snoc True.intro hsave, ?_, ?_⟩
  · refine ⟨_, List.mem_append_left _ (List.mem_append_left _ hmem), rfl, ?_⟩
    exact Sample.not_kept_overwritten
  · exact ⟨_, List.mem_append_right _ (List.mem_singleton.mpr rfl), rfl, Sample.not_kept_built⟩

end Iwifunni.Web
