/-
Iwifunni/Workflow/Columns.lean

One definition, two engines.

The step engine reads channel and template from the config of a node.  Direct
sends read them from two columns that are computed when the definition is stored.
The step engine trims and lower-cases what it reads, the columns keep it as it is:

    step engine    normalizeChannels channels = [c]      parse (trim template_id)
    columns        every channel that is not ""          first template_id that is not ""

For definitions the validator accepts the two agree exactly where channels are
spelled as they are normalized (`Canonical`) and no white-space-only template
stands before a real one (`BlankNotFirst`).
-/
import Mathlib.Data.List.Find
import Iwifunni.Notification.Service
import Iwifunni.Workflow.Accepted
import Iwifunni.Workflow.Params
import Iwifunni.Workflow.Sequential

namespace Iwifunni.Workflow

open Go Db Effect Effect.Prog

/-! ### What the step engine sends -/

/-- The channel `handleNotificationStep` makes of a config. -/
def configChannel (cfg : NotificationConfig) : Option String :=
  match normalizeChannels cfg.channels with
  | .ok [channel] => some channel
  | _ => none

/-- The channel of a node. -/
def nodeChannel (node : Node) : Option String :=
  (notificationConfig node).bind configChannel

/-- The channels of the notification nodes, in order. -/
def stepChannels (d : Definition) : List String := d.nodes.filterMap nodeChannel

/-- Is a node's template_id not blank? -/
def hasTemplate (node : Node) : Bool :=
  (notificationConfig node).any fun cfg => trimSpace cfg.templateID != ""

/-- The template `handleNotificationStep` uses for the first notification node on a
channel whose template_id is not blank. -/
def stepTemplate (d : Definition) (channel : String) : Option UUID :=
  (d.nodes.find? fun node => nodeChannel node == some channel && hasTemplate node).bind
    fun node => (notificationTarget node).toOption.map (·.2)

/-- A node is sent on the channel of its config. -/
theorem nodeChannel_of_target {node : Node} {channel : String} {templateID : UUID}
    (hnode : node.type = .notification)
    (h : notificationTarget node = .ok (channel, templateID)) :
    nodeChannel node = some channel := by
  unfold notificationTarget at h
  rcases hcfg : Json.unmarshal node.config decodeNotificationConfig with e | cfg
  · rw [hcfg] at h
    cases h
  rw [hcfg] at h
  dsimp only at h
  split at h
  · next c hc =>
    split at h
    · cases h
      simp only [nodeChannel, notificationConfig, if_pos hnode, hcfg, Except.toOption,
        Option.bind_some, configChannel, hc]
    · cases h
  · cases h

/-! ### What a direct send looks up -/

/-- The row both statements leave behind, for the columns notifications read. -/
def WorkflowDefinitionParams.record (arg : WorkflowDefinitionParams) : WorkflowRecord where
  id := arg.id
  environmentID := arg.environmentID
  status := arg.status
  triggerEvent := arg.triggerEvent
  definitionJson := some arg.definitionJson
  name := arg.name
  key := arg.key
  channels := arg.channels
  templateIDs := some arg.templateIDs

/-- The row with the channels and templates of its definition added, as
`prepareWorkflowJob` hands it to `prepareWorkflowDelivery`. -/
def extracted (workflow : WorkflowRecord) : WorkflowRecord :=
  let (channels, templateIDs) := Notification.extractChannelsAndTemplatesFromWorkflow workflow
  { workflow with
    channels := channels
    templateIDs := if templateIDs.isEmpty then workflow.templateIDs
      else some (.obj (templateIDs.map fun f => (f.1, .str f.2))) }

/-- The template a direct send looks up for a channel. -/
def directTemplate (workflow : WorkflowRecord) (channel : String) : Option UUID :=
  match Notification.parseWorkflowTemplateIDs (extracted workflow).templateIDs with
  | .error _ => none
  | .ok templateIDs =>
      let templateIDValue := trimSpace ((Json.lookup templateIDs channel).getD "")
      if templateIDValue = "" then none else UUID.parse templateIDValue

/-- A call that reads a template, if it is one, reads that of a channel. -/
def ReadsLinked (workflow : WorkflowRecord) (op : Store.Op) : Prop :=
  ∀ id environmentID, op = .getTemplateByID id environmentID →
    ∃ channel, directTemplate workflow channel = some id

/-- **Direct sends read the templates of `directTemplate`.** -/
theorem calls_readsLinked (s : Notification.Service) (projectID : UUID)
    (workflow : WorkflowRecord) (subscriber : Subscriber) (job : NotificationJob) :
    Calls (ReadsLinked workflow)
      (Notification.prepareForSubscriber s projectID workflow subscriber job) := by
  refine Calls.bind ?_ fun _ => calls_ret _
  unfold Notification.prepareWorkflowDelivery
  dsimp only
  split
  · exact calls_fail _
  next templateIDs hparse =>
  refine Notification.calls_prepareChannels templateIDs (fun channel id hid hne => ?_) ..
  intro id' environmentID heq
  cases heq
  have hparse' : Notification.parseWorkflowTemplateIDs (extracted workflow).templateIDs
      = .ok templateIDs := hparse
  refine ⟨channel, ?_⟩
  simp only [directTemplate, hparse', if_neg hne, hid]

/-! ### Agreement and its condition -/

/-- Both engines use the same channels and templates. -/
structure EnginesAgree (workflow : WorkflowRecord) (d : Definition) : Prop where
  channels : workflow.channels = (stepChannels d).eraseDups
  canonical : ∀ c ∈ workflow.channels, c ∈ ["email", "sms", "push"]
  templates : ∀ c ∈ workflow.channels, directTemplate workflow c = stepTemplate d c

/-- Every channel of a notification node is spelled as it is normalized. -/
def Canonical (d : Definition) : Prop :=
  ∀ cfg ∈ notificationConfigs d, ∀ c ∈ cfg.channels, c ∈ ["email", "sms", "push"]

/-- If the first template_id on a channel that is not "" consists of white space, so
do all on that channel. -/
def BlankNotFirst (d : Definition) : Prop :=
  ∀ channel first, (notificationConfigs d).find? (fun cfg =>
      configChannel cfg == some channel && cfg.templateID != "") = some first →
    trimSpace first.templateID = "" →
    ∀ cfg ∈ notificationConfigs d, configChannel cfg = some channel →
      trimSpace cfg.templateID = ""

/-! ### Normalized channels -/

/-- What `normalizeChannels` collects: allowed channels, and no others than those given. -/
theorem collect_ok {result cs r : List String}
    (h : normalizeChannels.collect result cs = .ok r) :
    r ≠ [] ∧ (∀ c ∈ result, c ∈ r) ∧
      (∀ c ∈ cs, toLower (trimSpace c) ∈ ["email", "sms", "push"] ∧ toLower (trimSpace c) ∈ r) ∧
      ∀ c ∈ r, c ∈ result ∨ ∃ c' ∈ cs, toLower (trimSpace c') = c := by
  induction cs generalizing result with
  | nil =>
      simp only [normalizeChannels.collect] at h
      split at h
      · cases h
      · next hne =>
        cases h
        exact ⟨hne, fun c hc => hc, by simp, fun c hc => Or.inl hc⟩
  | cons c cs ih =>
      simp only [normalizeChannels.collect] at h
      split at h
      · next hcanon =>
        split at h
        -- a channel that is there already is not added again
        · next hold =>
          obtain ⟨hne, hsub, hall, hback⟩ := ih h
          refine ⟨hne, hsub, List.forall_mem_cons.mpr ⟨⟨hcanon, hsub _ hold⟩, hall⟩, ?_⟩
          intro k hk
          rcases hback k hk with hk | ⟨c', hc', hk⟩
          · exact Or.inl hk
          · exact Or.inr ⟨c', List.mem_cons_of_mem _ hc', hk⟩
        · obtain ⟨hne, hsub, hall, hback⟩ := ih h
          -- a new one is appended
          have hnew : toLower (trimSpace c) ∈ r := hsub _ (by simp)
          refine ⟨hne, fun k hk => hsub k (List.mem_append_left _ hk),
            List.forall_mem_cons.mpr ⟨⟨hcanon, hnew⟩, hall⟩, ?_⟩
          intro k hk
          rcases hback k hk with hk | ⟨c', hc', hk⟩
          · rcases List.mem_append.mp hk with hk | hk
            · exact Or.inl hk
            · exact Or.inr ⟨c, List.mem_cons_self .., (List.mem_singleton.mp hk).symm⟩
          · exact Or.inr ⟨c', List.mem_cons_of_mem _ hc', hk⟩
      · cases h

/-- What an accepted config says: one channel, in any spelling, and perhaps a
template. -/
structure ConfigOk (cfg : NotificationConfig) (channel : String) : Prop where
  sends : configChannel cfg = some channel
  canonical : channel ∈ ["email", "sms", "push"]
  ne_nil : cfg.channels ≠ []
  spelled : ∀ c ∈ cfg.channels, toLower (trimSpace c) = channel
  template : trimSpace cfg.templateID ≠ "" →
    ∃ id, UUID.parse (trimSpace cfg.templateID) = some id

/-- The notifications of an accepted definition have a channel each. -/
theorem configOk_of_accepted {d : Definition} (hd : Accepted d) {cfg : NotificationConfig}
    (hcfg : cfg ∈ notificationConfigs d) : ∃ channel, ConfigOk cfg channel := by
  obtain ⟨node, hmem, hnode⟩ := List.mem_filterMap.mp hcfg
  have hok := hd.node node hmem
  unfold notificationConfig at hnode
  split at hnode
  · next htype =>
    rcases hread : Json.unmarshal node.config decodeNotificationConfig with e | cfg'
    · rw [hread] at hnode
      cases hnode
    rw [hread] at hnode
    cases hnode
    -- one channel, and a template id that parses
    simp only [validateNode, htype, hread] at hok
    split at hok
    · cases hok
    next channels hchannels =>
    split at hok
    · cases hok
    next hlength =>
    obtain ⟨channel, rfl⟩ := List.length_eq_one_iff.mp (not_not.mp hlength)
    split at hok
    · cases hok
    next htemplate =>
    -- what was collected are the channels of the config, normalized
    obtain ⟨hne, -, hall, hback⟩ := collect_ok hchannels
    refine ⟨channel, ?_, ?_, ?_, ?_, ?_⟩
    · rw [configChannel, hchannels]
    · rcases hback channel (List.mem_singleton.mpr rfl) with hc | ⟨c, hc, rfl⟩
      · cases hc
      · exact (hall c hc).1
    · rintro hnil
      rw [hnil] at hchannels
      cases hchannels
    · exact fun c hc => List.mem_singleton.mp (hall c hc).2
    · intro hblank
      rcases hparse : UUID.parse (trimSpace cfg.templateID) with - | id
      · exact absurd ⟨hblank, hparse⟩ htemplate
      · exact ⟨id, rfl⟩
  · cases hnode

/-- Normalizing leaves the three channels alone. -/
theorem normalize_canonical : ∀ c ∈ ["email", "sms", "push"], toLower (trimSpace c) = c := by
  decide

theorem ConfigOk.ne_empty {cfg : NotificationConfig} {channel : String} (h : ConfigOk cfg channel)
    {c : String} (hc : c ∈ cfg.channels) : c ≠ "" := by
  rintro rfl
  have hcanon := h.canonical
  rw [← h.spelled "" hc] at hcanon
  revert hcanon
  decide

/-- With canonical spelling the channel is literally there, and no other one is. -/
theorem ConfigOk.mem_iff {cfg : NotificationConfig} {channel : String} (h : ConfigOk cfg channel)
    (hcanon : ∀ c ∈ cfg.channels, c ∈ ["email", "sms", "push"]) (c : String) :
    c ∈ cfg.channels ↔ c = channel := by
  have hall : ∀ c ∈ cfg.channels, c = channel := fun c hc =>
    (normalize_canonical c (hcanon c hc)).symm.trans (h.spelled c hc)
  refine ⟨hall c, ?_⟩
  rintro rfl
  obtain ⟨c', hc'⟩ := List.exists_mem_of_ne_nil _ h.ne_nil
  rw [← hall c' hc']
  exact hc'

theorem stepChannels_eq (d : Definition) :
    stepChannels d = (notificationConfigs d).filterMap configChannel := by
  rw [stepChannels, notificationConfigs, List.filterMap_filterMap]
  rfl

/-! ### The column of channels -/

/-- Channels are added in the order of their first occurrence. -/
theorem foldl_addChannel {cs : List String} (hne : ∀ c ∈ cs, c ≠ "") (acc : List String) :
    cs.foldl addChannel acc = acc ++ (cs.filter fun c => c ∉ acc).eraseDups := by
  induction cs generalizing acc with
  | nil => simp
  | cons c cs ih =>
      have hrest : ∀ k ∈ cs, k ≠ "" := fun k hk => hne k (List.mem_cons_of_mem _ hk)
      rw [List.foldl_cons, ih hrest]
      by_cases hc : c ∈ acc
      · simp [addChannel, hc]
      · have hadd : addChannel acc c = acc ++ [c] := by
          simp [addChannel, hc, hne c (List.mem_cons_self ..)]
        have hfilter : (cs.filter fun k => k ∉ acc ++ [c])
            = (cs.filter fun k => k ∉ acc).filter fun k => !(k == c) := by
          rw [List.filter_filter]
          refine List.filter_congr fun k _ => ?_
          rw [Bool.eq_iff_iff]
          simp [and_comm]
        rw [hadd, hfilter, List.filter_cons_of_pos (by simpa using hc), List.eraseDups_cons,
          List.append_assoc]
        rfl

theorem channelsFromDefinition_eq (d : Definition) :
    channelsFromDefinition d
      = ((notificationConfigs d).flatMap (·.channels)).foldl addChannel [] := by
  rw [channelsFromDefinition, List.foldl_flatMap]

theorem channelsFromDefinition_of_accepted {d : Definition} (hd : Accepted d) :
    channelsFromDefinition d = ((notificationConfigs d).flatMap (·.channels)).eraseDups := by
  rw [channelsFromDefinition_eq, foldl_addChannel]
  · simp
  · intro c hc
    obtain ⟨cfg, hcfg, hc⟩ := List.mem_flatMap.mp hc
    obtain ⟨channel, hok⟩ := configOk_of_accepted hd hcfg
    exact hok.ne_empty hc

theorem mem_channelsFromDefinition {d : Definition} (hd : Accepted d) {c : String} :
    c ∈ channelsFromDefinition d ↔ ∃ cfg ∈ notificationConfigs d, c ∈ cfg.channels := by
  rw [channelsFromDefinition_of_accepted hd, List.mem_eraseDups, List.mem_flatMap]

/-- A loop none of whose rounds changes anything. -/
theorem foldl_eq_self {α β : Type} {f : β → α → β} {b : β} {l : List α}
    (h : ∀ a ∈ l, f b a = b) : l.foldl f b = b := by
  induction l with
  | nil => rfl
  | cons a l ih =>
      rw [List.foldl_cons, h a (List.mem_cons_self ..)]
      exact ih fun k hk => h k (List.mem_cons_of_mem _ hk)

/-- Adding one channel several times. -/
theorem foldl_addChannel_same {cs : List String} {channel : String} (hne : cs ≠ [])
    (h : ∀ c ∈ cs, c = channel) (hchannel : channel ≠ "") (acc : List String) :
    cs.foldl addChannel acc = addChannel acc channel := by
  obtain ⟨c, rest, rfl⟩ := List.exists_cons_of_ne_nil hne
  rw [List.foldl_cons, h c (List.mem_cons_self ..)]
  refine foldl_eq_self fun k hk => ?_
  rw [h k (List.mem_cons_of_mem _ hk)]
  refine if_pos (Or.inr ?_)
  unfold addChannel
  split
  · next hold => exact hold.resolve_left hchannel
  · simp

/-- **With canonical spelling the column lists the channels of the nodes.** -/
theorem channelsFromDefinition_of_canonical {d : Definition} (hd : Accepted d)
    (hcanon : Canonical d) : channelsFromDefinition d = (stepChannels d).eraseDups := by
  have hfold : ∀ (cfgs : List NotificationConfig) (acc : List String),
      (∀ cfg ∈ cfgs, cfg ∈ notificationConfigs d) →
      cfgs.foldl (fun result cfg => cfg.channels.foldl addChannel result) acc
        = (cfgs.filterMap configChannel).foldl addChannel acc := by
    intro cfgs
    induction cfgs with
    | nil => exact fun _ _ => rfl
    | cons cfg cfgs ih =>
        intro acc hsub
        have hmem := hsub cfg (List.mem_cons_self ..)
        obtain ⟨channel, hok⟩ := configOk_of_accepted hd hmem
        have hiff := hok.mem_iff (hcanon cfg hmem)
        rw [List.foldl_cons, List.filterMap_cons_some hok.sends, List.foldl_cons,
          foldl_addChannel_same hok.ne_nil (fun c hc => (hiff c).mp hc)
            (hok.ne_empty ((hiff channel).mpr rfl))]
        exact ih _ fun k hk => hsub k (List.mem_cons_of_mem _ hk)
  rw [channelsFromDefinition, hfold _ _ fun _ h => h, ← stepChannels_eq, foldl_addChannel]
  · simp
  · intro c hc
    rw [stepChannels_eq] at hc
    obtain ⟨cfg, hcfg, hc⟩ := List.mem_filterMap.mp hc
    obtain ⟨channel, hok⟩ := configOk_of_accepted hd hcfg
    rw [hok.sends] at hc
    cases hc
    exact hok.ne_empty ((hok.mem_iff (hcanon cfg hcfg) c).mpr rfl)

/-! ### The column of templates -/

/-- The first template of a channel stays. -/
theorem lookup_linkChannel (templateID : String) (acc : List (String × String)) (c k : String) :
    Json.lookup (linkChannel templateID acc c) k
      = (Json.lookup acc k).or (if k = c ∧ k ≠ "" then some templateID else none) := by
  unfold linkChannel
  split
  · next hold =>
    by_cases hk : k = c ∧ k ≠ ""
    · rw [← hk.1] at hold
      obtain ⟨v, hv⟩ := Option.isSome_iff_exists.mp (hold.resolve_left hk.2)
      rw [hv, Option.some_or]
    · rw [if_neg hk, Option.or_none]
  · next hnew =>
    obtain ⟨hne, hnone⟩ := not_or.mp hnew
    by_cases hk : k = c
    · subst hk
      rw [Json.lookup_insert_self, Option.not_isSome_iff_eq_none.mp hnone, if_pos ⟨rfl, hne⟩]
      rfl
    · rw [Json.lookup_insert_of_ne hk, if_neg (fun h => hk h.1), Option.or_none]

/-- A template is linked to its channels, unless they have one. -/
theorem lookup_linkChannels (templateID : String) (cs : List String)
    (acc : List (String × String)) (k : String) :
    Json.lookup (cs.foldl (linkChannel templateID) acc) k
      = (Json.lookup acc k).or (if k ∈ cs ∧ k ≠ "" then some templateID else none) := by
  induction cs generalizing acc with
  | nil => simp
  | cons c cs ih =>
      rw [List.foldl_cons, ih, lookup_linkChannel, Option.or_assoc]
      congr 1
      by_cases hc : k = c ∧ k ≠ ""
      · rw [if_pos hc, Option.some_or, if_pos ⟨List.mem_cons.mpr (Or.inl hc.1), hc.2⟩]
      · rw [if_neg hc, Option.none_or]
        refine if_congr ?_ rfl rfl
        constructor
        · exact fun h => ⟨List.mem_cons_of_mem _ h.1, h.2⟩
        · exact fun h => ⟨(List.mem_cons.mp h.1).resolve_left fun he => hc ⟨he, h.2⟩, h.2⟩

/-- Does a config link a template to a channel? -/
def links (k : String) (cfg : NotificationConfig) : Bool :=
  decide (cfg.templateID ≠ "" ∧ k ∈ cfg.channels ∧ k ≠ "")

/-- **The first link of a channel wins.** -/
theorem lookup_templateIDs (d : Definition) (k : String) :
    Json.lookup (templateIDsFromDefinition d) k
      = ((notificationConfigs d).find? (links k)).map (·.templateID) := by
  have hfold : ∀ (cfgs : List NotificationConfig) (acc : List (String × String)),
      Json.lookup (cfgs.foldl (fun result cfg =>
        if cfg.templateID = "" then result
        else cfg.channels.foldl (linkChannel cfg.templateID) result) acc) k
      = (Json.lookup acc k).or ((cfgs.find? (links k)).map (·.templateID)) := by
    intro cfgs
    induction cfgs with
    | nil => exact fun acc => (Option.or_none).symm
    | cons cfg cfgs ih =>
        intro acc
        rw [List.foldl_cons, ih, List.find?_cons]
        by_cases ht : cfg.templateID = ""
        · have hno : links k cfg = false := by simp [links, ht]
          rw [if_pos ht, hno]
        · rw [if_neg ht, lookup_linkChannels, Option.or_assoc]
          congr 1
          by_cases hk : k ∈ cfg.channels ∧ k ≠ ""
          · have hyes : links k cfg = true := by simp [links, ht, hk]
            rw [if_pos hk, hyes, Option.some_or]
            rfl
          · have hno : links k cfg = false := by
              simp only [links, decide_eq_false_iff_not]
              exact fun h => hk h.2
            rw [if_neg hk, hno, Option.none_or]
  rw [templateIDsFromDefinition, hfold]
  rfl

/-! ### The columns read back -/

/-- A map of strings is read back. -/
theorem decodeStringMap_stringMapJson (m : List (String × String)) :
    Notification.decodeStringMap (stringMapJson m) = .ok m := by
  have hmap : ∀ m : List (String × String), (m.map fun f => (f.1, Json.str f.2)).mapM (fun f => do
      let value ← Json.toStr "" f.2
      return (f.1, value)) = (.ok m : Except DecodeError (List (String × String))) := by
    intro m
    induction m with
    | nil => rfl
    | cons f m ih =>
        rw [List.map_cons, List.mapM_cons, ih]
        rfl
  exact hmap m

/-- The nodes, as `extractChannelsAndTemplatesFromWorkflow` sees them. -/
def defNode (node : Node) : Notification.DefNode := ⟨node.type.toString, node.config⟩

/-- The direct engine reads a node back, as far as it looks. -/
theorem decodeDefNode_nodeJson (node : Node) :
    Notification.decodeDefNode (nodeJson node) = .ok (defNode node) := by
  obtain ⟨id, type, config⟩ := node
  have hne := equalFold_fieldNames
  simp only [List.pairwise_cons, List.mem_cons, List.not_mem_nil, or_false, forall_eq_or_imp,
    forall_eq] at hne
  cases config <;>
    simp only [Notification.decodeDefNode, nodeJson, optionalField, Option.map_none,
      Option.map_some, Option.toList_none, Option.toList_some, List.cons_append,
      List.nil_append, Json.structFields, except_ok_bind, Json.field_cons_self,
      Json.field_nil, Json.toStr, Json.field_cons_of_ne, hne] <;>
    rfl

theorem decodeAll_defNode (nodes : List Node) :
    decodeAll Notification.decodeDefNode (nodes.map nodeJson) = .ok (nodes.map defNode) := by
  induction nodes with
  | nil => rfl
  | cons node nodes ih =>
      simp only [List.map_cons, decodeAll, decodeDefNode_nodeJson, ih]
      rfl

/-- The other engine reads the nodes of a stored definition. -/
theorem decodeWorkflowDef_marshalDefinition (d : Definition) :
    Notification.decodeWorkflowDef (marshalDefinition d) = .ok (d.nodes.map defNode) := by
  obtain ⟨trigger, nodes, edges, payload⟩ := d
  have hne := equalFold_fieldNames
  simp only [List.pairwise_cons, List.mem_cons, List.not_mem_nil, or_false, forall_eq_or_imp,
    forall_eq] at hne
  cases payload <;>
    simp only [Notification.decodeWorkflowDef, marshalDefinition, optionalField,
      Option.map_none, Option.map_some, Option.toList_none, Option.toList_some,
      List.cons_append, List.nil_append, Json.structFields, except_ok_bind,
      Json.field_cons_self, Json.field_nil, Json.field_cons_of_ne, hne, decodeAll_defNode]

theorem toString_eq_notification (t : StepType) :
    t.toString = "notification" ↔ t = .notification := by
  cases t with
  | other name hname =>
      refine ⟨fun h => ?_, fun h => by cases h⟩
      rw [show name = "notification" from h] at hname
      exact absurd hname (by decide)
  | _ => simp [StepType.toString]

/-- A config whose channels and template are already there adds nothing. -/
theorem addNodeChannels_eq_self {cfg : NotificationConfig} {channels : List String}
    {templateIDs : List (String × String)} (hmem : ∀ c ∈ cfg.channels, c ∈ channels)
    (hlinked : cfg.templateID ≠ "" →
      ∀ c ∈ cfg.channels, (Json.lookup templateIDs c).getD "" ≠ "") :
    Notification.addNodeChannels cfg (channels, templateIDs) = (channels, templateIDs) := by
  refine foldl_eq_self fun c hc => ?_
  have hskip : ¬ (cfg.templateID ≠ "" ∧ (Json.lookup templateIDs c).getD "" = "") :=
    fun h => hlinked h.1 c hc h.2
  rw [if_pos (hmem c hc), if_neg hskip]

/-- One round of the reader's loop. -/
def readNode (acc : List String × List (String × String)) (node : Notification.DefNode) :
    List String × List (String × String) :=
  if node.type = "notification" then
    match Json.unmarshal node.config decodeNotificationConfig with
    | .ok config => Notification.addNodeChannels config acc
    | .error _ => acc
  else acc

/-- It reads the channels of a node from its config. -/
theorem readNode_defNode (acc : List String × List (String × String)) (node : Node) :
    readNode acc (defNode node)
      = (notificationConfig node).elim acc fun cfg => Notification.addNodeChannels cfg acc := by
  unfold readNode notificationConfig
  by_cases htype : node.type = .notification
  · rw [if_pos htype]
    refine (if_pos ((toString_eq_notification _).mpr htype)).trans ?_
    show _ = (Json.unmarshal node.config decodeNotificationConfig).toOption.elim acc _
    rw [show (defNode node).config = node.config from rfl]
    cases Json.unmarshal node.config decodeNotificationConfig <;> rfl
  · rw [if_neg htype]
    exact if_neg fun h => htype ((toString_eq_notification _).mp h)

/-- **The reader adds what the notification nodes mention to the columns.** -/
theorem extract_row {workflow : WorkflowRecord} {templateIDs : List (String × String)}
    {d : Definition} (htemplates : workflow.templateIDs = some (stringMapJson templateIDs))
    (hdefinition : workflow.definitionJson = some (marshalDefinition d)) :
    Notification.extractChannelsAndTemplatesFromWorkflow workflow
      = (notificationConfigs d).foldl (fun acc cfg => Notification.addNodeChannels cfg acc)
          (workflow.channels, templateIDs) := by
  have hparse : Notification.parseWorkflowTemplateIDs workflow.templateIDs = .ok templateIDs := by
    rw [htemplates]
    exact decodeStringMap_stringMapJson _
  have hnodes : Json.unmarshal workflow.definitionJson Notification.decodeWorkflowDef
      = .ok (d.nodes.map defNode) := by
    rw [hdefinition]
    exact decodeWorkflowDef_marshalDefinition d
  unfold Notification.extractChannelsAndTemplatesFromWorkflow
  rw [hparse, hnodes, notificationConfigs, List.foldl_filterMap]
  show (d.nodes.map defNode).foldl readNode (workflow.channels, templateIDs) = _
  rw [List.foldl_map]
  refine congrArg (fun f => List.foldl f (workflow.channels, templateIDs) d.nodes) ?_
  funext acc node
  rw [readNode_defNode]
  cases notificationConfig node <;> rfl

section Stored

variable {id environmentID : UUID} {version : Int32} {key name : String}
  {description : Option String} {d : Definition} {arg : WorkflowDefinitionParams}

/-- **Reading the definition again adds nothing to the columns.** -/
theorem extract_stored (h : buildDefinitionParams id environmentID version key name description d
    = .ok arg) :
    Notification.extractChannelsAndTemplatesFromWorkflow arg.record
      = (channelsFromDefinition d, templateIDsFromDefinition d) := by
  obtain ⟨hv, hchannels, htemplates, hjson, -⟩ := buildDefinitionParams_ok h
  have hd := accepted_of_validateDefinition hv
  have hcolumn : arg.record.channels = channelsFromDefinition d := hchannels
  rw [extract_row (congrArg some htemplates) (congrArg some hjson), hcolumn]
  -- every node finds its channels and its template in the columns
  refine foldl_eq_self fun cfg hcfg => ?_
  obtain ⟨channel, hok⟩ := configOk_of_accepted hd hcfg
  refine addNodeChannels_eq_self
    (fun c hc => (mem_channelsFromDefinition hd).mpr ⟨cfg, hcfg, hc⟩) fun ht c hc => ?_
  have hsome : ((notificationConfigs d).find? (links c)).isSome := by
    rw [List.find?_isSome]
    exact ⟨cfg, hcfg, decide_eq_true ⟨ht, hc, hok.ne_empty hc⟩⟩
  obtain ⟨first, hfirst⟩ := Option.isSome_iff_exists.mp hsome
  rw [lookup_templateIDs, hfirst]
  have hpred : links c first = true := List.find?_some hfirst
  exact (of_decide_eq_true hpred).1

/-- A direct send looks up what the first link says. -/
theorem directTemplate_stored
    (h : buildDefinitionParams id environmentID version key name description d = .ok arg)
    (c : String) :
    directTemplate arg.record c
      = ((notificationConfigs d).find? (links c)).bind fun cfg =>
          if trimSpace cfg.templateID = "" then none else UUID.parse (trimSpace cfg.templateID) := by
  have htemplates := (buildDefinitionParams_ok h).2.2.1
  have hparse : Notification.parseWorkflowTemplateIDs (extracted arg.record).templateIDs
      = .ok (templateIDsFromDefinition d) := by
    have hcolumn : (extracted arg.record).templateIDs
        = some (stringMapJson (templateIDsFromDefinition d)) := by
      unfold extracted
      rw [extract_stored h]
      dsimp only
      split
      · exact congrArg some htemplates
      · rfl
    rw [hcolumn]
    exact decodeStringMap_stringMapJson _
  unfold directTemplate
  rw [hparse]
  dsimp only
  rw [lookup_templateIDs]
  rcases (notificationConfigs d).find? (links c) with - | cfg
  · have hblank : trimSpace ((none : Option String).getD "") = "" := by decide
    simp only [Option.map_none, hblank, if_true, Option.bind_none]
  · rfl

/-- The step engine uses the first template that is not blank. -/
theorem stepTemplate_stored (hd : Accepted d) (c : String) :
    stepTemplate d c = ((notificationConfigs d).find? fun cfg =>
      configChannel cfg == some c && trimSpace cfg.templateID != "").bind
        fun cfg => UUID.parse (trimSpace cfg.templateID) := by
  rw [stepTemplate, notificationConfigs, List.find?_filterMap, Option.bind_assoc]
  -- the two searches ask the same of a node
  have hpred : (fun node => nodeChannel node == some c && hasTemplate node)
      = fun node => (notificationConfig node).any fun cfg =>
          configChannel cfg == some c && trimSpace cfg.templateID != "" := by
    funext node
    unfold nodeChannel hasTemplate
    cases notificationConfig node <;> rfl
  rw [hpred]
  rcases hfind : d.nodes.find? _ with - | node
  · rfl
  have hany := List.find?_some hfind
  rcases hcfg : notificationConfig node with - | cfg
  · rw [hcfg] at hany
    cases hany
  rw [hcfg, Option.any_some, Bool.and_eq_true, beq_iff_eq, bne_iff_ne] at hany
  show (notificationTarget node).toOption.map (·.2) = (notificationConfig node).bind _
  rw [hcfg, Option.bind_some]
  have hin : cfg ∈ notificationConfigs d :=
    List.mem_filterMap.mpr ⟨node, List.mem_of_find?_eq_some hfind, hcfg⟩
  -- the validator has made sure that what is found can be read
  obtain ⟨channel, hok⟩ := configOk_of_accepted hd hin
  obtain ⟨templateID, hid⟩ := hok.template hany.2
  have hread : Json.unmarshal node.config decodeNotificationConfig = .ok cfg := by
    unfold notificationConfig at hcfg
    split at hcfg
    · rcases hread : Json.unmarshal node.config decodeNotificationConfig with e | cfg'
      · rw [hread] at hcfg
        cases hcfg
      · rw [hread] at hcfg
        cases hcfg
        rfl
    · cases hcfg
  have hchannel := hok.sends
  unfold configChannel at hchannel
  split at hchannel
  · next c' hc' => simp only [notificationTarget, hread, hc', hid, Except.toOption, Option.map_some]
  · cases hchannel

/-- With canonical spelling a config links exactly its own channel. -/
theorem links_of_canonical (hd : Accepted d) (hcanon : Canonical d) (c : String) :
    ∀ cfg ∈ notificationConfigs d,
      links c cfg = (configChannel cfg == some c && cfg.templateID != "") := by
  intro cfg hcfg
  obtain ⟨channel, hok⟩ := configOk_of_accepted hd hcfg
  have hiff := hok.mem_iff (hcanon cfg hcfg) c
  rw [Bool.eq_iff_iff]
  simp only [links, decide_eq_true_eq, hok.sends, Bool.and_eq_true, beq_iff_eq, bne_iff_ne,
    Option.some.injEq]
  constructor
  · exact fun hl => ⟨(hiff.mp hl.2.1).symm, hl.1⟩
  · exact fun hl => ⟨hl.2, hiff.mpr hl.1.symm, hok.ne_empty (hiff.mpr hl.1.symm)⟩

/-- So the first link to a channel is the first template of its configs. -/
theorem find?_links (hd : Accepted d) (hcanon : Canonical d) (c : String) :
    (notificationConfigs d).find? (links c) = (notificationConfigs d).find? fun cfg =>
      configChannel cfg == some c && cfg.templateID != "" :=
  List.find?_congr (links_of_canonical hd hcanon c)

/-- **The first template of a channel**, unless it is blank, is the first that is not blank, if
those after a blank one are blank too. -/
theorem find?_given (hblank : BlankNotFirst d) (c : String) :
    ((notificationConfigs d).find? fun cfg =>
        configChannel cfg == some c && cfg.templateID != "").bind
      (fun first => if trimSpace first.templateID = "" then none else some first) =
        (notificationConfigs d).find? fun cfg =>
          configChannel cfg == some c && trimSpace cfg.templateID != "" := by
  have hempty : trimSpace "" = "" := by decide
  rcases hfirst : (notificationConfigs d).find? fun cfg =>
      configChannel cfg == some c && cfg.templateID != "" with - | first
  · -- no template_id at all on this channel
    symm
    rw [Option.bind_none, List.find?_eq_none]
    rw [List.find?_eq_none] at hfirst
    intro cfg hcfg hpred
    rw [Bool.and_eq_true, beq_iff_eq, bne_iff_ne] at hpred
    refine hfirst cfg hcfg ?_
    rw [Bool.and_eq_true, beq_iff_eq, bne_iff_ne]
    refine ⟨hpred.1, fun heq => hpred.2 ?_⟩
    rw [heq, hempty]
  rw [Option.bind_some]
  by_cases hb : trimSpace first.templateID = ""
  · -- the first is blank, and so are the others
    symm
    rw [if_pos hb, List.find?_eq_none]
    intro cfg hcfg hpred
    rw [Bool.and_eq_true, beq_iff_eq, bne_iff_ne] at hpred
    exact hpred.2 (hblank c first hfirst hb cfg hcfg hpred.1)
  · -- the first template_id is not blank, so it is the first that is not blank
    symm
    rw [if_neg hb]
    obtain ⟨hpred, before, after, heq, hbefore⟩ := List.find?_eq_some_iff_append.mp hfirst
    refine List.find?_eq_some_iff_append.mpr ⟨?_, before, after, heq, fun cfg hcfg => ?_⟩
    · rw [Bool.and_eq_true] at hpred ⊢
      exact ⟨hpred.1, bne_iff_ne.mpr hb⟩
    · have hnot := hbefore cfg hcfg
      rw [Bool.not_eq_true', Bool.and_eq_false_iff] at hnot ⊢
      refine hnot.imp_right fun heq => ?_
      rw [bne_eq_false_iff_eq] at heq ⊢
      rw [heq, hempty]

/-- Engines that agree spell channels alike. -/
theorem canonical_of_agree
    (h : buildDefinitionParams id environmentID version key name description d = .ok arg)
    (hagree : EnginesAgree arg.record d) : Canonical d := by
  have hd := accepted_of_validateDefinition (buildDefinitionParams_ok h).1
  have hcolumn : arg.record.channels = channelsFromDefinition d := (buildDefinitionParams_ok h).2.1
  intro cfg hcfg c hc
  refine hagree.canonical c ?_
  rw [hcolumn]
  exact (mem_channelsFromDefinition hd).mpr ⟨cfg, hcfg, hc⟩

/-- Nor does a blank template come before another one: a direct send would find none, and a
step would find that one. -/
theorem blankNotFirst_of_agree
    (h : buildDefinitionParams id environmentID version key name description d = .ok arg)
    (hagree : EnginesAgree arg.record d) : BlankNotFirst d := by
  have hd := accepted_of_validateDefinition (buildDefinitionParams_ok h).1
  have hcanon := canonical_of_agree h hagree
  intro c first hfirst hblank cfg hcfg hchannel
  by_contra hgiven
  obtain ⟨channel, hok⟩ := configOk_of_accepted hd hcfg
  have hmem : c ∈ arg.record.channels := by
    rw [hagree.channels, List.mem_eraseDups, stepChannels_eq]
    exact List.mem_filterMap.mpr ⟨cfg, hcfg, hchannel⟩
  have heq := hagree.templates c hmem
  rw [directTemplate_stored h, find?_links hd hcanon, hfirst, Option.bind_some, if_pos hblank,
    stepTemplate_stored hd] at heq
  have hsome : ((notificationConfigs d).find? fun cfg =>
      configChannel cfg == some c && trimSpace cfg.templateID != "").isSome := by
    rw [List.find?_isSome]
    refine ⟨cfg, hcfg, ?_⟩
    rw [Bool.and_eq_true, beq_iff_eq, bne_iff_ne]
    exact ⟨hchannel, hgiven⟩
  obtain ⟨cfg', hcfg'⟩ := Option.isSome_iff_exists.mp hsome
  have hpred := List.find?_some hcfg'
  rw [Bool.and_eq_true, beq_iff_eq, bne_iff_ne] at hpred
  obtain ⟨channel', hok'⟩ := configOk_of_accepted hd (List.mem_of_find?_eq_some hcfg')
  obtain ⟨templateID, hid⟩ := hok'.template hpred.2
  rw [hcfg', Option.bind_some, hid] at heq
  cases heq

/-- **Both engines agree exactly on canonical definitions without blank templates.** -/
theorem enginesAgree_iff
    (h : buildDefinitionParams id environmentID version key name description d = .ok arg) :
    EnginesAgree arg.record d ↔ Canonical d ∧ BlankNotFirst d := by
  have hd := accepted_of_validateDefinition (buildDefinitionParams_ok h).1
  have hcolumn : arg.record.channels = channelsFromDefinition d := (buildDefinitionParams_ok h).2.1
  refine ⟨fun hagree => ⟨canonical_of_agree h hagree, blankNotFirst_of_agree h hagree⟩, ?_⟩
  rintro ⟨hcanon, hblank⟩
  refine ⟨hcolumn.trans (channelsFromDefinition_of_canonical hd hcanon), ?_, fun c _ => ?_⟩
  · intro c hc
    rw [hcolumn] at hc
    obtain ⟨cfg, hcfg, hc⟩ := (mem_channelsFromDefinition hd).mp hc
    exact hcanon cfg hcfg c hc
  · rw [directTemplate_stored h, find?_links hd hcanon, stepTemplate_stored hd,
      ← find?_given hblank, Option.bind_assoc]
    congr 1
    funext first
    split <;> rfl

end Stored

/-! ### Spelling -/

/-- What is stored for a definition under the key "welcome". -/
def stored (d : Definition) : Except GoError WorkflowDefinitionParams :=
  buildDefinitionParams Sample.workflowID Sample.environmentID 1 "welcome" "Welcome" none d

/-- A notification whose channel is written with a capital letter. -/
def capital : Definition where
  trigger := ⟨"user.signup"⟩
  nodes := [⟨"mail", .notification, some (.obj [("template_id", .str Sample.templateID.toString),
    ("channels", .arr [.str "Email"])])⟩]
  edgeSlice := some []

/-- It is sent by e-mail by one engine, and on a channel "Email" by the other. -/
theorem engines_differ_capital : ∃ arg, stored capital = .ok arg ∧
    arg.record.channels = ["Email"] ∧ stepChannels capital = ["email"] ∧
    ¬ EnginesAgree arg.record capital := by
  refine ⟨_, rfl, by decide +kernel, by decide +kernel, fun hagree => ?_⟩
  have hcanon := hagree.canonical "Email" (by decide +kernel)
  revert hcanon
  decide

theorem enginesAgree_single : ∃ arg, stored Sample.single = .ok arg ∧
    EnginesAgree arg.record Sample.single := by
  have hok : (stored Sample.single).toOption.isSome = true := by decide +kernel
  rcases hstored : stored Sample.single with e | arg
  · rw [hstored] at hok
    cases hok
  refine ⟨arg, rfl, (enginesAgree_iff hstored).mpr ⟨?_, ?_⟩⟩
  · have hall : ((notificationConfigs Sample.single).all fun cfg =>
        cfg.channels.all fun c => c ∈ ["email", "sms", "push"]) = true := by decide +kernel
    intro cfg hcfg c hc
    exact of_decide_eq_true (List.all_eq_true.mp (List.all_eq_true.mp hall cfg hcfg) c hc)
  · have hall : ((notificationConfigs Sample.single).all fun cfg =>
        trimSpace cfg.templateID != "") = true := by decide +kernel
    intro channel first hfirst hblank
    have hgiven := List.all_eq_true.mp hall first (List.mem_of_find?_eq_some hfirst)
    rw [hblank] at hgiven
    cases hgiven

end Iwifunni.Workflow
