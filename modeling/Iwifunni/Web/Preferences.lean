/-
Iwifunni/Web/Preferences.lean

The switches for the channels of a subscriber (`use-subscriber-preferences.ts`,
`WorkflowPreferencesPanel.tsx`).

There is a switch for every channel, and one for every channel of a workflow:

    global      email, sms              the master switches
    w1          sms                     its own list
    w2                                  none: the global list

A workflow without a list is shown the global one.  But the first toggle does not start
from there: it starts from nothing, so the switch that is toggled stays on and the others
go off.  From a list of its own a workflow is toggled as it is shown.  A workflow gets a
list by its first toggle and keeps it, so all that matters is which workflows have one in
the stored preferences (`obeyed_iff`).
-/
import Mathlib.Data.List.Perm.Subperm
import Iwifunni.Web.Record

namespace Iwifunni.Web

/-- `Channel`, as it is stored. -/
abbrev Channel : Type := String

/-- `DEFAULT_CHANNELS`. -/
def DEFAULT_CHANNELS : List Channel := ["email", "sms", "push"]

/-- `ChannelPreferences`: `global.channels`, and `channels` of each workflow. -/
structure ChannelPreferences where
  global : Option (List Channel)
  workflows : Option (Record (Option (List Channel)))

/-- `BuildPreferencesPayloadResult`. -/
structure PreferencesPayload where
  global : List Channel
  workflows : Option (Record (List Channel))

/-- The state of `useSubscriberPreferences`. -/
structure Switches where
  globalChannels : List Channel
  workflowChannels : Record (List Channel)

/-! ### The hook -/

/-- The state from which the hook starts. -/
def useSubscriberPreferences (prefs : ChannelPreferences) : Switches where
  globalChannels := prefs.global.getD DEFAULT_CHANNELS
  workflowChannels := match prefs.workflows with
    | none => Record.empty
    | some workflows => workflows.map fun channels => channels.getD []

/-- A list with a channel taken out, or put at the end. -/
def toggled (channels : List Channel) (channel : Channel) : List Channel :=
  if channel ∈ channels then channels.filter fun c => c != channel else channels ++ [channel]

/-- `toggleGlobal`. -/
def Switches.toggleGlobal (s : Switches) (channel : Channel) : Switches :=
  { s with globalChannels := toggled s.globalChannels channel }

/-- `toggleWorkflow`. -/
def Switches.toggleWorkflow (s : Switches) (workflowId : String) (channel : Channel) : Switches :=
  let current := (s.workflowChannels.get workflowId).getD []
  { s with workflowChannels := s.workflowChannels.set workflowId (toggled current channel) }

/-- `isSame` of `buildPreferencesPayload`. -/
def isSame (globalChannels channels : List Channel) : Bool :=
  channels.length == globalChannels.length && channels.all fun c => c ∈ globalChannels

/-- `buildPreferencesPayload`. -/
def Switches.buildPreferencesPayload (s : Switches) : PreferencesPayload :=
  let wfPrefs := s.workflowChannels.filter fun channels => !isSame s.globalChannels channels
  { global := s.globalChannels
    workflows := if wfPrefs.entries = [] then none else some wfPrefs }

/-- What the payload is when it was stored and is loaded again. -/
def PreferencesPayload.stored (payload : PreferencesPayload) : ChannelPreferences where
  global := some payload.global
  workflows := payload.workflows.map fun workflows => workflows.map some

/-! ### What is shown -/

/-- The switch of a channel. -/
def Switches.globallyOn (s : Switches) (channel : Channel) : Prop := channel ∈ s.globalChannels

/-- `isChecked`: the switch of a channel of a workflow. -/
def Switches.isChecked (s : Switches) (workflowId : String) (channel : Channel) : Prop :=
  channel ∈ s.globalChannels ∧
    channel ∈ (s.workflowChannels.get workflowId).getD s.globalChannels

instance (s : Switches) (channel : Channel) : Decidable (s.globallyOn channel) :=
  inferInstanceAs (Decidable (_ ∈ _))

instance (s : Switches) (workflowId : String) (channel : Channel) :
    Decidable (s.isChecked workflowId channel) :=
  inferInstanceAs (Decidable (_ ∧ _))

/-- The same switches are on. -/
structure SameSwitches (s s' : Switches) : Prop where
  globallyOn : ∀ c, s'.globallyOn c ↔ s.globallyOn c
  isChecked : ∀ w c, s'.isChecked w c ↔ s.isChecked w c

/-- A switch that is toggled. -/
inductive Toggle
  | global (channel : Channel)
  | workflow (workflowId : String) (channel : Channel)

/-- The state after a switch was toggled. -/
def Toggle.apply (s : Switches) : Toggle → Switches
  | global channel => s.toggleGlobal channel
  | workflow workflowId channel => s.toggleWorkflow workflowId channel

/-- The state after some switches were toggled. -/
def toggleAll (s : Switches) (toggles : List Toggle) : Switches := toggles.foldl Toggle.apply s

/-- A switch that is not disabled: that of a workflow is if its channel is off globally. -/
def Toggle.Enabled (s : Switches) : Toggle → Prop
  | global _ => True
  | workflow _ channel => s.globallyOn channel

/-- A toggle does what it shows: it flips its own switch, and no other one; the switch of a
channel may change those of the channel. -/
def Toggle.Obeyed (s : Switches) : Toggle → Prop
  | global channel => ∀ w c, c ≠ channel → ((s.toggleGlobal channel).isChecked w c ↔ s.isChecked w c)
  | workflow workflowId channel =>
      ((s.toggleWorkflow workflowId channel).isChecked workflowId channel ↔
        ¬ s.isChecked workflowId channel) ∧
      ∀ w c, (w, c) ≠ (workflowId, channel) →
        ((s.toggleWorkflow workflowId channel).isChecked w c ↔ s.isChecked w c)

/-- In a sequence of toggles every switch of a workflow is enabled when it is toggled. -/
def AllEnabled (s : Switches) (toggles : List Toggle) : Prop :=
  ∀ before toggle after, toggles = before ++ toggle :: after →
    toggle.Enabled (toggleAll s before)

/-- The switches do what they show: every toggle of the sequence does, and at any time what is
saved shows the same switches when it is loaded. -/
structure Obeyed (s : Switches) (toggles : List Toggle) : Prop where
  toggle : ∀ before toggle after, toggles = before ++ toggle :: after →
    toggle.Obeyed (toggleAll s before)
  saved : ∀ before after, toggles = before ++ after →
    SameSwitches (toggleAll s before)
      (useSubscriberPreferences (toggleAll s before).buildPreferencesPayload.stored)

/-- Channel lists without duplicates. -/
structure ChannelPreferences.DuplicateFree (prefs : ChannelPreferences) : Prop where
  global : ∀ channels, prefs.global = some channels → channels.Nodup
  workflows : ∀ workflows id channels, prefs.workflows = some workflows →
    workflows.get id = some (some channels) → channels.Nodup

/-- A workflow with a list of its own. -/
def ChannelPreferences.HasOwn (prefs : ChannelPreferences) (workflowId : String) : Prop :=
  ∃ workflows, prefs.workflows = some workflows ∧ (workflows.get workflowId).isSome

/-! ### Lists of channels -/

/-- The channels after one was toggled. -/
theorem mem_toggled {channels : List Channel} {channel c : Channel} :
    c ∈ toggled channels channel ↔ if c = channel then channel ∉ channels else c ∈ channels := by
  unfold toggled
  split
  · next hmem =>
    rw [List.mem_filter]
    split
    · next heq => simp [heq, hmem]
    · next hne => simp [hne]
  · next hmem =>
    rw [List.mem_append, List.mem_singleton]
    split
    · next heq => simp [heq, hmem]
    · next hne => simp [hne]

/-- A toggle brings no channel twice. -/
theorem nodup_toggled {channels : List Channel} (h : channels.Nodup) (channel : Channel) :
    (toggled channels channel).Nodup := by
  unfold toggled
  split
  · exact h.filter _
  · next hmem =>
    refine List.nodup_append.mpr ⟨h, List.nodup_singleton _, ?_⟩
    intro c hc c' hc' heq
    rw [List.mem_singleton] at hc'
    subst heq hc'
    exact hmem hc

/-- Without duplicates, lists that are the same have the same channels. -/
theorem mem_iff_of_isSame {globalChannels channels : List Channel}
    (hchannels : channels.Nodup) (h : isSame globalChannels channels = true) (c : Channel) :
    c ∈ channels ↔ c ∈ globalChannels := by
  simp only [isSame, Bool.and_eq_true, beq_iff_eq, List.all_eq_true, decide_eq_true_eq] at h
  have hperm := (List.subperm_of_subset hchannels h.2).perm_of_length_le (Nat.le_of_eq h.1.symm)
  exact hperm.mem_iff

/-! ### States -/

/-- A state without duplicates. -/
structure Switches.DuplicateFree (s : Switches) : Prop where
  global : s.globalChannels.Nodup
  workflows : ∀ id channels, s.workflowChannels.get id = some channels → channels.Nodup

section

variable {s : Switches} {prefs : ChannelPreferences} {toggles : List Toggle}

/-- The switches of preferences without duplicates. -/
theorem duplicateFree_initial (h : prefs.DuplicateFree) :
    (useSubscriberPreferences prefs).DuplicateFree := by
  constructor
  case global =>
    show (prefs.global.getD DEFAULT_CHANNELS).Nodup
    rcases hglobal : prefs.global with - | channels
    · decide
    · exact h.global channels hglobal
  case workflows =>
    intro id channels hget
    unfold useSubscriberPreferences at hget
    rcases hworkflows : prefs.workflows with - | workflows
    · rw [hworkflows] at hget
      cases hget
    · rw [hworkflows] at hget
      dsimp only at hget
      rw [Record.get_map, Option.map_eq_some_iff] at hget
      obtain ⟨stored, hstored, rfl⟩ := hget
      cases stored with
      | none => exact List.nodup_nil
      | some channels => exact h.workflows workflows id channels hworkflows hstored

/-- The hook starts with the lists that are stored. -/
theorem get_initial_isSome (prefs : ChannelPreferences) (w : String) :
    ((useSubscriberPreferences prefs).workflowChannels.get w).isSome ↔ prefs.HasOwn w := by
  unfold useSubscriberPreferences ChannelPreferences.HasOwn
  cases prefs.workflows with
  | none => simp [Record.get_empty]
  | some workflows => simp [Record.get_map]

/-- A toggle brings no channel twice. -/
theorem duplicateFree_apply (h : s.DuplicateFree) (toggle : Toggle) :
    (toggle.apply s).DuplicateFree := by
  cases toggle with
  | global channel => exact ⟨nodup_toggled h.global channel, h.workflows⟩
  | workflow workflowId channel =>
      refine ⟨h.global, fun id channels hget => ?_⟩
      by_cases hid : id = workflowId
      · subst hid
        obtain rfl := Option.some.inj ((Record.get_set_self _ _ _).symm.trans hget)
        apply nodup_toggled
        rcases hcurrent : s.workflowChannels.get id with - | current
        · exact List.nodup_nil
        · exact h.workflows id current hcurrent
      · exact h.workflows id channels ((Record.get_set_of_ne _ _ hid _).symm.trans hget)

theorem duplicateFree_toggleAll (h : s.DuplicateFree) (toggles : List Toggle) :
    (toggleAll s toggles).DuplicateFree := by
  induction toggles generalizing s with
  | nil => exact h
  | cons toggle toggles ih => exact ih (duplicateFree_apply h toggle)

/-! ### What is saved -/

/-- A workflow keeps its own channels if they are not the global ones. -/
theorem get_saved (s : Switches) (w : String) :
    (useSubscriberPreferences s.buildPreferencesPayload.stored).workflowChannels.get w =
      (s.workflowChannels.get w).filter fun channels => !isSame s.globalChannels channels := by
  rw [← Record.get_filter]
  unfold useSubscriberPreferences PreferencesPayload.stored Switches.buildPreferencesPayload
  dsimp only
  split
  · next hnone =>
    split at hnone
    · next hempty =>
      -- a record without entries finds nothing
      rw [Record.get_empty, Record.get, hempty]
      rfl
    · cases hnone
  · next workflows hsome =>
    split at hsome
    · cases hsome
    · obtain rfl := Option.some.inj hsome
      rw [Record.get_map, Record.get_map, Option.map_map]
      exact Option.map_id' 

/-- What is saved shows the same switches exactly if no list is dropped that has less channels
than the global one. -/
theorem sameSwitches_saved_iff (s : Switches) :
    SameSwitches s (useSubscriberPreferences s.buildPreferencesPayload.stored) ↔
      ∀ w channels, s.workflowChannels.get w = some channels →
        isSame s.globalChannels channels = true → ∀ c ∈ s.globalChannels, c ∈ channels := by
  have hchecked : ∀ w c, (useSubscriberPreferences s.buildPreferencesPayload.stored).isChecked w c ↔
      c ∈ s.globalChannels ∧ c ∈ ((s.workflowChannels.get w).filter fun channels =>
        !isSame s.globalChannels channels).getD s.globalChannels := by
    intro w c
    rw [← get_saved]
    rfl
  constructor
  · rintro ⟨-, hshown⟩ w channels hget hsame c hc
    have hiff := hshown w c
    rw [hchecked, Switches.isChecked, hget, Option.filter_some] at hiff
    simpa [hsame, hc] using hiff
  · intro hkept
    refine ⟨fun c => Iff.rfl, fun w c => ?_⟩
    rw [hchecked, Switches.isChecked]
    rcases hget : s.workflowChannels.get w with - | channels
    · rfl
    · rw [Option.filter_some]
      by_cases hsame : isSame s.globalChannels channels = true
      · -- the list is dropped: the global one has the same channels
        have hmem := hkept w channels hget hsame c
        simpa [hsame] using hmem
      · simp [hsame]

theorem sameSwitches_saved (h : s.DuplicateFree) :
    SameSwitches s (useSubscriberPreferences s.buildPreferencesPayload.stored) := by
  rw [sameSwitches_saved_iff]
  intro w channels hget hsame c hc
  exact (mem_iff_of_isSame (h.workflows w channels hget) hsame c).mpr hc

/-! ### What a toggle does -/

/-- The switch of a channel changes those of the channel only. -/
theorem obeyed_global (s : Switches) (channel : Channel) : (Toggle.global channel).Obeyed s := by
  intro w c hne
  have hglobal : c ∈ (s.toggleGlobal channel).globalChannels ↔ c ∈ s.globalChannels := by
    show c ∈ toggled s.globalChannels channel ↔ _
    rw [mem_toggled, if_neg hne]
  show c ∈ _ ∧ c ∈ (s.workflowChannels.get w).getD _ ↔ _
  unfold Switches.isChecked
  cases s.workflowChannels.get w with
  | none => simp only [Option.getD_none, hglobal]
  | some channels => simp only [Option.getD_some, hglobal]

/-- The switch of a workflow does what it shows if the workflow has a list of its own, and
only then. -/
theorem obeyed_workflow_iff {w : String} {c : Channel} (hon : s.globallyOn c) :
    (Toggle.workflow w c).Obeyed s ↔ (s.workflowChannels.get w).isSome := by
  have hafter : ∀ w' c', (s.toggleWorkflow w c).isChecked w' c' ↔ c' ∈ s.globalChannels ∧
      c' ∈ ((s.workflowChannels.set w (toggled ((s.workflowChannels.get w).getD []) c)).get
        w').getD s.globalChannels := fun w' c' => Iff.rfl
  rcases hget : s.workflowChannels.get w with - | channels
  · refine iff_of_false ?_ (by simp)
    rintro ⟨hflip, -⟩
    -- it was on, and still is
    rw [hafter, Record.get_set_self, hget] at hflip
    simp only [Switches.isChecked, hget] at hflip
    have hboth : c ∈ s.globalChannels := hon
    simp [mem_toggled, hboth] at hflip
  · refine iff_of_true ⟨?_, ?_⟩ (by simp)
    · rw [hafter, Record.get_set_self, hget]
      have hboth : c ∈ s.globalChannels := hon
      simp [Switches.isChecked, hget, mem_toggled, hboth]
    · intro w' c' hne
      rw [hafter, hget]
      by_cases hw : w' = w
      · subst hw
        have hc : c' ≠ c := fun heq => hne (by rw [heq])
        simp [Switches.isChecked, hget, Record.get_set_self, mem_toggled, hc]
      · rw [Record.get_set_of_ne _ _ hw]
        rfl

/-- After an enabled toggle that does what it shows, the workflows with a list of their own are
those there were. -/
theorem get_isSome_apply {toggle : Toggle} (henabled : toggle.Enabled s)
    (hobeyed : toggle.Obeyed s) (w : String) :
    ((toggle.apply s).workflowChannels.get w).isSome ↔ (s.workflowChannels.get w).isSome := by
  cases toggle with
  | global channel => exact Iff.rfl
  | workflow workflowId channel =>
      by_cases hw : w = workflowId
      · subst hw
        refine iff_of_true ?_ ((obeyed_workflow_iff henabled).mp hobeyed)
        exact congrArg Option.isSome (Record.get_set_self _ _ _)
      · exact iff_of_eq (congrArg (fun found : Option _ => found.isSome = true)
          (Record.get_set_of_ne _ _ hw _))

/-! ### Sequences of toggles -/

/-- The first toggle is obeyed, and the others after it. -/
theorem obeyed_cons {toggle : Toggle} :
    (∀ before t after, toggle :: toggles = before ++ t :: after → t.Obeyed (toggleAll s before)) ↔
      toggle.Obeyed s ∧ ∀ before t after, toggles = before ++ t :: after →
        t.Obeyed (toggleAll (toggle.apply s) before) := by
  constructor
  · intro h
    refine ⟨h [] toggle toggles rfl, fun before t after heq => ?_⟩
    exact h (toggle :: before) t after (by rw [heq]; rfl)
  · rintro ⟨hhead, htail⟩ before t after heq
    cases before with
    | nil =>
        obtain ⟨rfl, -⟩ := List.cons.inj heq
        exact hhead
    | cons first before =>
        obtain ⟨rfl, hrest⟩ := List.cons.inj heq
        exact htail before t after hrest

theorem AllEnabled.cons {toggle : Toggle} (h : AllEnabled s (toggle :: toggles)) :
    toggle.Enabled s ∧ AllEnabled (toggle.apply s) toggles := by
  refine ⟨h [] toggle toggles rfl, fun before t after heq => ?_⟩
  exact h (toggle :: before) t after (by rw [heq]; rfl)

/-- Every toggle does what it shows exactly if the workflows that are toggled have lists of
their own at the start. -/
theorem toggles_obeyed_iff (henabled : AllEnabled s toggles) :
    (∀ before t after, toggles = before ++ t :: after → t.Obeyed (toggleAll s before)) ↔
      ∀ w c, Toggle.workflow w c ∈ toggles → (s.workflowChannels.get w).isSome := by
  induction toggles generalizing s with
  | nil =>
      refine iff_of_true (fun before t after heq => ?_) fun w c hmem => by cases hmem
      simp at heq
  | cons toggle toggles ih =>
      obtain ⟨hhead, htail⟩ := henabled.cons
      rw [obeyed_cons, ih htail]
      constructor
      · rintro ⟨hobeyed, hrest⟩ w c hmem
        rcases List.mem_cons.mp hmem with rfl | hmem
        · exact (obeyed_workflow_iff hhead).mp hobeyed
        · exact (get_isSome_apply hhead hobeyed w).mp (hrest w c hmem)
      · intro hown
        have hobeyed : toggle.Obeyed s := by
          cases toggle with
          | global channel => exact obeyed_global s channel
          | workflow w c => exact (obeyed_workflow_iff hhead).mpr (hown w c (List.mem_cons_self ..))
        refine ⟨hobeyed, fun w c hmem => ?_⟩
        exact (get_isSome_apply hhead hobeyed w).mpr (hown w c (List.mem_cons_of_mem _ hmem))

/-- **The switches do what they show exactly if** every workflow that is toggled has a list of
its own in the stored preferences. -/
theorem obeyed_iff (hstored : prefs.DuplicateFree)
    (henabled : AllEnabled (useSubscriberPreferences prefs) toggles) :
    Obeyed (useSubscriberPreferences prefs) toggles ↔
      ∀ w c, Toggle.workflow w c ∈ toggles → prefs.HasOwn w := by
  have hinitial := duplicateFree_initial hstored
  simp only [← get_initial_isSome]
  rw [← toggles_obeyed_iff henabled]
  constructor
  · exact fun h => h.toggle
  · exact fun h => ⟨h, fun before after _ =>
      sameSwitches_saved (duplicateFree_toggleAll hinitial before)⟩

end

namespace Sample

/-- Preferences with all channels, in which one workflow has a list of its own. -/
def preferences : ChannelPreferences where
  global := some ["email", "sms", "push"]
  workflows := some ⟨[("w1", some ["sms"])], List.nodup_singleton _⟩

end Sample

theorem allEnabled_singleton {s : Switches} {toggle : Toggle} (h : toggle.Enabled s) :
    AllEnabled s [toggle] := by
  intro before t after heq
  cases before with
  | nil =>
      obtain ⟨rfl, -⟩ := List.cons.inj heq
      exact h
  | cons first before => simp at heq

theorem duplicateFree_preferences : Sample.preferences.DuplicateFree := by
  constructor
  case global =>
    intro channels h
    obtain rfl := Option.some.inj h
    decide
  case workflows =>
    intro workflows id channels h hget
    obtain rfl := Option.some.inj h
    obtain ⟨-, rfl⟩ : id = "w1" ∧ channels = ["sms"] := by
      simpa [Record.get_eq_some_iff] using hget
    decide

theorem obeyed_iff_preferences :
    Obeyed (useSubscriberPreferences Sample.preferences) [.workflow "w1" "email"] ↔
      ∀ w c, Toggle.workflow w c ∈ [Toggle.workflow "w1" "email"] →
        Sample.preferences.HasOwn w :=
  obeyed_iff duplicateFree_preferences
    (allEnabled_singleton (List.mem_cons_self .. : "email" ∈ ["email", "sms", "push"]))

/-- The first toggle of a workflow without a list of its own does not flip its switch. -/
theorem not_obeyed :
    Sample.preferences.DuplicateFree ∧
      AllEnabled (useSubscriberPreferences Sample.preferences) [.workflow "w2" "email"] ∧
      ¬ Obeyed (useSubscriberPreferences Sample.preferences) [.workflow "w2" "email"] := by
  refine ⟨duplicateFree_preferences,
    allEnabled_singleton (List.mem_cons_self .. : "email" ∈ ["email", "sms", "push"]), fun h => ?_⟩
  have hflip := (h.toggle [] (.workflow "w2" "email") [] rfl).1
  revert hflip
  decide

end Iwifunni.Web
