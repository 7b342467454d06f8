/-
Iwifunni/Integration/Flags.lean

The flags of the integrations: active and primary.

`UpdateState` moves them in one transaction, statement by statement, and the table
has to satisfy its constraints after each of them: one primary row for each channel of
an environment, and no primary row that is not active.  What a transaction does is
therefore given by the flags it leaves on every row:

    enable        the row is active, the rest is as it was
    set_primary   the row is active and primary, no other row of its channel is primary
    disable       the row is neither; if it was primary, the first other active row of
                  its channel in the order of the list is active and primary

and a transaction that fails leaves the table alone.
-/
import Iwifunni.Integration.Service
import Mathlib.Data.List.Pairwise

namespace Iwifunni.Integration

open Go Db Effect Effect.Prog Store

/-! ### The constraints of the table -/

/-- The row is in a channel of an environment. -/
def In (environmentID : UUID) (channel : String) (row : Db.Integration) : Prop :=
  row.environmentID = environmentID ∧ row.channel = channel

instance (environmentID : UUID) (channel : String) (row : Db.Integration) :
    Decidable (In environmentID channel row) :=
  inferInstanceAs (Decidable (_ ∧ _))

/-- The rows satisfy the constraints of the table `integrations`. -/
structure Constrained (rows : List Db.Integration) : Prop where
  ids : rows.Pairwise fun r r' => r'.id ≠ r.id
  names : rows.Pairwise fun r r' => (r'.environmentID, r'.name) ≠ (r.environmentID, r.name)
  active : ∀ r ∈ rows, r.isPrimary = true → r.isActive = true
  primary : rows.Pairwise fun r r' => r.isPrimary = true → r'.isPrimary = true →
    (r'.environmentID, r'.channel) ≠ (r.environmentID, r.channel)

theorem distinctBy_iff [BEq κ] [LawfulBEq κ] {key : α → κ} {rows : List α} :
    distinctBy key rows = true ↔ rows.Pairwise fun r r' => key r' ≠ key r := by
  induction rows with
  | nil => simp [distinctBy]
  | cons r rows ih => simp [distinctBy, ih]

/-- The test of the constraints. -/
theorem integrationsOk_iff {rows : List Db.Integration} :
    integrationsOk rows = true ↔ Constrained rows := by
  simp only [integrationsOk, Bool.and_eq_true, distinctBy_iff, List.pairwise_filter,
    List.all_eq_true, Bool.or_eq_true, Bool.not_eq_true']
  constructor
  · rintro ⟨⟨⟨hids, hnames⟩, hactive⟩, hprimary⟩
    refine ⟨hids, hnames, fun r hr hp => (hactive r hr).resolve_left (by simp [hp]), ?_⟩
    exact hprimary
  · rintro ⟨hids, hnames, hactive, hprimary⟩
    refine ⟨⟨⟨hids, hnames⟩, fun r hr => ?_⟩, hprimary⟩
    by_cases hp : r.isPrimary = true
    · exact Or.inr (hactive r hr hp)
    · exact Or.inl (by simpa using hp)

section Rows

variable {rows : List Db.Integration} {p q r : Db.Integration}

/-- Rows are told apart by their ids. -/
theorem Constrained.eq_of_id (h : Constrained rows) (hp : p ∈ rows) (hr : r ∈ rows)
    (hid : r.id = p.id) : r = p := by
  by_contra hne
  have hsymm : Std.Symm fun a b : Db.Integration => b.id ≠ a.id := ⟨fun _ _ h => h.symm⟩
  exact h.ids.forall hp hr (fun he => hne he.symm) hid

/-- There is at most one primary row in a channel. -/
theorem Constrained.eq_of_primary (h : Constrained rows) (hp : p ∈ rows) (hr : r ∈ rows)
    (hprimary : p.isPrimary = true) (hrp : r.isPrimary = true)
    (hin : In p.environmentID p.channel r) : r = p := by
  by_contra hne
  have hsymm : Std.Symm fun a b : Db.Integration => a.isPrimary = true → b.isPrimary = true →
      (b.environmentID, b.channel) ≠ (a.environmentID, a.channel) :=
    ⟨fun _ _ h hb ha he => h ha hb he.symm⟩
  exact h.primary.forall hp hr (fun he => hne he.symm) hprimary hrp (Prod.ext hin.1 hin.2)

/-- A change of the flags only. -/
structure Flagging (f : Db.Integration → Db.Integration) : Prop where
  id_eq : ∀ r, (f r).id = r.id
  environmentID_eq : ∀ r, (f r).environmentID = r.environmentID
  name_eq : ∀ r, (f r).name = r.name
  channel_eq : ∀ r, (f r).channel = r.channel
  credentials_eq : ∀ r, (f r).credentials = r.credentials
  config_eq : ∀ r, (f r).config = r.config

/-- What is to be seen to when flags change. -/
theorem Constrained.map (h : Constrained rows) {f : Db.Integration → Db.Integration}
    (hf : Flagging f)
    (hactive : ∀ r ∈ rows, (f r).isPrimary = true → (f r).isActive = true)
    (hprimary : ∀ r ∈ rows, ∀ r' ∈ rows, (f r).isPrimary = true → (f r').isPrimary = true →
      In r.environmentID r.channel r' → r'.id = r.id) : Constrained (rows.map f) where
  ids := by
    simp only [List.pairwise_map, hf.id_eq]
    exact h.ids
  names := by
    simp only [List.pairwise_map, hf.environmentID_eq, hf.name_eq]
    exact h.names
  active := by
    intro r hr
    obtain ⟨r₀, hr₀, rfl⟩ := List.mem_map.mp hr
    exact hactive r₀ hr₀
  primary := by
    simp only [List.pairwise_map, hf.environmentID_eq, hf.channel_eq]
    refine h.ids.imp_of_mem fun {r r'} hr hr' hid hp hp' he => hid ?_
    exact hprimary r hr r' hr' hp hp' ⟨congrArg Prod.fst he, congrArg Prod.snd he⟩

/-- `UpdateIntegrationState`. -/
def setFlags (id : UUID) (isActive isPrimary : Bool) (r : Db.Integration) : Db.Integration :=
  if r.id = id then { r with isActive := isActive, isPrimary := isPrimary } else r

/-- `ClearIntegrationPrimaryByChannel`. -/
def clearPrimary (environmentID : UUID) (channel : String) (r : Db.Integration) :
    Db.Integration :=
  if In environmentID channel r then { r with isPrimary := false } else r

theorem flagging_setFlags (id : UUID) (a b : Bool) : Flagging (setFlags id a b) := by
  constructor <;> intro r <;> unfold setFlags <;> split <;> rfl

theorem flagging_clearPrimary (environmentID : UUID) (channel : String) :
    Flagging (clearPrimary environmentID channel) := by
  constructor <;> intro r <;> unfold clearPrimary <;> split <;> rfl

/-! ### The statements of a transaction -/

variable {w : World}

/-- The statement finds the row. -/
theorem find_row (h : Constrained w.integrations) (hp : p ∈ w.integrations) :
    (w.integrations.find? fun r => r.id == p.id && r.environmentID == p.environmentID) =
      some p := by
  rcases hfind : w.integrations.find? fun r => r.id == p.id && r.environmentID == p.environmentID
    with - | r
  · have hnone := List.find?_eq_none.mp hfind p hp
    simp at hnone
  · have hid : r.id = p.id := by
      have hsome := List.find?_some hfind
      simp only [Bool.and_eq_true, beq_iff_eq] at hsome
      exact hsome.1
    exact hfind.trans (congrArg some (h.eq_of_id hp (List.mem_of_find?_eq_some hfind) hid))

theorem answer_getIntegrationByID (h : Constrained w.integrations) (hp : p ∈ w.integrations) :
    World.answer (.getIntegrationByID p.id p.environmentID) w = (.ok p, w) := by
  show (orNoRows _, w) = _
  rw [find_row h hp]
  rfl

/-- A statement that would leave a constrained table goes through. -/
theorem answer_updateIntegrationState (h : Constrained w.integrations)
    (hp : p ∈ w.integrations) {a b : Bool}
    (hnext : Constrained (w.integrations.map (setFlags p.id a b))) :
    World.answer (.updateIntegrationState p.id p.environmentID a b) w =
      (.ok { p with isActive := a, isPrimary := b },
        { w with integrations := w.integrations.map (setFlags p.id a b) }) := by
  have hrows : (w.integrations.map fun r =>
      if r.id == p.id && r.environmentID == p.environmentID then
        { r with isActive := a, isPrimary := b } else r) =
      w.integrations.map (setFlags p.id a b) := by
    refine List.map_congr_left fun r hr => ?_
    by_cases hid : r.id = p.id
    · rw [h.eq_of_id hp hr hid, setFlags]
      simp
    · rw [setFlags, if_neg hid, if_neg (by simp [hid])]
  show w.modifyIntegration p.id p.environmentID _ = _
  unfold World.modifyIntegration
  rw [find_row h hp]
  dsimp only
  rw [hrows, if_pos (integrationsOk_iff.mpr hnext)]

theorem answer_clearPrimaryByChannel (environmentID : UUID) (channel : String) :
    World.answer (.clearPrimaryByChannel environmentID channel) w =
      (.ok (), { w with integrations := w.integrations.map (clearPrimary environmentID channel) }) := by
  show (Except.ok (), _) = _
  congr 2
  refine List.map_congr_left fun r _ => ?_
  by_cases hin : In environmentID channel r
  · rw [clearPrimary, if_pos hin, if_pos (by simp [hin.1, hin.2])]
  · rw [clearPrimary, if_neg hin, if_neg (by simpa [In] using hin)]

/-! ### `set_primary` -/

/-- The flags after `set_primary`. -/
def primaryFlags (p r : Db.Integration) : Db.Integration :=
  if r.id = p.id then { r with isActive := true, isPrimary := true }
  else if In p.environmentID p.channel r then { r with isPrimary := false }
  else r

theorem flagging_primaryFlags (p : Db.Integration) : Flagging (primaryFlags p) := by
  constructor <;> intro r <;> unfold primaryFlags <;> split <;> first | rfl | (split <;> rfl)

theorem setFlags_clearPrimary (p r : Db.Integration) :
    setFlags p.id true true (clearPrimary p.environmentID p.channel r) = primaryFlags p r := by
  have hid := (flagging_clearPrimary p.environmentID p.channel).id_eq r
  by_cases h : r.id = p.id
  · rw [setFlags, if_pos (hid.trans h), primaryFlags, if_pos h, clearPrimary]
    split <;> rfl
  · rw [setFlags, if_neg (fun hc => h (hid.symm.trans hc)), primaryFlags, if_neg h, clearPrimary]

theorem isPrimary_clearPrimary {environmentID : UUID} {channel : String} :
    (clearPrimary environmentID channel r).isPrimary = true ↔
      ¬ In environmentID channel r ∧ r.isPrimary = true := by
  unfold clearPrimary
  split
  · next h => simp [h]
  · next h => simp [h]

theorem isPrimary_primaryFlags (hr : (primaryFlags p r).isPrimary = true) :
    r.id = p.id ∨ ¬ In p.environmentID p.channel r ∧ r.isPrimary = true := by
  unfold primaryFlags at hr
  split at hr
  · next h => exact Or.inl h
  · split at hr
    · cases hr
    · next h => exact Or.inr ⟨h, hr⟩

/-- Clearing a channel harms no constraint. -/
theorem Constrained.clear (h : Constrained rows) (environmentID : UUID) (channel : String) :
    Constrained (rows.map (clearPrimary environmentID channel)) := by
  refine h.map (flagging_clearPrimary _ _) (fun r hr hp => ?_) fun r hr r' hr' hp hp' hin => ?_
  · have hactive := h.active r hr (isPrimary_clearPrimary.mp hp).2
    unfold clearPrimary
    split <;> exact hactive
  · rw [h.eq_of_primary hr hr' (isPrimary_clearPrimary.mp hp).2 (isPrimary_clearPrimary.mp hp').2 hin]

/-- A row that takes over its channel harms no constraint. -/
theorem Constrained.takeOver (h : Constrained rows) (hp : p ∈ rows) :
    Constrained (rows.map (primaryFlags p)) := by
  refine h.map (flagging_primaryFlags p) (fun r hr hrp => ?_) fun r hr r' hr' hrp hrp' hin => ?_
  · unfold primaryFlags at hrp ⊢
    split
    · rfl
    · next hid =>
      rw [if_neg hid] at hrp
      split
      · next hin =>
        rw [if_pos hin] at hrp
        cases hrp
      · next hin =>
        rw [if_neg hin] at hrp
        exact h.active r hr hrp
  · rcases isPrimary_primaryFlags hrp with hid | ⟨hout, hrp⟩ <;>
      rcases isPrimary_primaryFlags hrp' with hid' | ⟨hout', hrp'⟩
    · exact hid'.trans hid.symm
    -- the row that takes over and another row of its channel
    · rw [h.eq_of_id hp hr hid] at hin
      exact absurd hin hout'
    · rw [h.eq_of_id hp hr' hid'] at hin
      exact absurd ⟨hin.1.symm, hin.2.symm⟩ hout
    · rw [h.eq_of_primary hr hr' hrp hrp' hin]

/-- Every call of a log has succeeded. -/
def Served (log : List (Answered Op.Res GoError)) : Prop :=
  ∀ a ∈ log, ∃ v, a.2 = .ok v

/-- **`setPrimary` takes the channel over.** -/
theorem drive_setPrimary (h : Constrained w.integrations) (hp : p ∈ w.integrations) :
    ∃ log, Served log ∧ (setPrimary p).drive World.answer w =
      (log, .ok { p with isActive := true, isPrimary := true },
        { w with integrations := w.integrations.map (primaryFlags p) }) := by
  have hclear := h.clear p.environmentID p.channel
  have hmem : clearPrimary p.environmentID p.channel p ∈
      w.integrations.map (clearPrimary p.environmentID p.channel) := List.mem_map_of_mem hp
  have hrow : clearPrimary p.environmentID p.channel p = { p with isPrimary := false } :=
    if_pos ⟨rfl, rfl⟩
  have hrows : (w.integrations.map (clearPrimary p.environmentID p.channel)).map
      (setFlags p.id true true) = w.integrations.map (primaryFlags p) := by
    rw [List.map_map]
    exact List.map_congr_left fun r _ => setFlags_clearPrimary p r
  have hset := answer_updateIntegrationState
    (w := { w with integrations := w.integrations.map (clearPrimary p.environmentID p.channel) })
    hclear (hrow ▸ hmem) (a := true) (b := true) (hrows ▸ h.takeOver hp)
  dsimp only at hset
  rw [hrows] at hset
  refine ⟨[⟨.clearPrimaryByChannel p.environmentID p.channel, .ok ()⟩,
    ⟨.updateIntegrationState p.id p.environmentID true true,
      .ok { p with isActive := true, isPrimary := true }⟩], by simp [Served], ?_⟩
  unfold setPrimary
  rw [drive_perform_bind (answer_clearPrimaryByChannel p.environmentID p.channel),
    drive_perform hset]

/-! ### `enable` -/

/-- The flags after `enable`. -/
def enabledFlags (p r : Db.Integration) : Db.Integration :=
  if r.id = p.id then { r with isActive := true } else r

theorem flagging_enabledFlags (p : Db.Integration) : Flagging (enabledFlags p) := by
  constructor <;> intro r <;> unfold enabledFlags <;> split <;> rfl

theorem isPrimary_enabledFlags (p r : Db.Integration) :
    (enabledFlags p r).isPrimary = r.isPrimary := by
  unfold enabledFlags
  split <;> rfl

/-- An active row more harms no constraint. -/
theorem Constrained.enable (h : Constrained rows) (p : Db.Integration) :
    Constrained (rows.map (enabledFlags p)) := by
  refine h.map (flagging_enabledFlags p) (fun r hr hp => ?_) fun r hr r' hr' hp hp' hin => ?_
  · rw [isPrimary_enabledFlags] at hp
    unfold enabledFlags
    split
    · rfl
    · exact h.active r hr hp
  · rw [isPrimary_enabledFlags] at hp hp'
    rw [h.eq_of_primary hr hr' hp hp' hin]

/-- `enable` activates the row. -/
theorem drive_enable (h : Constrained w.integrations) (hp : p ∈ w.integrations) :
    ∃ log, Served log ∧ (enable p).drive World.answer w =
      (log, .ok { p with isActive := true },
        { w with integrations := w.integrations.map (enabledFlags p) }) := by
  have hrows : w.integrations.map (setFlags p.id true p.isPrimary) =
      w.integrations.map (enabledFlags p) := by
    refine List.map_congr_left fun r hr => ?_
    unfold setFlags enabledFlags
    split
    · next hid => rw [h.eq_of_id hp hr hid]
    · rfl
  have hset := answer_updateIntegrationState h hp (a := true) (b := p.isPrimary)
    (hrows ▸ h.enable p)
  rw [hrows] at hset
  refine ⟨[⟨.updateIntegrationState p.id p.environmentID true p.isPrimary,
    .ok { p with isActive := true }⟩], by simp [Served], ?_⟩
  unfold Integration.enable
  rw [drive_perform hset]

/-! ### `disable` -/

/-- The rows of a channel in the order of the list. -/
def listed (rows : List Db.Integration) (environmentID : UUID) (channel : String) :
    List Db.Integration :=
  primaryFirst (rows.filter fun r => r.environmentID == environmentID && r.channel == channel)

theorem mem_listed {environmentID : UUID} {channel : String} :
    r ∈ listed rows environmentID channel ↔ r ∈ rows ∧ In environmentID channel r := by
  simp only [listed, primaryFirst, List.mem_append, List.mem_filter, Bool.and_eq_true,
    beq_iff_eq, In]
  cases r.isPrimary <;> simp

/-- The row that becomes primary when `p` is disabled. -/
def successor (p : Db.Integration) (rows : List Db.Integration) : Option Db.Integration :=
  if p.isPrimary then fallback p (listed rows p.environmentID p.channel) else none

/-- The flags after `disable`. -/
def disabledFlags (p : Db.Integration) (next : Option Db.Integration) (r : Db.Integration) :
    Db.Integration :=
  if r.id = p.id then { r with isActive := false, isPrimary := false }
  else if next.any fun q => q.id == r.id then { r with isActive := true, isPrimary := true }
  else r

/-- `p` is primary, and no other row of its channel is active. -/
def Last (p : Db.Integration) (rows : List Db.Integration) : Prop :=
  p.isPrimary = true ∧
    ∀ r ∈ rows, In p.environmentID p.channel r → r.isActive = true → r.id = p.id

/-- Nobody can take over exactly if there is no other active row. -/
theorem fallback_eq_none :
    fallback p (listed rows p.environmentID p.channel) = none ↔
      ∀ r ∈ rows, In p.environmentID p.channel r → r.isActive = true → r.id = p.id := by
  simp only [fallback, List.find?_eq_none, mem_listed, Bool.and_eq_true, bne_iff_ne, ne_eq,
    not_and, and_imp]
  constructor
  · intro h r hr hin hactive
    by_contra hid
    exact h r hr hin hid hactive
  · intro h r hr hin hid hactive
    exact hid (h r hr hin hactive)

theorem fallback_spec (hq : fallback p (listed rows p.environmentID p.channel) = some q) :
    q ∈ rows ∧ In p.environmentID p.channel q ∧ q.id ≠ p.id ∧ q.isActive = true := by
  obtain ⟨hmem, hin⟩ := mem_listed.mp (List.mem_of_find?_eq_some hq)
  have hsome := List.find?_some hq
  simp only [Bool.and_eq_true, bne_iff_ne, ne_eq] at hsome
  exact ⟨hmem, hin, hsome.1, hsome.2⟩

/-- A row without flags harms no constraint. -/
theorem Constrained.disable (h : Constrained rows) (id : UUID) :
    Constrained (rows.map (setFlags id false false)) := by
  have hkeep : ∀ r, (setFlags id false false r).isPrimary = true →
      r.isPrimary = true ∧ setFlags id false false r = r := by
    intro r hr
    unfold setFlags at hr ⊢
    split at hr
    · cases hr
    · next hid => exact ⟨hr, if_neg hid⟩
  refine h.map (flagging_setFlags id false false) (fun r hr hp => ?_)
    fun r hr r' hr' hp hp' hin => ?_
  · rw [(hkeep r hp).2]
    exact h.active r hr (hkeep r hp).1
  · rw [h.eq_of_primary hr hr' (hkeep r hp).1 (hkeep r' hp').1 hin]

theorem answer_listByChannel (environmentID : UUID) (channel : String) :
    World.answer (.listByChannel environmentID channel) w =
      (.ok (listed w.integrations environmentID channel), w) := rfl

/-- A row that is not primary is disabled by one statement. -/
theorem drive_disable_plain (h : Constrained w.integrations) (hp : p ∈ w.integrations)
    (hplain : p.isPrimary = false) :
    ∃ log, Served log ∧ (disable p).drive World.answer w =
      (log, .ok { p with isActive := false, isPrimary := false },
        { w with integrations := w.integrations.map (disabledFlags p none) }) := by
  have hset := answer_updateIntegrationState h hp (h.disable p.id)
  refine ⟨[⟨.updateIntegrationState p.id p.environmentID false false,
    .ok { p with isActive := false, isPrimary := false }⟩], by simp [Served], ?_⟩
  unfold Integration.disable
  rw [if_neg (by simp [hplain]), drive_perform hset]
  rfl

/-- With nobody to take over, `disable` fails before it writes anything. -/
theorem drive_disable_last (hlast : Last p w.integrations) :
    ∃ log e, Served log ∧ (disable p).drive World.answer w = (log, .error e, w) := by
  have hpromote : (promotePrimary p).drive World.answer w =
      ([⟨.listByChannel p.environmentID p.channel,
        .ok (listed w.integrations p.environmentID p.channel)⟩],
        .error (.other "no eligible fallback provider"), w) := by
    unfold promotePrimary
    rw [drive_perform_bind (answer_listByChannel p.environmentID p.channel),
      fallback_eq_none.mpr hlast.2]
    rfl
  refine ⟨[⟨.listByChannel p.environmentID p.channel,
    .ok (listed w.integrations p.environmentID p.channel)⟩], .other
    "cannot disable primary provider: no fallback active provider available",
    by simp [Served], ?_⟩
  unfold Integration.disable
  have hout : (promotePrimary p).outcome.drive World.answer w = _ :=
    drive_outcome (promotePrimary p) w
  rw [hpromote] at hout
  rw [if_pos hlast.1, drive_bind_ok (congrArg (fun d => d.2.1) hout), hout]
  rfl

/-- Promoting a row and disabling the primary one: the others of the channel had no flag
to lose. -/
theorem setFlags_primaryFlags (h : Constrained rows) (hp : p ∈ rows) (hr : r ∈ rows)
    (hprimary : p.isPrimary = true) (hin : In p.environmentID p.channel q) (hne : q.id ≠ p.id) :
    setFlags p.id false false (primaryFlags q r) = disabledFlags p (some q) r := by
  have hid := (flagging_primaryFlags q).id_eq r
  by_cases hrp : r.id = p.id
  · rw [setFlags, if_pos (hid.trans hrp), disabledFlags, if_pos hrp, primaryFlags,
      if_neg (fun he => hne (he.symm.trans hrp))]
    split <;> rfl
  · rw [setFlags, if_neg (fun he => hrp (hid.symm.trans he)), disabledFlags, if_neg hrp,
      primaryFlags]
    by_cases hrq : r.id = q.id
    · rw [if_pos hrq, if_pos (by simp [hrq])]
    · have hnext : ¬ (some q).any (fun q => q.id == r.id) = true := by
        simpa using fun he : q.id = r.id => hrq he.symm
      rw [if_neg hrq, if_neg hnext]
      by_cases hrin : In q.environmentID q.channel r
      · have hplain : r.isPrimary = false := by
          by_contra htrue
          have hsole := h.eq_of_primary hp hr hprimary (by simpa using htrue)
            ⟨hrin.1.trans hin.1, hrin.2.trans hin.2⟩
          exact hrp (congrArg Db.Integration.id hsole)
        rw [if_pos hrin, ← hplain]
      · rw [if_neg hrin]

theorem map_disabledFlags (h : Constrained rows) (hp : p ∈ rows) (hprimary : p.isPrimary = true)
    (hin : In p.environmentID p.channel q) (hne : q.id ≠ p.id) :
    (rows.map (primaryFlags q)).map (setFlags p.id false false) =
      rows.map (disabledFlags p (some q)) := by
  rw [List.map_map]
  exact List.map_congr_left fun r hr => setFlags_primaryFlags h hp hr hprimary hin hne

/-- Otherwise the first other active row takes over, and then the row is disabled. -/
theorem drive_disable_primary (h : Constrained w.integrations) (hp : p ∈ w.integrations)
    (hprimary : p.isPrimary = true)
    (hq : fallback p (listed w.integrations p.environmentID p.channel) = some q) :
    ∃ log, Served log ∧ (disable p).drive World.answer w =
      (log, .ok { p with isActive := false, isPrimary := false },
        { w with integrations := w.integrations.map (disabledFlags p (some q)) }) := by
  obtain ⟨hmem, hin, hne, -⟩ := fallback_spec hq
  obtain ⟨log, hlog, hset⟩ := drive_setPrimary h hmem
  -- first the fallback becomes the primary row
  have hpromote : (promotePrimary p).drive World.answer w =
      (⟨.listByChannel p.environmentID p.channel,
        .ok (listed w.integrations p.environmentID p.channel)⟩ :: log,
        .ok { q with isActive := true, isPrimary := true },
        { w with integrations := w.integrations.map (primaryFlags q) }) := by
    unfold promotePrimary
    rw [drive_perform_bind (answer_listByChannel p.environmentID p.channel), hq, ← hin.1, ← hin.2]
    show (_ :: ((setPrimary q).drive World.answer w).1, ((setPrimary q).drive World.answer w).2) = _
    rw [hset]
  have hrows := map_disabledFlags h hp hprimary hin hne
  have hnext := h.takeOver hmem
  have hflags := flagging_primaryFlags q
  -- then the row is written, which the constraints allow by now
  have hstate := answer_updateIntegrationState
    (w := { w with integrations := w.integrations.map (primaryFlags q) }) hnext
    (List.mem_map_of_mem hp) (hflags.id_eq p ▸ hnext.disable p.id)
  dsimp only at hstate
  rw [hflags.id_eq, hflags.environmentID_eq, hflags.name_eq, hflags.channel_eq,
    hflags.credentials_eq, hflags.config_eq, hrows] at hstate
  have hout : (promotePrimary p).outcome.drive World.answer w = _ :=
    drive_outcome (promotePrimary p) w
  rw [hpromote] at hout
  refine ⟨⟨.listByChannel p.environmentID p.channel,
      .ok (listed w.integrations p.environmentID p.channel)⟩ :: log ++
    [⟨.updateIntegrationState p.id p.environmentID false false,
      .ok { p with isActive := false, isPrimary := false }⟩], ?_, ?_⟩
  · intro a ha
    rcases List.mem_append.mp ha with ha | ha
    · rcases List.mem_cons.mp ha with rfl | ha
      · exact ⟨_, rfl⟩
      · exact hlog a ha
    · rw [List.mem_singleton.mp ha]
      exact ⟨_, rfl⟩
  · unfold Integration.disable
    rw [if_pos hprimary, drive_bind_ok (congrArg (fun d => d.2.1) hout), hout]
    dsimp only
    rw [drive_perform hstate]

/-! ### The transaction -/

/-- `Service.UpdateState` run alone: its statements, its result and the database after
`WithinTx`, which keeps nothing of a transaction that fails. -/
def withinTx (input : StateInput) (w : World) :
    List (Answered Op.Res GoError) × Except GoError Db.Integration × World :=
  let d := (updateState input).drive World.answer w
  (d.1, d.2.1, match d.2.1 with
    | .ok _ => d.2.2
    | .error _ => w)

/-- An action on a row. -/
def act (action : StateAction) (p : Db.Integration) : Act Db.Integration :=
  match action with
  | .enable => enable p
  | .disable => disable p
  | .setPrimary => setPrimary p
  | .unknown text => fail (.other ("unknown action: " ++ text))

theorem drive_updateState (h : Constrained w.integrations) (hp : p ∈ w.integrations)
    (action : StateAction) :
    (updateState ⟨p.id, p.environmentID, action⟩).drive World.answer w =
      (⟨.getIntegrationByID p.id p.environmentID, .ok p⟩ ::
        ((act action p).drive World.answer w).1, ((act action p).drive World.answer w).2) := by
  unfold updateState
  rw [drive_perform_bind (answer_getIntegrationByID h hp)]
  cases action <;> rfl

/-- An action that succeeds is committed. -/
theorem withinTx_ok (h : Constrained w.integrations) (hp : p ∈ w.integrations)
    {action : StateAction} {log r w'} (hrun : (act action p).drive World.answer w = (log, .ok r, w')) :
    withinTx ⟨p.id, p.environmentID, action⟩ w =
      (⟨.getIntegrationByID p.id p.environmentID, .ok p⟩ :: log, .ok r, w') := by
  unfold withinTx
  rw [drive_updateState h hp, hrun]

/-- An action that fails leaves nothing behind. -/
theorem withinTx_error (h : Constrained w.integrations) (hp : p ∈ w.integrations)
    {action : StateAction} {log e w'}
    (hrun : (act action p).drive World.answer w = (log, .error e, w')) :
    withinTx ⟨p.id, p.environmentID, action⟩ w =
      (⟨.getIntegrationByID p.id p.environmentID, .ok p⟩ :: log, .error e, w) := by
  unfold withinTx
  rw [drive_updateState h hp, hrun]

theorem Served.cons {log : List (Answered Op.Res GoError)} (h : Served log) (op : Op)
    (v : op.Res) : Served (⟨op, .ok v⟩ :: log) := by
  intro a ha
  rcases List.mem_cons.mp ha with rfl | ha
  · exact ⟨v, rfl⟩
  · exact h a ha

/-- A change of the flags within one channel that harms no constraint. -/
structure Within (p : Db.Integration) (rows : List Db.Integration)
    (f : Db.Integration → Db.Integration) : Prop where
  flagging : Flagging f
  frame : ∀ r ∈ rows, ¬ In p.environmentID p.channel r → f r = r
  constrained : Constrained (rows.map f)

theorem flagging_disabledFlags (p : Db.Integration) (next : Option Db.Integration) :
    Flagging (disabledFlags p next) := by
  constructor <;> intro r <;> unfold disabledFlags <;> split <;> first | rfl | (split <;> rfl)

/-- A row outside the channel of `p` is not `p`. -/
theorem ne_of_not_in (h : Constrained rows) (hp : p ∈ rows) (hr : r ∈ rows)
    (hin : In q.environmentID q.channel p) (hout : ¬ In q.environmentID q.channel r) :
    r.id ≠ p.id :=
  fun hid => hout (h.eq_of_id hp hr hid ▸ hin)

theorem within_enabledFlags (h : Constrained rows) (hp : p ∈ rows) :
    Within p rows (enabledFlags p) where
  flagging := flagging_enabledFlags p
  frame _ hr hout := if_neg (ne_of_not_in h hp hr ⟨rfl, rfl⟩ hout)
  constrained := h.enable p

theorem within_primaryFlags (h : Constrained rows) (hp : p ∈ rows) :
    Within p rows (primaryFlags p) where
  flagging := flagging_primaryFlags p
  frame r hr hout := by
    rw [primaryFlags, if_neg (ne_of_not_in h hp hr ⟨rfl, rfl⟩ hout), if_neg hout]
  constrained := h.takeOver hp

/-- Only the channel of the row is touched. -/
theorem within_disabledFlags (h : Constrained rows) (hp : p ∈ rows) :
    Within p rows (disabledFlags p (successor p rows)) := by
  refine ⟨flagging_disabledFlags _ _, fun r hr hout => ?_, ?_⟩
  · have hnext : ¬ (successor p rows).any (fun q => q.id == r.id) = true := by
      rcases hs : successor p rows with - | q
      · simp
      · unfold successor at hs
        split at hs
        · obtain ⟨hq, hin, -, -⟩ := fallback_spec hs
          simpa using fun he : q.id = r.id => ne_of_not_in h hq hr hin hout he.symm
        · cases hs
    rw [disabledFlags, if_neg (ne_of_not_in h hp hr ⟨rfl, rfl⟩ hout), if_neg hnext]
  · rcases hs : successor p rows with - | q
    · exact h.disable p.id
    · unfold successor at hs
      split at hs
      · next hprimary =>
        obtain ⟨hq, hin, hne, -⟩ := fallback_spec hs
        rw [← map_disabledFlags h hp hprimary hin hne]
        exact (h.takeOver hq).disable p.id
      · cases hs

/-- What an action makes of the rows: nothing, or what the action is for. -/
theorem withinTx_cases (h : Constrained w.integrations) (hp : p ∈ w.integrations)
    (action : StateAction) :
    ∃ log, Served log ∧
      ((∃ e, withinTx ⟨p.id, p.environmentID, action⟩ w = (log, .error e, w) ∧
        ((∃ text, action = .unknown text) ∨ action = .disable ∧ Last p w.integrations)) ∨
      ∃ r f, Within p w.integrations f ∧
        withinTx ⟨p.id, p.environmentID, action⟩ w =
          (log, .ok r, { w with integrations := w.integrations.map f }) ∧
        (action = .enable ∧ f = enabledFlags p ∨ action = .setPrimary ∧ f = primaryFlags p ∨
          action = .disable ∧ ¬ Last p w.integrations ∧
            f = disabledFlags p (successor p w.integrations))) := by
  have hget : ∀ {log}, Served log →
      Served (⟨.getIntegrationByID p.id p.environmentID, .ok p⟩ :: log) := fun h => h.cons _ _
  cases action with
  | enable =>
      obtain ⟨log, hlog, hrun⟩ := drive_enable h hp
      exact ⟨_, hget hlog, Or.inr ⟨_, _, within_enabledFlags h hp, withinTx_ok h hp hrun,
        Or.inl ⟨rfl, rfl⟩⟩⟩
  | setPrimary =>
      obtain ⟨log, hlog, hrun⟩ := drive_setPrimary h hp
      exact ⟨_, hget hlog, Or.inr ⟨_, _, within_primaryFlags h hp, withinTx_ok h hp hrun,
        Or.inr (Or.inl ⟨rfl, rfl⟩)⟩⟩
  | disable =>
      by_cases hlast : Last p w.integrations
      · obtain ⟨log, e, hlog, hrun⟩ := drive_disable_last hlast
        exact ⟨_, hget hlog, Or.inl ⟨e, withinTx_error h hp hrun, Or.inr ⟨rfl, hlast⟩⟩⟩
      · have hwithin := within_disabledFlags h hp
        -- a primary row needs a successor, another one does not
        rcases hp' : p.isPrimary with - | -
        · have hnext : successor p w.integrations = none := if_neg (by simp [hp'])
          rw [hnext] at hwithin ⊢
          obtain ⟨log, hlog, hrun⟩ := drive_disable_plain h hp hp'
          exact ⟨_, hget hlog, Or.inr ⟨_, _, hwithin, withinTx_ok h hp hrun,
            Or.inr (Or.inr ⟨rfl, hlast, rfl⟩)⟩⟩
        · have hnext : successor p w.integrations = fallback p _ := if_pos hp'
          rcases hq : fallback p (listed w.integrations p.environmentID p.channel) with - | q
          · exact absurd ⟨hp', fallback_eq_none.mp hq⟩ hlast
          · rw [hnext, hq] at hwithin ⊢
            obtain ⟨log, hlog, hrun⟩ := drive_disable_primary h hp hp' hq
            exact ⟨_, hget hlog, Or.inr ⟨_, _, hwithin, withinTx_ok h hp hrun,
              Or.inr (Or.inr ⟨rfl, hlast, rfl⟩)⟩⟩
  | unknown text =>
      exact ⟨_, hget (show Served [] by simp [Served]),
        Or.inl ⟨_, withinTx_error h hp rfl, Or.inl ⟨text, rfl⟩⟩⟩

/-- Rows outside the channel stay as they are and where they are. -/
theorem Within.filter_out {f : Db.Integration → Db.Integration} (hf : Within p rows f) :
    (rows.map f).filter (fun r => ¬ In p.environmentID p.channel r) =
      rows.filter fun r => ¬ In p.environmentID p.channel r := by
  have hin : ∀ r, In p.environmentID p.channel (f r) ↔ In p.environmentID p.channel r := by
    intro r
    rw [In, In, hf.flagging.environmentID_eq, hf.flagging.channel_eq]
  rw [List.filter_map]
  have hpred : ((fun r => decide (¬ In p.environmentID p.channel r)) ∘ f) =
      fun r => decide (¬ In p.environmentID p.channel r) := by
    funext r
    simp [hin]
  rw [hpred]
  nth_rewrite 2 [← List.map_id (rows.filter _)]
  refine List.map_congr_left fun r hr => ?_
  obtain ⟨hmem, hout⟩ := List.mem_filter.mp hr
  exact hf.frame r hmem (by simpa using hout)

/-- **What `UpdateState` does**, run alone on a table that satisfies its constraints.
No statement of the transaction fails; the constraints hold again at its end; rows of
other channels and environments are not touched; and the flags in the channel are those
the action is for. -/
theorem updateState_effect {w : World} (h : integrationsOk w.integrations = true)
    {p : Db.Integration} (hp : p ∈ w.integrations) :
    (∀ action, Served (withinTx ⟨p.id, p.environmentID, action⟩ w).1 ∧
      integrationsOk (withinTx ⟨p.id, p.environmentID, action⟩ w).2.2.integrations = true ∧
      (withinTx ⟨p.id, p.environmentID, action⟩ w).2.2.integrations.filter
          (fun r => ¬ In p.environmentID p.channel r) =
        w.integrations.filter fun r => ¬ In p.environmentID p.channel r) ∧
    (∃ r, (withinTx ⟨p.id, p.environmentID, .setPrimary⟩ w).2 =
      (.ok r, { w with integrations := w.integrations.map (primaryFlags p) })) ∧
    (∀ r ∈ w.integrations.map (primaryFlags p), In p.environmentID p.channel r →
      (r.isPrimary = true ↔ r.id = p.id) ∧ (r.id = p.id → r.isActive = true)) ∧
    (∃ r, (withinTx ⟨p.id, p.environmentID, .enable⟩ w).2 =
      (.ok r, { w with integrations := w.integrations.map (enabledFlags p) })) ∧
    ((∃ e, (withinTx ⟨p.id, p.environmentID, .disable⟩ w).2.1 = .error e) ↔
      Last p w.integrations) ∧
    (Last p w.integrations → (withinTx ⟨p.id, p.environmentID, .disable⟩ w).2.2 = w) ∧
    (¬ Last p w.integrations → ∃ r, (withinTx ⟨p.id, p.environmentID, .disable⟩ w).2 =
      (.ok r, { w with integrations :=
        w.integrations.map (disabledFlags p (successor p w.integrations)) })) := by
  -- the cases are those of the action, and of the last active row
  rw [integrationsOk_iff] at h
  have hdisable := withinTx_cases h hp .disable
  refine ⟨fun action => ?_, ?_, fun r hr hin => ?_, ?_, ?_, fun hlast => ?_, fun hlast => ?_⟩
  · obtain ⟨log, hlog, ⟨e, heq, -⟩ | ⟨r, f, hf, heq, -⟩⟩ := withinTx_cases h hp action
    · rw [heq]
      exact ⟨hlog, integrationsOk_iff.mpr h, rfl⟩
    · rw [heq]
      exact ⟨hlog, integrationsOk_iff.mpr hf.constrained, hf.filter_out⟩
  · obtain ⟨log, -, hrun⟩ := drive_setPrimary h hp
    have htx : withinTx ⟨p.id, p.environmentID, .setPrimary⟩ w = _ := withinTx_ok h hp hrun
    rw [htx]
    exact ⟨_, rfl⟩
  -- of the rows of the channel only the one asked for is primary
  · obtain ⟨r₀, hr₀, rfl⟩ := List.mem_map.mp hr
    rw [(flagging_primaryFlags p).id_eq]
    have hin₀ : In p.environmentID p.channel r₀ :=
      ⟨((flagging_primaryFlags p).environmentID_eq r₀).symm.trans hin.1,
        ((flagging_primaryFlags p).channel_eq r₀).symm.trans hin.2⟩
    unfold primaryFlags
    by_cases hid : r₀.id = p.id
    · rw [if_pos hid]
      exact ⟨⟨fun _ => hid, fun _ => rfl⟩, fun _ => rfl⟩
    · rw [if_neg hid, if_pos hin₀]
      exact ⟨⟨fun hfalse => (by cases hfalse), fun he => absurd he hid⟩, fun he => absurd he hid⟩
  · obtain ⟨log, -, hrun⟩ := drive_enable h hp
    have htx : withinTx ⟨p.id, p.environmentID, .enable⟩ w = _ := withinTx_ok h hp hrun
    rw [htx]
    exact ⟨_, rfl⟩
  -- nothing but the last active row makes it fail
  · obtain ⟨log, -, ⟨e, heq, hwhy⟩ | ⟨r, f, -, heq, hwhy⟩⟩ := hdisable
    · rw [heq]
      rcases hwhy with ⟨text, htext⟩ | ⟨-, hlast⟩
      · cases htext
      · exact ⟨fun _ => hlast, fun _ => ⟨e, rfl⟩⟩
    · rw [heq]
      rcases hwhy with ⟨hact, -⟩ | ⟨hact, -⟩ | ⟨-, hlast, -⟩
      · cases hact
      · cases hact
      · exact ⟨fun ⟨e, he⟩ => (by cases he), fun hl => absurd hl hlast⟩
  · obtain ⟨log, e, -, hrun⟩ := drive_disable_last hlast
    have htx : withinTx ⟨p.id, p.environmentID, .disable⟩ w = _ := withinTx_error h hp hrun
    rw [htx]
  · obtain ⟨log, -, ⟨e, -, hwhy⟩ | ⟨r, f, -, heq, hwhy⟩⟩ := hdisable
    · rcases hwhy with ⟨text, htext⟩ | ⟨-, hl⟩
      · cases htext
      · exact absurd hl hlast
    · rcases hwhy with ⟨hact, -⟩ | ⟨hact, -⟩ | ⟨-, -, rfl⟩
      · cases hact
      · cases hact
      · rw [heq]
        exact ⟨r, rfl⟩

end Rows

namespace Sample

/-- An e-mail integration. -/
def mail (id : UUID) (name : String) (isActive isPrimary : Bool) : Db.Integration where
  id := id
  environmentID := UUID.ofDigit 2
  name := name
  channel := "email"
  credentials := some (.str "c2VhbGVk")
  config := some (.obj [("from_email", .str "news@example.com")])
  isActive := isActive
  isPrimary := isPrimary

/-- A database with these integrations. -/
def holding (rows : List Db.Integration) : World where
  subscribers := Table.empty _
  workflows := Table.empty _
  templates := Table.empty _
  users := Table.empty _
  notifications := []
  deliveryAttempts := []
  integrations := rows

end Sample

open Sample in
/-- With another active row in its channel, the primary one can be disabled. -/
theorem updateState_effect_two :
    ∃ r, (withinTx ⟨UUID.ofDigit 3, UUID.ofDigit 2, .disable⟩
      (holding [mail (UUID.ofDigit 3) "sendgrid" true true,
        mail (UUID.ofDigit 4) "smtp" true false])).2 =
      (.ok r, holding [mail (UUID.ofDigit 3) "sendgrid" false false,
        mail (UUID.ofDigit 4) "smtp" true true]) := by
  have hok : integrationsOk (holding [mail (UUID.ofDigit 3) "sendgrid" true true,
      mail (UUID.ofDigit 4) "smtp" true false]).integrations = true := by decide +kernel
  have heffect := updateState_effect hok (p := mail (UUID.ofDigit 3) "sendgrid" true true)
    (List.mem_cons_self ..)
  refine heffect.2.2.2.2.2.2 fun hlast => ?_
  have hid := hlast.2 (mail (UUID.ofDigit 4) "smtp" true false) (by simp [holding]) ⟨rfl, rfl⟩ rfl
  exact absurd hid (by decide)

end Iwifunni.Integration
