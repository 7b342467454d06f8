/-
Iwifunni/Integration/Primaries.lean

Primary integrations.

A channel with an active integration should have one primary integration, which is
active.  Half of that is a matter of the table: an index allows one primary row for
each channel, and a check makes it active.  The other half, that there is one at all,
is left to the service:

    Create           makes the first active row of a channel primary
    disable          promotes another active row before the primary one goes
    set_primary      clears the channel first

but not all of its operations see to it.  A deleted primary row is not replaced, 'enable'
keeps a row from being primary even if it is the first active one of its channel, and an
UPDATE may take a row to another channel together with its flags (`Harmless`).
-/
import Iwifunni.Integration.Flags

namespace Iwifunni.Integration

open Go Db Effect Effect.Prog Store

/-! ### Requests -/

/-- The calls that write integrations. -/
inductive Request
  | create (encrypt : Encrypt) (input : CreateInput)
  | update (encrypt : Encrypt) (input : UpdateInput)
  | delete (id environmentID : UUID)
  | updateState (input : StateInput)

/-- The service call of a request. -/
def Request.program (parseAddress : String → Bool) : Request → Act Unit
  | create encrypt input => do
      let _ ← Integration.create parseAddress encrypt input
      ret ()
  | update encrypt input => do
      let _ ← Integration.update parseAddress encrypt input
      ret ()
  | delete id environmentID => Integration.delete id environmentID
  | updateState input => do
      let _ ← Integration.updateState input
      ret ()

/-- `WithinTx` is used by `UpdateState` only. -/
def Request.transaction : Request → Bool
  | updateState _ => true
  | _ => false

/-- A request comes to its end, well or not.  A transaction that fails, or cannot be
committed, leaves nothing behind. -/
inductive Step (parseAddress : String → Bool) : World → Request → World → Prop
  | direct {w request tr out w'} : request.transaction = false →
      Runs Call (request.program parseAddress) w tr (ofExcept out) w' →
      Step parseAddress w request w'
  | commit {w request tr w'} : request.transaction = true →
      Runs Call (request.program parseAddress) w tr (.ret ()) w' →
      Step parseAddress w request w'
  | rollback {request} : request.transaction = true → (w : World) → Step parseAddress w request w

/-- Requests one after the other, all of which meet a condition on the rows they find. -/
inductive Reaches (parseAddress : String → Bool) (C : List Db.Integration → Request → Prop) :
    World → World → Prop
  | refl (w) : Reaches parseAddress C w w
  | tail {w w' request w''} : Reaches parseAddress C w w' → C w'.integrations request →
      Step parseAddress w' request w'' → Reaches parseAddress C w w''

/-! ### The invariant -/

/-- The primary rows of a channel. -/
def primaries (rows : List Db.Integration) (environmentID : UUID) (channel : String) :
    List Db.Integration :=
  rows.filter fun row => In environmentID channel row ∧ row.isPrimary = true

/-- There is an active row in the channel. -/
def HasActive (rows : List Db.Integration) (environmentID : UUID) (channel : String) : Prop :=
  ∃ row ∈ rows, In environmentID channel row ∧ row.isActive = true

/-- The integrations of an environment as they should be. -/
structure Settled (parseAddress : String → Bool) (rows : List Db.Integration)
    (environmentID : UUID) : Prop where
  primary : ∀ channel, HasActive rows environmentID channel →
    ∃ row, primaries rows environmentID channel = [row] ∧ row.isActive = true
  named : ∀ row ∈ rows, row.environmentID = environmentID →
    ∃ d, catalogGet parseAddress row.name = some d ∧ d.channel = row.channel

/-- A request that leaves no channel of the environment without its primary row. -/
def Harmless (parseAddress : String → Bool) (environmentID : UUID) (rows : List Db.Integration) :
    Request → Prop
  | .delete id env => env = environmentID → ∀ row ∈ rows, row.id = id →
      row.environmentID = env → row.isPrimary = true →
      ∀ other ∈ rows, In env row.channel other → other.isActive = true → other.id = id
  | .update _ input => input.environmentID = environmentID → ∀ row ∈ rows, row.id = input.id →
      row.environmentID = environmentID → row.isActive = true →
      row.channel ≠ toLower (trimSpace input.channel) →
      (∃ n, prepareProviderInput parseAddress input.name input.channel input.credentials
        input.config (some row) = .ok n) →
      HasActive rows environmentID (toLower (trimSpace input.channel)) ∨
        ∀ other ∈ rows, In environmentID row.channel other → other.isActive = true →
          other.id = input.id
  | .updateState ⟨id, env, .enable⟩ => env = environmentID → ∀ row ∈ rows, row.id = id →
      row.environmentID = env → row.isActive = false → HasActive rows environmentID row.channel
  | _ => True

/-- What the operations keep up: the constraints of the table, and somebody in charge of
every channel with an active row. -/
structure Orderly (parseAddress : String → Bool) (rows : List Db.Integration)
    (environmentID : UUID) : Prop where
  constrained : Constrained rows
  led : ∀ channel, HasActive rows environmentID channel →
    ∃ row ∈ rows, In environmentID channel row ∧ row.isPrimary = true
  named : ∀ row ∈ rows, row.environmentID = environmentID →
    ∃ d, catalogGet parseAddress row.name = some d ∧ d.channel = row.channel

section Orderly

variable {parseAddress : String → Bool} {environmentID : UUID} {rows : List Db.Integration}

theorem mem_primaries {channel : String} {row : Db.Integration} :
    row ∈ primaries rows environmentID channel ↔
      row ∈ rows ∧ In environmentID channel row ∧ row.isPrimary = true := by
  simp [primaries]

/-- Deleting rows harms no constraint. -/
theorem Constrained.filter (h : Constrained rows) (keep : Db.Integration → Bool) :
    Constrained (rows.filter keep) where
  ids := h.ids.filter _
  names := h.names.filter _
  active r hr := h.active r (List.mem_filter.mp hr).1
  primary := h.primary.filter _

/-- A channel that is led has one leader. -/
theorem Constrained.primaries_eq (h : Constrained rows) {channel : String} {row : Db.Integration}
    (hrow : row ∈ primaries rows environmentID channel) :
    primaries rows environmentID channel = [row] := by
  obtain ⟨hmem, hin, hprimary⟩ := mem_primaries.mp hrow
  have hall : ∀ r ∈ primaries rows environmentID channel, r = row := by
    intro r hr
    obtain ⟨hr, hrin, hrprimary⟩ := mem_primaries.mp hr
    exact h.eq_of_primary hmem hr hprimary hrprimary
      ⟨hrin.1.trans hin.1.symm, hrin.2.trans hin.2.symm⟩
  have hids : (primaries rows environmentID channel).Pairwise fun r r' => r'.id ≠ r.id :=
    h.ids.filter _
  rcases hp : primaries rows environmentID channel with - | ⟨p, - | ⟨p', rest⟩⟩
  · rw [hp] at hrow
    cases hrow
  · rw [hall p (by simp [hp])]
  -- two of them would be the same row
  · rw [hp] at hids
    refine absurd ?_ (List.rel_of_pairwise_cons hids (List.mem_cons_self ..))
    rw [hall p (by simp [hp]), hall p' (by simp [hp])]

theorem Orderly.settled (h : Orderly parseAddress rows environmentID) :
    Settled parseAddress rows environmentID where
  primary channel hactive := by
    obtain ⟨row, hrow, hin, hprimary⟩ := h.led channel hactive
    exact ⟨row, h.constrained.primaries_eq (mem_primaries.mpr ⟨hrow, hin, hprimary⟩),
      h.constrained.active row hrow hprimary⟩
  named := h.named

/-- A row more, which leads its channel if it is active. -/
theorem Orderly.append (h : Orderly parseAddress rows environmentID) {row : Db.Integration}
    (hok : Constrained (rows ++ [row])) (hflags : row.isActive = row.isPrimary)
    (hnamed : ∃ d, catalogGet parseAddress row.name = some d ∧ d.channel = row.channel) :
    Orderly parseAddress (rows ++ [row]) environmentID where
  constrained := hok
  led := by
    rintro channel ⟨r, hr, hin, hactive⟩
    rcases List.mem_append.mp hr with hr | hr
    · obtain ⟨p, hp, hlead⟩ := h.led channel ⟨r, hr, hin, hactive⟩
      exact ⟨p, List.mem_append_left _ hp, hlead⟩
    · cases List.mem_singleton.mp hr
      exact ⟨row, List.mem_append_right _ (List.mem_singleton_self row), hin, hflags ▸ hactive⟩
  named := by
    intro r hr henv
    rcases List.mem_append.mp hr with hr | hr
    · exact h.named r hr henv
    · cases List.mem_singleton.mp hr
      exact hnamed

/-- A row less, of which no channel with another active row depends. -/
theorem Orderly.filter (h : Orderly parseAddress rows environmentID) {id env : UUID}
    (hharmless : Harmless parseAddress environmentID rows (.delete id env)) :
    Orderly parseAddress (rows.filter fun r => !(r.id == id && r.environmentID == env))
      environmentID where
  constrained := h.constrained.filter _
  led := by
    rintro channel ⟨r, hr, hin, hactive⟩
    obtain ⟨hr, hkept⟩ := List.mem_filter.mp hr
    obtain ⟨p, hp, hpin, hprimary⟩ := h.led channel ⟨r, hr, hin, hactive⟩
    refine ⟨p, List.mem_filter.mpr ⟨hp, ?_⟩, hpin, hprimary⟩
    -- had the leader gone, the active row would be the same one
    by_contra hgone
    obtain ⟨hid, henv⟩ : p.id = id ∧ p.environmentID = env := by simpa using hgone
    have hrid := hharmless (henv.symm.trans hpin.1) p hp hid henv hprimary r hr
      ⟨hin.1.trans (hpin.1.symm.trans henv), hin.2.trans hpin.2.symm⟩ hactive
    have hrenv : r.environmentID = env := hin.1.trans (hpin.1.symm.trans henv)
    simp [hrid, hrenv] at hkept
  named r hr henv := h.named r (List.mem_filter.mp hr).1 henv

/-- A row moves to another channel, flags and all. -/
def moved (input : UpdateInput) (n : NormalizedInput) (credentials : Option Json)
    (r : Db.Integration) : Db.Integration :=
  if r.id == input.id && r.environmentID == input.environmentID then
    { r with name := n.name, channel := n.channel, credentials := credentials,
             config := n.configJSON }
  else r

variable {input : UpdateInput} {n : NormalizedInput} {credentials : Option Json}
  {row : Db.Integration}

theorem moved_of_ne {r : Db.Integration}
    (h : ¬ (r.id = input.id ∧ r.environmentID = input.environmentID)) :
    moved input n credentials r = r := by
  apply if_neg
  simpa using h

theorem moved_self (hid : row.id = input.id) (henv : row.environmentID = input.environmentID) :
    moved input n credentials row =
      { row with name := n.name, channel := n.channel, credentials := credentials,
                 config := n.configJSON } := by
  apply if_pos
  simp [hid, henv]

/-- A row that moves harms nobody if its new channel is led already, or nobody is left in
the old one. -/
theorem Orderly.move (h : Orderly parseAddress rows environmentID) (hrow : row ∈ rows)
    (hid : row.id = input.id) (henv : row.environmentID = input.environmentID)
    (hok : Constrained (rows.map (moved input n credentials)))
    (hnamed : ∃ d, catalogGet parseAddress n.name = some d ∧ d.channel = n.channel)
    (hharmless : input.environmentID = environmentID → row.isActive = true →
      row.channel ≠ n.channel → HasActive rows environmentID n.channel ∨
        ∀ other ∈ rows, In environmentID row.channel other → other.isActive = true →
          other.id = input.id) :
    Orderly parseAddress (rows.map (moved input n credentials)) environmentID where
  constrained := hok
  led := by
    have hself : moved input n credentials row =
        { row with name := n.name, channel := n.channel, credentials := credentials,
                   config := n.configJSON } := moved_self hid henv
    have hsole : ∀ r ∈ rows, r.id = input.id → r = row := fun r hr he =>
      h.constrained.eq_of_id hrow hr (he.trans hid.symm)
    have hother : ∀ r ∈ rows, r ≠ row → moved input n credentials r = r := fun r hr hne =>
      moved_of_ne fun he => hne (hsole r hr he.1)
    have hmem : ∀ r ∈ rows, moved input n credentials r ∈ rows.map (moved input n credentials) :=
      fun r hr => List.mem_map_of_mem hr
    -- a leader stays where it is, unless it is the row that moves
    have hstays : ∀ channel, ∀ p ∈ rows, p ≠ row → In environmentID channel p →
        p.isPrimary = true → ∃ p' ∈ rows.map (moved input n credentials),
          In environmentID channel p' ∧ p'.isPrimary = true := by
      intro channel p hp hne hin hprimary
      exact ⟨p, hother p hp hne ▸ hmem p hp, hin, hprimary⟩
    rintro channel ⟨r', hr', hin, hactive⟩
    obtain ⟨r, hr, rfl⟩ := List.mem_map.mp hr'
    by_cases hne : r = row
    · subst hne
      rw [hself] at hin hactive
      have hhere : input.environmentID = environmentID := henv.symm.trans hin.1
      obtain ⟨p, hp, hpin, hprimary⟩ := h.led r.channel ⟨r, hr, ⟨hin.1, rfl⟩, hactive⟩
      by_cases hchannel : r.channel = n.channel
      · by_cases hpr : p = r
        · exact ⟨_, hmem r hr, by rw [hself]; exact hin, by rw [hself]; exact hpr ▸ hprimary⟩
        · exact hstays channel p hp hpr ⟨hpin.1, hpin.2.trans (hchannel.trans hin.2)⟩ hprimary
      · rcases hharmless hhere hactive hchannel with hled | hlast
        · obtain ⟨q, hq, hqin, hqprimary⟩ := h.led n.channel hled
          have hqr : q ≠ r := fun he => hchannel (he ▸ hqin.2)
          exact hstays channel q hq hqr ⟨hqin.1, hqin.2.trans hin.2⟩ hqprimary
        · have hpr := hsole p hp (hlast p hp hpin (h.constrained.active p hp hprimary))
          exact ⟨_, hmem r hr, by rw [hself]; exact hin, by rw [hself]; exact hpr ▸ hprimary⟩
    · rw [hother r hr hne] at hin hactive
      obtain ⟨p, hp, hpin, hprimary⟩ := h.led channel ⟨r, hr, hin, hactive⟩
      by_cases hprow : p = row
      · subst hprow
        by_cases hchannel : p.channel = n.channel
        · refine ⟨_, hmem p hp, ?_, ?_⟩
          · rw [hself]
            exact ⟨hpin.1, hchannel.symm.trans hpin.2⟩
          · rw [hself]
            exact hprimary
        · rcases hharmless (henv.symm.trans hpin.1) (h.constrained.active p hp hprimary) hchannel
            with hled | hlast
          -- two leaders of the new channel
          · obtain ⟨q, hq, hqin, hqprimary⟩ := h.led n.channel hled
            have hqp : q ≠ p := fun he => hchannel (he ▸ hqin.2)
            have hclash := hok.eq_of_primary (hmem p hp) (hother q hq hqp ▸ hmem q hq)
              (by rw [hself]; exact hprimary) hqprimary
              (by rw [hself]; exact ⟨hqin.1.trans hpin.1.symm, hqin.2⟩)
            rw [hself] at hclash
            have hqid : q.id = input.id := (congrArg Db.Integration.id hclash).trans hid
            exact absurd (hsole q hq hqid) hqp
          · exact absurd (hsole r hr (hlast r hr ⟨hin.1, hin.2.trans hpin.2.symm⟩ hactive)) hne
      · exact hstays channel p hp hprow hpin hprimary
  named := by
    intro r' hr' henv'
    obtain ⟨r, hr, rfl⟩ := List.mem_map.mp hr'
    by_cases hne : r.id = input.id ∧ r.environmentID = input.environmentID
    · rw [moved_self hne.1 hne.2]
      exact hnamed
    · rw [moved_of_ne hne] at henv' ⊢
      exact h.named r hr henv'

/-- Flags may change as long as the channel they change in is led again. -/
theorem Orderly.flags (h : Orderly parseAddress rows environmentID)
    {f : Db.Integration → Db.Integration} (hf : Within row rows f)
    (hled : row.environmentID = environmentID → HasActive (rows.map f) environmentID row.channel →
      ∃ p ∈ rows, In environmentID row.channel p ∧ (f p).isPrimary = true) :
    Orderly parseAddress (rows.map f) environmentID where
  constrained := hf.constrained
  led := by
    have hin : ∀ channel r, In environmentID channel (f r) ↔ In environmentID channel r := by
      intro channel r
      rw [In, In, hf.flagging.environmentID_eq, hf.flagging.channel_eq]
    intro channel hactive
    -- in the channel of the row it is led by hypothesis
    by_cases hhere : row.environmentID = environmentID ∧ row.channel = channel
    · obtain ⟨henv, rfl⟩ := hhere
      obtain ⟨p, hp, hpin, hprimary⟩ := hled henv hactive
      exact ⟨f p, List.mem_map_of_mem hp, (hin _ p).mpr hpin, hprimary⟩
    · -- in another one nothing has changed
      have hframe : ∀ r ∈ rows, In environmentID channel r → f r = r := by
        intro r hr hrin
        apply hf.frame r hr
        intro hrow
        exact hhere ⟨hrow.1.symm.trans hrin.1, hrow.2.symm.trans hrin.2⟩
      obtain ⟨r', hr', hrin, hractive⟩ := hactive
      obtain ⟨r, hr, rfl⟩ := List.mem_map.mp hr'
      have hrin := (hin channel r).mp hrin
      rw [hframe r hr hrin] at hractive
      obtain ⟨p, hp, hpin, hprimary⟩ := h.led channel ⟨r, hr, hrin, hractive⟩
      have hkept : f p = p := hframe p hp hpin
      exact ⟨f p, List.mem_map_of_mem hp, (hin _ p).mpr hpin, hkept.symm ▸ hprimary⟩
  named := by
    intro r' hr' henv
    obtain ⟨r, hr, rfl⟩ := List.mem_map.mp hr'
    rw [hf.flagging.name_eq, hf.flagging.channel_eq]
    exact h.named r hr ((hf.flagging.environmentID_eq r).symm.trans henv)

/-- `set_primary` leads the channel. -/
theorem Orderly.takeOver (h : Orderly parseAddress rows environmentID) (hrow : row ∈ rows) :
    Orderly parseAddress (rows.map (primaryFlags row)) environmentID := by
  apply h.flags (within_primaryFlags h.constrained hrow)
  intro henv _
  refine ⟨row, hrow, ⟨henv, rfl⟩, ?_⟩
  rw [primaryFlags, if_pos rfl]

/-- `enable` needs another active row in the channel. -/
theorem Orderly.enable (h : Orderly parseAddress rows environmentID) (hrow : row ∈ rows)
    (hharmless : row.environmentID = environmentID → row.isActive = false →
      HasActive rows environmentID row.channel) :
    Orderly parseAddress (rows.map (enabledFlags row)) environmentID := by
  apply h.flags (within_enabledFlags h.constrained hrow)
  intro henv _
  have hactive : HasActive rows environmentID row.channel := by
    rcases hrowactive : row.isActive with - | -
    · exact hharmless henv hrowactive
    · exact ⟨row, hrow, ⟨henv, rfl⟩, hrowactive⟩
  obtain ⟨p, hp, hpin, hprimary⟩ := h.led row.channel hactive
  exact ⟨p, hp, hpin, (isPrimary_enabledFlags row p).trans hprimary⟩

/-- `disable` has seen to the channel. -/
theorem Orderly.disable (h : Orderly parseAddress rows environmentID) (hrow : row ∈ rows)
    (hlast : ¬ Last row rows) :
    Orderly parseAddress (rows.map (disabledFlags row (successor row rows))) environmentID := by
  apply h.flags (within_disabledFlags h.constrained hrow)
  intro henv hactive
  rcases hprimary : row.isPrimary with - | -
  -- the leader is another row
  · have hnext : successor row rows = none := if_neg (by simp [hprimary])
    have hplain : ∀ r, r.id ≠ row.id → disabledFlags row none r = r := fun r hne => if_neg hne
    rw [hnext] at hactive ⊢
    obtain ⟨r', hr', hrin, hractive⟩ := hactive
    obtain ⟨r, hr, rfl⟩ := List.mem_map.mp hr'
    have hne : r.id ≠ row.id := by
      intro hid
      rw [disabledFlags, if_pos hid] at hractive
      cases hractive
    rw [hplain r hne] at hrin hractive
    obtain ⟨p, hp, hpin, hpprimary⟩ := h.led row.channel ⟨r, hr, hrin, hractive⟩
    have hpne : p.id ≠ row.id := by
      intro hid
      rw [h.constrained.eq_of_id hrow hp hid, hprimary] at hpprimary
      cases hpprimary
    exact ⟨p, hp, hpin, (hplain p hpne).symm ▸ hpprimary⟩
  -- the next one leads
  · have hnext : successor row rows = fallback row _ := if_pos hprimary
    rcases hq : fallback row (listed rows row.environmentID row.channel) with - | q
    · exact absurd ⟨hprimary, fallback_eq_none.mp hq⟩ hlast
    · obtain ⟨hmem, hin, hne, -⟩ := fallback_spec hq
      refine ⟨q, hmem, ⟨hin.1.trans henv, hin.2⟩, ?_⟩
      rw [hnext, hq, disabledFlags, if_neg hne, if_pos (by simp)]

end Orderly

/-! ### Runs of a request -/

section Runs

variable {parseAddress : String → Bool} {encrypt : Encrypt} {w w' : World}
  {tr : List (Answered Op.Res GoError)}

theorem runs_ofExcept_bind {r : Except GoError α} {f : α → Act β} {out : Except GoError β}
    (h : Runs Call (ofExcept r >>= f) w tr (ofExcept out) w') :
    w' = w ∨ ∃ a, r = .ok a ∧ Runs Call (f a) w tr (ofExcept out) w' := by
  rcases r with e | a
  · exact Or.inl (runs_fail h).2.2
  · exact Or.inr ⟨a, rfl, h⟩

/-- A statement that succeeds has been answered by the database. -/
theorem answer_of_ok {op : Op} (hop : op.fallible = true) {a : op.Res}
    (h : Call op w (.ok a) w') : World.answer op w = (.ok a, w') := by
  generalize hr : Except.ok a = r at h
  cases h with
  | answer => rfl
  | fault => cases hr
  | now => cases hop
  | newUUID => cases hop
  | send => cases hop

/-- The last statement of a call is carried out or not. -/
theorem runs_last {op : Op} {out : Except GoError op.Res}
    (h : Runs Call (perform op) w tr (ofExcept out) w') :
    w' = w ∨ w' = (World.answer op w).2 :=
  (call_world (runs_perform h)).imp id And.right

/-- A row that an INSERT has added. -/
structure Inserted (w : World) (n : NormalizedInput) (row : Db.Integration) (w' : World) :
    Prop where
  name_eq : row.name = n.name
  channel_eq : row.channel = n.channel
  flags : row.isActive = row.isPrimary
  constrained : Constrained (w.integrations ++ [row])
  world : w' = { w with integrations := w.integrations ++ [row] }

/-- `Create` from the list on. -/
def insert (input : CreateInput) (n : NormalizedInput) (credentials : Json) :
    Act Db.Integration := do
  let existing ← perform (Op.listByChannel input.environmentID n.channel)
  let hasActive := existing.any fun row => row.isActive
  let id ← perform Op.newUUID
  perform (Op.createIntegration {
    id := id
    environmentID := input.environmentID
    name := n.name
    channel := n.channel
    credentials := some credentials
    config := n.configJSON
    isActive := !hasActive
    isPrimary := !hasActive })

/-- An INSERT fails, or adds the row. -/
theorem runs_insert {input : CreateInput} {n : NormalizedInput} {credentials : Json}
    {out : Except GoError Db.Integration}
    (h : Runs Call (insert input n credentials) w tr (ofExcept out) w') :
    w' = w ∨ ∃ row, Inserted w n row w' := by
  rcases runs_perform_bind h with ⟨e, -, hlist, -⟩ | ⟨existing, w₁, tr₁, -, hlist, hrest⟩
  · exact Or.inl ((call_world hlist).elim id And.right)
  obtain rfl : w = w₁ := ((call_world hlist).elim id And.right).symm
  rcases runs_perform_bind hrest with ⟨e, -, hnew, -⟩ | ⟨newID, w₂, tr₂, -, hnew, hlast⟩
  · exact Or.inl ((call_world hnew).elim id And.right)
  obtain rfl : w = w₂ := ((call_world hnew).elim id And.right).symm
  rcases runs_last hlast with hw | hw
  · exact Or.inl hw
  · rw [World.answer] at hw
    split at hw
    · next hok => exact Or.inr ⟨_, rfl, rfl, rfl, integrationsOk_iff.mp hok, hw⟩
    · exact Or.inl hw

/-- A result that is thrown away. -/
theorem runs_discard {p : Act α} {out : Except GoError Unit}
    (h : Runs Call (p >>= fun _ => ret ()) w tr (ofExcept out) w') :
    ∃ out, Runs Call p w tr (ofExcept out) w' := by
  rcases runs_bind h with ⟨e, hrun, -⟩ | ⟨a, w₁, tr₁, tr₂, rfl, hrun, hrest⟩
  · exact ⟨.error e, hrun⟩
  · obtain ⟨rfl, -, rfl⟩ := runs_ret hrest
    rw [List.append_nil]
    exact ⟨.ok a, hrun⟩

theorem runs_discard_ok {p : Act α}
    (h : Runs Call (p >>= fun _ => ret ()) w tr (.ret ()) w') : ∃ a, Runs Call p w tr (.ret a) w' := by
  have h : Runs Call (p >>= fun _ => ret ()) w tr (ofExcept (.ok ())) w' := h
  rcases runs_bind h with ⟨e, -, hout⟩ | ⟨a, w₁, tr₁, tr₂, rfl, hrun, hrest⟩
  · cases hout
  · obtain ⟨rfl, -, rfl⟩ := runs_ret hrest
    rw [List.append_nil]
    exact ⟨a, hrun⟩

/-- A creation does nothing, or adds a row of what was prepared. -/
theorem runs_create {input : CreateInput} {out : Except GoError Db.Integration}
    (h : Runs Call (create parseAddress encrypt input) w tr (ofExcept out) w') :
    w' = w ∨ ∃ n row, prepareProviderInput parseAddress input.name input.channel
        input.credentials input.config none = .ok n ∧ Inserted w n row w' := by
  rcases runs_ofExcept_bind h with hw | ⟨n, hn, h⟩
  · exact Or.inl hw
  have hinsert : ∀ {credentials}, Runs Call (insert input n credentials) w tr (ofExcept out) w' →
      w' = w ∨ ∃ n row, prepareProviderInput parseAddress input.name input.channel
        input.credentials input.config none = .ok n ∧ Inserted w n row w' := by
    intro credentials h
    exact (runs_insert h).imp id fun ⟨row, hrow⟩ => ⟨n, row, hn, hrow⟩
  rcases hc : n.credentialsJSON with - | v
  · rw [hc] at h
    exact hinsert h
  · rw [hc] at h
    rcases runs_ofExcept_bind h with hw | ⟨credentials, -, h⟩
    · exact Or.inl hw
    · exact hinsert h

/-- A row that an UPDATE has moved. -/
structure Moved (w : World) (input : UpdateInput) (n : NormalizedInput) (row : Db.Integration)
    (w' : World) : Prop where
  mem : row ∈ w.integrations
  id_eq : row.id = input.id
  environmentID_eq : row.environmentID = input.environmentID
  world : ∃ credentials, Constrained (w.integrations.map (moved input n credentials)) ∧
    w' = { w with integrations := w.integrations.map (moved input n credentials) }

/-- An update does nothing, or moves the row it was asked for. -/
theorem runs_update {input : UpdateInput} {out : Except GoError Db.Integration}
    (h : Runs Call (update parseAddress encrypt input) w tr (ofExcept out) w') :
    w' = w ∨ ∃ n row, prepareProviderInput parseAddress input.name input.channel
        input.credentials input.config (some row) = .ok n ∧ Moved w input n row w' := by
  rcases runs_perform_bind h with ⟨e, -, hget, -⟩ | ⟨row, w₁, tr₁, -, hget, hrest⟩
  · exact Or.inl ((call_world hget).elim id And.right)
  obtain rfl : w = w₁ := ((call_world hget).elim id And.right).symm
  -- the row that is read is the one that is asked for
  have hrow : row ∈ w.integrations ∧ row.id = input.id ∧
      row.environmentID = input.environmentID := by
    have hfind := orNoRows_ok (congrArg Prod.fst (answer_of_ok rfl hget))
    have hsome := List.find?_some hfind
    simp only [Bool.and_eq_true, beq_iff_eq] at hsome
    exact ⟨List.mem_of_find?_eq_some hfind, hsome.1, hsome.2⟩
  rcases runs_ofExcept_bind hrest with hw | ⟨n, hn, hrest⟩
  · exact Or.inl hw
  -- the UPDATE moves this row, or the constraints refuse it
  have hmove : ∀ {credentials}, Runs Call (perform (Op.updateIntegration input.id
      input.environmentID n.name n.channel credentials n.configJSON)) w tr₁ (ofExcept out) w' →
      w' = w ∨ ∃ n row, prepareProviderInput parseAddress input.name input.channel
        input.credentials input.config (some row) = .ok n ∧ Moved w input n row w' := by
    intro credentials hlast
    rcases runs_last hlast with hw | hw
    · exact Or.inl hw
    · rw [World.answer, World.modifyIntegration] at hw
      split at hw
      · exact Or.inl hw
      · dsimp only at hw
        split at hw
        · next hok =>
          exact Or.inr ⟨n, row, hn, hrow.1, hrow.2.1, hrow.2.2, credentials,
            integrationsOk_iff.mp hok, hw⟩
        · exact Or.inl hw
  rcases hc : n.credentialsJSON with - | v
  · rw [hc] at hrest
    exact hmove hrest
  · rw [hc] at hrest
    rcases runs_ofExcept_bind hrest with hw | ⟨credentials, -, hlast⟩
    · exact Or.inl hw
    · exact hmove hlast

/-! What `UpdateState` commits is what it does alone: none of its statements has failed. -/

/-- A program that returns has had no call fail. -/
def Strict (p : Act α) : Prop :=
  ∀ tr a, Path p tr (.ok a) → Served tr

theorem strict_perform (op : Op) : Strict (perform op : Act op.Res) := by
  intro tr a h
  rw [path_perform h]
  intro c hc
  rw [List.mem_singleton.mp hc]
  exact ⟨a, rfl⟩

theorem strict_fail (e : GoError) : Strict (fail e : Act α) :=
  fun _ _ h => absurd h not_path_fail

theorem Served.append {log log' : List (Answered Op.Res GoError)} (h : Served log)
    (h' : Served log') : Served (log ++ log') :=
  fun a ha => (List.mem_append.mp ha).elim (h a) (h' a)

theorem Strict.bind {p : Act α} {f : α → Act β} (hp : Strict p) (hf : ∀ a, Strict (f a)) :
    Strict (p >>= f) := by
  intro tr b h
  obtain ⟨a, tr₁, tr₂, rfl, h₁, h₂⟩ := path_bind_ok h
  exact (hp tr₁ a h₁).append (hf a tr₂ b h₂)

/-- The outcome of a program is a value, whatever it is. -/
theorem path_outcome {p : Act α} {tr} {out} (h : Path p.outcome tr out) :
    ∃ r, out = .ok r ∧ Path p tr r := by
  induction p generalizing tr with
  | ret a =>
      obtain ⟨rfl, rfl⟩ := path_ret h
      exact ⟨_, rfl, .ret a⟩
  | fail e =>
      obtain ⟨rfl, rfl⟩ := path_ret h
      exact ⟨_, rfl, .fail e⟩
  | call op k ih =>
      obtain ⟨r, tr', rfl, hk⟩ := path_call h
      obtain ⟨r', rfl, hp⟩ := ih r hk
      exact ⟨r', rfl, .call r hp⟩

theorem strict_promotePrimary (p : Db.Integration) : Strict (promotePrimary p) := by
  apply (strict_perform _).bind
  intro rows
  split
  · exact strict_fail _
  · exact (strict_perform _).bind fun _ => strict_perform _

/-- Disabling returns only if none of its calls failed. -/
theorem strict_disable (p : Db.Integration) : Strict (disable p) := by
  unfold disable
  split
  · intro tr a h
    obtain ⟨r, tr₁, tr₂, rfl, h₁, h₂⟩ := path_bind_ok h
    obtain ⟨out, hout, h₁⟩ := path_outcome h₁
    cases hout
    rcases r with e | q
    · exact absurd h₂ not_path_fail
    · exact (strict_promotePrimary p tr₁ q h₁).append
        (strict_perform (.updateIntegrationState p.id p.environmentID false false) tr₂ a h₂)
  · exact strict_perform _

theorem strict_act (action : StateAction) (p : Db.Integration) : Strict (act action p) := by
  cases action with
  | enable => exact strict_perform _
  | disable => exact strict_disable p
  | setPrimary => exact (strict_perform _).bind fun _ => strict_perform _
  | unknown text => exact strict_fail _

/-- The calls of `UpdateState` are statements. -/
theorem calls_act (action : StateAction) (p : Db.Integration) :
    Calls (fun op => op.fallible = true) (act action p) := by
  have hstatement : ∀ op : Op, op.fallible = true →
      Calls (fun op => op.fallible = true) (perform op : Act op.Res) :=
    fun op hop => ⟨hop, fun r => calls_ofExcept r⟩
  cases action with
  | enable => exact hstatement _ rfl
  | disable =>
      show Calls _ (disable p)
      unfold disable
      split
      · apply Calls.bind
        · apply Calls.outcome
          apply (hstatement _ rfl).bind
          intro rows
          split
          · exact calls_fail _
          · exact (hstatement _ rfl).bind fun _ => hstatement _ rfl
        · intro r
          rcases r with e | q
          · exact calls_fail _
          · exact hstatement _ rfl
      · exact hstatement _ rfl
  | setPrimary => exact (hstatement _ rfl).bind fun _ => hstatement _ rfl
  | unknown text => exact calls_fail _

/-- A run of statements that all succeed is the one the database decides on. -/
theorem drive_of_runs {p : Act α} {out : Except GoError α} (h : Runs Call p w tr (ofExcept out) w')
    (hp : p.Calls fun op => op.fallible = true) (hserved : Served tr) :
    p.drive World.answer w = (tr, out, w') := by
  induction p generalizing w tr with
  | ret a =>
      obtain ⟨rfl, hout, rfl⟩ := runs_ret h
      rw [ofExcept_injective (show ofExcept out = ofExcept (.ok a) from hout)]
      rfl
  | fail e =>
      obtain ⟨rfl, hout, rfl⟩ := runs_fail h
      rw [ofExcept_injective (show ofExcept out = ofExcept (.error e) from hout)]
      rfl
  | call op k ih =>
      rcases h.call_inv with ⟨-, hout, -⟩ | ⟨r, w₁, tr', rfl, hcall, hrest⟩
      · cases out <;> cases hout
      rcases r with e | a
      · obtain ⟨v, hv⟩ := hserved _ (List.mem_cons_self ..)
        cases hv
      · have hnext := ih _ hrest (hp.2 _) fun c hc => hserved c (List.mem_cons_of_mem _ hc)
        rw [drive, answer_of_ok hp.1 hcall, hnext]

/-- A transaction that commits has found its row, and its action has not failed. -/
theorem runs_updateState {input : StateInput} {a : Db.Integration} (hok : Constrained w.integrations)
    (h : Runs Call (updateState input) w tr (.ret a) w') :
    ∃ row ∈ w.integrations, row.id = input.id ∧ row.environmentID = input.environmentID ∧
      ∃ f, w' = { w with integrations := w.integrations.map f } ∧
        (input.action = .enable ∧ f = enabledFlags row ∨
          input.action = .setPrimary ∧ f = primaryFlags row ∨
          input.action = .disable ∧ ¬ Last row w.integrations ∧
            f = disabledFlags row (successor row w.integrations)) := by
  have h : Runs Call (updateState input) w tr (ofExcept (.ok a)) w' := h
  rcases runs_perform_bind h with ⟨e, -, -, hout⟩ | ⟨row, w₁, tr₁, -, hget, hrest⟩
  · cases hout
  obtain rfl : w = w₁ := ((call_world hget).elim id And.right).symm
  have hfind := orNoRows_ok (congrArg Prod.fst (answer_of_ok rfl hget))
  have hrow := List.mem_of_find?_eq_some hfind
  have hsome := List.find?_some hfind
  simp only [Bool.and_eq_true, beq_iff_eq] at hsome
  have hact : Runs Call (act input.action row) w tr₁ (ofExcept (.ok a)) w' := by
    unfold act
    rcases ha : input.action <;> rw [ha] at hrest <;> exact hrest
  have hdrive := drive_of_runs hact (calls_act _ row) (strict_act _ row _ _ hact.path)
  have htx := withinTx_ok hok hrow hdrive
  refine ⟨row, hrow, hsome.1, hsome.2, ?_⟩
  obtain ⟨log, -, ⟨e, heq, -⟩ | ⟨r, f, -, heq, hwhich⟩⟩ := withinTx_cases hok hrow input.action
  · rw [htx] at heq
    cases heq
  · rw [htx] at heq
    refine ⟨f, ?_, hwhich⟩
    cases heq
    rfl

end Runs

/-! ### Runs of requests -/

section Requests

variable {parseAddress : String → Bool} {environmentID : UUID} {w w' : World} {request : Request}

/-- **A request.**  A harmless one keeps the integrations in order. -/
theorem Orderly.step (h : Orderly parseAddress w.integrations environmentID)
    (hharmless : Harmless parseAddress environmentID w.integrations request)
    (hstep : Step parseAddress w request w') : Orderly parseAddress w'.integrations environmentID := by
  cases hstep with
  | direct hdirect hrun =>
      cases request with
      | create encrypt input =>
          obtain ⟨out, hrun⟩ := runs_discard hrun
          rcases runs_create hrun with rfl | ⟨n, row, hn, hrow⟩
          · exact h
          · obtain ⟨d, hd, hchannel, -, -⟩ := prepareProviderInput_ok hn
            rw [hrow.world]
            apply h.append hrow.constrained hrow.flags
            exact ⟨d, by rw [hrow.name_eq, hd], hchannel.trans hrow.channel_eq.symm⟩
      | update encrypt input =>
          obtain ⟨out, hrun⟩ := runs_discard hrun
          rcases runs_update hrun with rfl | ⟨n, row, hn, hrow⟩
          · exact h
          · obtain ⟨d, hd, hchannel, -, hasked⟩ := prepareProviderInput_ok hn
            obtain ⟨credentials, hok, hworld⟩ := hrow.world
            rw [hworld]
            apply h.move hrow.mem hrow.id_eq hrow.environmentID_eq hok ⟨d, hd, hchannel⟩
            -- a row that is active moves to another channel
            intro henv hactive hmoves
            rw [hasked] at hmoves ⊢
            exact hharmless henv row hrow.mem hrow.id_eq (hrow.environmentID_eq.trans henv) hactive
              hmoves ⟨n, hn⟩
      | delete id env =>
          rcases runs_last hrun with rfl | rfl
          · exact h
          · exact h.filter hharmless
      | updateState input => cases hdirect
  | commit htx hrun =>
      cases request with
      | updateState input =>
          obtain ⟨a, hrun⟩ := runs_discard_ok hrun
          obtain ⟨row, hrow, hid, henv, f, rfl, hwhich⟩ := runs_updateState h.constrained hrun
          -- the transaction enables, makes primary or disables
          rcases hwhich with ⟨haction, rfl⟩ | ⟨-, rfl⟩ | ⟨-, hlast, rfl⟩
          · apply h.enable hrow
            intro hhere hinactive
            obtain ⟨id, env, action⟩ := input
            cases haction
            exact hharmless (henv.symm.trans hhere) row hrow hid henv hinactive
          · exact h.takeOver hrow
          · exact h.disable hrow hlast
      | _ => cases htx
  | rollback => exact h

/-- **Every state is settled**, from an empty environment on, as long as nobody deletes,
enables or moves a row in a way the service does not see to. -/
theorem settled_of_reaches (hok : integrationsOk w.integrations = true)
    (hempty : ∀ row ∈ w.integrations, row.environmentID ≠ environmentID)
    (h : Reaches parseAddress (Harmless parseAddress environmentID) w w') :
    Settled parseAddress w'.integrations environmentID := by
  apply Orderly.settled
  induction h with
  | refl =>
      exact {
        constrained := integrationsOk_iff.mp hok
        led := fun _ ⟨row, hrow, hin, _⟩ => absurd hin.1 (hempty row hrow)
        named := fun row hrow henv => absurd henv (hempty row hrow) }
  | tail _ hharmless hstep ih => exact ih.step hharmless hstep

end Requests

namespace Sample

/-- A world that draws this id. -/
def drawing (id : UUID) (op : Op) (w : World) : Except GoError op.Res × World :=
  match op with
  | .newUUID => (.ok id, w)
  | op => World.answer op w

theorem call_drawing (id : UUID) (op : Op) (w : World) :
    Call op w (drawing id op w).1 (drawing id op w).2 := by
  cases op with
  | newUUID => exact .newUUID w id
  | _ => exact .answer _ _

/-- What a request leaves behind when nothing fails. -/
def after (id : UUID) (request : Request) (w : World) : World :=
  ((request.program fun _ => true).drive (drawing id) w).2.2

theorem step_after {id : UUID} {request : Request} {w : World} (h : request.transaction = false) :
    Step (fun _ => true) w request (after id request w) :=
  .direct h (runs_drive (call_drawing id) _ w)

theorem step_after_committed {id : UUID} {request : Request} {w : World}
    (h : request.transaction = true)
    (hout : ((request.program fun _ => true).drive (drawing id) w).2.1 = .ok ()) :
    Step (fun _ => true) w request (after id request w) := by
  have hrun := runs_drive (call_drawing id) (request.program fun _ => true) w
  rw [hout] at hrun
  exact .commit h hrun

def encryptMail : Encrypt := fun _ => .ok "c2VhbGVk"

def createSendGrid : Request :=
  .create encryptMail ⟨UUID.ofDigit 2, "sendgrid", "email", [("api_key", .str "SG.1")],
    [("from_email", .str "news@example.com")]⟩

def createBrevo : Request :=
  .create encryptMail ⟨UUID.ofDigit 2, "brevo", "email", [("api_key", .str "xkeysib-1")],
    [("from_email", .str "news@example.com")]⟩

def enableBrevo : Request := .updateState ⟨UUID.ofDigit 4, UUID.ofDigit 2, .enable⟩

def deleteSendGrid : Request := .delete (UUID.ofDigit 3) (UUID.ofDigit 2)

def oneMail : World := after (UUID.ofDigit 3) createSendGrid (holding [])

def twoMails : World := after (UUID.ofDigit 4) createBrevo oneMail

def bothActive : World := after (UUID.ofDigit 0) enableBrevo twoMails

def deleteBrevo : Request := .delete (UUID.ofDigit 4) (UUID.ofDigit 2)

def led : World := after (UUID.ofDigit 0) deleteBrevo bothActive

def leaderless : World := after (UUID.ofDigit 0) deleteSendGrid bothActive

theorem step_oneMail : Step (fun _ => true) (holding []) createSendGrid oneMail := step_after rfl

theorem step_twoMails : Step (fun _ => true) oneMail createBrevo twoMails := step_after rfl

theorem step_bothActive : Step (fun _ => true) twoMails enableBrevo bothActive :=
  step_after_committed rfl rfl

theorem step_led : Step (fun _ => true) bothActive deleteBrevo led := step_after rfl

theorem step_leaderless : Step (fun _ => true) bothActive deleteSendGrid leaderless :=
  step_after rfl

end Sample

open Sample in
/-- Of two integrations the second one is enabled, and deleted again. -/
theorem settled_of_reaches_enabled :
    bothActive.integrations.map (fun row => (row.isActive, row.isPrimary)) =
      [(true, true), (true, false)] ∧
    Settled (fun _ => true) bothActive.integrations (UUID.ofDigit 2) ∧
    Settled (fun _ => true) led.integrations (UUID.ofDigit 2) := by
  have hsendgrid : Harmless (fun _ => true) (UUID.ofDigit 2) (holding []).integrations
      createSendGrid := True.intro
  have hbrevo : Harmless (fun _ => true) (UUID.ofDigit 2) oneMail.integrations createBrevo :=
    True.intro
  -- the first integration is active when the second one is enabled
  have henable : Harmless (fun _ => true) (UUID.ofDigit 2) twoMails.integrations enableBrevo := by
    obtain ⟨sendgrid, brevo, hrows, henv, hmail, hactive, hmail'⟩ : ∃ a b,
        twoMails.integrations = [a, b] ∧ a.environmentID = UUID.ofDigit 2 ∧
        a.channel = "email" ∧ a.isActive = true ∧ b.channel = "email" :=
      ⟨_, _, rfl, rfl, rfl, rfl, rfl⟩
    rintro - row hrow - - -
    have hchannel : row.channel = "email" := by
      rw [hrows, List.mem_cons, List.mem_singleton] at hrow
      rcases hrow with rfl | rfl
      · exact hmail
      · exact hmail'
    rw [hchannel]
    refine ⟨sendgrid, ?_, ⟨henv, hmail⟩, hactive⟩
    rw [hrows]
    exact List.mem_cons_self
  -- and the second one is not primary when it is deleted
  have hdelete : Harmless (fun _ => true) (UUID.ofDigit 2) bothActive.integrations
      deleteBrevo := by
    obtain ⟨sendgrid, brevo, hrows, hid', hplain⟩ : ∃ a b,
        bothActive.integrations = [a, b] ∧ a.id = UUID.ofDigit 3 ∧ b.isPrimary = false :=
      ⟨_, _, rfl, rfl, rfl⟩
    rintro - row hrow hid - hprimary
    rw [hrows, List.mem_cons, List.mem_singleton] at hrow
    rcases hrow with rfl | rfl
    · exact absurd (hid'.symm.trans hid) (by decide)
    · rw [hplain] at hprimary
      cases hprimary
  have hreaches := (((Reaches.refl _).tail hsendgrid step_oneMail).tail hbrevo
    step_twoMails).tail henable step_bothActive
  exact ⟨rfl, settled_of_reaches (w := holding []) rfl (fun row hrow => by cases hrow) hreaches,
    settled_of_reaches (w := holding []) rfl (fun row hrow => by cases hrow)
      (hreaches.tail hdelete step_led)⟩

open Sample in
/-- Two integrations, the second one enabled, and the primary one deleted: what is left is
active, and not primary. -/
theorem leaderless_reached :
    ¬ ∀ (parseAddress : String → Bool) (environmentID : UUID) (w w' : World),
      integrationsOk w.integrations = true →
      (∀ row ∈ w.integrations, row.environmentID ≠ environmentID) →
      Reaches parseAddress (fun _ _ => True) w w' →
      Settled parseAddress w'.integrations environmentID := by
  intro hsettled
  have hreaches : Reaches (fun _ => true) (fun _ _ => True) (holding []) leaderless :=
    ((((Reaches.refl _).tail True.intro step_oneMail).tail True.intro step_twoMails).tail
      True.intro step_bothActive).tail True.intro step_leaderless
  have hend := hsettled (fun _ => true) (UUID.ofDigit 2) (holding []) leaderless rfl
    (fun row hrow => by cases hrow) hreaches
  obtain ⟨brevo, hleft, henv, hchannel, hactive, hplain⟩ : ∃ row, leaderless.integrations = [row] ∧
      row.environmentID = UUID.ofDigit 2 ∧ row.channel = "email" ∧ row.isActive = true ∧
      row.isPrimary = false := ⟨_, rfl, rfl, rfl, rfl, rfl⟩
  obtain ⟨row, hprimaries, -⟩ := hend.primary "email"
    ⟨brevo, hleft ▸ List.mem_singleton_self _, ⟨henv, hchannel⟩, hactive⟩
  have hmem : row ∈ primaries leaderless.integrations (UUID.ofDigit 2) "email" := by
    rw [hprimaries]
    exact List.mem_singleton_self row
  obtain ⟨hrow, -, hprimary⟩ := mem_primaries.mp hmem
  rw [hleft] at hrow
  cases List.mem_singleton.mp hrow
  rw [hplain] at hprimary
  cases hprimary

end Iwifunni.Integration
