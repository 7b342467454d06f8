/-
Iwifunni/Workflow/Lifecycle.lean

The administration of workflows: `Create`, `Update`, `Delete`, `Pause` and
`Resume` (`service.go`) over the statements of `workflows.sql`.

Five statements write `status` or `is_active`:

    CreateWorkflow              'draft' (the column default), true
    CreateWorkflowDefinition    the status it is given, true
    UpdateWorkflow              -, the flag it is given
    UpdateWorkflowDefinition    the status it is given, whether it is 'active'
    UpdateWorkflowStatus        the status it is given, whether it is 'active' or 'draft'
    DeleteWorkflow              'archived', false

None of them looks at the status a row has, and of the operations only `Pause`
does.  An archived workflow can thus be brought back, and the flag of
`UpdateWorkflow` need not fit the status (`lifecycle_kept`).
-/
import Iwifunni.Workflow.Sequential
import Iwifunni.Workflow.Params

namespace Iwifunni.Workflow.Admin

open Go Db Effect Effect.Prog

/-! ### Statements -/

inductive Op
  | getByID (id environmentID : UUID)
  | createDefinition (arg : WorkflowDefinitionParams)
  | create (arg : WorkflowParams)
  | updateDefinition (arg : WorkflowDefinitionParams)
  | update (arg : WorkflowParams) (isActive : Bool)
  | updateStatus (id environmentID : UUID) (status : WorkflowStatus)
  | delete (id environmentID : UUID)
  | newUUID

abbrev Op.Res : Op → Type
  | delete _ _ => Unit
  | newUUID => UUID
  | _ => WorkflowRow

/-- The table `workflows`, in the order of creation. -/
abbrev Rows : Type := List WorkflowRow

/-- The row `CreateWorkflowDefinition` inserts. -/
def definitionRow (arg : WorkflowDefinitionParams) : WorkflowRow where
  id := arg.id
  environmentID := arg.environmentID
  key := arg.key
  name := arg.name
  description := arg.description
  channels := arg.channels
  templateIDs := some arg.templateIDs
  status := arg.status
  version := arg.version
  triggerEvent := arg.triggerEvent
  definitionJson := some arg.definitionJson
  isActive := true

/-- The row `CreateWorkflow` inserts; the other columns have their defaults. -/
def legacyRow (arg : WorkflowParams) : WorkflowRow where
  id := arg.id
  environmentID := arg.environmentID
  key := arg.key
  name := arg.name
  description := arg.description
  channels := arg.channels
  templateIDs := some arg.templateIDs
  status := .draft
  version := 1
  triggerEvent := none
  definitionJson := some (.obj [])
  isActive := true

/-- The row an UPDATE is about: its id and environment. -/
def Op.target : Op → Option (UUID × UUID)
  | updateDefinition arg => some (arg.id, arg.environmentID)
  | update arg _ => some (arg.id, arg.environmentID)
  | updateStatus id environmentID _ => some (id, environmentID)
  | delete id environmentID => some (id, environmentID)
  | _ => none

/-- The WHERE clause of an UPDATE. -/
def Op.selects (op : Op) (row : WorkflowRow) : Bool :=
  op.target == some (row.id, row.environmentID)

/-- The SET clause of an UPDATE. -/
def Op.sets : Op → WorkflowRow → WorkflowRow
  | updateDefinition arg, row => { row with
      key := arg.key
      name := arg.name
      description := arg.description
      channels := arg.channels
      templateIDs := some arg.templateIDs
      status := arg.status
      version := arg.version
      triggerEvent := arg.triggerEvent
      definitionJson := some arg.definitionJson
      isActive := arg.status == .active }
  | update arg isActive, row => { row with
      key := arg.key
      name := arg.name
      description := arg.description
      channels := arg.channels
      templateIDs := some arg.templateIDs
      isActive := isActive }
  | updateStatus _ _ status, row => { row with
      status := status
      isActive := status == .active || status == .draft }
  | delete _ _, row => { row with
      isActive := false
      status := .archived }
  | _, row => row

/-- The primary key, and `idx_workflows_active_key`. -/
def KeysUnique (rows : Rows) : Prop :=
  (rows.map fun row => row.id).Nodup ∧
    ((rows.filter fun row => row.isActive).map fun row => (row.environmentID, row.key)).Nodup

instance (rows : Rows) : Decidable (KeysUnique rows) := by
  unfold KeysUnique
  infer_instance

/-- An INSERT. -/
def Rows.insert (rows : Rows) (row : WorkflowRow) : Except GoError WorkflowRow × Rows :=
  if KeysUnique (rows ++ [row]) then (.ok row, rows ++ [row])
  else (.error World.uniqueViolation, rows)

/-- The rows after an UPDATE. -/
def Rows.updated (rows : Rows) (op : Op) : Rows :=
  rows.map fun row => if op.selects row then op.sets row else row

/-- An UPDATE that returns its row. -/
def Rows.update (rows : Rows) (op : Op) : Except GoError WorkflowRow × Rows :=
  match rows.find? op.selects with
  | none => (.error .noRows, rows)
  | some row =>
      if KeysUnique (rows.updated op) then (.ok (op.sets row), rows.updated op)
      else (.error World.uniqueViolation, rows)

/-- What a statement does when nothing goes wrong. -/
def answer : (op : Op) → Rows → Except GoError op.Res × Rows
  | .getByID id environmentID, rows =>
      (World.orNoRows (rows.find? fun row => row.id == id && row.environmentID == environmentID),
        rows)
  | .createDefinition arg, rows => rows.insert (definitionRow arg)
  | .create arg, rows => rows.insert (legacyRow arg)
  | .updateDefinition arg, rows => rows.update (.updateDefinition arg)
  | .update arg isActive, rows => rows.update (.update arg isActive)
  | .updateStatus id environmentID status, rows =>
      rows.update (.updateStatus id environmentID status)
  | .delete id environmentID, rows => (.ok (), rows.updated (.delete id environmentID))
  | .newUUID, rows => (.ok (UUID.ofDigit 7), rows)

/-- `Call op rows r rows'`: the statement may be answered by `r` and leave `rows'`. -/
inductive Call : (op : Op) → Rows → Except GoError op.Res → Rows → Prop
  | answer (op rows) : Call op rows (Admin.answer op rows).1 (Admin.answer op rows).2
  | fault {op} (h : op ≠ .newUUID) (rows) (e : GoError) : Call op rows (.error e) rows
  | newUUID (rows u) : Call .newUUID rows (.ok u) rows

/-! ### The service -/

/-- Programs over the statements of the administration. -/
abbrev Act (α : Type) : Type := Prog Op.Res GoError α

/-- `Service.Create`. -/
def create (input : CreateInput) : Act WorkflowRow :=
  match input.definition with
  | some definition => do
      let id ← perform Op.newUUID
      let params ← ofExcept (buildCreateDefinitionParams id input definition)
      perform (Op.createDefinition params)
  | none => do
      let id ← perform Op.newUUID
      let params ← ofExcept (buildCreateParams id input)
      perform (Op.create params)

/-- `Service.Update`. -/
def update (input : UpdateInput) : Act WorkflowRow :=
  match input.definition with
  | some definition => do
      let current ← perform (Op.getByID input.id input.environmentID)
      let params ← ofExcept (buildUpdateDefinitionParams current input definition)
      perform (Op.updateDefinition params)
  | none => do
      let params ← ofExcept (Workflow.buildUpdateParams input)
      perform (Op.update params input.isActive)

/-- `Service.Delete`. -/
def delete (id environmentID : UUID) : Act Unit :=
  perform (Op.delete id environmentID)

/-- `Service.Pause`. -/
def pause (id environmentID : UUID) : Act WorkflowRow := do
  let workflow ← perform (Op.getByID id environmentID)
  if workflow.status = .paused then ret workflow
  else perform (Op.updateStatus id environmentID .paused)

/-- `Service.Resume`. -/
def resume (id environmentID : UUID) : Act WorkflowRow :=
  perform (Op.updateStatus id environmentID .active)

/-! ### Requests -/

inductive Request
  | create (input : CreateInput)
  | update (input : UpdateInput)
  | delete (id environmentID : UUID)
  | pause (id environmentID : UUID)
  | resume (id environmentID : UUID)

/-- Serve a request. -/
def Request.body : Request → Act Unit
  | create input => do
      let _ ← Admin.create input
      ret ()
  | update input => do
      let _ ← Admin.update input
      ret ()
  | delete id environmentID => Admin.delete id environmentID
  | pause id environmentID => do
      let _ ← Admin.pause id environmentID
      ret ()
  | resume id environmentID => do
      let _ ← Admin.resume id environmentID
      ret ()

/-- Any number of requests at once, each one statement at a time; a request may be
abandoned at any statement. -/
def admin : Machine Rows Request Empty Op.Res GoError Unit where
  body := Request.body
  spawn _ w w' := w' = w
  sem := Call
  close _ _ w w' := w' = w
  lose _ w w' := w' = w
  env _ w w' := w' = w

theorem admin_callsOnly : admin.CallsOnly := ⟨id, id, id, id⟩

abbrev AdminEvent : Type := Event Request Empty Op.Res GoError Unit

abbrev AdminPool : Type := Pool Rows Request Op.Res GoError Unit

/-- A table and no request. -/
def idle (rows : Rows) : AdminPool := ⟨rows, fun _ => none⟩

/-! ### What the service issues -/

/-- Definitions are stored as active; no status but 'active' and 'paused' is set. -/
def Op.Issued : Op → Prop
  | createDefinition arg => arg.status = .active
  | updateDefinition arg => arg.status = .active
  | updateStatus _ _ status => status = .active ∨ status = .paused
  | _ => True

theorem calls_built {α β : Type} {r : Except GoError α} {f : α → Act β}
    (h : ∀ a, r = .ok a → Calls Op.Issued (f a)) : Calls Op.Issued (ofExcept r >>= f) := by
  cases r with
  | ok a => exact h a rfl
  | error e => exact True.intro

/-- The statements of a request. -/
theorem calls_body (request : Request) : Calls Op.Issued request.body := by
  cases request with
  | create input =>
      refine Calls.bind ?_ fun _ => True.intro
      unfold create
      split
      · refine (calls_perform True.intro).bind fun id => calls_built fun params h => ?_
        exact calls_perform (show Op.Issued (.createDefinition params) from
          (buildDefinitionParams_ok h).2.2.2.2)
      · exact (calls_perform True.intro).bind fun id => calls_built fun params _ =>
          calls_perform True.intro
  | update input =>
      refine Calls.bind ?_ fun _ => True.intro
      unfold update
      split
      · refine (calls_perform True.intro).bind fun current => calls_built fun params h => ?_
        exact calls_perform (show Op.Issued (.updateDefinition params) from
          (buildDefinitionParams_ok h).2.2.2.2)
      · exact calls_built fun params _ => calls_perform True.intro
  | delete id environmentID => exact calls_perform True.intro
  | pause id environmentID =>
      refine Calls.bind ?_ fun _ => True.intro
      refine (calls_perform True.intro).bind fun workflow => ?_
      split
      · exact True.intro
      · exact calls_perform (show Op.Issued (.updateStatus id environmentID .paused) from
          Or.inr rfl)
  | resume id environmentID =>
      refine Calls.bind ?_ fun _ => True.intro
      exact calls_perform (show Op.Issued (.updateStatus id environmentID .active) from
        Or.inl rfl)

/-! ### What a statement does to a row -/

/-- Draft and active workflows are live. -/
def Live (status : WorkflowStatus) : Prop := status = .active ∨ status = .draft

instance (status : WorkflowStatus) : Decidable (Live status) := by
  unfold Live
  infer_instance

/-- The flag fits the status. -/
def Consistent (row : WorkflowRow) : Prop := row.isActive = true ↔ Live row.status

/-- The row of a statement that inserts one. -/
def Op.inserted : Op → Option WorkflowRow
  | createDefinition arg => some (definitionRow arg)
  | create arg => some (legacyRow arg)
  | _ => none

/-- The three things a statement can do: nothing, insert its row, or update the rows
it selects. -/
theorem call_cases {op : Op} {rows rows' : Rows} {r : Except GoError op.Res}
    (h : Call op rows r rows') :
    rows' = rows ∨
    (∃ a, r = .ok a) ∧
      ((∃ row, op.inserted = some row ∧ rows' = rows ++ [row]) ∨ rows' = rows.updated op) := by
  -- an INSERT may violate a constraint, an UPDATE may find no row or violate one
  have hinsert : ∀ row, (rows.insert row).2 = rows ∨
      (∃ a, (rows.insert row).1 = .ok a) ∧ (rows.insert row).2 = rows ++ [row] := by
    intro row
    unfold Rows.insert
    split
    · exact Or.inr ⟨⟨row, rfl⟩, rfl⟩
    · exact Or.inl rfl
  have hupdate : ∀ op : Op, (rows.update op).2 = rows ∨
      (∃ a, (rows.update op).1 = .ok a) ∧ (rows.update op).2 = rows.updated op := by
    intro op
    unfold Rows.update
    split
    · exact Or.inl rfl
    · split
      · exact Or.inr ⟨⟨_, rfl⟩, rfl⟩
      · exact Or.inl rfl
  cases h with
  | fault => exact Or.inl rfl
  | newUUID => exact Or.inl rfl
  | answer =>
      cases op with
      | getByID => exact Or.inl rfl
      | newUUID => exact Or.inl rfl
      | createDefinition arg =>
          exact (hinsert _).imp_right fun h => ⟨h.1, Or.inl ⟨_, rfl, h.2⟩⟩
      | create arg => exact (hinsert _).imp_right fun h => ⟨h.1, Or.inl ⟨_, rfl, h.2⟩⟩
      | updateDefinition arg =>
          exact (hupdate (.updateDefinition arg)).imp_right fun h => ⟨h.1, Or.inr h.2⟩
      | update arg isActive =>
          exact (hupdate (.update arg isActive)).imp_right fun h => ⟨h.1, Or.inr h.2⟩
      | updateStatus id environmentID status =>
          exact (hupdate (.updateStatus id environmentID status)).imp_right
            fun h => ⟨h.1, Or.inr h.2⟩
      -- DELETE is an :exec: it succeeds even if it finds no row
      | delete id environmentID => exact Or.inr ⟨⟨(), rfl⟩, Or.inr rfl⟩

@[simp] theorem sets_id (op : Op) (row : WorkflowRow) : (op.sets row).id = row.id := by
  cases op <;> rfl

@[simp] theorem sets_environmentID (op : Op) (row : WorkflowRow) :
    (op.sets row).environmentID = row.environmentID := by
  cases op <;> rfl

/-! ### Updates in order -/

/-- An update that respects the status of the row: definitions are replaced only of
workflows that are neither archived nor paused, the flag of `UpdateWorkflow` is the one
the status asks for, and an archived workflow is neither paused nor resumed. -/
def Op.Permitted : Op → WorkflowRow → Prop
  | updateDefinition _, row => row.status ≠ .archived ∧ row.status ≠ .paused
  | update _ isActive, row => isActive = true ↔ Live row.status
  | updateStatus _ _ _, row => row.status ≠ .archived
  | _, _ => True

/-- Every update that succeeds respects the status of the row it finds. -/
def InOrder (s : AdminPool) : AdminEvent → Prop
  | .call _ ⟨op, .ok _⟩ => ∀ row ∈ s.world, op.selects row = true → op.Permitted row
  | _ => True

section Sets

variable {op : Op} {row : WorkflowRow}

/-- What a permitted statement writes is consistent. -/
theorem consistent_sets (hissued : op.Issued) (hperm : op.Permitted row) (h : Consistent row) :
    Consistent (op.sets row) := by
  cases op with
  | updateDefinition arg =>
      have hactive : arg.status = .active := hissued
      show ((arg.status == .active) = true) ↔ Live arg.status
      rw [hactive]
      exact iff_of_true rfl (Or.inl rfl)
  | update arg isActive => exact hperm
  | updateStatus id environmentID status =>
      show ((status == .active || status == .draft) = true) ↔ Live status
      cases status <;> decide
  | delete id environmentID =>
      show (false = true) ↔ Live .archived
      decide
  | _ => exact h

theorem archived_sets (hperm : op.Permitted row) (h : row.status = .archived) :
    (op.sets row).status = .archived := by
  cases op with
  | updateDefinition arg => exact absurd h hperm.1
  | updateStatus id environmentID status => exact absurd h hperm
  | delete id environmentID => rfl
  | _ => exact h

/-- The statements of `Resume` and `Delete`. -/
def Op.Ends : Op → Prop
  | updateStatus _ _ status => status = .active
  | delete _ _ => True
  | _ => False

/-- A paused workflow stays paused under every operation that does not end the pause. -/
theorem paused_sets (hissued : op.Issued) (hperm : op.Permitted row) (hends : ¬ op.Ends)
    (h : row.status = .paused) : (op.sets row).status = .paused := by
  cases op with
  | updateDefinition arg => exact absurd h hperm.2
  | updateStatus id environmentID status =>
      rcases hissued with hactive | hpaused
      · exact absurd hactive hends
      · exact hpaused
  | delete id environmentID => exact absurd True.intro hends
  | _ => exact h

end Sets

/-! ### A row along a run -/

/-- The row at a place of the table has a property; its keys are as given. -/
def RowAt (P : WorkflowRow → Prop) (i : ℕ) (id environmentID : UUID) (rows : Rows) : Prop :=
  ∃ row, rows[i]? = some row ∧ row.id = id ∧ row.environmentID = environmentID ∧ P row

theorem getElem?_updated {rows : Rows} {op : Op} {i : ℕ} {row : WorkflowRow}
    (h : rows[i]? = some row) :
    (rows.updated op)[i]? = some (if op.selects row then op.sets row else row) := by
  rw [Rows.updated, List.getElem?_map, h, Option.map_some]

/-- A statement keeps a property of a row, if the update does. -/
theorem rowAt_call {P : WorkflowRow → Prop} {i : ℕ} {id environmentID : UUID} {op : Op}
    {rows rows' : Rows} {r : Except GoError op.Res} (h : Call op rows r rows')
    (hP : ∀ a row, r = .ok a → row ∈ rows → row.id = id → row.environmentID = environmentID →
      op.selects row = true → P row → P (op.sets row))
    (hrow : RowAt P i id environmentID rows) : RowAt P i id environmentID rows' := by
  obtain ⟨row, hi, hid, henv, hp⟩ := hrow
  rcases call_cases h with rfl | ⟨⟨a, ha⟩, ⟨new, -, rfl⟩ | rfl⟩
  · exact ⟨row, hi, hid, henv, hp⟩
  · refine ⟨row, ?_, hid, henv, hp⟩
    rw [List.getElem?_append_left (List.getElem?_eq_some_iff.mp hi).1]
    exact hi
  · refine ⟨_, getElem?_updated hi, ?_⟩
    split
    · next hsel =>
      rw [sets_id, sets_environmentID]
      exact ⟨hid, henv, hP a row ha (List.mem_of_getElem? hi) hid henv hsel hp⟩
    · exact ⟨hid, henv, hp⟩

theorem selects_iff {op : Op} {row : WorkflowRow} :
    op.selects row = true ↔ op.target = some (row.id, row.environmentID) := by
  rw [Op.selects, beq_iff_eq]

theorem update_ok {rows : Rows} {op : Op} {row : WorkflowRow}
    (h : (rows.update op).1 = .ok row) : (rows.update op).2 = rows.updated op := by
  unfold Rows.update at h ⊢
  split at h
  · cases h
  · split at h
    · next hkeys => rw [if_pos hkeys]
    · cases h

/-- An update that succeeds has updated the rows it selects. -/
theorem call_updated {op : Op} {rows rows' : Rows} {a : op.Res} {key : UUID × UUID}
    (htarget : op.target = some key) (h : Call op rows (.ok a) rows') :
    rows' = rows.updated op := by
  generalize hr : (Except.ok a : Except GoError op.Res) = r at h
  cases h with
  | fault => cases hr
  | newUUID => cases htarget
  | answer =>
      cases op with
      | updateDefinition arg => exact update_ok hr.symm
      | update arg isActive => exact update_ok hr.symm
      | updateStatus id environmentID status => exact update_ok hr.symm
      | delete id environmentID => rfl
      | _ => cases htarget

/-- What an update sets is so afterwards. -/
theorem rowAt_updated {P : WorkflowRow → Prop} {i : ℕ} {id environmentID : UUID} {op : Op}
    {rows rows' : Rows} {a : op.Res} (htarget : op.target = some (id, environmentID))
    (h : Call op rows (.ok a) rows') (hP : ∀ row, P (op.sets row))
    (hrow : RowAt (fun _ => True) i id environmentID rows) :
    RowAt P i id environmentID rows' := by
  obtain ⟨row, hi, rfl, rfl, -⟩ := hrow
  have hsel : op.selects row = true := selects_iff.mpr htarget
  rw [call_updated htarget h]
  refine ⟨op.sets row, ?_, sets_id op row, sets_environmentID op row, hP row⟩
  rw [getElem?_updated hi, if_pos hsel]

/-! ### The lifecycle -/

/-- The event deletes the workflow. -/
def Deletes (id environmentID : UUID) : AdminEvent → Prop
  | .call _ ⟨.delete id' environmentID', .ok _⟩ => id' = id ∧ environmentID' = environmentID
  | _ => False

/-- The event sets the status of the workflow. -/
def SetsStatus (status : WorkflowStatus) (id environmentID : UUID) : AdminEvent → Prop
  | .call _ ⟨.updateStatus id' environmentID' status', .ok _⟩ =>
      id' = id ∧ environmentID' = environmentID ∧ status' = status
  | _ => False

/-- The event is neither a `Resume` nor a `Delete` of the workflow. -/
def Leaves (id environmentID : UUID) (e : AdminEvent) : Prop :=
  ¬ Deletes id environmentID e ∧ ¬ SetsStatus .active id environmentID e

section Run

variable {s s' : AdminPool} {evs : List AdminEvent} {i : ℕ} {id environmentID : UUID}

/-- A row stays where it is. -/
theorem rowAt_kept (h : Run admin InOrder s evs s') (honly : s.Only Op.Issued)
    (hrow : RowAt (fun _ => True) i id environmentID s.world) :
    RowAt (fun _ => True) i id environmentID s'.world :=
  (h.world_invariant admin_callsOnly calls_body
    (fun _ _ _ _ _ _ _ hcall hI => rowAt_call hcall (fun _ _ _ _ _ _ _ _ => True.intro) hI)
    honly hrow).2

/-- An archived row stays archived. -/
theorem archived_kept (h : Run admin InOrder s evs s') (honly : s.Only Op.Issued)
    (hrow : RowAt (fun row => row.status = .archived) i id environmentID s.world) :
    RowAt (fun row => row.status = .archived) i id environmentID s'.world := by
  refine (h.world_invariant admin_callsOnly calls_body ?_ honly hrow).2
  intro s j op r w' _ hc hcall hI
  refine rowAt_call hcall ?_ hI
  rintro a row rfl hmem - - hsel harchived
  exact archived_sets (hc row hmem hsel) harchived

/-- A paused row stays paused, until its workflow is resumed or deleted. -/
theorem paused_kept (h : Run admin InOrder s evs s') (honly : s.Only Op.Issued)
    (hleaves : ∀ e ∈ evs, Leaves id environmentID e)
    (hrow : RowAt (fun row => row.status = .paused) i id environmentID s.world) :
    RowAt (fun row => row.status = .paused) i id environmentID s'.world := by
  refine ((h.restrict hleaves).world_invariant admin_callsOnly calls_body ?_ honly hrow).2
  intro s j op r w' hissued hc hcall hI
  refine rowAt_call hcall ?_ hI
  rintro a row rfl hmem hid henv hsel hpaused
  refine paused_sets hissued (hc.1 row hmem hsel) (fun hends => ?_) hpaused
  have htarget := selects_iff.mp hsel
  rw [hid, henv] at htarget
  cases op with
  | updateStatus id' environmentID' status =>
      cases htarget
      exact hc.2.2 ⟨rfl, rfl, hends⟩
  | delete id' environmentID' =>
      cases htarget
      exact hc.2.1 ⟨rfl, rfl⟩
  | _ => exact hends.elim

/-- The flags fit the statuses. -/
theorem consistent_kept (h : Run admin InOrder s evs s') (honly : s.Only Op.Issued)
    (hs : ∀ row ∈ s.world, Consistent row) : ∀ row ∈ s'.world, Consistent row := by
  refine (h.world_invariant (I := fun rows => ∀ row ∈ rows, Consistent row) admin_callsOnly
    calls_body ?_ honly hs).2
  intro s j op r w' hissued hc hcall hI
  rcases call_cases hcall with rfl | ⟨⟨a, rfl⟩, ⟨new, hnew, rfl⟩ | rfl⟩
  · exact hI
  · intro row hmem
    rcases List.mem_append.mp hmem with hmem | hmem
    · exact hI row hmem
    · cases List.mem_singleton.mp hmem
      cases op with
      | createDefinition arg =>
          cases hnew
          have hactive : arg.status = .active := hissued
          exact iff_of_true rfl (Or.inl hactive)
      | create arg =>
          cases hnew
          exact iff_of_true rfl (Or.inr rfl)
      | _ => cases hnew
  · intro row hmem
    obtain ⟨old, hold, rfl⟩ := List.mem_map.mp hmem
    split
    · next hsel => exact consistent_sets hissued (hc old hold hsel) (hI old hold)
    · exact hI old hold

/-- Deleting a workflow archives its row. -/
theorem archived_of_deletes {e : AdminEvent} (h : Step admin s e s')
    (he : Deletes id environmentID e)
    (hrow : RowAt (fun _ => True) i id environmentID s.world) :
    RowAt (fun row => row.status = .archived) i id environmentID s'.world := by
  cases h with
  | @call w w' ts j l tr op k r _ hcall =>
      cases op with
      | delete id' environmentID' =>
          cases r with
          | error => exact he.elim
          | ok a =>
              obtain ⟨rfl, rfl⟩ := he
              exact rowAt_updated rfl hcall (fun row => rfl) hrow
      | _ => exact he.elim
  | _ => exact he.elim

/-- Pausing a workflow sets the status of its row. -/
theorem paused_of_setsStatus {e : AdminEvent} (h : Step admin s e s')
    (he : SetsStatus .paused id environmentID e)
    (hrow : RowAt (fun _ => True) i id environmentID s.world) :
    RowAt (fun row => row.status = .paused) i id environmentID s'.world := by
  cases h with
  | @call w w' ts j l tr op k r _ hcall =>
      cases op with
      | updateStatus id' environmentID' status =>
          cases r with
          | error => exact he.elim
          | ok a =>
              obtain ⟨rfl, rfl, rfl⟩ := he
              exact rowAt_updated rfl hcall (fun row => rfl) hrow
      | _ => exact he.elim
  | _ => exact he.elim

end Run

/-- The workflow of a row is deleted: it was before, or one of the events does it. -/
def IsDeleted (row : WorkflowRow) (evs : List AdminEvent) : Prop :=
  row.status = .archived ∨ ∃ e ∈ evs, Deletes row.id row.environmentID e

/-- The workflow of a row is paused, and nothing resumes or deletes it since. -/
def IsPaused (row : WorkflowRow) (evs : List AdminEvent) : Prop :=
  (row.status = .paused ∧ ∀ e ∈ evs, Leaves row.id row.environmentID e) ∨
    ∃ pre e post, evs = pre ++ e :: post ∧ SetsStatus .paused row.id row.environmentID e ∧
      ∀ e' ∈ post, Leaves row.id row.environmentID e'

/-- What the lifecycle promises, between two moments of a run. -/
structure LifecycleKept (rows₁ : Rows) (evs : List AdminEvent) (rows₂ : Rows) : Prop where
  consistent : ∀ row ∈ rows₂, Consistent row
  deleted : ∀ i row, rows₁[i]? = some row → IsDeleted row evs →
    RowAt (fun row' => row'.status = .archived ∧ row'.isActive = false) i row.id
      row.environmentID rows₂
  paused : ∀ i row, rows₁[i]? = some row → IsPaused row evs →
    RowAt (fun row' => row'.status = .paused) i row.id row.environmentID rows₂

/-- **The lifecycle is kept by updates in order.**  In every run that starts with no
workflow, whose updates all respect the status of the row they find: the flags always
fit the statuses, a deleted workflow stays archived and inactive, and a paused one stays
paused until it is resumed or deleted. -/
theorem lifecycle_kept {s₁ s₂ : AdminPool} {evs₁ evs₂ : List AdminEvent}
    (h₁ : Run admin InOrder (idle []) evs₁ s₁) (h₂ : Run admin InOrder s₁ evs₂ s₂) :
    LifecycleKept s₁.world evs₂ s₂.world := by
  have honly₀ : (idle []).Only Op.Issued := only_of_idle fun _ => rfl
  have honly₁ : s₁.Only Op.Issued :=
    (h₁.world_invariant (I := fun _ => True) admin_callsOnly calls_body
      (fun _ _ _ _ _ _ _ _ _ => True.intro) honly₀ True.intro).1
  have hconsistent : ∀ row ∈ s₂.world, Consistent row :=
    consistent_kept h₂ honly₁ (consistent_kept h₁ honly₀ fun row hmem => by cases hmem)
  -- from the moment of an event of the second part on
  have hsplit : ∀ {Q : AdminEvent → Prop} {P : WorkflowRow → Prop} {id environmentID i},
      (∀ {s s' e}, Step admin s e s' → Q e →
        RowAt (fun _ => True) i id environmentID s.world →
        RowAt P i id environmentID s'.world) →
      RowAt (fun _ => True) i id environmentID s₁.world →
      ∀ {pre e post}, evs₂ = pre ++ e :: post → Q e → ∃ s', s'.Only Op.Issued ∧
        Run admin InOrder s' post s₂ ∧ RowAt P i id environmentID s'.world := by
    intro Q P id environmentID i hQ hrow pre e post hevs he
    rw [hevs] at h₂
    obtain ⟨s, s', hpre, -, hstep, hpost⟩ := h₂.split
    have honly : s.Only Op.Issued :=
      (hpre.world_invariant (I := fun _ => True) admin_callsOnly calls_body
        (fun _ _ _ _ _ _ _ _ _ => True.intro) honly₁ True.intro).1
    exact ⟨s', (hstep.call_or_kept admin_callsOnly calls_body honly).1, hpost,
      hQ hstep he (rowAt_kept hpre honly₁ hrow)⟩
  refine ⟨hconsistent, fun i row hi hdeleted => ?_, fun i row hi hpaused => ?_⟩
  · have harchived : RowAt (fun row' => row'.status = .archived) i row.id row.environmentID
        s₂.world := by
      rcases hdeleted with harchived | ⟨e, hmem, he⟩
      · exact archived_kept h₂ honly₁ ⟨row, hi, rfl, rfl, harchived⟩
      · obtain ⟨pre, post, hevs⟩ := List.append_of_mem hmem
        obtain ⟨s', honly, hpost, hrow⟩ :=
          hsplit archived_of_deletes ⟨row, hi, rfl, rfl, True.intro⟩ hevs he
        exact archived_kept hpost honly hrow
    obtain ⟨row', hi', hid, henv, hstatus⟩ := harchived
    refine ⟨row', hi', hid, henv, hstatus, ?_⟩
    have hflag := hconsistent row' (List.mem_of_getElem? hi')
    rw [Consistent, hstatus] at hflag
    cases hactive : row'.isActive with
    | false => rfl
    | true => exact absurd (hflag.mp hactive) (by decide)
  · rcases hpaused with ⟨hstatus, hleaves⟩ | ⟨pre, e, post, hevs, he, hleaves⟩
    · exact paused_kept h₂ honly₁ hleaves ⟨row, hi, rfl, rfl, hstatus⟩
    · obtain ⟨s', honly, hpost, hrow⟩ :=
        hsplit paused_of_setsStatus ⟨row, hi, rfl, rfl, True.intro⟩ hevs he
      exact paused_kept hpost honly hleaves hrow

/-! ### Requests one after the other -/

/-- The table after a request has been served, with nothing going wrong. -/
def serve (rows : Rows) (request : Request) : Rows := (request.body.drive answer rows).2.2

instance (op : Op) (row : WorkflowRow) : Decidable (op.Permitted row) := by
  cases op <;> unfold Op.Permitted <;> infer_instance

/-- Does a statement that succeeds respect the rows it selects? -/
def respects (rows : Rows) (a : Answered Op.Res GoError) : Bool :=
  rows.all fun row => !a.1.selects row || decide (a.1.Permitted row)

/-- Do all calls of requests served one after the other pass a test? -/
def passes (test : Rows → Answered Op.Res GoError → Bool) : Rows → List Request → Bool
  | _, [] => true
  | rows, request :: requests =>
      request.body.driveAll answer test rows && passes test (serve rows request) requests

/-- Requests served one after the other are a run. -/
theorem run_serve {C : AdminPool → AdminEvent → Prop}
    (test : Rows → Answered Op.Res GoError → Bool)
    (hcall : ∀ s a, test s.world a = true → C s (.call 0 a))
    (hother : ∀ s e, (∀ i a, e ≠ .call i a) → C s e) (requests : List Request) (rows : Rows)
    (htest : passes test rows requests = true) :
    ∃ evs, Run admin C (idle rows) evs (idle (requests.foldl serve rows)) := by
  induction requests generalizing rows with
  | nil => exact ⟨[], .nil _⟩
  | cons request requests ih =>
      rw [passes, Bool.and_eq_true] at htest
      obtain ⟨evs₁, h₁⟩ : ∃ evs, Run admin C (idle rows) evs (idle (serve rows request)) := by
        refine Run.drive answer test Call.answer ?_ (fun _ _ _ _ ha => hcall _ _ ha) ?_ rfl
          htest.1 rfl
        · exact hother _ _ fun i a h => by cases h
        · exact fun s out => hother _ _ fun i a h => by cases h
      obtain ⟨evs₂, h₂⟩ := ih (serve rows request) htest.2
      exact ⟨evs₁ ++ evs₂, h₁.trans h₂⟩

/-- What passes the test meets the condition. -/
theorem inOrder_call (s : AdminPool) (a : Answered Op.Res GoError)
    (h : respects s.world a = true) : InOrder s (.call 0 a) := by
  obtain ⟨op, r⟩ := a
  cases r with
  | error => exact True.intro
  | ok a =>
      intro row hmem hsel
      have hrow := List.all_eq_true.mp h row hmem
      rw [hsel, Bool.not_true, Bool.false_or, decide_eq_true_eq] at hrow
      exact hrow

theorem inOrder_other (s : AdminPool) (e : AdminEvent) (he : ∀ i a, e ≠ .call i a) :
    InOrder s e := by
  cases e with
  | call i a => exact absurd rfl (he i a)
  | _ => exact True.intro

namespace Sample

def environmentID : UUID := .ofDigit 1

/-- The identifier `answer` gives to a new workflow. -/
def workflowID : UUID := .ofDigit 7

/-- Create the sample workflow of one notification. -/
def create : Request := .create {
  environmentID := environmentID
  key := "welcome"
  name := "Welcome"
  description := none
  channels := []
  templateIDs := []
  definition := some Iwifunni.Workflow.Sample.single }

def delete : Request := .delete workflowID environmentID
def pause : Request := .pause workflowID environmentID
def resume : Request := .resume workflowID environmentID

/-- The table after requests have been served. -/
def served (requests : List Request) : Rows := requests.foldl serve []

end Sample

/-- A workflow that is paused and then deleted. -/
theorem lifecycle_kept_sample :
    ∃ evs, LifecycleKept (Sample.served [Sample.create, Sample.pause]) evs
      (Sample.served [Sample.create, Sample.pause, Sample.delete]) := by
  obtain ⟨evs₁, h₁⟩ := run_serve respects inOrder_call inOrder_other
    [Sample.create, Sample.pause] [] (by decide +kernel)
  obtain ⟨evs₂, h₂⟩ := run_serve respects inOrder_call inOrder_other
    [Sample.delete] (Sample.served [Sample.create, Sample.pause]) (by decide +kernel)
  exact ⟨evs₂, lifecycle_kept h₁ h₂⟩

/-- A deleted workflow is resumed: it is active again, and can be triggered. -/
theorem revived_by_resume :
    ∃ evs₁ evs₂,
      Run admin (fun _ _ => True) (idle []) evs₁
        (idle (Sample.served [Sample.create, Sample.delete])) ∧
      Run admin (fun _ _ => True) (idle (Sample.served [Sample.create, Sample.delete])) evs₂
        (idle (Sample.served [Sample.create, Sample.delete, Sample.resume])) ∧
      ((Sample.served [Sample.create, Sample.delete]).map fun row =>
        (row.status, row.isActive)) = [(.archived, false)] ∧
      ((Sample.served [Sample.create, Sample.delete, Sample.resume]).map fun row =>
        (row.status, row.isActive)) = [(.active, true)] ∧
      ¬ LifecycleKept (Sample.served [Sample.create, Sample.delete]) evs₂
        (Sample.served [Sample.create, Sample.delete, Sample.resume]) := by
  -- every statement is answered
  have hany : ∀ (rows : Rows) requests, passes (fun _ _ => true) rows requests = true := by
    intro rows requests
    induction requests generalizing rows with
    | nil => rfl
    | cons request requests ih => rw [passes, driveAll_true, ih, Bool.and_self]
  obtain ⟨evs₁, h₁⟩ := run_serve (C := fun _ _ => True) (fun _ _ => true)
    (fun _ _ _ => True.intro) (fun _ _ _ => True.intro) [Sample.create, Sample.delete] []
    (hany _ _)
  obtain ⟨evs₂, h₂⟩ := run_serve (C := fun _ _ => True) (fun _ _ => true)
    (fun _ _ _ => True.intro) (fun _ _ _ => True.intro) [Sample.resume]
    (Sample.served [Sample.create, Sample.delete]) (hany _ _)
  have hdeleted : ((Sample.served [Sample.create, Sample.delete]).map fun row =>
      (row.status, row.isActive)) = [(.archived, false)] := by decide +kernel
  have hrevived : ((Sample.served [Sample.create, Sample.delete, Sample.resume]).map fun row =>
      (row.status, row.isActive)) = [(.active, true)] := by decide +kernel
  refine ⟨evs₁, evs₂, h₁, h₂, hdeleted, hrevived, fun hkept => ?_⟩
  -- the law would keep the only row archived
  rcases hrows : Sample.served [Sample.create, Sample.delete] with - | ⟨row, rest⟩
  · rw [hrows] at hdeleted
    cases hdeleted
  rw [hrows, List.map_cons] at hdeleted
  have harchived : row.status = .archived :=
    congrArg Prod.fst (List.cons.inj hdeleted).1
  obtain ⟨row', hrow', -, -, hstatus, -⟩ := hkept.deleted 0 row (by rw [hrows]; rfl)
    (Or.inl harchived)
  have hmem := List.mem_map_of_mem (f := fun row : WorkflowRow => (row.status, row.isActive))
    (List.mem_of_getElem? hrow')
  rw [hrevived, List.mem_singleton, hstatus] at hmem
  cases hmem

end Iwifunni.Workflow.Admin
