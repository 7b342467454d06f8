/-
Iwifunni/Workflow/Versioning.lean

Which definition an execution runs.

An execution keeps no definition of its own: every handling of a step reads the
workflow row anew, and an update replaces the definition in that row.

    lookup d -- create -- step d -- update d' -- step d' ...

So a step is that of the definition the execution was started with, as long as
the row still has it (`definition_kept`).
-/
import Mathlib.Data.List.Nodup
import Iwifunni.Workflow.Footprint
import Iwifunni.Workflow.Lookup
import Iwifunni.Workflow.Pausing

namespace Iwifunni.Workflow

open Go Db Effect Effect.Prog

variable {s : Service} {C : EnginePool → EngineEvent → Prop} {w₀ : World} {i : ℕ}
  {evs : List EngineEvent} {p p' : EnginePool} {row : Db.Workflow}

/-! ### The rows of a run -/

/-- The primary key of `workflows`. -/
def World.KeysUnique (w : World) : Prop := (w.workflows.map fun r => r.id).Nodup

/-- The row of a workflow is there, with the same definition. -/
def SameDefinition (row : Db.Workflow) (w : World) : Prop :=
  ∃ r ∈ w.workflows, r.id = row.id ∧ r.environmentID = row.environmentID ∧
    r.definitionJson = row.definitionJson

/-- The event does not replace the definition of a row by another one. -/
def Spares (row : Db.Workflow) : EngineEvent → Prop
  | .env (.updateDefinition id environmentID definition) =>
      id = row.id → environmentID = row.environmentID → validateDefinition definition = .ok () →
        some (marshalDefinition definition) = row.definitionJson
  | _ => True

/-- What stands in a row whose definition was replaced. -/
theorem withDefinition_eq {current row' : Db.Workflow} {definition : Definition}
    (h : withDefinition current definition = .ok row') :
    validateDefinition definition = .ok () ∧ row'.id = current.id ∧
      row'.environmentID = current.environmentID ∧
      row'.definitionJson = some (marshalDefinition definition) := by
  unfold withDefinition at h
  rcases hv : validateDefinition definition with e | u
  · rw [hv] at h
    cases h
  · rw [hv] at h
    cases h
    exact ⟨rfl, rfl, rfl, rfl⟩

/-- What replacing the row of a workflow does: nothing, or the row found under its key
makes way for the new one. -/
theorem modifyWorkflow_cases (w : World) (id environmentID : UUID)
    (f : Db.Workflow → Except GoError Db.Workflow) :
    w.modifyWorkflow id environmentID f = w ∨
    ∃ old ∈ w.workflows, ∃ new, old.id = id ∧ old.environmentID = environmentID ∧
      f old = .ok new ∧ (w.modifyWorkflow id environmentID f).workflows =
        new :: w.workflows.filter fun r => !(r.id == id && r.environmentID == environmentID) := by
  unfold World.modifyWorkflow
  split
  · exact Or.inl rfl
  next old hold =>
  split
  · exact Or.inl rfl
  next new hnew =>
  have hkey := List.find?_some hold
  rw [Bool.and_eq_true, beq_iff_eq, beq_iff_eq] at hkey
  exact Or.inr ⟨old, List.mem_of_find?_eq_some hold, new, hkey.1, hkey.2, hnew, rfl⟩

theorem withStatus_eq {status : WorkflowStatus} {current row' : Db.Workflow}
    (h : (.ok { current with status := status } : Except GoError Db.Workflow) = .ok row') :
    row'.id = current.id ∧ row'.environmentID = current.environmentID ∧
      row'.definitionJson = current.definitionJson := by
  cases h
  exact ⟨rfl, rfl, rfl⟩

/-- An update in place keeps the ids of workflows different. -/
theorem modifyWorkflow_keys {w : World} {id environmentID : UUID}
    {f : Db.Workflow → Except GoError Db.Workflow}
    (hf : ∀ r r', f r = .ok r' → r'.id = r.id) (hkeys : w.KeysUnique) :
    (w.modifyWorkflow id environmentID f).KeysUnique := by
  rcases modifyWorkflow_cases w id environmentID f with
    heq | ⟨old, hmem, new, hid, henv, hnew, heq⟩
  · rw [heq]
    exact hkeys
  rw [World.KeysUnique, heq, List.map_cons, List.nodup_cons]
  refine ⟨fun hin => ?_, hkeys.sublist (List.filter_sublist.map _)⟩
  -- a row with the same id is the old one, which has been dropped
  obtain ⟨r, hr, hrid⟩ := List.mem_map.mp hin
  obtain ⟨hr, hkept⟩ := List.mem_filter.mp hr
  have hold : r = old :=
    List.inj_on_of_nodup_map hkeys hr hmem (hrid.trans (hf old new hnew))
  rw [hold, hid, henv, BEq.rfl, BEq.rfl] at hkept
  cases hkept

/-- A change to another workflow keeps the definition of this one. -/
theorem modifyWorkflow_same {w : World} {id environmentID : UUID}
    {f : Db.Workflow → Except GoError Db.Workflow}
    (hf : ∀ r r', f r = .ok r' → r'.id = r.id ∧ r'.environmentID = r.environmentID)
    (hsame : ∀ r r', f r = .ok r' → id = row.id → environmentID = row.environmentID →
      r.definitionJson = row.definitionJson → r'.definitionJson = row.definitionJson)
    (hkeys : w.KeysUnique) (hrow : SameDefinition row w) :
    SameDefinition row (w.modifyWorkflow id environmentID f) := by
  rcases modifyWorkflow_cases w id environmentID f with
    heq | ⟨old, hmem, new, hid, henv, hnew, heq⟩
  · rw [heq]
    exact hrow
  obtain ⟨hnewID, hnewEnv⟩ := hf old new hnew
  obtain ⟨r, hr, hrid, hrenv, hdef⟩ := hrow
  rw [SameDefinition, heq]
  by_cases hdrop : r.id = id ∧ r.environmentID = environmentID
  · have hold : r = old :=
      List.inj_on_of_nodup_map hkeys hr hmem (hdrop.1.trans hid.symm)
    refine ⟨new, List.mem_cons_self .., ?_, ?_, ?_⟩
    · rw [hnewID, ← hold, hrid]
    · rw [hnewEnv, ← hold, hrenv]
    · exact hsame old new hnew (hdrop.1.symm.trans hrid) (hdrop.2.symm.trans hrenv)
        (hold ▸ hdef)
  · refine ⟨r, List.mem_cons_of_mem _ (List.mem_filter.mpr ⟨hr, ?_⟩), hrid, hrenv, hdef⟩
    rw [Bool.not_eq_true', Bool.and_eq_false_iff, beq_eq_false_iff_ne, beq_eq_false_iff_ne]
    exact not_and_or.mp hdrop

/-- What a creation adds: nothing, or a row under a new id. -/
theorem createDefinition_cases (w : World) (workflow : Db.Workflow) (definition : Definition) :
    (Change.createDefinition workflow definition).apply w = w ∨
    ∃ new, (∀ r ∈ w.workflows, r.id ≠ new.id) ∧
      ((Change.createDefinition workflow definition).apply w).workflows = new :: w.workflows := by
  unfold Change.apply
  dsimp only
  split
  · exact Or.inl rfl
  next new hnew =>
  split
  · exact Or.inl rfl
  next hfree =>
  refine Or.inr ⟨new, fun r hr heq => hfree ?_, rfl⟩
  exact List.any_eq_true.mpr ⟨r, hr, beq_iff_eq.mpr heq⟩

/-- Changes keep the primary key. -/
theorem apply_keys (c : Change) {w : World} (hkeys : w.KeysUnique) : (c.apply w).KeysUnique := by
  cases c with
  | createDefinition workflow definition =>
      rcases createDefinition_cases w workflow definition with heq | ⟨new, hfree, heq⟩
      · rw [heq]
        exact hkeys
      · rw [World.KeysUnique, heq, List.map_cons, List.nodup_cons]
        refine ⟨fun hin => ?_, hkeys⟩
        obtain ⟨r, hr, hrid⟩ := List.mem_map.mp hin
        exact hfree r hr hrid
  | updateDefinition id environmentID definition =>
      exact modifyWorkflow_keys (fun r r' h => (withDefinition_eq h).2.1) hkeys
  | setStatus id environmentID status =>
      exact modifyWorkflow_keys (fun r r' h => (withStatus_eq h).1) hkeys
  | directory => exact hkeys

/-- A change that spares the definition keeps it. -/
theorem apply_same {c : Change} {w : World} (hspares : Spares row (.env c))
    (hkeys : w.KeysUnique) (hrow : SameDefinition row w) : SameDefinition row (c.apply w) := by
  cases c with
  | createDefinition workflow definition =>
      rcases createDefinition_cases w workflow definition with heq | ⟨new, -, heq⟩
      · rw [heq]
        exact hrow
      · obtain ⟨r, hr, hkept⟩ := hrow
        rw [SameDefinition, heq]
        exact ⟨r, List.mem_cons_of_mem _ hr, hkept⟩
  | updateDefinition id environmentID definition =>
      refine modifyWorkflow_same (fun r r' h => ?_) (fun r r' h hid henv _ => ?_) hkeys hrow
      · obtain ⟨-, hid, henv, -⟩ := withDefinition_eq h
        exact ⟨hid, henv⟩
      · obtain ⟨hvalid, -, -, hdef⟩ := withDefinition_eq h
        rw [hdef]
        exact hspares hid henv hvalid
  | setStatus id environmentID status =>
      refine modifyWorkflow_same (fun r r' h => ?_) (fun r r' h _ _ hdef => ?_) hkeys hrow
      · exact ⟨(withStatus_eq h).1, (withStatus_eq h).2.1⟩
      · exact (withStatus_eq h).2.2.trans hdef
  | directory => exact hrow

/-- Calls do not write to `workflows`. -/
theorem workflows_of_call {op : Op} {r : Except GoError op.Res} {w w' : World}
    (h : Call op w r w') : w'.workflows = w.workflows := by
  rcases r with e | a
  · rw [(call_error h).1]
  cases op with
  | createExecution arg =>
      obtain ⟨-, -, rfl⟩ := call_createExecution h
      rfl
  | updateExecutionState id environmentID status stepID completedAt failedAt =>
      obtain ⟨-, -, -, -, rfl⟩ := call_updateExecutionState h
      rfl
  | createStepExecution arg =>
      obtain ⟨-, -, rfl⟩ := call_createStepExecution h
      rfl
  | updateStepExecutionState arg =>
      obtain ⟨-, -, -, rfl⟩ := call_updateStepExecutionState h
      rfl
  | enqueue job => rw [call_enqueue h]
  | enqueueWorkflowStep job =>
      obtain ⟨-, rfl⟩ := call_enqueueWorkflowStep h
      rfl
  | enqueueWorkflowStepIn job delay =>
      obtain ⟨-, rfl⟩ := call_enqueueWorkflowStepIn h
      rfl
  | _ => rw [call_reads h True.intro]

/-- Only changes from outside write to `workflows`. -/
theorem workflows_of_step {e : EngineEvent} (h : Step (engine s) p e p') :
    p'.world.workflows = p.world.workflows ∨ ∃ c, e = .env c ∧ p'.world = c.apply p.world := by
  cases h with
  | @start w w' ts i l _ hsp =>
      cases l with
      | step t =>
          obtain ⟨-, rfl⟩ := hsp
          exact Or.inl rfl
      | trigger environmentID input =>
          cases hsp
          exact Or.inl rfl
  | call _ hcall => exact Or.inl (workflows_of_call hcall)
  | @finish w w' ts i l tr out _ hc =>
      cases l with
      | step t =>
          cases hc
          rcases closeTask_queue s.maxRetry w t out with heq | ⟨heq, -, -⟩ <;> rw [heq] <;>
            exact Or.inl rfl
      | trigger environmentID input =>
          cases hc
          exact Or.inl rfl
  | @lose w w' ts i t _ hl =>
      rcases t with ⟨_ | _, _, _⟩ <;> cases hl <;> exact Or.inl rfl
  | @env w w' ts c he => exact Or.inr ⟨c, rfl, he⟩

theorem keysUnique_of_run (h : Run (engine s) C p evs p') (hkeys : p.world.KeysUnique) :
    p'.world.KeysUnique := by
  refine h.invariant (I := fun _ p => p.world.KeysUnique) ?_ hkeys
  intro _ p e p' hI _ hs
  rcases workflows_of_step hs with heq | ⟨c, -, heq⟩
  · rw [World.KeysUnique, heq]
    exact hI
  · rw [heq]
    exact apply_keys c hI

/-- A definition that every event spares is still there at the end. -/
theorem sameDefinition_of_run (h : Run (engine s) C p evs p') (hspares : ∀ e ∈ evs, Spares row e)
    (hkeys : p.world.KeysUnique) (hrow : SameDefinition row p.world) :
    SameDefinition row p'.world := by
  refine ((h.restrict hspares).invariant
    (I := fun _ p => p.world.KeysUnique ∧ SameDefinition row p.world) ?_ ⟨hkeys, hrow⟩).2
  rintro _ p e p' ⟨hkeys, hrow⟩ hc hs
  rcases workflows_of_step hs with heq | ⟨c, rfl, heq⟩
  · rw [World.KeysUnique, SameDefinition, heq]
    exact ⟨hkeys, hrow⟩
  · rw [heq]
    exact ⟨apply_keys c hkeys, apply_same hc.2 hkeys hrow⟩

/-! ### The reading of a workflow -/

/-- A handling that has just read its workflow goes on with the node it finds there. -/
structure Reads (s : Service) (p p' : EnginePool) (i : ℕ) (ref : StepRef)
    (execution : WorkflowExecution) (found : Db.Workflow) : Prop where
  job : ∃ t log prog, p.threads i = some ⟨.step t, log, prog⟩ ∧ readJob t.job = some ref
  continues : ∃ t log, p'.threads i
    = some ⟨.step t, log, handleLocated s ref execution (locate found ref.stepID)⟩

/-- A handling about to read its workflow has read its execution. -/
theorem after_processStep {t : Task} {log : List (Answered Op.Res GoError)}
    {id environmentID : UUID} {k : Except GoError Db.Workflow → Act Unit}
    (h : After (processStep s t.job) log (.call (.getByID id environmentID) k)) :
    ∃ ref execution, readJob t.job = some ref ∧ id = ref.workflowID ∧
      environmentID = ref.environmentID ∧
      ∀ found, k (.ok found) = handleLocated s ref execution (locate found ref.stepID) := by
  rcases hread : readJob t.job with - | ref
  · rw [processStep, hread] at h
    cases h.fail_inv
  rw [processStep_of_readJob s hread] at h
  rcases h.call_inv with ⟨-, hprog⟩ | ⟨r, log₁, -, h₁⟩
  · cases hprog
  rcases r with e | execution
  · cases h₁.fail_inv
  have h₁ : After (perform (Op.getByID ref.workflowID ref.environmentID) >>= fun workflow =>
      handleLocated s ref execution (locate workflow ref.stepID)) log₁
      (.call (.getByID id environmentID) k) := h₁
  rcases h₁.call_inv with ⟨-, hprog⟩ | ⟨r, log₂, -, h₂⟩
  · cases hprog
    exact ⟨ref, execution, rfl, rfl, rfl, fun found => rfl⟩
  -- the workflow is read once only
  rcases r with e | workflow
  · cases h₂.fail_inv
  · exact ((calls_handleLocated_unread s ref execution _).after h₂).1.elim

theorem engine_body (s : Service) (l : Activity) : (engine s).body l = l.body s := rfl

theorem trigger_getByID {environmentID' id environmentID : UUID} {input : TriggerEventInput}
    {σ : Phase} {r : Except GoError Db.Workflow} :
    (handling s).next (.trigger environmentID' input) σ ⟨.getByID id environmentID, r⟩ = none := by
  show triggerNext s environmentID' σ _ = none
  cases σ <;> rfl

/-- Only the handling of a step reads a workflow. -/
theorem reads_of_getByID {id environmentID : UUID} {found : Db.Workflow}
    (h : Run (engine s) C (idle w₀) evs p)
    (hs : Step (engine s) p (.call i ⟨.getByID id environmentID, .ok found⟩) p') :
    ∃ ref execution, Reads s p p' i ref execution found ∧ id = ref.workflowID ∧
      environmentID = ref.environmentID := by
  have hk := kept_handling h
  have hafter := h.after (fun i t ht => by cases ht)
  cases hs with
  | @call w w' ts i l tr op k r ht hcall =>
      cases l with
      | step t =>
          have hbody := hafter i _ ht
          rw [engine_body, Activity.body] at hbody
          obtain ⟨ref, execution, hread, hid, henv, hrest⟩ := after_processStep hbody
          have hcontinues : Function.update ts i (some ⟨.step t,
              tr ++ [⟨.getByID id environmentID, .ok found⟩], k (.ok found)⟩) i
              = some ⟨.step t, tr ++ [⟨.getByID id environmentID, .ok found⟩],
                  handleLocated s ref execution (locate found ref.stepID)⟩ := by
            rw [Function.update_self, hrest found]
          exact ⟨ref, execution, ⟨⟨t, tr, _, ht, hread⟩, t, _, hcontinues⟩, hid, henv⟩
      | trigger environmentID' input =>
          obtain ⟨σ, -, hkeep⟩ := hk i _ ht
          obtain ⟨σ', hnext, -⟩ := Prog.keeps_call.mp hkeep _ (expects_of_call hcall)
          rw [trigger_getByID] at hnext
          cases hnext

/-! ### The definition an execution was started with -/

/-- The execution was created by a trigger whose lookup had found this row; `since` is
what has happened after the lookup. -/
def StartedWith (evs : List EngineEvent) (execution : WorkflowExecution) (row : Db.Workflow)
    (since : List EngineEvent) : Prop :=
  ∃ first j event rows mid arg created post,
    evs = first ++ .call j ⟨.getActiveByTriggerEvent execution.environmentID event,
      .ok rows⟩ :: since ∧
    row ∈ rows ∧ row.id = execution.workflowID ∧ row.environmentID = execution.environmentID ∧
    since = mid ++ .call j ⟨.createExecution arg, .ok created⟩ :: post ∧
    (∀ l, .start j l ∉ mid) ∧ WorkflowExecution.id created = execution.id

/-- Every execution was started with some row. -/
theorem startedWith_of_run (hfresh : w₀.Fresh) (h : Run (engine s) C (idle w₀) evs p) {x : UUID}
    {execution : WorkflowExecution} (hx : p.world.executions.get x = some execution) :
    ∃ row since, StartedWith evs execution row since := by
  obtain ⟨pre, j, arg, created, post, rfl, hid, hwf, henv⟩ := created_of_run hfresh h hx
  obtain ⟨p₁, p₂, hpre, -, hstep, -⟩ := h.split
  obtain ⟨t, environmentID, input, ht, hlabel⟩ := trigger_of_create hpre hstep
  obtain ⟨rows, ⟨first, environmentID', event, mid, p₀, rfl, hmid, -, hrows⟩, row, hrow,
    hrowID, hrowEnv⟩ := lookedUp_of_starts hpre hstep ht hlabel True.intro
  have hfound := hrow
  rw [hrows, World.matching, List.mem_filter, Bool.and_eq_true, Bool.and_eq_true,
    beq_iff_eq] at hfound
  have hE : environmentID' = execution.environmentID :=
    hfound.2.1.1.symm.trans (hrowEnv.trans henv)
  rw [hE]
  refine ⟨row, mid ++ .call j ⟨.createExecution arg, .ok created⟩ :: post, first, j, event, rows,
    mid, arg, created, post, ?_, hrow, hrowID.trans hwf, hrowEnv.trans henv, rfl, hmid, hid⟩
  rw [List.append_assoc, List.cons_append]

/-- **Steps run the definition their execution was started with, as long as nobody
replaces it.**  In every run, when a handling reads the workflow of its job: the
execution of the job was started with some row of this workflow, and if every event
since that lookup spares the definition of this row, then the handling goes on exactly
as with that row, with its node, its config and its successors. -/
theorem definition_kept {id environmentID : UUID} {found : Db.Workflow} (hfresh : w₀.Fresh)
    (hkeys : w₀.KeysUnique) (h : Run (engine s) C (idle w₀) evs p)
    (hs : Step (engine s) p (.call i ⟨.getByID id environmentID, .ok found⟩) p') :
    ∃ ref execution stored row since, Reads s p p' i ref execution found ∧
      p.world.executions.get ref.executionID = some stored ∧
      StartedWith evs stored row since ∧
      ((∀ e ∈ since, Spares row e) → Reads s p p' i ref execution row) := by
  obtain ⟨ref, execution, hreads, rfl, rfl⟩ := reads_of_getByID h hs
  obtain ⟨t, log, prog, ht, hread⟩ := hreads.job
  -- the job was made for an execution of the workflow it names
  obtain ⟨hk, howned⟩ := ownership_of_run hfresh h
  obtain ⟨st, htrack, -⟩ := hk i _ ht
  obtain ⟨stored, hstored, hwf, henv⟩ :=
    (howned.threads i t st (Protocol.view_phases_of_thread ht htrack)).of_readJob hread
  obtain ⟨row, since, hstarted⟩ := startedWith_of_run hfresh h hstored
  refine ⟨ref, execution, stored, row, since, hreads, hstored, hstarted, fun hspares => ?_⟩
  obtain ⟨first, j, event, rows, mid, arg, created, post, rfl, hrow, hrowID, hrowEnv, -⟩ :=
    hstarted
  obtain ⟨p₁, p₂, hfirst, -, hlookup, hsince⟩ := h.split
  have hworld : p₂.world = p₁.world ∧ row ∈ p₁.world.workflows := by
    cases hlookup with
    | call _ hcall =>
        rw [call_getActiveByTriggerEvent hcall, World.matching, List.mem_filter] at hrow
        exact ⟨call_reads hcall True.intro, hrow.1⟩
  -- the row that is read is the one row with its keys, whose definition was spared
  have hkeys₂ : p₂.world.KeysUnique := by
    rw [hworld.1]
    exact keysUnique_of_run hfirst hkeys
  obtain ⟨r, hr, hrid, hrenv, hdef⟩ := sameDefinition_of_run hsince hspares hkeys₂
    ⟨row, hworld.1 ▸ hworld.2, rfl, rfl, rfl⟩
  have hfound : found = r := by
    cases hs with
    | call _ hcall =>
        have hfind := call_getByID hcall
        have hkey := List.find?_some hfind
        rw [Bool.and_eq_true, beq_iff_eq, beq_iff_eq] at hkey
        refine List.inj_on_of_nodup_map (keysUnique_of_run hsince hkeys₂)
          (List.mem_of_find?_eq_some hfind) hr ?_
        rw [hkey.1, hwf, ← hrowID, hrid]
  have hlocate : locate row ref.stepID = locate found ref.stepID := by
    rw [locate, locate, hfound, hdef]
  refine ⟨hreads.job, ?_⟩
  rw [hlocate]
  exact hreads.continues

/-! ### An edit between trigger and step -/

namespace Sample

/-- The node of the notification, with another type. -/
def edited : Definition where
  trigger := ⟨"user.signup"⟩
  nodes := [start "mail"]
  edgeSlice := some []

/-- The workflow is edited after it has been triggered, and its first job is handled. -/
def editedWorld : World :=
  (world single).acts service [.trigger environmentID event,
    .change (.updateDefinition workflowID environmentID edited), .handle 0]

theorem keysUnique_world (definition : Definition) : (world definition).KeysUnique :=
  List.nodup_singleton _

end Sample

/-- The execution was started with a notification; its step is that of the edited node,
and nothing is sent. -/
theorem edited_node_run :
    ∃ evs, Run (engine Sample.service) (fun _ _ => True) (idle (Sample.world Sample.single)) evs
        (idle Sample.editedWorld) ∧
      ((locate (Sample.workflow Sample.single) "mail").toOption.map fun found =>
        found.2.type.toString) = some "notification" ∧
      ((Sample.editedWorld.steps.get (Sample.executionID, "mail")).map fun row =>
        row.stepType) = some "trigger" ∧
      Sample.editedWorld.notifications = [] := by
  obtain ⟨evs, h⟩ := run_acts (s := Sample.service) (C := fun _ _ => True)
    (fun _ _ _ => True.intro) (fun _ _ => True.intro) (Sample.world Sample.single)
    [.trigger Sample.environmentID Sample.event,
      .change (.updateDefinition Sample.workflowID Sample.environmentID Sample.edited), .handle 0]
    (fun _ _ _ => True.intro)
  have hnone : Sample.editedWorld.notifications.length = 0 := by decide +kernel
  exact ⟨evs, h, by decide +kernel, by decide +kernel, List.length_eq_zero_iff.mp hnone⟩

/-- The call reads a workflow. -/
def isWorkflow : Answered Op.Res GoError → Bool
  | ⟨.getByID _ _, .ok _⟩ => true
  | _ => false

/-- The sample workflow is triggered. -/
def Sample.triggeredWorld : World :=
  (world single).acts service [.trigger environmentID event]

/-- The sample workflow is triggered and its first job handled: the step is that of the
row the trigger had found. -/
theorem definition_kept_single :
    ∃ evs p p' ref execution stored row since,
      Run (engine Sample.service) unchanged (idle (Sample.world Sample.single)) evs p ∧
      p.world.executions.get ref.executionID = some stored ∧
      StartedWith evs stored row since ∧ Reads Sample.service p p' 0 ref execution row := by
  have hprogress : ∀ p e, isProgress e → unchanged p e := fun p e he c hc => by
    rw [hc] at he
    exact he
  obtain ⟨evs₁, h₁⟩ : ∃ evs, Run (engine Sample.service) unchanged
      (idle (Sample.world Sample.single)) evs (idle Sample.triggeredWorld) :=
    run_acts hprogress (fun _ _ _ hc => by cases hc) _ _
      (fun _ _ hc => by cases List.mem_singleton.mp hc)
  -- the one job that is queued reads its workflow
  have hqueue : Sample.triggeredWorld.queue.length = 1 := by decide +kernel
  have hreads : (Sample.triggeredWorld.queue.all fun t =>
      (((Activity.step t).body Sample.service).drive World.answer
        { Sample.triggeredWorld with
          queue := Sample.triggeredWorld.queue.erase t }).1.any isWorkflow) = true := by
    decide +kernel
  obtain ⟨t, ht⟩ := List.exists_mem_of_length_pos (hqueue ▸ Nat.one_pos)
  obtain ⟨⟨op, r⟩, hmem, hread⟩ := List.any_eq_true.mp (List.all_eq_true.mp hreads t ht)
  obtain ⟨evs₂, p, p', h₂, hs⟩ := run_activity_call (l := .step t) (w := Sample.triggeredWorld)
    hprogress (fun _ hc => by cases hc) ⟨ht, rfl⟩ hmem
  have h := h₁.trans h₂
  cases op with
  | getByID id environmentID =>
      rcases r with e | found
      · cases hread
      obtain ⟨ref, execution, stored, row, since, -, hstored, hstarted, hkept⟩ :=
        definition_kept (Sample.fresh_world _) (Sample.keysUnique_world _) h hs
      refine ⟨_, p, p', ref, execution, stored, row, since, h, hstored, hstarted,
        hkept fun e he => ?_⟩
      obtain ⟨first, j, event, rows, -, -, -, -, hevs, -⟩ := hstarted
      have hquiet := h.forall_mem (D := fun e => ∀ c, e ≠ .env c) (fun _ _ hc => hc) e
        (hevs ▸ List.mem_append_right _ (List.mem_cons_of_mem _ he))
      cases e with
      | env c => exact absurd rfl (hquiet c)
      | _ => exact True.intro
  | _ => cases hread

end Iwifunni.Workflow
