/-
Iwifunni/Workflow/Pausing.lean

What pausing a workflow does.

The status is looked at once, by the query for the active workflows of an event.
So a paused workflow is not triggered any more, and the executions that have
been started go on to their end:

    TriggerEvent   status = 'active' when the event is looked up
    ProcessStep    the definition is read, the status is not
-/
import Iwifunni.Workflow.Footprint
import Iwifunni.Workflow.Lookup
import Iwifunni.Workflow.Sequential

namespace Iwifunni.Workflow

open Go Db Effect Effect.Prog

/-! ### Steps do not look at the status -/

/-- The same answer, with another status in the workflow that has been read. -/
def withStatus (status : WorkflowStatus) : Answered Op.Res GoError → Answered Op.Res GoError
  | ⟨.getByID id environmentID, .ok row⟩ =>
      ⟨.getByID id environmentID, .ok { row with status := status }⟩
  | a => a

theorem withStatus_of_unread {status : WorkflowStatus} {a : Answered Op.Res GoError}
    (h : a.1.Unread) : withStatus status a = a := by
  obtain ⟨op, r⟩ := a
  cases op <;> first | rfl | exact h.elim

theorem map_withStatus {status : WorkflowStatus} {α : Type} {p : Act α} {tr out}
    (hp : Calls Op.Unread p) (h : Path p tr out) : tr.map (withStatus status) = tr := by
  refine (List.map_congr_left fun a ha => ?_).trans (List.map_id tr)
  exact withStatus_of_unread (hp.of_mem_path h ha)

/-- **The handling of a step does not depend on the status of its workflow.** -/
theorem path_processStep_withStatus (status : WorkflowStatus) {s : Service}
    {job : WorkflowStepJob} {tr out} (h : Path (processStep s job) tr out) :
    Path (processStep s job) (tr.map (withStatus status)) out := by
  rcases hread : readJob job with - | ref
  · rw [processStep, hread] at h ⊢
    obtain ⟨rfl, rfl⟩ := path_fail h
    exact .fail _
  rw [processStep_of_readJob s hread] at h ⊢
  rcases path_perform_bind h with ⟨e, rfl, rfl⟩ | ⟨execution, tr₁, rfl, h₁⟩
  · exact .call _ (.fail e)
  refine .call (.ok execution) ?_
  rcases path_perform_bind h₁ with ⟨e, rfl, rfl⟩ | ⟨workflow, tr₂, rfl, h₂⟩
  · exact .call _ (.fail e)
  have hrest : Path (handleLocated s ref execution
      (locate { workflow with status := status } ref.stepID)) (tr₂.map (withStatus status)) out := by
    rw [map_withStatus (calls_handleLocated_unread ..) h₂]
    exact h₂
  exact .call (show Except GoError (Op.getByID ref.workflowID ref.environmentID).Res from
    .ok { (workflow : Db.Workflow) with status := status }) hrest

/-! ### Triggers do -/

/-- The workflow was active when the activity in a place looked it up. -/
def ActiveAtLookup (s : Service) (C : EnginePool → EngineEvent → Prop) (w₀ : World)
    (evs : List EngineEvent) (i : ℕ) (id environmentID : UUID) : Prop :=
  ∃ pre event rows mid p row,
    evs = pre ++ .call i ⟨.getActiveByTriggerEvent environmentID event, .ok rows⟩ :: mid ∧
    (∀ l, .start i l ∉ mid) ∧ Run (engine s) C (idle w₀) pre p ∧
    row ∈ p.world.workflows ∧ row.id = id ∧ row.environmentID = environmentID ∧
    row.status = .active

variable {s : Service} {C : EnginePool → EngineEvent → Prop} {w₀ : World}
  {evs : List EngineEvent} {p : EnginePool}

/-- **Executions are started of active workflows only, and go on whatever happens to the
status.**  Every creation of an execution is preceded by a lookup of its trigger that
found the workflow active; and a step is handled in the same way, with the same calls
and the same end, whatever status is read. -/
theorem started_when_active (h : Run (engine s) C (idle w₀) evs p) :
    (∀ pre i arg r post, evs = pre ++ .call i ⟨.createExecution arg, r⟩ :: post →
      ActiveAtLookup s C w₀ pre i arg.workflowID arg.environmentID) ∧
    ∀ status job tr out, Path (processStep s job) tr out →
      Path (processStep s job) (tr.map (withStatus status)) out := by
  refine ⟨fun pre i arg r post hevs => ?_, fun status job tr out =>
    path_processStep_withStatus status⟩
  rw [hevs] at h
  obtain ⟨p₁, p₂, hpre, -, hstep, -⟩ := h.split
  obtain ⟨t, environmentID, input, ht, hlabel⟩ := trigger_of_create hpre hstep
  obtain ⟨rows, ⟨first, environmentID', event, mid, p₀, rfl, hmid, hfirst, hrows⟩, row, hrow,
    hid, henv⟩ := lookedUp_of_starts hpre hstep ht hlabel True.intro
  rw [hrows, World.matching, List.mem_filter, Bool.and_eq_true, Bool.and_eq_true, beq_iff_eq,
    beq_iff_eq, beq_iff_eq] at hrow
  obtain ⟨hmem, ⟨henv', -⟩, hactive⟩ := hrow
  rw [henv] at henv'
  rw [henv']
  exact ⟨first, event, rows, mid, p₀, row, rfl, hmid, hfirst, hmem, hid, henv.trans henv',
    hactive⟩

/-! ### An execution that goes on -/

namespace Sample

/-- A workflow is triggered and then paused. -/
def pausedWorld : World :=
  (world single).acts service [.trigger environmentID event,
    .change (.setStatus workflowID environmentID .paused)]

/-- Its first job is handled. -/
def handledWorld : World := pausedWorld.acts service [.handle 0]

end Sample

/-- Nothing is changed from outside. -/
def unchanged : EnginePool → EngineEvent → Prop := fun _ e => ∀ c, e ≠ .env c

/-- The job of a paused workflow is handled, and a notification is enqueued. -/
theorem notified_while_paused :
    ∃ evs₁ evs₂,
      Run (engine Sample.service) (fun _ _ => True) (idle (Sample.world Sample.single)) evs₁
        (idle Sample.pausedWorld) ∧
      Run (engine Sample.service) unchanged (idle Sample.pausedWorld) evs₂
        (idle Sample.handledWorld) ∧
      (∀ row ∈ Sample.pausedWorld.workflows, row.status = .paused) ∧
      Sample.pausedWorld.notifications = [] ∧ Sample.handledWorld.notifications ≠ [] := by
  have hpaused : (Sample.pausedWorld.workflows.all fun row => row.status == .paused) = true := by
    decide +kernel
  have hnone : Sample.pausedWorld.notifications.length = 0 := by decide +kernel
  have hsent : Sample.handledWorld.notifications.length = 1 := by decide +kernel
  obtain ⟨evs₁, h₁⟩ := run_acts (s := Sample.service) (C := fun _ _ => True)
    (fun _ _ _ => True.intro) (fun _ _ => True.intro) (Sample.world Sample.single)
    [.trigger Sample.environmentID Sample.event,
      .change (.setStatus Sample.workflowID Sample.environmentID .paused)]
    (fun _ _ _ => True.intro)
  obtain ⟨evs₂, h₂⟩ := run_acts (s := Sample.service) (C := unchanged)
    (fun p e he c hc => by
      rw [hc] at he
      exact he)
    (fun _ _ _ hc => by cases hc) Sample.pausedWorld [.handle 0]
    (fun _ _ hc => by cases List.mem_singleton.mp hc)
  refine ⟨evs₁, evs₂, h₁, h₂, fun row hrow => ?_, List.length_eq_zero_iff.mp hnone, ?_⟩
  · exact beq_iff_eq.mp (List.all_eq_true.mp hpaused row hrow)
  · intro h
    rw [h] at hsent
    cases hsent

/-- The sample workflow is triggered: its execution is created of an active workflow. -/
theorem started_when_active_single :
    ∃ evs, ∀ pre i arg r post, evs = pre ++ .call i ⟨.createExecution arg, r⟩ :: post →
      ActiveAtLookup Sample.service (fun _ _ => True) (Sample.world Sample.single) pre i
        arg.workflowID arg.environmentID := by
  obtain ⟨evs, h⟩ := run_acts (s := Sample.service) (C := fun _ _ => True)
    (fun _ _ _ => True.intro) (fun _ _ => True.intro) (Sample.world Sample.single)
    [.trigger Sample.environmentID Sample.event] (fun _ _ _ => True.intro)
  exact ⟨evs, (started_when_active h).1⟩

end Iwifunni.Workflow
