/-
Iwifunni/Workflow/Constraints.lean

The step rows the engine writes, against the constraints of their table.

`workflow_step_executions` declares its three JSON columns NOT NULL with a
default, but the engine always names all columns, and a nil `[]byte` is an
explicit NULL.  The first write of every attempt leaves `error_json` nil: a new
row is created without output and error, an old one is put back to 'running'
without error.  So no path of `ProcessStep` that gets as far as the step row is
accepted (`writesAccepted_iff`), whatever the definition is.
-/
import Iwifunni.Workflow.Moves
import Iwifunni.Workflow.Sequential

namespace Iwifunni.Workflow

open Go Db Effect Effect.Prog

/-! ### The table -/

/-- What a statement gives to the constrained columns of
`workflow_step_executions`; `none` is NULL. -/
structure StepColumns where
  status : Status
  attempts : Int32
  inputJson : Option Json
  outputJson : Option Json
  errorJson : Option Json

/-- `workflow_step_executions_status_check`. -/
def allowedStatuses : List Status := [.queued, .running, .retrying, .completed, .failed]

/-- The constraints of the table. -/
def StepColumns.Accepted (c : StepColumns) : Prop :=
  c.inputJson.isSome ∧ c.outputJson.isSome ∧ c.errorJson.isSome ∧
    c.status ∈ allowedStatuses ∧ 0 ≤ c.attempts

instance (c : StepColumns) : Decidable c.Accepted := by
  unfold StepColumns.Accepted
  infer_instance

/-- The columns a call writes: `CreateWorkflowStepExecution` and
`UpdateWorkflowStepExecutionState` pass every parameter on. -/
def Op.stepColumns : Op → Option StepColumns
  | createStepExecution arg =>
      some ⟨arg.status, arg.attempts, arg.inputJson, arg.outputJson, arg.errorJson⟩
  | updateStepExecutionState arg =>
      some ⟨arg.status, arg.attempts, arg.inputJson, arg.outputJson, arg.errorJson⟩
  | _ => none

/-- All step rows written on a path are accepted. -/
def WritesAccepted (tr : List (Answered Op.Res GoError)) : Prop :=
  ∀ a ∈ tr, ∀ c ∈ a.1.stepColumns, c.Accepted

instance (tr : List (Answered Op.Res GoError)) : Decidable (WritesAccepted tr) := by
  unfold WritesAccepted
  infer_instance

theorem not_accepted_of_error {c : StepColumns} (h : c.errorJson = none) : ¬ c.Accepted := by
  rintro ⟨-, -, herror, -⟩
  rw [h] at herror
  cases herror

/-! ### The first write of an attempt -/

variable {s : Service} {job : WorkflowStepJob} {execution : WorkflowExecution} {node : Node}
  {tr : List (Answered Op.Res GoError)}

/-- The reads of `ProcessStep` succeed as far as the step row: the job can be read,
the execution, the workflow and its node are found, and the step row is there or
is known not to be. -/
def ReachesStepRow (job : WorkflowStepJob) (tr : List (Answered Op.Res GoError)) : Prop :=
  ∃ ref execution workflow definition node ts row rest, readJob job = some ref ∧
    tr = ⟨.getExecutionByID ref.executionID ref.environmentID, .ok execution⟩ ::
      ⟨.getByID ref.workflowID ref.environmentID, .ok workflow⟩ :: ⟨.now, .ok ts⟩ ::
      ⟨.getStepExecution execution.id node.id, row⟩ :: rest ∧
    locate workflow ref.stepID = .ok (definition, node) ∧
    ∀ e, row = .error e → e = .noRows

/-- Opening a step row either stops at reading it or writes NULL. -/
theorem path_openStep {out} (h : Path (openStep execution node) tr out)
    (hans : ∀ a ∈ tr, Expects a) :
    ∃ ts row rest, tr = ⟨.now, .ok ts⟩ :: ⟨.getStepExecution execution.id node.id, row⟩ :: rest ∧
      ((∃ e, row = .error e ∧ e ≠ .noRows ∧ rest = [] ∧ out = .error e) ∨
        (∀ e, row = .error e → e = .noRows) ∧
          ∃ a ∈ rest, ∃ c, a.1.stepColumns = some c ∧ ¬ c.Accepted) := by
  unfold openStep at h
  rcases path_perform_bind h with ⟨e, rfl, -⟩ | ⟨ts, tr₁, rfl, h₁⟩
  · exact (hans _ (List.mem_cons_self ..)).1.elim
  obtain ⟨row, tr₂, rfl, h₂⟩ := path_ask_bind h₁
  refine ⟨ts, row, tr₂, rfl, ?_⟩
  rcases row with e | stepExecution
  · by_cases he : e = .noRows
    · subst he
      refine Or.inr ⟨fun e he => (Except.error.inj he).symm, ?_⟩
      rcases path_perform_bind h₂ with ⟨e, rfl, -⟩ | ⟨id, tr₃, rfl, h₃⟩
      · have hid := hans ⟨.newUUID, .error e⟩ (by simp)
        exact hid.1.elim
      · rw [path_perform h₃]
        exact ⟨⟨.createStepExecution (createdStep execution node ts id), out⟩, by simp, _, rfl,
          not_accepted_of_error rfl⟩
    · have hfail : Path (fail e : Act WorkflowStepExecution) tr₂ out := by
        cases e with
        | noRows => exact absurd rfl he
        | _ => exact h₂
      obtain ⟨rfl, rfl⟩ := path_fail hfail
      exact Or.inl ⟨e, rfl, he, rfl, rfl⟩
  · refine Or.inr ⟨by rintro e ⟨⟩, ?_⟩
    rw [path_perform h₂]
    exact ⟨⟨.updateStepExecutionState (retriedStep execution node stepExecution ts), out⟩,
      by simp, _, rfl, not_accepted_of_error rfl⟩

/-- The error the step row could not be read with. -/
def stepRowError : List (Answered Op.Res GoError) → Option GoError
  | _ :: _ :: _ :: ⟨.getStepExecution _ _, .error e⟩ :: _ => some e
  | _ => none

/-- **The writes of `ProcessStep` are accepted exactly on the paths that give up
before the step row.** -/
theorem writesAccepted_iff {out} (h : Path (processStep s job) tr out)
    (hans : ∀ a ∈ tr, Expects a) : WritesAccepted tr ↔ ¬ ReachesStepRow job tr := by
  -- a path either writes no step row and stops early, or writes a rejected one
  have hcases : (∀ a ∈ tr, a.1.stepColumns = none) ∧ ¬ ReachesStepRow job tr ∨
      (∃ a ∈ tr, ∃ c, a.1.stepColumns = some c ∧ ¬ c.Accepted) ∧ ReachesStepRow job tr := by
    unfold processStep at h
    rcases hread : readJob job with - | ref
    · rw [hread] at h
      obtain ⟨rfl, -⟩ := path_fail h
      refine Or.inl ⟨by simp, ?_⟩
      rintro ⟨ref, _, _, _, _, _, _, _, hread', -⟩
      rw [hread] at hread'
      cases hread'
    rw [hread] at h
    rcases path_perform_bind h with ⟨e, rfl, -⟩ | ⟨execution, tr₁, rfl, h₁⟩
    · refine Or.inl ⟨by simp [Op.stepColumns], ?_⟩
      rintro ⟨ref, _, _, _, _, _, _, _, -, htr, -⟩
      exact absurd (congrArg List.length htr) (by simp)
    rcases path_perform_bind h₁ with ⟨e, rfl, -⟩ | ⟨workflow, tr₂, rfl, h₂⟩
    · refine Or.inl ⟨by simp [Op.stepColumns], ?_⟩
      rintro ⟨ref, _, _, _, _, _, _, _, -, htr, -⟩
      exact absurd (congrArg List.length htr) (by simp)
    rcases hl : locate workflow ref.stepID with e | ⟨definition, node⟩
    · rw [hl] at h₂
      obtain ⟨rfl, -⟩ := path_fail h₂
      refine Or.inl ⟨by simp [Op.stepColumns], ?_⟩
      rintro ⟨ref, _, _, _, _, _, _, _, -, htr, -⟩
      exact absurd (congrArg List.length htr) (by simp)
    rw [hl] at h₂
    have hopen : ∃ tr₃ tr₄ o, tr₂ = tr₃ ++ tr₄ ∧ Path (openStep execution node) tr₃ o ∧
        ((∃ e, o = .error e) → tr₄ = []) := by
      rcases h₂.bind_inv with ⟨e, hp, -⟩ | ⟨row, tr₃, tr₄, rfl, hp, -⟩
      · exact ⟨tr₂, [], _, (List.append_nil _).symm, hp, fun _ => rfl⟩
      · exact ⟨tr₃, tr₄, _, rfl, hp, by rintro ⟨e, ⟨⟩⟩⟩
    obtain ⟨tr₃, tr₄, o, rfl, hp, hrest⟩ := hopen
    obtain ⟨ts, row, rest, rfl, hcase⟩ :=
      path_openStep hp fun a ha => hans a (by simp [ha])
    rcases hcase with ⟨e, rfl, he, rfl, rfl⟩ | ⟨hrow, a, ha, c, hc, hrejected⟩
    · rw [hrest ⟨e, rfl⟩]
      refine Or.inl ⟨by simp [Op.stepColumns], ?_⟩
      rintro ⟨ref', execution', workflow', definition', node', ts', row', rest', -, htr, -, hrow⟩
      have hread := congrArg stepRowError htr
      rcases row' with e' | row'
      · exact he ((Option.some.inj hread).trans (hrow e' rfl))
      · cases hread
    · refine Or.inr ⟨⟨a, by simp [ha], c, hc, hrejected⟩, ref, execution, workflow, definition,
        node, ts, row, rest ++ tr₄, hread, rfl, hl, hrow⟩
  rcases hcases with ⟨hnone, hstop⟩ | ⟨⟨a, ha, c, hc, hrejected⟩, hreach⟩
  · refine ⟨fun _ => hstop, fun _ a ha c hc => ?_⟩
    rw [hnone a ha] at hc
    cases hc
  · exact ⟨fun hall => absurd (hall a ha c hc) hrejected, fun hstop => absurd hreach hstop⟩

/-! ### A trigger node -/

/-- A workflow of one trigger node, which has no config. -/
def lone : Definition where
  trigger := ⟨"user.signup"⟩
  nodes := [Sample.start "root"]
  edgeSlice := some []

/-- The calls of `ProcessStep` for its node, on a repository without constraints. -/
def loneTrace : List (Answered Op.Res GoError) :=
  ((processStep Sample.service (Sample.job "root")).drive World.answer
    ((Sample.world lone).trigger Sample.service Sample.environmentID Sample.event)).1

theorem expects_of_mem_drive {p : Act Unit} {w : World} {a : Answered Op.Res GoError}
    (h : a ∈ (p.drive World.answer w).1) : Expects a := by
  obtain ⟨w', hw'⟩ := Prog.mem_drive h
  have hcall := Call.answer a.1 w'
  rw [← hw'] at hcall
  exact expects_of_call hcall

theorem writesAccepted_iff_lone :
    WritesAccepted loneTrace ↔ ¬ ReachesStepRow (Sample.job "root") loneTrace :=
  writesAccepted_iff (path_drive ..) fun _ ha => expects_of_mem_drive ha

/-- The row created for it has no input, no output and no error. -/
theorem rejected_step_row :
    validateDefinition lone = .ok () ∧
    ∃ tr out, Path (processStep Sample.service (Sample.job "root")) tr out ∧
      (∀ a ∈ tr, Expects a) ∧ ¬ WritesAccepted tr :=
  ⟨by rfl, loneTrace, _, path_drive .., fun _ ha => expects_of_mem_drive ha, by decide +kernel⟩

end Iwifunni.Workflow
