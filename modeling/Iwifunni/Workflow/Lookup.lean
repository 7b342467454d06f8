/-
Iwifunni/Workflow/Lookup.lean

Where executions come from.

A `TriggerEvent` first looks up the active workflows of its event and then
creates executions of these workflows and enqueues their first steps:

    asking -- getActiveByTriggerEvent --> chosen rows -- createExecution, ... -->

So every execution of a run can be traced back to a lookup that found its
workflow active (`lookedUp_of_create`, `created_of_run`).
-/
import Iwifunni.Workflow.Ownership

namespace Iwifunni.Workflow

open Go Db Effect Effect.Prog

/-! ### The protocol -/

/-- How far a trigger has come. -/
inductive Lookup
  | asking
  /-- The rows the lookup has found. -/
  | chosen (rows : List Db.Workflow)
  /-- The handling of a step job. -/
  | working

/-- The rows found so far. -/
def Lookup.rows : Lookup → List Db.Workflow
  | chosen rows => rows
  | _ => []

/-- Is there a row for the workflow of a new execution? -/
def Lookup.offers (σ : Lookup) (id environmentID : UUID) : Bool :=
  σ.rows.any fun row => row.id == id && row.environmentID == environmentID

/-- Is there a row for the workflow of a first job? -/
def Lookup.offersJob (σ : Lookup) (job : WorkflowStepJob) : Bool :=
  σ.rows.any fun row => row.id.toString == job.workflowID &&
    row.environmentID.toString == job.environmentID

/-- The phase of a trigger after one more call. -/
def lookupNext (σ : Lookup) : Answered Op.Res GoError → Option Lookup
  | ⟨.getActiveByTriggerEvent _ _, .ok rows⟩ => some (.chosen rows)
  | ⟨.createExecution arg, _⟩ => if σ.offers arg.workflowID arg.environmentID then some σ else none
  | ⟨.enqueueWorkflowStep job, _⟩ => if σ.offersJob job then some σ else none
  | _ => some σ

/-- The protocol of lookups; the handling of a step job may do anything.  The rows
of a lookup belong to the environment it was made for. -/
def lookup : Protocol Activity Op.Res GoError Unit Lookup where
  init
    | .step _ => .working
    | .trigger _ _ => .asking
  expects _ _
    | ⟨.getActiveByTriggerEvent environmentID _, .ok rows⟩ =>
        ∀ row ∈ rows, row.environmentID = environmentID
    | _ => True
  next
    | .step _, σ, _ => some σ
    | .trigger _ _, σ, a => lookupNext σ a
  ends _ _ _ := True

/-! ### The programs keep the protocol -/

section Keeps

variable {s : Service} {environmentID : UUID} {input : TriggerEventInput}

theorem keeps_lookup_step {β : Type} {t : Task} (p : Act β) (σ : Lookup) :
    Prog.Keeps lookup (.step t) (fun _ _ => True) p σ := by
  induction p with
  | ret a => exact Prog.keeps_ret.mpr True.intro
  | fail e => exact Prog.keeps_fail.mpr True.intro
  | call op k ih => exact Prog.keeps_call.mpr fun r _ => ⟨σ, rfl, ih r⟩

/-- Executions are created for the rows that were looked up only. -/
theorem keeps_lookup_loop {rows : List Db.Workflow} (subscriber : Option UUID) (payload : Json)
    (workflows : List Db.Workflow)
    (hrows : ∀ row ∈ workflows, row ∈ rows ∧ row.environmentID = environmentID) :
    Prog.Keeps lookup (.trigger environmentID input) (fun σ _ => σ = .chosen rows)
      (startExecutions s environmentID subscriber payload workflows) (.chosen rows) := by
  induction workflows with
  | nil => exact Prog.keeps_ret.mpr rfl
  | cons workflow rest ih =>
      obtain ⟨hmem, henv⟩ := hrows workflow (List.mem_cons_self ..)
      have hoffers : (Lookup.chosen rows).offers workflow.id environmentID = true :=
        List.any_eq_true.mpr ⟨workflow, hmem, by simp [henv]⟩
      -- the rest of the loop is the induction hypothesis
      have hrest : ∀ execution, Prog.Keeps lookup (.trigger environmentID input)
          (fun σ _ => σ = .chosen rows)
          (startExecutions s environmentID subscriber payload rest >>= fun executions =>
            ret (execution :: executions)) (.chosen rows) := by
        intro execution
        refine Prog.keeps_bind (ih fun row hrow => hrows row (List.mem_cons_of_mem _ hrow)) ?_
          fun _ _ h => h
        rintro σ executions rfl
        exact Prog.keeps_ret.mpr rfl
      unfold startExecutions
      split
      · exact Prog.keeps_fail.mpr rfl
      next nextStepID _ =>
      refine Prog.keeps_perform_bind (fun id _ => ⟨.chosen rows, rfl, ?_⟩)
        (fun e _ => ⟨.chosen rows, rfl, rfl⟩)
      refine Prog.keeps_perform_bind
        (fun execution _ => ⟨.chosen rows, if_pos hoffers, ?_⟩)
        (fun e _ => ⟨.chosen rows, if_pos hoffers, rfl⟩)
      cases nextStepID with
      | none => exact hrest execution
      | some stepID =>
          -- the job is for the row that is at hand
          have hjob : (Lookup.chosen rows).offersJob ⟨environmentID.toString,
              (WorkflowExecution.id execution).toString, workflow.id.toString, stepID⟩ = true :=
            List.any_eq_true.mpr ⟨workflow, hmem, by simp [henv]⟩
          dsimp only
          split
          · exact Prog.keeps_perform_bind
              (fun _ _ => ⟨.chosen rows, if_pos hjob, hrest execution⟩)
              (fun e _ => ⟨.chosen rows, if_pos hjob, rfl⟩)
          · exact hrest execution

/-- **Activities keep the protocol of lookups.** -/
theorem keeps_lookup (s : Service) (l : Activity) :
    Prog.Keeps lookup l (lookup.ends l) ((engine s).body l) (lookup.init l) := by
  cases l with
  | step t => exact keeps_lookup_step _ _
  | trigger environmentID input =>
      change Prog.Keeps lookup (.trigger environmentID input) (fun _ _ => True)
        (triggerEvent s environmentID input >>= fun _ => ret ()) .asking
      have hbody : Prog.Keeps lookup (.trigger environmentID input) (fun _ _ => True)
          (triggerEvent s environmentID input) .asking := by
        unfold triggerEvent
        dsimp only
        split
        · exact Prog.keeps_fail.mpr True.intro
        split
        · exact Prog.keeps_fail.mpr True.intro
        · refine Prog.keeps_perform_bind (fun rows hexp => ⟨.chosen rows, rfl, ?_⟩)
            (fun e _ => ⟨.asking, rfl, True.intro⟩)
          exact Prog.keeps_mono (fun _ _ _ => True.intro)
            (keeps_lookup_loop _ _ rows fun row hrow => ⟨hrow, hexp row hrow⟩)
      exact Prog.keeps_bind hbody (fun _ _ _ => Prog.keeps_ret.mpr True.intro) fun _ _ h => h

end Keeps

/-! ### Lookups in a run -/

section Runs

variable {s : Service} {C : EnginePool → EngineEvent → Prop} {w₀ : World} {i : ℕ}
  {evs : List EngineEvent} {rows : List Db.Workflow}

/-- The activity in a place has looked up these rows. -/
def LookedUp (s : Service) (C : EnginePool → EngineEvent → Prop) (w₀ : World)
    (evs : List EngineEvent) (i : ℕ) (rows : List Db.Workflow) : Prop :=
  ∃ pre environmentID event mid s₁,
    evs = pre ++ .call i ⟨.getActiveByTriggerEvent environmentID event, .ok rows⟩ :: mid ∧
    (∀ l, .start i l ∉ mid) ∧ Run (engine s) C (idle w₀) pre s₁ ∧
    rows = s₁.world.matching environmentID event

theorem LookedUp.concat {e : EngineEvent} (h : LookedUp s C w₀ evs i rows)
    (he : ∀ l, e ≠ .start i l) : LookedUp s C w₀ (evs ++ [e]) i rows := by
  obtain ⟨pre, environmentID, event, mid, s₁, rfl, hmid, hrun, hrows⟩ := h
  refine ⟨pre, environmentID, event, mid ++ [e], s₁, ?_, fun l hmem => ?_, hrun, hrows⟩
  · rw [List.append_assoc, List.cons_append]
  · rcases List.mem_append.mp hmem with hmem | hmem
    · exact hmid l hmem
    · exact he l (List.mem_singleton.mp hmem).symm

/-- Rows are chosen by the lookup only. -/
theorem lookupNext_chosen {σ : Lookup} {a : Answered Op.Res GoError}
    (h : lookupNext σ a = some (.chosen rows)) :
    σ = .chosen rows ∨
      ∃ environmentID event, a = ⟨.getActiveByTriggerEvent environmentID event, .ok rows⟩ := by
  obtain ⟨op, r⟩ := a
  cases op with
  | getActiveByTriggerEvent environmentID event =>
      cases r with
      | error => exact Or.inl (Option.some.inj h)
      | ok found =>
          cases h
          exact Or.inr ⟨environmentID, event, rfl⟩
  | createExecution arg => exact Or.inl (Option.some.inj (Option.ite_none_right_eq_some.mp h).2)
  | enqueueWorkflowStep job => exact Or.inl (Option.some.inj (Option.ite_none_right_eq_some.mp h).2)
  | _ => exact Or.inl (Option.some.inj h)

/-- What the calls of the engine answer is what the protocol reckons with. -/
theorem expected_lookup {p p' : EnginePool} {e : EngineEvent} (h : Step (engine s) p e p') :
    lookup.Expected (lookup.view p) e := by
  rintro i ⟨op, r⟩ l st rfl -
  cases h with
  | call _ hcall =>
      cases op with
      | getActiveByTriggerEvent environmentID event =>
          cases r with
          | error => exact True.intro
          | ok rows =>
              intro row hrow
              rw [call_getActiveByTriggerEvent hcall] at hrow
              have hmatch := (List.mem_filter.mp hrow).2
              rw [Bool.and_eq_true, Bool.and_eq_true, beq_iff_eq] at hmatch
              exact hmatch.1.1
      | _ => exact True.intro

/-- **Rows come from a lookup.** -/
theorem lookedUp_of_run {p : EnginePool} (h : Run (engine s) C (idle w₀) evs p) :
    lookup.Kept p ∧ ∀ i l rows, (lookup.view p).phases i = some (l, .chosen rows) →
      LookedUp s C w₀ evs i rows := by
  -- the run goes into the invariant: a lookup is a step of it
  suffices hall : Run (engine s) C (idle w₀) evs p ∧ lookup.Kept p ∧
      ∀ i l rows, (lookup.view p).phases i = some (l, .chosen rows) →
        LookedUp s C w₀ evs i rows from hall.2
  refine h.invariant (I := fun evs p => Run (engine s) C (idle w₀) evs p ∧ lookup.Kept p ∧
    ∀ i l rows, (lookup.view p).phases i = some (l, .chosen rows) →
      LookedUp s C w₀ evs i rows) ?_ ⟨.nil _, Protocol.kept_of_idle fun _ => rfl, ?_⟩
  swap
  · intro i l rows hi
    cases hi
  rintro evs p e p' ⟨hrun, hk, hI⟩ hc hs
  obtain ⟨hv, hk'⟩ := Protocol.view_step (keeps_lookup s) hk hs (expected_lookup hs)
  refine ⟨.snoc hrun hc hs, hk', ?_⟩
  intro j l rows hj
  generalize hv₀ : lookup.view p = v at hv hI
  generalize lookup.view p' = v' at hv hj
  cases hv with
  | @start w w' ph i l' hnone hsp =>
      rcases update_some_eq_some hj with ⟨rfl, heq⟩ | ⟨hne, hold⟩
      · cases l' <;> cases heq
      · refine (hI j l rows hold).concat fun l'' h => hne ?_
        cases h
        rfl
  | @call w w' ph i l' st st' op r hi hnext hcall =>
      rcases update_some_eq_some hj with ⟨rfl, heq⟩ | ⟨hne, hold⟩
      · cases heq
        -- the rows were there before the call, or are its answer
        have hfrom : st = .chosen rows ∨ ∃ environmentID event,
            (⟨op, r⟩ : Answered Op.Res GoError)
              = ⟨.getActiveByTriggerEvent environmentID event, .ok rows⟩ := by
          cases l with
          | step t => exact Or.inl (Option.some.inj hnext)
          | trigger environmentID input => exact lookupNext_chosen hnext
        rcases hfrom with rfl | ⟨environmentID, event, heq⟩
        · exact (hI _ _ _ hi).concat fun l'' h => by cases h
        · cases heq
          -- the call is the lookup
          refine ⟨evs, environmentID, event, [], p, rfl, (fun l'' h => by cases h), hrun, ?_⟩
          have hworld : p.world = w := congrArg View.world hv₀
          rw [hworld]
          exact call_getActiveByTriggerEvent hcall
      · exact (hI j l rows hold).concat fun l'' h => by cases h
  | finish => exact (hI j l rows (update_none_eq_some hj).2).concat fun l'' h => by cases h
  | lose => exact (hI j l rows (update_none_eq_some hj).2).concat fun l'' h => by cases h
  | env => exact (hI j l rows hj).concat fun l'' h => by cases h

/-- What the calls of the engine answer is what the handlings reckon with. -/
theorem expected_handling {p p' : EnginePool} {e : EngineEvent} (h : Step (engine s) p e p') :
    (handling s).Expected ((handling s).view p) e := by
  rintro i ⟨op, r⟩ l st rfl -
  cases h with
  | call _ hcall => exact expects_of_call hcall

/-- What the protocol allows to the handling of a job. -/
theorem stepNext_of_next {t : Task} {σ σ' : Phase} {a : Answered Op.Res GoError}
    (h : (handling s).next (.step t) σ a = some σ') :
    ∃ ref, readJob t.job = some ref ∧ stepNext ref σ a = some σ' := by
  rcases hread : readJob t.job with - | ref
  · simp only [handling, hread, Option.bind_none, reduceCtorEq] at h
  · rw [handling_next hread] at h
    exact ⟨ref, rfl, h⟩

/-- The engine keeps the protocol of handlings in every run. -/
theorem kept_handling {p : EnginePool} (h : Run (engine s) C (idle w₀) evs p) :
    (handling s).Kept p :=
  (h.view_invariant (I := fun _ _ => True) (keeps_engine s)
    (fun _ _ _ _ _ _ _ hs => expected_handling hs)
    (fun _ _ _ _ _ _ _ _ => True.intro) (Protocol.kept_of_idle fun _ => rfl) True.intro).1

/-- Jobs are owned in every run. -/
theorem ownership_of_run {p : EnginePool} (hfresh : w₀.Fresh)
    (h : Run (engine s) C (idle w₀) evs p) :
    (handling s).Kept p ∧ Ownership ((handling s).view p) :=
  h.view_invariant (I := fun _ v => Ownership v) (keeps_engine s)
    (fun _ _ _ _ _ _ _ hs => expected_handling hs)
    (fun _ _ _ _ _ hI _ hs => hI.step hs) (Protocol.kept_of_idle fun _ => rfl)
    (ownership_of_fresh hfresh)

/-- The call starts an execution, or its first step. -/
def Op.Starts : Op → Prop
  | createExecution _ | enqueueWorkflowStep _ => True
  | _ => False

/-- The call starts an execution of the workflow of a row, or its first step. -/
def Op.StartsFor (row : Db.Workflow) : Op → Prop
  | createExecution arg => row.id = arg.workflowID ∧ row.environmentID = arg.environmentID
  | enqueueWorkflowStep job =>
      row.id.toString = job.workflowID ∧ row.environmentID.toString = job.environmentID
  | _ => False

/-- **A trigger starts what its lookup has found.** -/
theorem lookedUp_of_starts {p p' : EnginePool} {t : Thread Activity Op.Res GoError Unit}
    {op : Op} {r : Except GoError op.Res} {environmentID : UUID} {input : TriggerEventInput}
    (h : Run (engine s) C (idle w₀) evs p) (hs : Step (engine s) p (.call i ⟨op, r⟩) p')
    (ht : p.threads i = some t) (hlabel : t.label = .trigger environmentID input)
    (hop : op.Starts) :
    ∃ rows, LookedUp s C w₀ evs i rows ∧ ∃ row ∈ rows, op.StartsFor row := by
  obtain ⟨hk, hI⟩ := lookedUp_of_run h
  obtain ⟨st, htrack, -⟩ := hk i t ht
  have hphase := Protocol.view_phases_of_thread ht htrack
  obtain ⟨hv, -⟩ := Protocol.view_step (keeps_lookup s) hk hs (expected_lookup hs)
  generalize lookup.view p = v at hv hI hphase
  generalize lookup.view p' = v' at hv
  cases hv with
  | @call w w' ph i l st' st'' op r hi hnext hcall =>
      rw [show ph i = _ from hphase] at hi
      cases hi
      rw [hlabel] at hnext
      -- the protocol allows it for a chosen row only
      have hoffers : ∃ row ∈ st.rows, op.StartsFor row := by
        cases op with
        | createExecution arg =>
            have hany := (Option.ite_none_right_eq_some.mp hnext).1
            obtain ⟨row, hmem, hrow⟩ := List.any_eq_true.mp hany
            rw [Bool.and_eq_true, beq_iff_eq, beq_iff_eq] at hrow
            exact ⟨row, hmem, hrow⟩
        | enqueueWorkflowStep job =>
            have hany := (Option.ite_none_right_eq_some.mp hnext).1
            obtain ⟨row, hmem, hrow⟩ := List.any_eq_true.mp hany
            rw [Bool.and_eq_true, beq_iff_eq, beq_iff_eq] at hrow
            exact ⟨row, hmem, hrow⟩
        | _ => exact hop.elim
      obtain ⟨row, hmem, hrow⟩ := hoffers
      cases st with
      | chosen rows => exact ⟨rows, hI _ _ _ hphase, row, hmem, hrow⟩
      | _ => cases hmem

/-- Only triggers create executions. -/
theorem trigger_of_create {p p' : EnginePool} {arg : CreateWorkflowExecutionParams}
    {r : Except GoError WorkflowExecution} (h : Run (engine s) C (idle w₀) evs p)
    (hs : Step (engine s) p (.call i ⟨.createExecution arg, r⟩) p') :
    ∃ t environmentID input, p.threads i = some t ∧ t.label = .trigger environmentID input := by
  have hk := kept_handling h
  cases hs with
  | @call w w' ts i l tr op k r ht hcall =>
      rcases l with task | ⟨environmentID, input⟩
      · obtain ⟨σ, -, hkeep⟩ := hk i _ ht
        obtain ⟨σ', hnext, -⟩ := Prog.keeps_call.mp hkeep r (expects_of_call hcall)
        obtain ⟨ref, -, hnext⟩ := stepNext_of_next hnext
        cases σ <;> cases hnext
      · exact ⟨_, environmentID, input, ht, rfl⟩

/-! ### Where an execution was created -/

/-- A call creates an execution, or finds it. -/
theorem executions_of_call {op : Op} {r : Except GoError op.Res} {w w' : World}
    (h : Call op w r w') {x : UUID} {row : WorkflowExecution}
    (hx : w'.executions.get x = some row) :
    (∃ row₀, w.executions.get x = some row₀ ∧ row₀.workflowID = row.workflowID ∧
      row₀.environmentID = row.environmentID) ∨
    ∃ arg : CreateWorkflowExecutionParams,
      (⟨op, r⟩ : Answered Op.Res GoError) = ⟨.createExecution arg, .ok row⟩ ∧
      row.id = x ∧ arg.workflowID = row.workflowID ∧ arg.environmentID = row.environmentID := by
  -- most calls do not write executions
  have hsame : w'.executions = w.executions → ∃ row₀, w.executions.get x = some row₀ ∧
      row₀.workflowID = row.workflowID ∧ row₀.environmentID = row.environmentID := by
    intro heq
    rw [heq] at hx
    exact ⟨row, hx, rfl, rfl⟩
  rcases r with e | a
  · rw [(call_error h).1] at hsame
    exact Or.inl (hsame rfl)
  cases op with
  | createExecution arg =>
      obtain ⟨-, hrow, rfl⟩ := call_createExecution h
      -- the new row, or one that has been there
      rcases Table.get_set_eq_some hx with ⟨rfl, rfl⟩ | ⟨-, hold⟩
      · refine Or.inr ⟨arg, rfl, rfl, ?_, ?_⟩ <;> rw [hrow] <;> rfl
      · exact Or.inl ⟨row, hold, rfl, rfl⟩
  | updateExecutionState id environmentID status stepID completedAt failedAt =>
      obtain ⟨old, hold, -, rfl, rfl⟩ := call_updateExecutionState h
      rcases Table.get_set_eq_some hx with ⟨rfl, rfl⟩ | ⟨-, hother⟩
      · exact Or.inl ⟨old, hold, rfl, rfl⟩
      · exact Or.inl ⟨row, hother, rfl, rfl⟩
  | createStepExecution arg =>
      obtain ⟨-, -, rfl⟩ := call_createStepExecution h
      exact Or.inl (hsame rfl)
  | updateStepExecutionState arg =>
      obtain ⟨-, -, -, rfl⟩ := call_updateStepExecutionState h
      exact Or.inl (hsame rfl)
  | enqueue job =>
      rw [call_enqueue h] at hsame
      exact Or.inl (hsame rfl)
  | enqueueWorkflowStep job =>
      obtain ⟨-, rfl⟩ := call_enqueueWorkflowStep h
      exact Or.inl (hsame rfl)
  | enqueueWorkflowStepIn job delay =>
      obtain ⟨-, rfl⟩ := call_enqueueWorkflowStepIn h
      exact Or.inl (hsame rfl)
  | _ =>
      rw [call_reads h True.intro] at hsame
      exact Or.inl (hsame rfl)

theorem closeTask_executions (maxRetry : ℕ) (w : World) (t : Task) (out : Except GoError Unit) :
    (w.closeTask maxRetry t out).executions = w.executions := by
  rcases closeTask_queue maxRetry w t out with heq | ⟨heq, -, -⟩ <;> rw [heq]

/-- Apart from calls, no step touches the executions. -/
theorem executions_of_step {p p' : EnginePool} {e : EngineEvent} (h : Step (engine s) p e p') :
    p'.world.executions = p.world.executions ∨
      ∃ i op r, e = .call i ⟨op, r⟩ ∧ Call op p.world r p'.world := by
  cases h with
  | @start w w' ts i l _ hsp =>
      cases l with
      | step t =>
          obtain ⟨-, rfl⟩ := hsp
          exact Or.inl rfl
      | trigger environmentID input =>
          cases hsp
          exact Or.inl rfl
  | call _ hcall => exact Or.inr ⟨_, _, _, rfl, hcall⟩
  | @finish w w' ts i l tr out _ hc =>
      cases l with
      | step t =>
          cases hc
          exact Or.inl (closeTask_executions ..)
      | trigger environmentID input =>
          cases hc
          exact Or.inl rfl
  | @lose w w' ts i t _ hl =>
      rcases t with ⟨_ | _, _, _⟩ <;> cases hl <;> exact Or.inl rfl
  | @env w w' ts c he =>
      cases he
      exact Or.inl (c.apply_frame w).1

/-- The execution was created by a call of the run. -/
def CreatedIn (evs : List EngineEvent) (row : WorkflowExecution) : Prop :=
  ∃ pre i arg created post, evs = pre ++ .call i ⟨.createExecution arg, .ok created⟩ :: post ∧
    WorkflowExecution.id created = row.id ∧ arg.workflowID = row.workflowID ∧
    arg.environmentID = row.environmentID

/-- **Every execution was created in the run**, for the workflow it still has. -/
theorem created_of_run {p : EnginePool} (hfresh : w₀.Fresh)
    (h : Run (engine s) C (idle w₀) evs p) {x : UUID} {row : WorkflowExecution}
    (hx : p.world.executions.get x = some row) : CreatedIn evs row := by
  refine h.invariant (I := fun evs p => ∀ x row, p.world.executions.get x = some row →
    CreatedIn evs row) ?_ ?_ x row hx
  · intro evs p e p' hI _ hs x row hx
    have hold : ∀ {row₀ : WorkflowExecution}, p.world.executions.get x = some row₀ →
        row₀.workflowID = row.workflowID → row₀.environmentID = row.environmentID →
        CreatedIn (evs ++ [e]) row := by
      intro row₀ hx₀ hwf henv
      obtain ⟨pre, i, arg, created, post, rfl, hid, hwf₀, henv₀⟩ := hI x row₀ hx₀
      refine ⟨pre, i, arg, created, post ++ [e], ?_, ?_, hwf₀.trans hwf, henv₀.trans henv⟩
      · rw [List.append_assoc, List.cons_append]
      · rw [hid, p.world.executions.keyed hx₀, p'.world.executions.keyed hx]
    rcases executions_of_step hs with heq | ⟨i, op, r, rfl, hcall⟩
    · rw [heq] at hx
      exact hold hx rfl rfl
    · rcases executions_of_call hcall hx with ⟨row₀, hx₀, hwf, henv⟩ | ⟨arg, heq, hid, hwf, henv⟩
      · exact hold hx₀ hwf henv
      · cases heq
        exact ⟨evs, i, arg, row, [], rfl, rfl, hwf, henv⟩
  · intro x row hx
    rw [show (idle w₀).world.executions.get x = _ from hfresh.executions x] at hx
    cases hx

end Runs

end Iwifunni.Workflow
