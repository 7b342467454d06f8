/-
Iwifunni/Workflow/AllOrNothing.lean

What a call of `TriggerEvent` leaves behind.

The loop over the workflows creates an execution and hands its first step to the
queue, one workflow after the other, and returns at the first error:

    create e₁   enqueue e₁   create e₂   enqueue e₂ ✗   →   error

Nothing is taken back, so an error is harmless only as long as no execution has
been created (`allOrNothing_iff`).
-/
import Iwifunni.Workflow.Sequential

namespace Iwifunni.Workflow

open Go Db Effect Effect.Prog

variable {s : Service} {environmentID : UUID} {subscriber : Option UUID} {payload : Json}
  {workflows : List Db.Workflow} {w w' : World} {tr : List (Answered Op.Res GoError)}

/-! ### All, or nothing -/

/-- The execution starts the workflow at its first step. -/
structure Starts (environmentID : UUID) (workflow : Db.Workflow)
    (execution : WorkflowExecution) : Prop where
  ofWorkflow : execution.workflowID = workflow.id
  inEnvironment : execution.environmentID = environmentID
  first : firstStepID workflow.definitionJson = .ok execution.currentStepID

/-- The task is the job for the first step of the execution. -/
def FirstTask (execution : WorkflowExecution) (task : Task) : Prop :=
  ∃ stepID, execution.currentStepID = some stepID ∧
    task = { job := stepJob execution stepID }

/-- The executions are new rows of the table. -/
structure Added (executions : List WorkflowExecution) (w w' : World) : Prop where
  fresh : ∀ execution ∈ executions, w.executions.get execution.id = none
  distinct : (executions.map (·.id)).Nodup
  rows : w'.executions = executions.foldl Table.set w.executions

/-- One execution for every workflow, and one job for every execution. -/
structure OneEach (environmentID : UUID) (workflows : List Db.Workflow)
    (executions : List WorkflowExecution) (w w' : World) : Prop where
  starts : List.Forall₂ (Starts environmentID) workflows executions
  added : Added executions w w'
  tasks : ∃ tasks, w'.queue = w.queue ++ tasks ∧ List.Forall₂ FirstTask executions tasks

/-- An error leaves no execution and no job behind; otherwise all workflows have
been started. -/
def AllOrNothing (environmentID : UUID) (workflows : List Db.Workflow) (w w' : World) :
    Except GoError (List WorkflowExecution) → Prop
  | .error _ => w'.executions = w.executions ∧ w'.queue = w.queue
  | .ok executions => OneEach environmentID workflows executions w w'

/-- Once an execution has been created, no call fails any more, there is a producer,
and every workflow has a first step. -/
def Unbroken (s : Service) (workflows : List Db.Workflow)
    (tr : List (Answered Op.Res GoError)) : Prop :=
  ∀ pre post arg row, tr = pre ++ ⟨.createExecution arg, .ok row⟩ :: post →
    (∀ a ∈ post, ∃ r, a.2 = .ok r) ∧ s.producer = true ∧
      ∀ workflow ∈ workflows, ∃ stepID, firstStepID workflow.definitionJson = .ok (some stepID)

/-! ### One turn of the loop -/

/-- What the loop hands to the queue for an execution. -/
def firstTasks (s : Service) (execution : WorkflowExecution) : List Task :=
  match execution.currentStepID with
  | some stepID => if s.producer then [{ job := stepJob execution stepID }] else []
  | none => []

/-- The enqueueing in the middle of the loop. -/
def enqueueFirst (s : Service) (execution : WorkflowExecution) : Act Unit :=
  match execution.currentStepID with
  | some stepID =>
      if s.producer then perform (Op.enqueueWorkflowStep (stepJob execution stepID)) else ret ()
  | none => ret ()

/-- Some execution has been created. -/
def Creates (tr : List (Answered Op.Res GoError)) : Prop :=
  ∃ arg row, ⟨.createExecution arg, .ok row⟩ ∈ tr

/-- All calls have been answered without an error. -/
def Smooth (tr : List (Answered Op.Res GoError)) : Prop := ∀ a ∈ tr, ∃ r, a.2 = .ok r

/-- The error is that of an unreadable definition or of the last call. -/
def Refused (workflows : List Db.Workflow) (tr : List (Answered Op.Res GoError)) (e : GoError) :
    Prop :=
  (∃ workflow ∈ workflows, firstStepID workflow.definitionJson = .error e) ∨
    ∃ pre op, tr = pre ++ [⟨op, .error e⟩]

theorem Refused.append {pre tr : List (Answered Op.Res GoError)} {e : GoError}
    (h : Refused workflows tr e) : Refused workflows (pre ++ tr) e := by
  rcases h with h | ⟨pre', op, rfl⟩
  · exact Or.inl h
  · exact Or.inr ⟨pre ++ pre', op, (List.append_assoc ..).symm⟩

theorem Smooth.append {tr₁ tr₂ : List (Answered Op.Res GoError)} (h₁ : Smooth tr₁)
    (h₂ : Smooth tr₂) : Smooth (tr₁ ++ tr₂) := by
  intro a ha
  rcases List.mem_append.mp ha with ha | ha
  · exact h₁ a ha
  · exact h₂ a ha

/-- The first job is refused, or it is in the queue. -/
theorem enqueueFirst_run {execution : WorkflowExecution} {β : Type} {f : Unit → Act β} {out}
    (h : Runs Call (enqueueFirst s execution >>= f) w tr (ofExcept out) w') :
    (∃ op e, tr = [⟨op, .error e⟩] ∧ out = .error e) ∨
    ∃ tr₁ tr₂, tr = tr₁ ++ tr₂ ∧ Smooth tr₁ ∧
      Runs Call (f ()) { w with queue := w.queue ++ firstTasks s execution } tr₂
        (ofExcept out) w' := by
  -- without a first step or a producer nothing is enqueued
  have hnone : firstTasks s execution = [] → enqueueFirst s execution = ret () →
      ∃ tr₁ tr₂, tr = tr₁ ++ tr₂ ∧ Smooth tr₁ ∧
        Runs Call (f ()) { w with queue := w.queue ++ firstTasks s execution } tr₂
          (ofExcept out) w' := by
    intro htasks hret
    rw [hret, ret_bind] at h
    rw [htasks, List.append_nil]
    exact ⟨[], tr, rfl, (fun a ha => by cases ha), h⟩
  rcases hstep : execution.currentStepID with - | stepID
  · exact Or.inr (hnone (by rw [firstTasks, hstep]) (by rw [enqueueFirst, hstep]))
  by_cases hp : s.producer
  · have hprog : enqueueFirst s execution
        = perform (Op.enqueueWorkflowStep (stepJob execution stepID)) := by
      rw [enqueueFirst, hstep]
      exact if_pos hp
    have htasks : firstTasks s execution = [{ job := stepJob execution stepID }] := by
      rw [firstTasks, hstep]
      exact if_pos hp
    rw [hprog] at h
    rcases runs_perform_bind h with ⟨e, rfl, -, rfl⟩ | ⟨a, w₁, tr₂, rfl, hcall, hrest⟩
    · exact Or.inl ⟨_, e, rfl, rfl⟩
    · obtain ⟨-, rfl⟩ := call_enqueueWorkflowStep hcall
      rw [htasks]
      refine Or.inr ⟨[_], tr₂, rfl, ?_, hrest⟩
      intro b hb
      cases List.mem_singleton.mp hb
      exact ⟨a, rfl⟩
  · refine Or.inr (hnone ?_ ?_)
    · rw [firstTasks, hstep]
      exact if_neg hp
    · rw [enqueueFirst, hstep]
      exact if_neg hp

/-- **One turn of the loop.**  Either nothing has been created and it ends there, or
there is an execution, whose job is refused or queued before the next turn. -/
theorem startExecutions_cons_run {workflow : Db.Workflow} {o}
    (h : Runs Call (startExecutions s environmentID subscriber payload (workflow :: workflows))
      w tr (ofExcept o) w') :
    (w' = w ∧ ¬ Creates tr ∧ ∃ e, o = .error e ∧ Refused (workflow :: workflows) tr e) ∨
    ∃ execution pre tr₁, Starts environmentID workflow execution ∧
      w.executions.get execution.id = none ∧ Creates pre ∧ Smooth pre ∧ tr = pre ++ tr₁ ∧
      ((∃ op e, tr₁ = [⟨op, .error e⟩] ∧ o = .error e) ∨
        ∃ tr₂ tr₃ o', tr₁ = tr₂ ++ tr₃ ∧ Smooth tr₂ ∧ o = o'.map (execution :: ·) ∧
          Runs Call (startExecutions s environmentID subscriber payload workflows)
            { w with
              executions := w.executions.set execution
              queue := w.queue ++ firstTasks s execution } tr₃ (ofExcept o') w') := by
  rw [startExecutions] at h
  rcases hfirst : firstStepID workflow.definitionJson with e | nextStepID
  · rw [hfirst] at h
    obtain ⟨rfl, hout, rfl⟩ := runs_fail h
    refine Or.inl ⟨rfl, ?_, e, ofExcept_injective hout, Or.inl ⟨workflow, ?_, hfirst⟩⟩
    · rintro ⟨arg, row, hmem⟩
      cases hmem
    · exact List.mem_cons_self ..
  rw [hfirst] at h
  rcases runs_perform_bind h with ⟨e, rfl, hcall, -⟩ | ⟨id, w₁, tr', rfl, hcall, h⟩
  · exact (call_error hcall).2.1.elim
  cases call_reads hcall True.intro
  rcases runs_perform_bind h with ⟨e, rfl, hcall, rfl⟩ | ⟨execution, w₁, tr₁, rfl, hcall, h⟩
  · refine Or.inl ⟨(call_error hcall).1, ?_, e, rfl, Or.inr ⟨[_], _, rfl⟩⟩
    rintro ⟨arg, row, hmem⟩
    rcases List.mem_cons.mp hmem with hmem | hmem
    · cases hmem
    · cases List.mem_singleton.mp hmem
  obtain ⟨hnone, hrow, rfl⟩ := call_createExecution hcall
  have hjob : ∀ stepID, (perform (Op.enqueueWorkflowStep (stepJob execution stepID)) : Act Unit)
      = perform (Op.enqueueWorkflowStep ⟨environmentID.toString, execution.id.toString,
          workflow.id.toString, stepID⟩) := by
    rw [hrow]
    exact fun _ => rfl
  have hstarts : Starts environmentID workflow execution := by
    rw [hrow]
    exact ⟨rfl, rfl, hfirst⟩
  have hid : w.executions.get execution.id = none := by
    rw [hrow]
    exact hnone
  -- the rest of the turn, in terms of the row that has been created
  have h : Runs Call (enqueueFirst s execution >>= fun _ =>
      startExecutions s environmentID subscriber payload workflows >>= fun executions =>
        ret (execution :: executions)) { w with executions := w.executions.set execution } tr₁
      (ofExcept o) w' := by
    have hnext : execution.currentStepID = nextStepID := by
      rw [hrow]
      rfl
    rw [enqueueFirst, hnext]
    cases nextStepID with
    | none => exact h
    | some stepID =>
        by_cases hp : s.producer
        · simp only [hp, if_true, hjob] at h ⊢
          exact h
        · simp only [hp] at h ⊢
          exact h
  refine Or.inr ⟨execution, [_, _], tr₁, hstarts, hid, ⟨_, execution, ?_⟩, ?_, rfl, ?_⟩
  · exact List.mem_cons_of_mem _ (List.mem_cons_self ..)
  · intro a ha
    rcases List.mem_cons.mp ha with rfl | ha
    · exact ⟨_, rfl⟩
    · cases List.mem_singleton.mp ha
      exact ⟨_, rfl⟩
  rcases enqueueFirst_run h with hrefused | ⟨tr₂, tr₃, rfl, hsmooth, hrest⟩
  · exact Or.inl hrefused
  rcases runs_bind hrest with ⟨e, hturns, rfl⟩ | ⟨executions, w₁, tr₄, tr₅, rfl, hturns, hret⟩
  · exact Or.inr ⟨tr₂, tr₃, .error e, rfl, hsmooth, rfl, hturns⟩
  · obtain ⟨rfl, hout, rfl⟩ := runs_ret hret
    refine Or.inr ⟨tr₂, tr₄, .ok executions, ?_, hsmooth, ofExcept_injective hout, hturns⟩
    rw [List.append_nil]

/-! ### The whole loop -/

/-- Without a creation there is no change, and there was nothing to start. -/
theorem startExecutions_idle {out} (hcreates : ¬ Creates tr)
    (h : Runs Call (startExecutions s environmentID subscriber payload workflows) w tr
      (ofExcept out) w') :
    w' = w ∧ ∀ executions, out = .ok executions → workflows = [] ∧ executions = [] := by
  cases workflows with
  | nil =>
      obtain ⟨rfl, hout, rfl⟩ := runs_ret h
      have hout : out = .ok [] := ofExcept_injective hout
      refine ⟨rfl, fun executions h => ⟨rfl, ?_⟩⟩
      rw [hout] at h
      exact (Except.ok.inj h).symm
  | cons workflow rest =>
      rcases startExecutions_cons_run h with
        ⟨rfl, -, e, rfl, -⟩ | ⟨_, pre, tr₁, -, -, ⟨arg, row, hmem⟩, -, rfl, -⟩
      · exact ⟨rfl, fun executions h => by cases h⟩
      · exact absurd ⟨arg, row, List.mem_append_left _ hmem⟩ hcreates

/-- An error is that of a definition or of the last call. -/
theorem startExecutions_error {e : GoError}
    (h : Runs Call (startExecutions s environmentID subscriber payload workflows) w tr
      (.fail e) w') : Refused workflows tr e := by
  induction workflows generalizing w tr with
  | nil =>
      obtain ⟨-, hout, -⟩ := runs_ret h
      cases hout
  | cons workflow rest ih =>
      rcases startExecutions_cons_run (o := .error e) h with
        ⟨-, -, e', he', hrefused⟩ | ⟨execution, pre, tr₁, -, -, -, -, rfl, hturn⟩
      · cases he'
        exact hrefused
      refine Refused.append ?_
      rcases hturn with ⟨op, e', rfl, he'⟩ | ⟨tr₂, tr₃, out', rfl, -, hout, hrest⟩
      · cases he'
        exact Or.inr ⟨[], op, rfl⟩
      · cases out' with
        | ok executions => cases hout
        | error e' =>
            cases hout
            rcases ih hrest with ⟨workflow', hmem, hfirst⟩ | hlast
            · exact Or.inl ⟨workflow', List.mem_cons_of_mem _ hmem, hfirst⟩
            · exact Refused.append (Or.inr hlast)

/-- If the loop returns its executions, nothing failed, and all of them are there. -/
theorem startExecutions_ok {executions : List WorkflowExecution}
    (h : Runs Call (startExecutions s environmentID subscriber payload workflows) w tr
      (.ret executions) w') :
    Smooth tr ∧ List.Forall₂ (Starts environmentID) workflows executions ∧
      Added executions w w' ∧ w'.queue = w.queue ++ executions.flatMap (firstTasks s) := by
  induction workflows generalizing w tr executions with
  | nil =>
      obtain ⟨rfl, hout, rfl⟩ := runs_ret h
      cases hout
      exact ⟨fun _ h => (by cases h), .nil, ⟨fun _ h => (by cases h), List.nodup_nil, rfl⟩,
        (List.append_nil _).symm⟩
  | cons workflow rest ih =>
      rcases startExecutions_cons_run (o := .ok executions) h with
        ⟨-, -, e', he', -⟩ | ⟨execution, pre, tr₁, hstarts, hid, -, hpre, rfl, hturn⟩
      · cases he'
      rcases hturn with ⟨op, e', -, he'⟩ | ⟨tr₂, tr₃, out', rfl, hjob, hout, hrest⟩
      · cases he'
      cases out' with
      | error e' => cases hout
      | ok rest' =>
          cases hout
          obtain ⟨hsmooth, hall, hadded, hqueue⟩ := ih hrest
          -- a later execution is new in a table that already has this one
          have hother : ∀ other ∈ rest', w.executions.get other.id = none ∧
              other.id ≠ execution.id := by
            intro other hmem
            have hnone := hadded.fresh other hmem
            by_cases heq : other.id = execution.id
            · rw [Table.get_set_of_eq heq.symm] at hnone
              cases hnone
            · rw [Table.get_set_of_ne heq] at hnone
              exact ⟨hnone, heq⟩
          refine ⟨hpre.append (hjob.append hsmooth), .cons hstarts hall,
            ⟨?_, ?_, hadded.rows⟩, ?_⟩
          · intro other hmem
            rcases List.mem_cons.mp hmem with rfl | hmem
            · exact hid
            · exact (hother other hmem).1
          · rw [List.map_cons, List.nodup_cons]
            refine ⟨fun hmem => ?_, hadded.distinct⟩
            obtain ⟨other, hother', heq⟩ := List.mem_map.mp hmem
            exact (hother other hother').2 heq
          · rw [hqueue, List.flatMap_cons, List.append_assoc]

/-! ### Executions that stay -/

/-- The calls of a trigger. -/
def Triggering : Op → Prop
  | .createExecution _ | .enqueueWorkflowStep _ => True
  | op => op.Reads

/-- The loop makes calls of a trigger only. -/
theorem calls_startExecutions (workflows : List Db.Workflow) :
    Calls Triggering (startExecutions s environmentID subscriber payload workflows) := by
  induction workflows with
  | nil => exact True.intro
  | cons workflow rest ih =>
      unfold startExecutions
      split
      · exact True.intro
      refine (calls_perform True.intro).bind fun id => ?_
      refine (calls_perform True.intro).bind fun execution => ?_
      have hrest : Calls Triggering
          (startExecutions s environmentID subscriber payload rest >>= fun executions =>
            ret (execution :: executions)) := ih.bind fun executions => True.intro
      split
      · split
        · exact (calls_perform True.intro).bind fun _ => hrest
        · exact hrest
      · exact hrest

/-- A trigger takes no execution away. -/
theorem executions_of_triggering {op : Op} {r : Except GoError op.Res} (hop : Triggering op)
    (h : Call op w r w') {x : UUID} (hx : (w.executions.get x).isSome) :
    (w'.executions.get x).isSome := by
  cases r with
  | error e =>
      cases (call_error h).1
      exact hx
  | ok a =>
      cases op with
      | createExecution arg =>
          obtain ⟨-, -, rfl⟩ := call_createExecution h
          by_cases heq : x = WorkflowExecution.id a
          · rw [Table.get_set_of_eq heq.symm]
            rfl
          · rw [Table.get_set_of_ne heq]
            exact hx
      | enqueueWorkflowStep job =>
          obtain ⟨-, rfl⟩ := call_enqueueWorkflowStep h
          exact hx
      | _ =>
          first
          | exact (hop : False).elim
          | (cases call_reads h True.intro; exact hx)

/-- What a run of such calls has created is new, and is there at its end. -/
theorem created_stays {α : Type} {p p' : Act α} (hp : Calls Triggering p)
    (h : Runs Call p w tr p' w') (hcreates : Creates tr) :
    ∃ x, w.executions.get x = none ∧ (w'.executions.get x).isSome := by
  have hkeep : ∀ {p p' : Act α} {w w' tr}, Calls Triggering p → Runs Call p w tr p' w' →
      ∀ {x}, (w.executions.get x).isSome → (w'.executions.get x).isSome := by
    intro p p' w w' tr hp h
    induction h with
    | stop => exact id
    | call hs _ ih => exact fun hx => ih (hp.2 _) (executions_of_triggering hp.1 hs hx)
  obtain ⟨arg, row, hmem⟩ := hcreates
  induction h with
  | stop => cases hmem
  | @call op k w r w₁ tr p' w' hs hr ih =>
      rcases List.mem_cons.mp hmem with hhead | hmem
      · cases hhead
        obtain ⟨hnone, hrow, rfl⟩ := call_createExecution hs
        refine ⟨row.id, ?_, hkeep (hp.2 _) hr ?_⟩
        · rw [hrow]
          exact hnone
        · rw [Table.get_set_self]
          rfl
      · obtain ⟨x, hnone, hsome⟩ := ih (hp.2 _) hmem
        refine ⟨x, ?_, hsome⟩
        rcases hx : w.executions.get x with - | old
        · rfl
        · have hkept := executions_of_triggering hp.1 hs (x := x) (by rw [hx]; rfl)
          rw [hnone] at hkept
          cases hkept

/-! ### One job for each -/

/-- With a producer and a first step for every workflow, every execution has its job. -/
theorem forall₂_firstTask {executions : List WorkflowExecution}
    (h : List.Forall₂ (Starts environmentID) workflows executions) (hp : s.producer = true)
    (hfirst : ∀ workflow ∈ workflows, ∃ stepID,
      firstStepID workflow.definitionJson = .ok (some stepID)) :
    List.Forall₂ FirstTask executions (executions.flatMap (firstTasks s)) := by
  induction h with
  | nil => exact .nil
  | @cons workflow execution _ _ hstarts _ ih =>
      obtain ⟨stepID, hstep⟩ := hfirst workflow (List.mem_cons_self ..)
      rw [hstarts.first] at hstep
      have hcurrent : execution.currentStepID = some stepID := Except.ok.inj hstep
      have htasks : firstTasks s execution = [{ job := stepJob execution stepID }] := by
        rw [firstTasks, hcurrent]
        exact if_pos hp
      rw [List.flatMap_cons, htasks]
      exact .cons ⟨stepID, hcurrent, rfl⟩ (ih fun w hw => hfirst w (List.mem_cons_of_mem _ hw))

/-- An execution with a job is at a first step. -/
theorem first_of_forall₂ {executions : List WorkflowExecution} {tasks : List Task}
    (h : List.Forall₂ (Starts environmentID) workflows executions)
    (htasks : List.Forall₂ FirstTask executions tasks) :
    ∀ workflow ∈ workflows, ∃ stepID,
      firstStepID workflow.definitionJson = .ok (some stepID) := by
  induction h generalizing tasks with
  | nil =>
      intro workflow hmem
      cases hmem
  | cons hstarts _ ih =>
      cases htasks with
      | cons htask htasks =>
          intro workflow hmem
          rcases List.mem_cons.mp hmem with rfl | hmem
          · obtain ⟨stepID, hcurrent, -⟩ := htask
            rw [hstarts.first, hcurrent]
            exact ⟨stepID, rfl⟩
          · exact ih htasks workflow hmem

/-- Without a producer nothing is handed to the queue. -/
theorem producer_of_forall₂ {executions : List WorkflowExecution} (hne : executions ≠ [])
    (h : List.Forall₂ FirstTask executions (executions.flatMap (firstTasks s))) :
    s.producer = true := by
  by_contra hp
  have hnone : ∀ execution ∈ executions, firstTasks s execution = [] := by
    intro execution _
    rw [firstTasks]
    split
    · exact if_neg hp
    · rfl
  rw [List.flatMap_eq_nil_iff.mpr hnone] at h
  cases h
  exact hne rfl

/-! ### The condition -/

/-- The loop is all-or-nothing exactly when nothing goes wrong after a creation. -/
theorem loop_iff {out}
    (h : Runs Call (startExecutions s environmentID subscriber payload workflows) w tr
      (ofExcept out) w') :
    AllOrNothing environmentID workflows w w' out ↔ Unbroken s workflows tr := by
  -- without a creation nothing is left behind, and there is nothing to break
  by_cases hcreates : Creates tr
  swap
  · obtain ⟨rfl, hempty⟩ := startExecutions_idle hcreates h
    refine iff_of_true ?_ ?_
    · cases out with
      | error e => exact ⟨rfl, rfl⟩
      | ok executions =>
          obtain ⟨rfl, rfl⟩ := hempty executions rfl
          exact ⟨.nil, ⟨fun _ h => (by cases h), List.nodup_nil, rfl⟩,
            [], (List.append_nil _).symm, .nil⟩
    · intro pre post arg row htr
      refine absurd ⟨arg, row, ?_⟩ hcreates
      rw [htr]
      exact List.mem_append_right _ (List.mem_cons_self ..)
  obtain ⟨x, hnew, hthere⟩ := created_stays (calls_startExecutions workflows) h hcreates
  -- an execution is there that was not there before
  have hchanged : w'.executions ≠ w.executions := by
    intro heq
    rw [heq, hnew] at hthere
    cases hthere
  constructor
  · intro hall pre post arg row htr
    cases out with
    -- an error with a new execution is neither all nor nothing
    | error e => exact absurd hall.1 hchanged
    | ok executions =>
        obtain ⟨hsmooth, hstarts, hadded, hqueue⟩ := startExecutions_ok h
        obtain ⟨tasks, htasks, hjobs⟩ := hall.tasks
        rw [hqueue, List.append_cancel_left_eq] at htasks
        rw [← htasks] at hjobs
        have hne : executions ≠ [] := by
          rintro rfl
          exact hchanged hadded.rows
        refine ⟨fun a ha => hsmooth a ?_, producer_of_forall₂ hne hjobs,
          first_of_forall₂ hstarts hjobs⟩
        rw [htr]
        exact List.mem_append_right _ (List.mem_cons_of_mem _ ha)
  · intro hunbroken
    obtain ⟨arg, row, hmem⟩ := hcreates
    obtain ⟨pre, post, htr⟩ := List.append_of_mem hmem
    obtain ⟨hpost, hp, hfirst⟩ := hunbroken pre post arg row htr
    cases out with
    | ok executions =>
        obtain ⟨-, hstarts, hadded, hqueue⟩ := startExecutions_ok h
        exact ⟨hstarts, hadded, _, hqueue, forall₂_firstTask hstarts hp hfirst⟩
    | error e =>
        exfalso
        rcases startExecutions_error h with ⟨workflow, hworkflow, herror⟩ | ⟨pre', op, hlast⟩
        · obtain ⟨stepID, hok⟩ := hfirst workflow hworkflow
          rw [herror] at hok
          cases hok
        · -- the last call is the creation or comes after it
          have hend : (⟨.createExecution arg, .ok row⟩ :: post).getLast? = some ⟨op, .error e⟩ := by
            rw [← List.getLast?_append_of_ne_nil pre (List.cons_ne_nil _ _), ← htr, hlast]
            exact List.getLast?_concat
          rcases List.mem_cons.mp (List.mem_of_getLast? hend) with hmem | hmem
          · cases hmem
          · obtain ⟨r, hr⟩ := hpost _ hmem
            cases hr

/-- **When `TriggerEvent` is all-or-nothing.**  Whatever workflows match the event and
whichever calls fail: a call of `TriggerEvent` leaves either nothing behind or one
execution with one job for each of them, exactly when no call fails once an execution
has been created and, if one has been, there is a producer and every matching workflow
has a first step. -/
theorem allOrNothing_iff {input : TriggerEventInput} {out}
    (h : Runs Call (triggerEvent s environmentID input) w tr (ofExcept out) w') :
    AllOrNothing environmentID (w.matching environmentID (trimSpace input.event)) w w' out ↔
      Unbroken s (w.matching environmentID (trimSpace input.event)) tr := by
  -- a call that ends before the loop creates nothing
  have hidle : ∀ {e tr}, w' = w → out = .error e → (∀ arg row,
      ⟨.createExecution arg, .ok row⟩ ∉ (tr : List (Answered Op.Res GoError))) →
      (AllOrNothing environmentID (w.matching environmentID (trimSpace input.event)) w w' out ↔
        Unbroken s (w.matching environmentID (trimSpace input.event)) tr) := by
    intro e tr hw hout hnone
    rw [hw, hout]
    refine iff_of_true ⟨rfl, rfl⟩ fun pre post arg row htr => absurd ?_ (hnone arg row)
    rw [htr]
    exact List.mem_append_right _ (List.mem_cons_self ..)
  rw [triggerEvent] at h
  split at h
  · obtain ⟨rfl, hout, hw⟩ := runs_fail h
    exact hidle hw (ofExcept_injective hout) fun arg row hmem => by cases hmem
  split at h
  · obtain ⟨rfl, hout, hw⟩ := runs_fail h
    exact hidle hw (ofExcept_injective hout) fun arg row hmem => by cases hmem
  · rcases runs_perform_bind h with ⟨e, rfl, hcall, hout⟩ | ⟨found, w₁, tr', rfl, hcall, hloop⟩
    · refine hidle (call_error hcall).1 hout fun arg row hmem => ?_
      cases List.mem_singleton.mp hmem
    · have hfound := call_getActiveByTriggerEvent hcall
      cases call_reads hcall True.intro
      rw [← hfound, loop_iff hloop]
      constructor
      · intro hunbroken pre post arg row htr
        cases pre with
        | nil => cases htr
        | cons a pre => exact hunbroken pre post arg row (List.cons.inj htr).2
      · intro hunbroken pre post arg row htr
        refine hunbroken (⟨_, .ok found⟩ :: pre) post arg row ?_
        rw [htr, List.cons_append]

/-! ### A queue that is down -/

/-- The answers of a world whose queue cannot be reached. -/
def Sample.queueDown : (op : Op) → World → Except GoError op.Res × World
  | .enqueueWorkflowStep _, w => (.error (.other "connection refused"), w)
  | op, w => World.answer op w

theorem Sample.call_queueDown (op : Op) (w : World) :
    Call op w (Sample.queueDown op w).1 (Sample.queueDown op w).2 := by
  cases op with
  | enqueueWorkflowStep job =>
      have hfallible : Op.Fallible (.enqueueWorkflowStep job) := True.intro
      exact .fault hfallible w _
  | _ => exact .answer _ w

/-- One active workflow, and a queue that is down: an error is returned, and an
execution is left without a job. -/
theorem execution_left_behind :
    ∃ tr e w', Runs Call (triggerEvent Sample.service Sample.environmentID Sample.event)
        (Sample.world Sample.single) tr (.fail e) w' ∧
      (w'.executions.get Sample.executionID).isSome ∧ w'.queue = [] ∧
      ¬ AllOrNothing Sample.environmentID
        ((Sample.world Sample.single).matching Sample.environmentID "user.signup")
        (Sample.world Sample.single) w' (.error e) := by
  have hrun := runs_drive Sample.call_queueDown
    (triggerEvent Sample.service Sample.environmentID Sample.event) (Sample.world Sample.single)
  have hout : ((triggerEvent Sample.service Sample.environmentID Sample.event).drive
      Sample.queueDown (Sample.world Sample.single)).2.1.isOk = false := by decide +kernel
  have hleft : (((triggerEvent Sample.service Sample.environmentID Sample.event).drive
      Sample.queueDown (Sample.world Sample.single)).2.2.executions.get
        Sample.executionID).isSome := by decide +kernel
  have hqueue : ((triggerEvent Sample.service Sample.environmentID Sample.event).drive
      Sample.queueDown (Sample.world Sample.single)).2.2.queue = [] := by decide +kernel
  rcases hd : (triggerEvent Sample.service Sample.environmentID Sample.event).drive
    Sample.queueDown (Sample.world Sample.single) with ⟨tr, e | executions, w'⟩
  · rw [hd] at hrun hleft hqueue
    refine ⟨tr, e, w', hrun, hleft, hqueue, fun hnothing => ?_⟩
    rw [show w'.executions = _ from hnothing.1] at hleft
    cases hleft
  · rw [hd] at hout
    cases hout

/-- With everything up, the workflow is started. -/
theorem allOrNothing_single :
    ∃ out w', AllOrNothing Sample.environmentID
      ((Sample.world Sample.single).matching Sample.environmentID
        (trimSpace Sample.event.event)) (Sample.world Sample.single) w' out := by
  have hrun := runs_drive Call.answer
    (triggerEvent Sample.service Sample.environmentID Sample.event) (Sample.world Sample.single)
  have hsmooth : ((triggerEvent Sample.service Sample.environmentID Sample.event).drive
      World.answer (Sample.world Sample.single)).1.all (·.2.isOk) = true := by decide +kernel
  have hfirst : ∀ workflow ∈ (Sample.world Sample.single).matching Sample.environmentID
      (trimSpace Sample.event.event), ∃ stepID,
        firstStepID workflow.definitionJson = .ok (some stepID) := by
    intro workflow hmem
    have hworkflow : workflow = Sample.workflow Sample.single :=
      List.mem_singleton.mp (List.mem_filter.mp hmem).1
    rw [hworkflow]
    exact ⟨"mail", by rfl⟩
  refine ⟨_, _, (allOrNothing_iff hrun).mpr fun pre post arg row htr => ⟨?_, rfl, hfirst⟩⟩
  intro a ha
  have hok := List.all_eq_true.mp hsmooth a (by
    rw [htr]
    exact List.mem_append_right _ (List.mem_cons_of_mem _ ha))
  rcases hr : a.2 with e | r
  · rw [hr] at hok
    cases hok
  · exact ⟨r, rfl⟩

end Iwifunni.Workflow
