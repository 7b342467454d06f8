/-
Iwifunni/Workflow/Ownership.lean

Whose jobs are in the queue.

Every step job that is queued or being handled was made for an execution that
exists, with the execution's own environment and workflow; so the fields of a
job say the same as the execution's row.  This holds in every run of the engine,
faults, redeliveries and changed definitions included.
-/
import Iwifunni.Workflow.Moves

namespace Iwifunni.Workflow

open Go Db Effect Effect.Prog

variable {s : Service} {w w' : World}

/-! ### Jobs made for an execution -/

/-- The job was made for an execution that exists. -/
def Owned (w : World) (job : WorkflowStepJob) : Prop :=
  ∃ row, w.executions.get row.id = some row ∧ job = stepJob row job.stepID

/-- The execution a job names. -/
def jobExecution (job : WorkflowStepJob) : Option UUID :=
  UUID.parse (trimSpace job.executionID)

@[simp] theorem jobExecution_stepJob (row : WorkflowExecution) (n : String) :
    jobExecution (stepJob row n) = some row.id := by
  simp only [jobExecution, stepJob, UUID.parse_trimSpace_toString]

/-- A job is read exactly if its ids parse and it names a step. -/
theorem readJob_eq_some {job : WorkflowStepJob} {ref : StepRef} :
    readJob job = some ref ↔
      UUID.parse (trimSpace job.environmentID) = some ref.environmentID ∧
      jobExecution job = some ref.executionID ∧
      UUID.parse (trimSpace job.workflowID) = some ref.workflowID ∧
      trimSpace job.stepID = ref.stepID ∧ ref.stepID ≠ "" := by
  obtain ⟨environmentID, x, v, n⟩ := ref
  simp only [readJob, jobExecution, Option.bind_eq_bind, Option.bind_eq_some_iff]
  constructor
  · rintro ⟨_, h1, _, h2, _, h3, h⟩
    by_cases hn : trimSpace job.stepID = ""
    · rw [if_pos hn] at h
      cases h
    · rw [if_neg hn] at h
      cases h
      exact ⟨h1, h2, h3, rfl, hn⟩
  · rintro ⟨h1, h2, h3, rfl, hn⟩
    exact ⟨_, h1, _, h2, _, h3, if_neg hn⟩

/-- The ids of a step job are those of its execution. -/
theorem readJob_stepJob {row : WorkflowExecution} {n : String} {ref : StepRef}
    (h : readJob (stepJob row n) = some ref) :
    ref = ⟨row.environmentID, row.id, row.workflowID, trimSpace n⟩ ∧ trimSpace n ≠ "" := by
  obtain ⟨environmentID, x, v, m⟩ := ref
  obtain ⟨h1, h2, h3, h4, hm⟩ := readJob_eq_some.mp h
  simp only [stepJob, UUID.parse_trimSpace_toString, Option.some.injEq] at h1 h3
  rw [jobExecution_stepJob, Option.some.injEq] at h2
  subst h1 h2 h3
  cases h4
  exact ⟨rfl, hm⟩

theorem jobExecution_of_readJob {job : WorkflowStepJob} {ref : StepRef}
    (h : readJob job = some ref) : jobExecution job = some ref.executionID :=
  (readJob_eq_some.mp h).2.1

/-- What an owned job says about the execution it names. -/
theorem Owned.of_readJob {job : WorkflowStepJob} {ref : StepRef} (h : Owned w job)
    (hread : readJob job = some ref) :
    ∃ row, w.executions.get ref.executionID = some row ∧
      ref.workflowID = row.workflowID ∧ ref.environmentID = row.environmentID := by
  obtain ⟨row, hget, hjob⟩ := h
  rw [hjob] at hread
  obtain ⟨rfl, -⟩ := readJob_stepJob hread
  exact ⟨row, hget, rfl, rfl⟩

theorem Owned.of_jobExecution {job : WorkflowStepJob} {x : UUID} (h : Owned w job)
    (hx : jobExecution job = some x) : ∃ row, w.executions.get x = some row := by
  obtain ⟨row, hget, hjob⟩ := h
  rw [hjob, jobExecution_stepJob] at hx
  cases hx
  exact ⟨row, hget⟩

/-! ### Executions keep their identity -/

/-- Every execution is still there, of the same workflow and environment. -/
def Kept (w w' : World) : Prop :=
  ∀ x row, w.executions.get x = some row → ∃ row', w'.executions.get x = some row' ∧
    row'.workflowID = row.workflowID ∧ row'.environmentID = row.environmentID

theorem kept_of_executions_eq (h : w'.executions = w.executions) : Kept w w' := by
  intro x row hx
  exact ⟨row, by rw [h, hx], rfl, rfl⟩

theorem StatusWritten.kept {x : UUID} {st : Status} (h : StatusWritten x st w w') : Kept w w' := by
  obtain ⟨old, new, hget, hid, hwf, henv, -, -, -, rfl⟩ := h
  intro y row hy
  by_cases hyx : y = x
  · subst hyx
    rw [hget] at hy
    cases hy
    exact ⟨new, Table.get_set_of_eq hid, hwf, henv⟩
  · exact ⟨row, by rw [Table.get_set_of_ne (hid ▸ hyx), hy], rfl, rfl⟩

theorem Created.kept {row : WorkflowExecution} (h : Created row w w') : Kept w w' := by
  obtain ⟨hnone, -, rfl⟩ := h
  intro y old hy
  have hne : y ≠ row.id := by
    rintro rfl
    rw [hnone] at hy
    cases hy
  exact ⟨old, by rw [Table.get_set_of_ne hne, hy], rfl, rfl⟩

theorem StepWritten.kept {x : UUID} {n : String} {st : Status} (h : StepWritten x n st w w') :
    Kept w w' := by
  obtain ⟨row, -, -, rfl⟩ := h
  exact kept_of_executions_eq rfl

theorem Queued.kept {job : WorkflowStepJob} {d : Option Duration} (h : Queued job d w w') :
    Kept w w' := by
  obtain ⟨-, rfl⟩ := h
  exact kept_of_executions_eq rfl

theorem Owned.kept {job : WorkflowStepJob} (h : Owned w job) (hk : Kept w w') :
    Owned w' job := by
  obtain ⟨row, hget, hjob⟩ := h
  obtain ⟨row', hget', hwf, henv⟩ := hk _ _ hget
  have hid := w'.executions.keyed hget'
  refine ⟨row', by rw [hid]; exact hget', ?_⟩
  rw [hjob]
  simp only [stepJob, hid, hwf, henv]

/-- A handling keeps every execution. -/
theorem Move.kept {ref : StepRef} {a p p'} (h : Move ref a p w p' w') : Kept w w' := by
  cases h with
  | «open» h => exact h.kept
  | run h => exact h.kept
  | schedule _ h => exact h.kept
  | complete h => exact h.kept
  | dispatch _ h => exact h.kept
  | settle h => exact h.kept
  | fail h => exact h.kept
  | giveUp h => exact h.kept
  | _ => exact kept_of_executions_eq rfl

theorem TriggerMove.kept {environmentID : UUID} {a p p'}
    (h : TriggerMove s environmentID a p w p' w') :
    Kept w w' := by
  cases h with
  | create h => exact h.kept
  | createOnly h => exact h.kept
  | launch h => exact h.kept
  | _ => exact kept_of_executions_eq rfl

/-- Changes from outside leave executions, step rows, jobs and notifications alone. -/
theorem Change.apply_frame (c : Change) (w : World) :
    (c.apply w).executions = w.executions ∧ (c.apply w).steps = w.steps ∧
      (c.apply w).queue = w.queue ∧ (c.apply w).notifications = w.notifications := by
  have hmod : ∀ id environmentID f,
      (w.modifyWorkflow id environmentID f).executions = w.executions ∧
      (w.modifyWorkflow id environmentID f).steps = w.steps ∧
      (w.modifyWorkflow id environmentID f).queue = w.queue ∧
      (w.modifyWorkflow id environmentID f).notifications = w.notifications := by
    intro id environmentID f
    unfold World.modifyWorkflow
    split
    · exact ⟨rfl, rfl, rfl, rfl⟩
    · split <;> exact ⟨rfl, rfl, rfl, rfl⟩
  cases c with
  | createDefinition workflow definition =>
      unfold Change.apply
      dsimp only
      split
      · exact ⟨rfl, rfl, rfl, rfl⟩
      · split <;> exact ⟨rfl, rfl, rfl, rfl⟩
  | updateDefinition id environmentID definition => exact hmod _ _ _
  | setStatus id environmentID status => exact hmod _ _ _
  | directory subscribers templates => exact ⟨rfl, rfl, rfl, rfl⟩

/-! ### The invariant -/

/-- The workflow a phase remembers. -/
def Phase.workflow : Phase → Option UUID
  | fetched v | located v _ | opened v _ | working v _ _ _ | closed v _ => some v
  | _ => none

/-- All jobs are owned, and a handling has read the workflow its job names. -/
structure Ownership (v : View World Activity Phase) : Prop where
  queue : ∀ t ∈ v.world.queue, Owned v.world t.job
  threads : ∀ i t p, v.phases i = some (.step t, p) → Owned v.world t.job
  workflows : ∀ i t p u ref, v.phases i = some (.step t, p) → p.workflow = some u →
    readJob t.job = some ref → ref.workflowID = u
  triggers : ∀ i environmentID input x u n,
    v.phases i = some (.trigger environmentID input, .owing x u n) →
    ∃ row, v.world.executions.get x = some row ∧ row.workflowID = u ∧
      row.environmentID = environmentID

/-- The job a handling puts into the queue is owned. -/
theorem owned_of_owns {ref : StepRef} {u : UUID} {job owner : WorkflowStepJob}
    (howner : Owned w owner) (hread : readJob owner = some ref) (hu : ref.workflowID = u)
    (h : ref.Owns u job) : Owned w job := by
  obtain ⟨row, hget, hwf, henv⟩ := howner.of_readJob hread
  have hid := w.executions.keyed hget
  refine ⟨row, by rw [hid]; exact hget, ?_⟩
  obtain ⟨h1, h2, h3⟩ := h
  cases job
  simp only [stepJob, WorkflowStepJob.mk.injEq, and_true]
  exact ⟨h1.trans (by rw [henv]), h2.trans (by rw [hid]), h3.trans (by rw [← hu, hwf])⟩

/-- A move goes on with the same workflow, or reads it from the execution. -/
theorem Move.workflow {ref : StepRef} {a p p' u} (h : Move ref a p w p' w')
    (hu : p'.workflow = some u) : p.workflow = some u ∨
      ∃ row, w.executions.get ref.executionID = some row ∧ row.workflowID = u := by
  cases h with
  | fetch hget _ =>
      cases hu
      exact Or.inr ⟨_, hget, rfl⟩
  | «break» => cases hu
  | miss => cases hu
  | settle => cases hu
  | fail => cases hu
  | giveUp => cases hu
  | _ => exact Or.inl hu

/-- A move leaves the queue alone or adds a job for the execution at hand. -/
theorem Move.queue {ref : StepRef} {a p p'} (h : Move ref a p w p' w') :
    w'.queue = w.queue ∨ ∃ u job d, p.workflow = some u ∧ ref.Owns u job ∧
      p'.handedOver = true ∧ a.1.Hands job ∧
      w'.queue = w.queue ++ [{ job := job, delay := d }] := by
  cases h with
  | «open» h | complete h | fail h =>
      obtain ⟨-, -, -, rfl⟩ := h
      exact Or.inl rfl
  | run h | settle h | giveUp h =>
      obtain ⟨-, -, -, -, -, -, -, -, -, rfl⟩ := h
      exact Or.inl rfl
  | schedule ho h ha | dispatch ho h ha =>
      obtain ⟨-, rfl⟩ := h
      exact Or.inr ⟨_, _, _, rfl, ho, rfl, ha, rfl⟩
  | _ => exact Or.inl rfl

/-- A trigger enqueues what it owes, and nothing else. -/
theorem TriggerMove.queue {environmentID : UUID} {a p p'}
    (h : TriggerMove s environmentID a p w p' w') :
    w'.queue = w.queue ∨ ∃ x u n, p = .owing x u n ∧
      w'.queue = w.queue ++ [{ job := ⟨environmentID.toString, x.toString, u.toString, n⟩ }] := by
  cases h with
  | create h | createOnly h =>
      obtain ⟨-, -, rfl⟩ := h
      exact Or.inl rfl
  | launch h =>
      obtain ⟨-, rfl⟩ := h
      exact Or.inr ⟨_, _, _, rfl, rfl⟩
  | _ => exact Or.inl rfl

/-- Who owes a first step has created the execution. -/
theorem TriggerMove.owing {environmentID : UUID} {a p p' x u n}
    (h : TriggerMove s environmentID a p w p' w') (hp : p' = .owing x u n) :
    (p = .owing x u n ∧ w' = w) ∨ ∃ row, Created row w w' ∧ row.id = x ∧ row.workflowID = u ∧
      row.environmentID = environmentID ∧ row.currentStepID = some n ∧ s.producer = true := by
  cases h with
  | stay => exact Or.inl ⟨hp, rfl⟩
  | stop => cases hp
  | create hc henv hn hprod =>
      cases hp
      exact Or.inr ⟨_, hc, rfl, rfl, henv, hn, hprod⟩
  | createOnly => cases hp
  | launch => cases hp

/-! ### Steps of a view -/

variable {v v' : View World Activity Phase}

/-- A call of a handling, as a move. -/
theorem move_of_next {t : Task} {p p' : Phase} {op : Op} {r : Except GoError op.Res}
    (hnext : (handling s).next (.step t) p ⟨op, r⟩ = some p') (hcall : Call op w r w') :
    ∃ ref, readJob t.job = some ref ∧ Move ref ⟨op, r⟩ p w p' w' := by
  simp only [handling, Option.bind_eq_some_iff] at hnext
  obtain ⟨ref, hread, hstep⟩ := hnext
  exact ⟨ref, hread, move_of_call hstep hcall⟩

/-- What the end of a handling does to the queue. -/
theorem closeTask_queue (maxRetry : ℕ) (w : World) (t : Task) (out : Except GoError Unit) :
    (w.closeTask maxRetry t out = w) ∨
      (w.closeTask maxRetry t out = { w with queue := w.queue ++ [t.retry] } ∧
        t.retried < maxRetry ∧ ∃ e, out = .error e ∧ skipRetry e = false) := by
  cases out with
  | ok a => exact Or.inl rfl
  | error e =>
      unfold World.closeTask
      dsimp only
      split
      · exact Or.inl rfl
      · next hskip =>
        split
        · next hlt => exact Or.inr ⟨rfl, hlt, e, rfl, by simpa using hskip⟩
        · exact Or.inl rfl

/-- A failed handling puts its job back, unless the error or the number of attempts
forbids it. -/
theorem closeTask_error (maxRetry : ℕ) (w : World) (t : Task) (e : GoError) :
    w.closeTask maxRetry t (.error e) = { w with queue := w.queue ++ [t.retry] } ∨
      w.closeTask maxRetry t (.error e) = w ∧ (skipRetry e = true ∨ ¬ t.retried < maxRetry) := by
  unfold World.closeTask
  dsimp only
  split
  · next hskip => exact Or.inr ⟨rfl, Or.inl hskip⟩
  · split
    · exact Or.inl rfl
    · next hlast => exact Or.inr ⟨rfl, Or.inr hlast⟩

/-- What a new or changed activity has to satisfy. -/
def Proper (w w' : World) : Activity → Phase → Prop
  | .step t, p => Owned w t.job ∧ ∀ u ref, p.workflow = some u → readJob t.job = some ref →
      ref.workflowID = u
  | .trigger environmentID _, p => ∀ x u n, p = .owing x u n →
      ∃ row, w'.executions.get x = some row ∧ row.workflowID = u ∧
        row.environmentID = environmentID

/-- Jobs stay owned when the world changes, provided new ones are. -/
theorem Ownership.next (h : Ownership v) (hk : Kept v.world v'.world)
    (hq : ∀ t ∈ v'.world.queue, t ∈ v.world.queue ∨ Owned v.world t.job)
    (hph : ∀ j l p, v'.phases j = some (l, p) →
      v.phases j = some (l, p) ∨ Proper v.world v'.world l p) : Ownership v' where
  queue t ht := by
    rcases hq t ht with hold | hnew
    · exact (h.queue t hold).kept hk
    · exact hnew.kept hk
  threads j t p hj := by
    rcases hph j _ p hj with hold | hnew
    · exact (h.threads j t p hold).kept hk
    · exact hnew.1.kept hk
  workflows j t p u ref hj hu hread := by
    rcases hph j _ p hj with hold | hnew
    · exact h.workflows j t p u ref hold hu hread
    · exact hnew.2 u ref hu hread
  triggers j environmentID input x u n hj := by
    rcases hph j _ _ hj with hold | hnew
    · obtain ⟨row, hx, hwf, henv⟩ := h.triggers j environmentID input x u n hold
      obtain ⟨row', hx', hwf', henv'⟩ := hk x row hx
      exact ⟨row', hx', hwf'.trans hwf, henv'.trans henv⟩
    · exact hnew x u n rfl

/-- An activity begins properly. -/
theorem proper_init (h : Ownership v) {l : Activity} {w' : World}
    (hsp : (engine s).spawn l v.world w') : Proper v.world w' l ((handling s).init l) := by
  cases l with
  | step t =>
      refine ⟨h.queue t hsp.1, fun u ref hu _ => ?_⟩
      simp only [handling] at hu
      split at hu <;> cases hu
  | trigger environmentID input =>
      intro x u n hp
      cases hp

/-- **One call** leaves every job with its owner. -/
theorem Ownership.call (h : Ownership v) {i : ℕ} {l : Activity} {p p' : Phase} {op : Op}
    {r : Except GoError op.Res} {w' : World} (hi : v.phases i = some (l, p))
    (hnext : (handling s).next l p ⟨op, r⟩ = some p') (hcall : Call op v.world r w') :
    Ownership ⟨w', Function.update v.phases i (some (l, p'))⟩ := by
  cases l with
  | step t =>
      obtain ⟨ref, hread, hmove⟩ := move_of_next hnext hcall
      have howned := h.threads i t p hi
      -- rows are only added: what is left are the new job and the new phase
      refine h.next hmove.kept ?_ ?_
      · intro t' ht'
        rcases hmove.queue with heq | ⟨u, job, d, hu, howns, -, -, heq⟩
        · rw [heq] at ht'
          exact Or.inl ht'
        · rw [heq, List.mem_append, List.mem_singleton] at ht'
          rcases ht' with ht' | rfl
          · exact Or.inl ht'
          · -- a job for the next step has the ids of the one that is handled
            exact Or.inr (owned_of_owns howned hread (h.workflows i t p u ref hi hu hread) howns)
      · intro j l' q hj
        rcases update_some_eq_some hj with ⟨rfl, heq⟩ | ⟨-, hj⟩
        · cases heq
          refine Or.inr ⟨howned, fun u ref' hu hread' => ?_⟩
          rw [hread] at hread'
          cases hread'
          rcases hmove.workflow hu with hold | ⟨row, hget, rfl⟩
          · exact h.workflows _ t p u ref hi hold hread
          · -- the workflow is read from the row of the execution
            obtain ⟨row', hget', hwf, -⟩ := howned.of_readJob hread
            rw [hget] at hget'
            cases hget'
            exact hwf
        · exact Or.inl hj
  | trigger environmentID input =>
      have hmove := triggerMove_of_call hnext hcall
      refine h.next hmove.kept ?_ ?_
      · intro t' ht'
        rcases hmove.queue with heq | ⟨x, u, n, rfl, heq⟩
        · rw [heq] at ht'
          exact Or.inl ht'
        · rw [heq, List.mem_append, List.mem_singleton] at ht'
          rcases ht' with ht' | rfl
          · exact Or.inl ht'
          · -- the first job is for the execution that was created
            obtain ⟨row, hget, rfl, rfl⟩ := h.triggers i environmentID input x u n hi
            have hid := v.world.executions.keyed hget
            refine Or.inr ⟨row, by rw [hid]; exact hget, ?_⟩
            rw [stepJob, hid]
      · intro j l' q hj
        rcases update_some_eq_some hj with ⟨rfl, heq⟩ | ⟨-, hj⟩
        · cases heq
          refine Or.inr fun x u n hp => ?_
          rcases hmove.owing hp with ⟨rfl, rfl⟩ | ⟨row, hc, rfl, rfl, henv, -, -⟩
          · exact h.triggers _ environmentID input x u n hi
          · obtain ⟨-, -, rfl⟩ := hc
            exact ⟨row, Table.get_set_self .., rfl, henv⟩
        · exact Or.inl hj

/-- **Ownership is preserved by every step of the engine.** -/
theorem Ownership.step (h : Ownership v) {e : EngineEvent}
    (hs : (handling s).ViewStep (engine s) v e v') : Ownership v' := by
  cases hs with
  | @start w w' ph i l hnone hsp =>
      -- jobs are only taken from the queue
      have hw : Kept w w' ∧ ∀ t ∈ w'.queue, t ∈ w.queue := by
        cases l with
        | step t =>
            obtain ⟨-, rfl⟩ := hsp
            exact ⟨kept_of_executions_eq rfl, fun t ht => List.mem_of_mem_erase ht⟩
        | trigger environmentID input =>
            cases hsp
            exact ⟨kept_of_executions_eq rfl, fun t ht => ht⟩
      refine h.next hw.1 (fun t ht => Or.inl (hw.2 t ht)) ?_
      intro j l' p hj
      rcases update_some_eq_some hj with ⟨rfl, heq⟩ | ⟨-, hj⟩
      · cases heq
        exact Or.inr (proper_init h hsp)
      · exact Or.inl hj
  | call hi hnext hcall => exact h.call hi hnext hcall
  | @finish w w' ph i l p out hi hends hclose =>
      -- a job that comes back was owned by the handling that ends
      have hw : Kept w w' ∧ ∀ t ∈ w'.queue, t ∈ w.queue ∨ Owned w t.job := by
        cases l with
        | step t =>
            cases hclose
            rcases closeTask_queue s.maxRetry w t out with heq | ⟨heq, -, -⟩ <;> rw [heq]
            · exact ⟨kept_of_executions_eq rfl, fun t ht => Or.inl ht⟩
            · refine ⟨kept_of_executions_eq rfl, fun t' ht' => ?_⟩
              rw [List.mem_append, List.mem_singleton] at ht'
              rcases ht' with ht' | rfl
              · exact Or.inl ht'
              · exact Or.inr (h.threads i t p hi)
        | trigger environmentID input =>
            cases hclose
            exact ⟨kept_of_executions_eq rfl, fun t ht => Or.inl ht⟩
      exact h.next hw.1 hw.2 fun j l' q hj => Or.inl (update_none_eq_some hj).2
  | @lose w w' ph i l p hi hl =>
      have hw : Kept w w' ∧ ∀ t ∈ w'.queue, t ∈ w.queue ∨ Owned w t.job := by
        cases l with
        | step t =>
            cases hl
            refine ⟨kept_of_executions_eq rfl, fun t' ht' => ?_⟩
            rw [List.mem_append, List.mem_singleton] at ht'
            rcases ht' with ht' | rfl
            · exact Or.inl ht'
            · exact Or.inr (h.threads i t' p hi)
        | trigger environmentID input =>
            cases hl
            exact ⟨kept_of_executions_eq rfl, fun t ht => Or.inl ht⟩
      exact h.next hw.1 hw.2 fun j l' q hj => Or.inl (update_none_eq_some hj).2
  | @env w w' ph c he =>
      cases he
      obtain ⟨hex, -, hq, -⟩ := c.apply_frame w
      refine h.next (kept_of_executions_eq hex) ?_ fun j l q hj => Or.inl hj
      intro t ht
      exact Or.inl (hq ▸ ht)

theorem ownership_of_fresh (h : w.Fresh) : Ownership ((handling s).view (idle w)) where
  queue t ht := by
    rw [Protocol.view_world, idle, h.queue] at ht
    cases ht
  threads i t p hi := by cases hi
  workflows i t p u ref hi := by cases hi
  triggers i environmentID input x u n hi := by cases hi

end Iwifunni.Workflow
