/-
Iwifunni/Workflow/Stranding.lean

Executions that nobody works on any more.

A handling that ends with ErrInvalidWorkflow gives its job up without writing the
execution, and so does the last attempt of a job when a call fails.  If a step is
removed from the definition while its job is queued, the execution stays 'queued'
for ever (`stranded_by_update`).

What does hold: as long as the definition still has the step when it is read, the
last attempt of a job does not fail on a call while it is the last job of the
execution, jobs of one execution are not handled at the same time, and a trigger
enqueues the first step of what it has created, every execution that is neither
completed nor failed has a job in the queue (`job_of_unfinished`).
-/
import Iwifunni.Workflow.Locality
import Iwifunni.Workflow.Sequential

namespace Iwifunni.Workflow

open Go Db Effect Effect.Prog

variable {s : Service} {w w' : World} {x : UUID} {ref : StepRef}

/-! ### The condition -/

/-- The stored definition has the node that a job names. -/
def Located (w : World) (ref : StepRef) : Prop :=
  ∀ workflow, w.workflows.find? (fun r => r.id == ref.workflowID &&
    r.environmentID == ref.environmentID) = some workflow →
    ∃ d, locate workflow ref.stepID = .ok d

/-- The condition on one step of a run: a job is taken up only if it can be read
and nobody is busy with its execution; the definition read has the node; the last
attempt of a job fails on a call only if the execution has another job; a trigger
creates executions with a first step and enqueues it; only handlings are lost. -/
def tended (s : Service) (p : EnginePool) : EngineEvent → Prop
  | .start _ (.step t) => ∃ ref, readJob t.job = some ref ∧ ¬ Busy p ref.executionID
  | .call i a => ∀ l log prog, p.threads i = some ⟨l, log, prog⟩ →
      match l with
      | .step t => ∀ ref, readJob t.job = some ref →
          ((∃ id environmentID, a.1 = .getByID id environmentID) → Located p.world ref) ∧
          (Fails a → t.retried < s.maxRetry ∨ ¬ NoJob p.world ref.executionID)
      | .trigger _ _ => ¬ a.1.Bare ∧ ¬ Unlaunched a
  | .lose i => ∃ t log prog, p.threads i = some ⟨.step t, log, prog⟩
  | _ => True

/-! ### Moves -/

/-- A handling that is done has written the execution for the last time. -/
theorem Move.done {a p p'} (h : Move ref a p w p' w') (hp : p.isDone = false)
    (hp' : p'.isDone = true) : ∃ u handed, p = .closed u handed ∧ p' = .settled handed ∧
      StatusWritten ref.executionID (if handed then .queued else .completed) w w' := by
  cases h with
  | stay =>
      rw [hp] at hp'
      cases hp'
  | settle h => exact ⟨_, _, rfl, rfl, h⟩
  | _ => cases hp'

/-- What is handed over is in the queue. -/
theorem Move.handedOver {a p p'} (h : Move ref a p w p' w') (hp' : p'.handedOver = true) :
    p.handedOver = true ∨ ¬ NoJob w' ref.executionID := by
  have hnew : ∀ {u job d}, ref.Owns u job → Queued job d w w' → ¬ NoJob w' ref.executionID := by
    rintro u job d ho ⟨-, rfl⟩ hjobs
    exact hjobs _ (List.mem_append_right _ (List.mem_singleton_self _)) ho.jobExecution_eq
  cases h with
  | schedule ho h => exact Or.inr (hnew ho h)
  | dispatch ho h => exact Or.inr (hnew ho h)
  | fetch | locate | miss | «open» | run | giveUp => cases hp'
  | _ => exact Or.inl hp'

/-- A move takes no job away. -/
theorem Move.noJob {a p p'} (h : Move ref a p w p' w') (hjobs : NoJob w' x) : NoJob w x := by
  rcases h.queue with heq | ⟨u, job, d, -, -, -, -, heq⟩
  · exact (noJob_congr heq).mp hjobs
  · intro t ht
    exact hjobs t (heq ▸ List.mem_append_left _ ht)

theorem Move.failed {a p p'} (h : Move ref a p w p' w') (hp' : p' = .failed) :
    (p = .failed ∧ w' = w) ∨ w'.status ref.executionID = some .failed := by
  cases h with
  | stay => exact Or.inl ⟨hp', rfl⟩
  | giveUp h => exact Or.inr h.status_self
  | _ => cases hp'

theorem Move.broken {a p p' handed} (h : Move ref a p w p' w') (hp' : p' = .broken handed) :
    (p = .broken handed ∨ Fails a) ∧ w' = w := by
  cases h with
  | stay => exact ⟨Or.inl hp', rfl⟩
  | «break» hf => exact ⟨Or.inr hf, rfl⟩
  | _ => cases hp'

/-- A handling finds its node where the stored definition has it. -/
theorem Move.found {a p p'} (h : Move ref a p w p' w')
    (hlocated : (∃ id environmentID, a.1 = .getByID id environmentID) → Located w ref)
    (hp : p ≠ .rejected ∧ p ≠ .unlocated) : p' ≠ .rejected ∧ p' ≠ .unlocated := by
  cases h with
  | stay => exact hp
  | miss hfind hl ha =>
      obtain ⟨d, hd⟩ := hlocated ha _ hfind
      rw [hl] at hd
      cases hd
  | _ => exact ⟨by simp, by simp⟩

/-! ### The invariant -/

/-- What is known of one execution: at most one worker is busy with it, and somebody
is responsible for it unless it is completed or failed. -/
structure Tended (s : Service) (x : UUID) (v : EngineView) : Prop where
  one : ∀ i j p q, HandledAt v x i p → HandledAt v x j q → p.isDone = false →
    q.isDone = false → i = j
  handed : ∀ i p, HandledAt v x i p → p.isDone = false → p.handedOver = true →
    ¬ NoJob v.world x
  found : ∀ i p, HandledAt v x i p → p ≠ .rejected ∧ p ≠ .unlocated
  failed : ∀ i, HandledAt v x i .failed → v.world.status x = some .failed
  broken : ∀ i t handed r, v.phases i = some (.step t, (.broken handed, r)) →
    jobExecution t.job = some x → t.retried < s.maxRetry ∨ ¬ NoJob v.world x
  safe : ∀ st, v.world.status x = some st → st = .completed ∨ st = .failed ∨
    ¬ NoJob v.world x ∨ (∃ i p, HandledAt v x i p ∧ p.isDone = false) ∨ ∃ i, OwedBy v x i

variable {v v' : EngineView}

/-- A step after which nobody new handles the execution. -/
theorem Tended.less (h : Tended s x v)
    (hsteps : ∀ i t st, v'.phases i = some (.step t, st) → jobExecution t.job = some x →
      v.phases i = some (.step t, st))
    (hfailed : v.world.status x = some .failed → v'.world.status x = some .failed)
    (hjobs : NoJob v'.world x → NoJob v.world x)
    (hsafe : ∀ st, v'.world.status x = some st → st = .completed ∨ st = .failed ∨
      ¬ NoJob v'.world x ∨ (∃ i p, HandledAt v' x i p ∧ p.isDone = false) ∨
      ∃ i, OwedBy v' x i) : Tended s x v' := by
  have hold : ∀ {i p}, HandledAt v' x i p → HandledAt v x i p := by
    rintro i p ⟨t, r, hi, hjob⟩
    exact ⟨t, r, hsteps i t _ hi hjob, hjob⟩
  refine ⟨?_, ?_, ?_, ?_, ?_, hsafe⟩
  · intro i j p q hi hj
    exact h.one i j p q (hold hi) (hold hj)
  · intro i p hi hp hhanded hnone
    exact h.handed i p (hold hi) hp hhanded (hjobs hnone)
  · intro i p hi
    exact h.found i p (hold hi)
  · intro i hi
    exact hfailed (h.failed i (hold hi))
  · intro i t handed r hi hjob
    rcases h.broken i t handed r (hsteps i t _ hi hjob) hjob with hlt | hsome
    · exact Or.inl hlt
    · exact Or.inr fun hnone => hsome (hjobs hnone)

/-- What is known of an execution stays true where a step does not concern it. -/
theorem Tended.frame (h : Tended s x v) (hs : SameAt x v v') : Tended s x v' := by
  refine h.less hs.1.steps (fun hst => by rw [hs.1.status, hst]) hs.2.jobs ?_
  intro st hst
  rw [hs.1.status] at hst
  rcases h.safe st hst with hc | hf | hsome | ⟨i, p, hi, hp⟩ | ⟨i, hi⟩
  · exact Or.inl hc
  · exact Or.inr (Or.inl hf)
  · exact Or.inr (Or.inr (Or.inl fun hnone => hsome (hs.2.jobs hnone)))
  · exact Or.inr (Or.inr (Or.inr (Or.inl ⟨i, p, hs.2.handledAt hi, hp⟩)))
  · exact Or.inr (Or.inr (Or.inr (Or.inr ⟨i, hs.2.owed i hi⟩)))

/-! ### Handlings -/

section Handlings

variable {i : ℕ} {t : Task} {p p' : Phase} {r r' : Route}

/-- A job is taken up. -/
theorem Tended.take (h : Tended s x v) (hi : v.phases i = none) (hread : readJob t.job = some ref)
    (hx : ref.executionID = x) (hfree : ∀ j q, HandledAt v x j q → q.isDone = true) :
    Tended s x ⟨{ v.world with queue := v.world.queue.erase t },
      Function.update v.phases i (some (.step t, (.start, r)))⟩ := by
  have hjob : jobExecution t.job = some x := hx ▸ jobExecution_of_readJob hread
  have hself : HandledAt ⟨{ v.world with queue := v.world.queue.erase t },
      Function.update v.phases i (some (.step t, (.start, r)))⟩ x i .start :=
    ⟨t, r, Function.update_self .., hjob⟩
  have hold : ∀ {j t' st}, (Function.update v.phases i (some (.step t, (.start, r)))) j
      = some (.step t', st) → (j = i ∧ t' = t ∧ st = (.start, r)) ∨
        v.phases j = some (.step t', st) := by
    intro j t' st hj
    rcases update_some_eq_some hj with ⟨rfl, heq⟩ | ⟨-, hj⟩
    · cases heq
      exact Or.inl ⟨rfl, rfl, rfl⟩
    · exact Or.inr hj
  -- whoever is not done is the one who has just begun
  have hbusy : ∀ {j q}, HandledAt ⟨{ v.world with queue := v.world.queue.erase t },
      Function.update v.phases i (some (.step t, (.start, r)))⟩ x j q → q.isDone = false →
      j = i ∧ q = .start := by
    rintro j q ⟨t', r', hj, hjob'⟩ hq
    rcases hold hj with ⟨rfl, rfl, heq⟩ | hj
    · cases heq
      exact ⟨rfl, rfl⟩
    · rw [hfree j q ⟨t', r', hj, hjob'⟩] at hq
      cases hq
  refine ⟨?_, ?_, ?_, ?_, ?_, ?_⟩
  · intro j k q q' hj hk hq hq'
    rw [(hbusy hj hq).1, (hbusy hk hq').1]
  · intro j q hj hq hhanded
    obtain ⟨-, rfl⟩ := hbusy hj hq
    cases hhanded
  · rintro j q ⟨t', r', hj, hjob'⟩
    rcases hold hj with ⟨rfl, rfl, heq⟩ | hj
    · cases heq
      exact ⟨by simp, by simp⟩
    · exact h.found j q ⟨t', r', hj, hjob'⟩
  · intro j hj
    cases (hbusy hj rfl).2
  · intro j t' handed r' hj hjob'
    cases (hbusy ⟨t', r', hj, hjob'⟩ rfl).2
  · intro st _
    exact Or.inr (Or.inr (Or.inr (Or.inl ⟨i, .start, hself, rfl⟩)))

/-- **A call of a handling keeps what is known of its own execution.** -/
theorem Tended.handle (h : Tended s x v) (hx : ref.executionID = x)
    (hi : v.phases i = some (.step t, (p, r))) (hread : readJob t.job = some ref)
    {a : Answered Op.Res GoError} (hp : p.isDone = false)
    (hmove : Move ref a p v.world p' w')
    (hlocated : (∃ id environmentID, a.1 = .getByID id environmentID) → Located v.world ref)
    (hfails : Fails a → t.retried < s.maxRetry ∨ ¬ NoJob v.world x) :
    Tended s x ⟨w', Function.update v.phases i (some (.step t, (p', r')))⟩ := by
  subst hx
  have hjob := jobExecution_of_readJob hread
  have hself : HandledAt v ref.executionID i p := ⟨t, r, hi, hjob⟩
  have hself' : HandledAt ⟨w', Function.update v.phases i (some (.step t, (p', r')))⟩
      ref.executionID i p' := ⟨t, r', Function.update_self .., hjob⟩
  have hold : ∀ {j t' st}, (Function.update v.phases i (some (.step t, (p', r')))) j
      = some (.step t', st) → (j = i ∧ t' = t ∧ st = (p', r')) ∨
        (j ≠ i ∧ v.phases j = some (.step t', st)) := by
    intro j t' st hj
    rcases update_some_eq_some hj with ⟨rfl, heq⟩ | ⟨hne, hj⟩
    · cases heq
      exact Or.inl ⟨rfl, rfl, rfl⟩
    · exact Or.inr ⟨hne, hj⟩
  -- the handling at work is the only busy one, before and after
  have hbusy : ∀ {j q}, HandledAt ⟨w', Function.update v.phases i (some (.step t, (p', r')))⟩
      ref.executionID j q → q.isDone = false → j = i ∧ q = p' := by
    rintro j q ⟨t', r'', hj, hjob'⟩ hq
    rcases hold hj with ⟨rfl, rfl, heq⟩ | ⟨hne, hj⟩
    · cases heq
      exact ⟨rfl, rfl⟩
    · exact absurd (h.one j i q p ⟨t', r'', hj, hjob'⟩ hself hq hp) hne
  refine ⟨?_, ?_, ?_, ?_, ?_, ?_⟩
  · intro j k q q' hj hk hq hq'
    rw [(hbusy hj hq).1, (hbusy hk hq').1]
  · intro j q hj hq hhanded
    obtain ⟨-, rfl⟩ := hbusy hj hq
    rcases hmove.handedOver hhanded with hbefore | hsome
    · exact fun hnone => h.handed i p hself hp hbefore (hmove.noJob hnone)
    · exact hsome
  · rintro j q ⟨t', r'', hj, hjob'⟩
    rcases hold hj with ⟨rfl, rfl, heq⟩ | ⟨-, hj⟩
    · cases heq
      exact hmove.found hlocated (h.found _ p hself)
    · exact h.found j q ⟨t', r'', hj, hjob'⟩
  · intro j hj
    obtain ⟨rfl, hp'⟩ := hbusy hj rfl
    rcases hmove.failed hp'.symm with ⟨rfl, rfl⟩ | hst
    · exact h.failed _ hself
    · exact hst
  · intro j t' handed r'' hj hjob'
    obtain ⟨rfl, hp'⟩ := hbusy ⟨t', r'', hj, hjob'⟩ rfl
    rcases hold hj with ⟨-, rfl, -⟩ | ⟨hne, -⟩
    · obtain ⟨hbefore, rfl⟩ := hmove.broken hp'.symm
      rcases hbefore with rfl | hf
      · exact h.broken _ t' handed r hi hjob
      · exact hfails hf
    · exact absurd rfl hne
  · intro st hst
    cases hp' : p'.isDone with
    | false => exact Or.inr (Or.inr (Or.inr (Or.inl ⟨i, p', hself', hp'⟩)))
    | true =>
        -- the execution is completed, or a successor has been handed over
        obtain ⟨u, handed, rfl, rfl, hwritten⟩ := hmove.done hp hp'
        have hnew := hwritten.status_self
        rw [show w'.status ref.executionID = some st from hst] at hnew
        cases handed with
        | false => exact Or.inl (Option.some.inj hnew)
        | true =>
            refine Or.inr (Or.inr (Or.inl fun hnone => ?_))
            exact h.handed i _ hself hp rfl (hmove.noJob hnone)

/-- A handling ends: it was done, or the job goes back, or somebody else is
responsible, or the execution has failed. -/
theorem Tended.leave (h : Tended s x v) (hi : v.phases i = some (.step t, (p, r)))
    {queue : List Task}
    (hqueue : queue = v.world.queue ∨ ∃ t', queue = v.world.queue ++ [t'] ∧
      jobExecution t'.job = some x)
    (hsafe : p.isDone = true ∨ v.world.status x = some .failed ∨
      ¬ NoJob { v.world with queue := queue } x) :
    Tended s x ⟨{ v.world with queue := queue }, Function.update v.phases i none⟩ := by
  have hjobs : NoJob { v.world with queue := queue } x → NoJob v.world x := by
    rcases hqueue with rfl | ⟨t', rfl, -⟩
    · exact id
    · exact fun hnone => (noJob_append.mp hnone).1
  refine h.less (fun j t' st hj _ => (update_none_eq_some hj).2) id hjobs ?_
  intro st hst
  rcases hsafe with hp | hfailed | hsome
  · -- what kept it safe before, and was not this handling, still does
    rcases h.safe st hst with hc | hf | hsome | ⟨j, q, hj, hq⟩ | ⟨j, hj⟩
    · exact Or.inl hc
    · exact Or.inr (Or.inl hf)
    · exact Or.inr (Or.inr (Or.inl fun hnone => hsome (hjobs hnone)))
    · obtain ⟨t', r', hj, hjob'⟩ := hj
      -- a handling that is done does not keep it safe
      have hne : j ≠ i := by
        rintro rfl
        rw [hi] at hj
        cases hj
        rw [hp] at hq
        cases hq
      refine Or.inr (Or.inr (Or.inr (Or.inl ⟨j, q, ⟨t', r', ?_, hjob'⟩, hq⟩)))
      rw [← hj]
      exact Function.update_of_ne hne ..
    · -- and it is no trigger
      obtain ⟨environmentID, input, u, n, r', hj⟩ := hj
      have hne : j ≠ i := by
        rintro rfl
        rw [hi] at hj
        cases hj
      refine Or.inr (Or.inr (Or.inr (Or.inr ⟨j, environmentID, input, u, n, r', ?_⟩)))
      rw [← hj]
      exact Function.update_of_ne hne ..
  · have heq : some Status.failed = some st := hfailed.symm.trans hst
    exact Or.inr (Or.inl (Option.some.inj heq).symm)
  · exact Or.inr (Or.inr (Or.inl hsome))

/-- A job that is given up leaves a failed execution or another job behind. -/
theorem Tended.gone (h : Tended s x v) (hproducer : s.producer = true)
    (hi : v.phases i = some (.step t, (p, r))) (hjob : jobExecution t.job = some x)
    {e : GoError} (hends : p.Ends s (.error e))
    (hgone : skipRetry e = true ∨ ¬ t.retried < s.maxRetry) :
    p.isDone = true ∨ v.world.status x = some .failed ∨ ¬ NoJob v.world x := by
  have hself : HandledAt v x i p := ⟨t, r, hi, hjob⟩
  cases p with
  | rejected => exact absurd rfl (h.found i _ hself).1
  | unlocated => exact absurd rfl (h.found i _ hself).2
  | closed u handed =>
      have hno : s.producer = false := hends.2.1
      rw [hproducer] at hno
      cases hno
  | failed => exact Or.inr (Or.inl (h.failed i hself))
  | settled => cases hends
  | broken handed =>
      obtain ⟨e', heq, hskip⟩ := hends
      cases heq
      rcases hgone with hgone | hlast
      · rw [hskip] at hgone
        cases hgone
      · rcases h.broken i t handed r hi hjob with hlt | hsome
        · exact absurd hlt hlast
        · exact Or.inr (Or.inr hsome)
  | _ => exact hends.elim

end Handlings

/-! ### Triggers -/

/-- **A call of a trigger keeps what is known of every execution**, if it creates no
execution without a first step and can enqueue that step. -/
theorem Tended.trigger (h : Tended s x v) (hproducer : s.producer = true) {i : ℕ}
    {environmentID : UUID} {input : TriggerEventInput} {p p' : Phase} {r : Route}
    {a : Answered Op.Res GoError}
    (hi : v.phases i = some (.trigger environmentID input, (p, r)))
    (hmove : TriggerMove s environmentID a p v.world p' w') (hbare : ¬ a.1.Bare)
    (hlaunched : ¬ Unlaunched a) :
    Tended s x ⟨w', Function.update v.phases i (some (.trigger environmentID input, (p', r)))⟩ := by
  have hsteps : ∀ j t st, (Function.update v.phases i
      (some (.trigger environmentID input, (p', r)))) j = some (.step t, st) →
      jobExecution t.job = some x → v.phases j = some (.step t, st) := by
    intro j t st hj _
    rcases update_some_eq_some hj with ⟨-, heq⟩ | ⟨-, hj⟩
    · cases heq
    · exact hj
  -- the trigger owes the execution a job
  by_cases hp : ∃ u n, p = .owing x u n
  · obtain ⟨u, n, rfl⟩ := hp
    generalize hw : v.world = w at hmove
    cases hmove with
    | stay =>
        subst hw
        rw [← hi, Function.update_eq_self]
        exact h
    | stop _ _ hstop => exact absurd (hstop _ _ _ rfl) hlaunched
    | launch hq =>
        subst hw
        obtain ⟨-, rfl⟩ := hq
        refine h.less hsteps id (fun hnone => (noJob_append.mp hnone).1) fun st _ => ?_
        refine Or.inr (Or.inr (Or.inl fun hnone => (noJob_append.mp hnone).2 ?_))
        rw [jobExecution, UUID.parse_trimSpace_toString]
  -- it has just created the execution
  · by_cases hc : ∃ row, Created row v.world w' ∧ row.id = x
    · obtain ⟨row, hc, rfl⟩ := hc
      have hqueue : w'.queue = v.world.queue := by rw [hc.2.2]
      refine h.less hsteps ?_ (noJob_congr hqueue).mp fun st _ => ?_
      · intro hst
        rw [hc.status_none] at hst
        cases hst
      · refine Or.inr (Or.inr (Or.inr (Or.inr ⟨i, ?_⟩)))
        have hpresent : w'.executions.get row.id = some row := by
          rw [hc.2.2]
          exact Table.get_set_self ..
        generalize hw : v.world = w at hmove hc
        cases hmove with
        | stay | stop =>
            rw [hc.1] at hpresent
            cases hpresent
        | @create row' stepID _ _ hc' =>
            have hsame : row'.id = row.id := hc.id_eq hc'
            rw [← hsame]
            exact ⟨environmentID, input, _, _, r, Function.update_self ..⟩
        | createOnly _ _ hb =>
            rcases hb with hb | hb
            · exact absurd hb hbare
            · rw [hproducer] at hb
              cases hb
        | launch hq =>
            rw [hq.2] at hpresent
            rw [show _ = none from hc.1] at hpresent
            cases hpresent
    -- what it does to others cannot be seen here
    · exact h.frame (sameAt_of_triggerMove hi hmove hp fun row hrow hx => hc ⟨row, hrow, hx⟩)

/-! ### Runs -/

section Steps

variable {p : EnginePool} {w w' : World} {ph : ℕ → Option (Activity × Phase × Route)} {i : ℕ}

/-- The view of the engine, with phases and routes. -/
abbrev engineView (s : Service) (p : EnginePool) : EngineView :=
  ((handling s).prod routing).view p

/-- **A job is taken up** only when nobody is busy with its execution. -/
theorem Tended.start {t : Task} (hx : Tended s x ⟨w, ph⟩)
    (hkept : ((handling s).prod routing).Kept p) (hv : engineView s p = ⟨w, ph⟩)
    (hnone : ph i = none) (hread : readJob t.job = some ref) (hidle : ¬ Busy p ref.executionID) :
    Tended s x ⟨{ w with queue := w.queue.erase t },
      Function.update ph i (some (.step t, ((handling s).prod routing).init (.step t)))⟩ := by
  have hinit : ((handling s).prod routing).init (.step t) = (.start, .start) := by
    simp [Protocol.prod, handling, routing, hread]
  rw [hinit]
  by_cases hjob : jobExecution t.job = some x
  · have href : ref.executionID = x := by
      rw [jobExecution_of_readJob hread] at hjob
      exact Option.some.inj hjob
    refine hx.take hnone hread href ?_
    rintro j q ⟨t', r, hj, hjob'⟩
    obtain ⟨⟨l', log, prog⟩, hth, rfl, -, hkeep⟩ :=
      hkept.thread_of_view ((congrFun (congrArg (·.phases) hv) j).trans hj)
    -- whoever is not done is busy
    by_contra hq
    refine hidle ⟨j, t', log, prog, hth, href ▸ hjob', ?_⟩
    rintro rfl
    exact hq (ends_ok (Prog.keeps_ret.mp hkeep).1)
  · exact hx.frame (sameAt_of_take (v := ⟨w, ph⟩) hnone hjob _)

/-- **A handling ends**: its job is back in the queue, or nothing of the execution was left to
it. -/
theorem Tended.finish {t : Task} {p₁ : Phase} {r₁ : Route} {out : Except GoError Unit}
    (hx : Tended s x ⟨w, ph⟩) (hproducer : s.producer = true)
    (hi : ph i = some (.step t, (p₁, r₁))) (hends : p₁.Ends s out) :
    Tended s x ⟨w.closeTask s.maxRetry t out, Function.update ph i none⟩ := by
  by_cases hjob : jobExecution t.job = some x
  · cases out with
    | ok a => exact hx.leave hi (Or.inl rfl) (Or.inl (ends_ok hends))
    | error e =>
        rcases closeTask_error s.maxRetry w t e with heq | ⟨heq, hgone⟩ <;> rw [heq]
        · refine hx.leave hi (Or.inr ⟨t.retry, rfl, hjob⟩) (Or.inr (Or.inr ?_))
          exact fun hnone => (noJob_append.mp hnone).2 hjob
        · exact hx.leave hi (Or.inl rfl) (hx.gone hproducer hi hjob hends hgone)
  · rcases closeTask_queue s.maxRetry w t out with heq | ⟨heq, -, -⟩ <;> rw [heq]
    · exact hx.frame (sameAt_of_leave (v := ⟨w, ph⟩) hi (by rwa [concerns_step]) (Or.inl rfl))
    · exact hx.frame (sameAt_of_leave (v := ⟨w, ph⟩) hi (by rwa [concerns_step])
        (Or.inr ⟨t, t.retry, rfl, rfl, rfl⟩))

/-- A handling is lost, and its job is back in the queue. -/
theorem Tended.lose {t : Task} {p₁ : Phase} {r₁ : Route} (hx : Tended s x ⟨w, ph⟩)
    (hi : ph i = some (.step t, (p₁, r₁))) :
    Tended s x ⟨{ w with queue := w.queue ++ [t] }, Function.update ph i none⟩ := by
  by_cases hjob : jobExecution t.job = some x
  · refine hx.leave hi (Or.inr ⟨t, rfl, hjob⟩) (Or.inr (Or.inr ?_))
    exact fun hnone => (noJob_append.mp hnone).2 hjob
  · exact hx.frame (sameAt_of_leave (v := ⟨w, ph⟩) hi (by rwa [concerns_step])
      (Or.inr ⟨t, t, rfl, rfl, rfl⟩))

/-- **A call of a handling** concerns its own execution or none. -/
theorem Tended.call {t : Task} {p₁ p₂ : Phase} {r₁ r₂ : Route} {op : Op}
    {y : Except GoError op.Res} (hx : Tended s x ⟨w, ph⟩) (hi : ph i = some (.step t, (p₁, r₁)))
    (hread : readJob t.job = some ref) (hstep : stepNext ref p₁ ⟨op, y⟩ = some p₂)
    (hcall : Call op w y w')
    (hlocated : (∃ id environmentID, op = .getByID id environmentID) → Located w ref)
    (hfails : Fails ⟨op, y⟩ → t.retried < s.maxRetry ∨ ¬ NoJob w ref.executionID) :
    Tended s x ⟨w', Function.update ph i (some (.step t, (p₂, r₂)))⟩ := by
  have hmove := move_of_call hstep hcall
  by_cases href : x = ref.executionID
  · subst href
    -- a handling that is done makes no more calls
    have hp : p₁.isDone = false := by
      by_contra hdone
      rw [stepNext_of_isDone (by simpa using hdone)] at hstep
      cases hstep
    exact hx.handle rfl hi hread hp hmove hlocated hfails
  · exact hx.frame (sameAt_of_move (v := ⟨w, ph⟩) hi hread hmove href)

/-- **Every step under the condition keeps the invariant.** -/
theorem Tended.step (hproducer : s.producer = true) {e : EngineEvent}
    (hkept : ((handling s).prod routing).Kept p)
    (h : ∀ x, Tended s x (engineView s p)) (htended : tended s p e)
    (hs : ((handling s).prod routing).ViewStep (engine s) (engineView s p) e v') (x : UUID) :
    Tended s x v' := by
  have hthread : ∀ {i l st}, (engineView s p).phases i = some (l, st) →
      ∃ log prog, p.threads i = some ⟨l, log, prog⟩ := by
    intro i l st hi
    obtain ⟨⟨l', log, prog⟩, hth, rfl, -, -⟩ := hkept.thread_of_view hi
    exact ⟨log, prog, hth⟩
  have hworld : p.world = (engineView s p).world := rfl
  have hx := h x
  generalize hv : engineView s p = v at hx hs hthread hworld
  cases hs with
  | @start w w' ph i l hnone hsp =>
      cases l with
      | step t =>
          obtain ⟨-, rfl⟩ := hsp
          obtain ⟨ref, hread, hidle⟩ := htended
          exact hx.start hkept hv hnone hread hidle
      | trigger environmentID input =>
          cases hsp
          exact hx.frame (sameAt_of_trigger (v := ⟨_, ph⟩) hnone)
  | @call w w' ph i l q q' op y hi hnext hcall =>
      obtain ⟨p₁, r₁⟩ := q
      obtain ⟨p₂, r₂⟩ := q'
      obtain ⟨hphase, hroute⟩ := Protocol.prod_next_eq_some.mp hnext
      obtain ⟨log, prog, hth⟩ := hthread hi
      have hcond := htended l log prog hth
      cases l with
      | step t =>
          simp only [handling, Option.bind_eq_some_iff] at hphase
          obtain ⟨ref, hread, hstep⟩ := hphase
          obtain ⟨hlocated, hfails⟩ := hcond ref hread
          have hw : p.world = w := hworld
          rw [hw] at hlocated hfails
          exact hx.call hi hread hstep hcall hlocated hfails
      | trigger environmentID input =>
          cases hroute
          exact hx.trigger hproducer hi (triggerMove_of_call hphase hcall) hcond.1 hcond.2
  | @finish w w' ph i l q out hi hends hclose =>
      obtain ⟨p₁, r₁⟩ := q
      cases l with
      | trigger environmentID input =>
          cases hclose
          have hends' : p₁.TriggerEnds out := hends.1
          refine hx.frame (sameAt_of_leave (v := ⟨w, ph⟩) hi ?_ (Or.inl rfl))
          rw [concerns_trigger]
          -- a trigger that still owes a job does not end
          rintro ⟨u, n, rfl⟩
          exact hends'
      | step t =>
          cases hclose
          exact hx.finish hproducer hi hends.1
  | @lose w w' ph i l q hi hl =>
      obtain ⟨p₁, r₁⟩ := q
      obtain ⟨log, prog, hth⟩ := hthread hi
      obtain ⟨t, log', prog', hth'⟩ := htended
      rw [hth] at hth'
      cases hth'
      cases hl
      exact hx.lose hi
  | @env w w' ph c he =>
      cases he
      exact hx.frame (sameAt_of_change (v := ⟨w, ph⟩) c)

end Steps

/-- At the beginning nothing is left behind. -/
theorem tended_of_fresh (h : w.Fresh) (x : UUID) :
    Tended s x (((handling s).prod routing).view (idle w)) where
  one i j p q := by rintro ⟨t, r, hi, -⟩; cases hi
  handed i p := by rintro ⟨t, r, hi, -⟩; cases hi
  found i p := by rintro ⟨t, r, hi, -⟩; cases hi
  failed i := by rintro ⟨t, r, hi, -⟩; cases hi
  broken i t handed r hi := by cases hi
  safe st hst := by
    have hnone : w.status x = none := by
      rw [World.status, h.executions, Option.map_none]
    rw [show w.status x = some st from hst] at hnone
    cases hnone

/-- **An execution that is neither completed nor failed has a job in the queue**,
whenever nobody is busy with it and no trigger is in progress, in every run that
meets the condition. -/
theorem job_of_unfinished (hproducer : s.producer = true) {p : EnginePool}
    {evs : List EngineEvent} (hfresh : w.Fresh) (h : Run (engine s) (tended s) (idle w) evs p)
    {row : WorkflowExecution} (hx : p.world.executions.get x = some row)
    (hidle : ¬ Busy p x)
    (htrigger : ∀ i environmentID input log prog,
      p.threads i ≠ some ⟨.trigger environmentID input, log, prog⟩) :
    row.status = .completed ∨ row.status = .failed ∨
      ∃ t ∈ p.world.queue, jobExecution t.job = some x := by
  obtain ⟨hkept, htended⟩ := h.view_invariant (P := (handling s).prod routing)
    (I := fun _ v => ∀ x, Tended s x v) (keeps_engine_routing s) (by
      intro evs q e q' hk hI hc hs i a l st he hph
      subst he
      cases hs with
      | call _ hcall => exact ⟨expects_of_call hcall, True.intro⟩)
    (fun evs q e v' hk hI hc hs => Tended.step hproducer hk hI hc hs)
    (Protocol.kept_of_idle fun _ => rfl) (tended_of_fresh hfresh)
  have hst : p.world.status x = some row.status := by
    rw [World.status, hx, Option.map_some]
  rcases (htended x).safe row.status hst with hc | hf | hsome | ⟨i, q, hi, hq⟩ | ⟨i, hi⟩
  · exact Or.inl hc
  · exact Or.inr (Or.inl hf)
  -- there is a job
  · refine Or.inr (Or.inr ?_)
    by_contra hnone
    exact hsome fun t ht hjob => hnone ⟨t, ht, hjob⟩
  -- a handling that is not done would be busy
  · obtain ⟨t, r, hi, hjob⟩ := hi
    obtain ⟨⟨l, log, prog⟩, hth, rfl, -, hkeep⟩ := hkept.thread_of_view hi
    refine absurd ⟨i, t, log, prog, hth, hjob, ?_⟩ hidle
    rintro rfl
    rw [ends_ok (Prog.keeps_ret.mp hkeep).1] at hq
    cases hq
  -- a trigger that owes its first step is still there
  · obtain ⟨environmentID, input, u, n, r, hi⟩ := hi
    obtain ⟨⟨l, log, prog⟩, hth, rfl, -, -⟩ := hkept.thread_of_view hi
    exact absurd hth (htrigger i environmentID input log prog)

/-- A step and a notification after it. -/
def twoSteps : Definition where
  trigger := ⟨"user.signup"⟩
  nodes := [Sample.start "root", Sample.notify "mail"]
  edgeSlice := some [⟨"root", "mail", ""⟩]

/-- The world after the trigger. -/
def triggered : World :=
  (Sample.world twoSteps).trigger Sample.service Sample.environmentID Sample.event

/-- Nothing goes wrong in the trigger. -/
def startsAndQueues (_ : World) : Answered Op.Res GoError → Bool
  | ⟨.createExecution arg, _⟩ => arg.currentStepID.isSome
  | ⟨.enqueueWorkflowStep _, r⟩ => r.toOption.isSome
  | _ => true

/-- The first step is found. -/
def findsRoot (w : World) : Answered Op.Res GoError → Bool
  | ⟨.getByID _ _, _⟩ => w.workflows.all fun row => (locate row "root").toOption.isSome
  | _ => true

/-- The trigger is served under the condition. -/
theorem run_triggered : ∃ evs,
    Run (engine Sample.service) (tended Sample.service) (idle (Sample.world twoSteps))
    evs (idle triggered) := by
  refine run_activity (l := .trigger Sample.environmentID Sample.event)
    startsAndQueues ?_ (fun _ _ => True.intro) True.intro rfl (by decide +kernel) rfl
  intro w log prog op htest
  generalize (World.answer op w).1 = r at htest ⊢
  intro l log' prog' hth
  simp only [Function.update_self, Option.some.injEq, Thread.mk.injEq] at hth
  obtain ⟨rfl, -, -⟩ := hth
  constructor
  · intro hbare
    cases op with
    | createExecution arg =>
        have hsome : arg.currentStepID.isSome = true := htest
        rw [show arg.currentStepID = none from hbare] at hsome
        cases hsome
    | _ => exact hbare.elim
  · intro hun
    cases op with
    | enqueueWorkflowStep job =>
        cases r with
        | ok a => exact hun.elim
        | error e => cases htest
    | _ => exact hun.elim

/-- And so is the job of the first step. -/
theorem run_rootHandled : ∃ evs,
    Run (engine Sample.service) (tended Sample.service) (idle triggered) evs
    (idle (triggered.handle Sample.service { job := Sample.job "root" })) := by
  have hread : readJob (Sample.job "root") = some ⟨Sample.environmentID, Sample.executionID,
      Sample.workflowID, "root"⟩ := rfl
  refine run_activity (l := .step { job := Sample.job "root" })
    findsRoot ?_ (fun _ _ => True.intro) ⟨_, hread, ?_⟩ ⟨by decide +kernel, rfl⟩
    (by decide +kernel) rfl
  · intro w log prog op htest
    generalize (World.answer op w).1 = r at htest ⊢
    intro l log' prog' hth
    simp only [Function.update_self, Option.some.injEq, Thread.mk.injEq] at hth
    obtain ⟨rfl, -, -⟩ := hth
    intro ref hread'
    cases hread.symm.trans hread'
    refine ⟨?_, fun _ => Or.inl (by decide)⟩
    rintro ⟨id, environmentID, rfl⟩ workflow hfind
    have hall := List.all_eq_true.mp htest workflow (List.mem_of_find?_eq_some hfind)
    rcases hl : locate workflow "root" with e | d
    · rw [hl] at hall
      cases hall
    · exact ⟨d, rfl⟩
  · rintro ⟨j, t, log, prog, hj, -⟩
    cases hj

/-- After the first of two steps the execution is 'queued' and the job of the second
one is there. -/
theorem job_of_unfinished_twoSteps : ∃ evs p row,
    Run (engine Sample.service) (tended Sample.service) (idle (Sample.world twoSteps)) evs p ∧
    p.world.executions.get Sample.executionID = some row ∧ row.status = .queued ∧
    (row.status = .completed ∨ row.status = .failed ∨
      ∃ t ∈ p.world.queue, jobExecution t.job = some Sample.executionID) := by
  obtain ⟨evs₁, h₁⟩ := run_triggered
  obtain ⟨evs₂, h₂⟩ := run_rootHandled
  have hrun := h₁.trans h₂
  obtain ⟨row, hrow⟩ : ∃ row, (triggered.handle Sample.service
      { job := Sample.job "root" }).executions.get Sample.executionID = some row :=
    Option.isSome_iff_exists.mp (by decide +kernel)
  have hst : (triggered.handle Sample.service { job := Sample.job "root" }).status
      Sample.executionID = some .queued := by decide +kernel
  rw [World.status, hrow] at hst
  refine ⟨_, _, row, hrun, hrow, Option.some.inj hst, ?_⟩
  refine job_of_unfinished rfl (Sample.fresh_world twoSteps) hrun hrow ?_
    fun i e n l q h => by cases h
  rintro ⟨j, t, log, prog, hj, -⟩
  cases hj

/-! ### A step that is removed -/

/-- The workflow after its notification was replaced. -/
def replaced : Definition where
  trigger := ⟨"user.signup"⟩
  nodes := [Sample.notify "letter"]
  edgeSlice := some []

/-- The definition is changed while the job of its only step is queued: the job is
given up, and the execution stays 'queued'. -/
theorem stranded_by_update :
    validateDefinition Sample.single = .ok () ∧ validateDefinition replaced = .ok () ∧
    ∃ evs w, Run (engine Sample.service) (fun _ e => notLost e) (idle (Sample.world Sample.single))
        evs (idle w) ∧
      w.status Sample.executionID = some .queued ∧ w.queue = [] := by
  refine ⟨by rfl, by rfl, ?_⟩
  obtain ⟨evs, hrun⟩ := run_acts (s := Sample.service) (C := fun _ e => notLost e)
    (fun _ e he => by cases e <;> first | exact True.intro | exact he.elim)
    (fun _ _ => True.intro) (Sample.world Sample.single)
    [.trigger Sample.environmentID Sample.event,
      .change (.updateDefinition Sample.workflowID Sample.environmentID replaced), .handle 0]
    (fun _ _ _ => True.intro)
  exact ⟨evs, _, hrun, by decide +kernel⟩

end Iwifunni.Workflow
