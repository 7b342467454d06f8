/-
Iwifunni/Workflow/AtMostOnce.lean

How often a notification node sends.

`ProcessStep` does not look at the status of the step row it finds: it puts the
row back to 'running' and handles the node again.  A node with two incoming
paths is therefore handled twice and sends twice, without any failure
(`two_notifications_for_one_node`), and so is a node whose job is retried after
its notification was accepted.

What does hold is proved for runs with failing calls, retries and redeliveries:
if the job of a notification node is only taken up while no other worker handles
that node, and while its row is absent, 'failed', or 'running' with nothing sent
yet, then the node sends at most once (`sentCount_le_one`).
-/
import Iwifunni.Workflow.Ownership
import Iwifunni.Workflow.Sequential

namespace Iwifunni.Workflow

open Go Db Effect Effect.Prog

variable {s : Service} {w w' : World} {wfs : List Db.Workflow}

/-! ### The condition -/

/-- The type of the node a job names, in the stored definition. -/
def nodeType (workflows : List Db.Workflow) (ref : StepRef) : Option StepType :=
  (workflows.find? fun r => r.id == ref.workflowID && r.environmentID == ref.environmentID).bind
    fun workflow => (locate workflow ref.stepID).toOption.map fun d => d.2.type

/-- Some worker is handling a step job of this node. -/
def Handles (p : EnginePool) (x : UUID) (n : String) : Prop :=
  ∃ j t log prog ref, p.threads j = some ⟨.step t, log, prog⟩ ∧ readJob t.job = some ref ∧
    ref.executionID = x ∧ ref.stepID = n

/-- The row of the node shows that nothing has been sent: it is absent or
'failed', or it is 'running' and no notification of the node has been accepted. -/
def Unsent (w : World) (x : UUID) (n : String) : Prop :=
  w.stepStatus x n = none ∨ w.stepStatus x n = some .failed ∨
    (w.stepStatus x n = some .running ∧ w.sentCount x n = 0)

/-- A job of a notification node is taken up only while nobody else handles the
node and its row shows that nothing has been sent. -/
def takenUnsent (p : EnginePool) : EngineEvent → Prop
  | .start _ (.step t) => ∀ ref, readJob t.job = some ref →
      nodeType p.world.workflows ref = some .notification →
      ¬ Handles p ref.executionID ref.stepID ∧
        Unsent p.world ref.executionID ref.stepID
  | _ => True

/-! ### What the moves do to rows and notifications -/

/-- Counting the notifications of a node after one more was accepted. -/
theorem sentCount_send {job : NotificationJob} {x : UUID} {n : String}
    (hjob : notificationStep job = (some x.toString, some n)) (y : UUID) (m : String) :
    World.sentCount { w with notifications := w.notifications ++ [job] } y m
      = w.sentCount y m + if (y, m) = (x, n) then 1 else 0 := by
  have hiff : notificationStep job = (some y.toString, some m) ↔ (y, m) = (x, n) := by
    rw [hjob]
    simp only [Prod.mk.injEq, Option.some.injEq, UUID.toString_injective.eq_iff]
    constructor <;> rintro ⟨rfl, rfl⟩ <;> exact ⟨rfl, rfl⟩
  simp only [World.sentCount, List.countP_append, List.countP_singleton, beq_iff_eq, hiff]

theorem sentCount_eq_of_notifications_eq (h : w'.notifications = w.notifications) (x : UUID)
    (n : String) : w'.sentCount x n = w.sentCount x n := by
  rw [World.sentCount, World.sentCount, h]

theorem stepStatus_eq_of_steps_eq (h : w'.steps = w.steps) (x : UUID) (n : String) :
    w'.stepStatus x n = w.stepStatus x n := by
  rw [World.stepStatus, World.stepStatus, h]

/-- Only the one move sends, and only from a phase that has not sent. -/
theorem Move.sentCount {ref : StepRef} {a p p'} (h : Move ref a p w p' w') :
    (∀ x n, w'.sentCount x n = w.sentCount x n) ∨
      (∃ v handed, p = .working v .notification false handed ∧
        p' = .working v .notification true handed) ∧ w'.steps = w.steps ∧
        ∀ x n, w'.sentCount x n = w.sentCount x n +
          if (x, n) = (ref.executionID, ref.stepID) then 1 else 0 := by
  cases h with
  | send hjob => exact Or.inr ⟨⟨_, _, rfl, rfl⟩, rfl, sentCount_send hjob⟩
  | «open» h | complete h | fail h =>
      obtain ⟨-, -, -, rfl⟩ := h
      exact Or.inl fun _ _ => rfl
  | run h | settle h | giveUp h =>
      obtain ⟨_, _, -, -, -, -, -, -, -, rfl⟩ := h
      exact Or.inl fun _ _ => rfl
  | schedule _ h | dispatch _ h =>
      obtain ⟨-, rfl⟩ := h
      exact Or.inl fun _ _ => rfl
  | _ => exact Or.inl fun _ _ => rfl

/-! ### The invariant -/

/-- The type of the node, once it is known. -/
def Phase.type : Phase → Option StepType
  | located _ ty | opened _ ty | working _ ty _ _ => some ty
  | _ => none

/-- Phases from which the handling may still send. -/
def Phase.maySend : Phase → Bool
  | start | fetched _ | located _ _ | opened _ _ => true
  | working _ _ sent _ => !sent
  | _ => false

/-- Phases between opening the step row and closing it. -/
def Phase.holdsRow : Phase → Bool
  | opened _ _ | working _ _ _ _ => true
  | _ => false

/-- The handlings in progress, by the node they are about. -/
def About (v : View World Activity Phase) (i : ℕ) (ref : StepRef) (p : Phase) : Prop :=
  ∃ t, v.phases i = some (.step t, p) ∧ readJob t.job = some ref

structure SendsOnce (wfs : List Db.Workflow) (v : View World Activity Phase) : Prop where
  owned : Ownership v
  workflows : v.world.workflows = wfs
  typed : ∀ i ref p ty, About v i ref p → p.type = some ty → nodeType wfs ref = some ty
  alone : ∀ i j ref ref' p p', About v i ref p → About v j ref' p' →
    ref.executionID = ref'.executionID → ref.stepID = ref'.stepID →
    nodeType wfs ref = some .notification → i = j
  unsent : ∀ i ref p, About v i ref p → nodeType wfs ref = some .notification →
    p.maySend = true → v.world.sentCount ref.executionID ref.stepID = 0
  running : ∀ i ref p, About v i ref p → nodeType wfs ref = some .notification →
    p.holdsRow = true → v.world.stepStatus ref.executionID ref.stepID = some .running
  le_one : ∀ x n, v.world.sentCount x n ≤ 1
  sent_row : ∀ x n, 0 < v.world.sentCount x n →
    v.world.stepStatus x n = some .running ∨ v.world.stepStatus x n = some .completed
  sent_type : ∀ x n, 0 < v.world.sentCount x n → ∃ row, v.world.executions.get x = some row ∧
    nodeType wfs ⟨row.environmentID, x, row.workflowID, n⟩ = some .notification

section Steps

variable {v : View World Activity Phase}

/-- What the job of a handling says about its execution. -/
theorem Ownership.ref_eq (h : Ownership v) {i : ℕ} {ref : StepRef} {p : Phase}
    (hi : About v i ref p) : ∃ row, v.world.executions.get ref.executionID = some row ∧
      ref = ⟨row.environmentID, ref.executionID, row.workflowID, ref.stepID⟩ := by
  obtain ⟨t, hph, hread⟩ := hi
  obtain ⟨row, hget, hwf, henv⟩ := (h.threads i t p hph).of_readJob hread
  refine ⟨row, hget, ?_⟩
  rw [← hwf, ← henv]

/-- Two handlings of one node were made for the same job fields. -/
theorem Ownership.ref_unique (h : Ownership v) {i j : ℕ} {ref ref' : StepRef} {p p' : Phase}
    (hi : About v i ref p) (hj : About v j ref' p') (hx : ref.executionID = ref'.executionID)
    (hn : ref.stepID = ref'.stepID) : ref = ref' := by
  obtain ⟨row, hget, href⟩ := h.ref_eq hi
  obtain ⟨row', hget', href'⟩ := h.ref_eq hj
  rw [hx, hget'] at hget
  cases hget
  rw [href, href', hx, hn]

/-- The node of a handling has sent, so it is a notification node. -/
theorem SendsOnce.type_of_sent (h : SendsOnce wfs v) {i : ℕ} {ref : StepRef} {p : Phase}
    (hi : About v i ref p) (hsent : 0 < v.world.sentCount ref.executionID ref.stepID) :
    nodeType wfs ref = some .notification := by
  obtain ⟨row, hget, href⟩ := h.owned.ref_eq hi
  obtain ⟨row', hget', htype⟩ := h.sent_type _ _ hsent
  rw [hget] at hget'
  cases hget'
  rw [href]
  exact htype

/-- Steps that touch neither rows nor notifications and let no handling do more
than before. -/
theorem SendsOnce.mono (h : SendsOnce wfs v) {v' : View World Activity Phase}
    (howned : Ownership v') (hwf : v'.world.workflows = v.world.workflows)
    (hsteps : v'.world.steps = v.world.steps)
    (hsent : v'.world.notifications = v.world.notifications) (hk : Kept v.world v'.world)
    (habout : ∀ i ref p, About v' i ref p → About v i ref p) : SendsOnce wfs v' where
  owned := howned
  workflows := hwf.trans h.workflows
  typed i ref p ty hi := h.typed i ref p ty (habout i ref p hi)
  alone i j ref ref' p p' hi hj := h.alone i j ref ref' p p' (habout _ _ _ hi) (habout _ _ _ hj)
  unsent i ref p hi htype hmay := by
    rw [sentCount_eq_of_notifications_eq hsent]
    exact h.unsent i ref p (habout _ _ _ hi) htype hmay
  running i ref p hi htype hrow := by
    rw [stepStatus_eq_of_steps_eq hsteps]
    exact h.running i ref p (habout _ _ _ hi) htype hrow
  le_one x n := by
    rw [sentCount_eq_of_notifications_eq hsent]
    exact h.le_one x n
  sent_row x n := by
    rw [sentCount_eq_of_notifications_eq hsent, stepStatus_eq_of_steps_eq hsteps]
    exact h.sent_row x n
  sent_type x n hx := by
    rw [sentCount_eq_of_notifications_eq hsent] at hx
    obtain ⟨row, hget, htype⟩ := h.sent_type x n hx
    obtain ⟨row', hget', hwf', henv'⟩ := hk x row hget
    exact ⟨row', hget', by rw [hwf', henv']; exact htype⟩

/-- A step of one handling: what has to hold of its own node afterwards. -/
theorem SendsOnce.change (h : SendsOnce wfs v) {i : ℕ} {t : Task} {ref : StepRef}
    {p p' : Phase} {w' : World} (hph : v.phases i = some (.step t, p))
    (hread : readJob t.job = some ref)
    (howned : Ownership ⟨w', Function.update v.phases i (some (.step t, p'))⟩)
    (hwf : w'.workflows = v.world.workflows) (hk : Kept v.world w')
    (hsteps : ∀ x n, (x, n) ≠ (ref.executionID, ref.stepID) →
      w'.stepStatus x n = v.world.stepStatus x n)
    (hsent : ∀ x n, (x, n) ≠ (ref.executionID, ref.stepID) →
      w'.sentCount x n = v.world.sentCount x n)
    (htyped : ∀ ty, p'.type = some ty → nodeType wfs ref = some ty)
    (hunsent : nodeType wfs ref = some .notification → p'.maySend = true →
      w'.sentCount ref.executionID ref.stepID = 0)
    (hrunning : nodeType wfs ref = some .notification → p'.holdsRow = true →
      w'.stepStatus ref.executionID ref.stepID = some .running)
    (hle : w'.sentCount ref.executionID ref.stepID ≤ 1)
    (hrow : 0 < w'.sentCount ref.executionID ref.stepID →
      w'.stepStatus ref.executionID ref.stepID = some .running ∨
      w'.stepStatus ref.executionID ref.stepID = some .completed)
    (htype : 0 < w'.sentCount ref.executionID ref.stepID →
      nodeType wfs ref = some .notification) :
    SendsOnce wfs ⟨w', Function.update v.phases i (some (.step t, p'))⟩ := by
  have hi : About v i ref p := ⟨t, hph, hread⟩
  -- after the step: the handling itself, or another one in its old phase
  have habout : ∀ {j ref' q}, About ⟨w', Function.update v.phases i (some (.step t, p'))⟩ j ref' q →
      (j = i ∧ ref' = ref ∧ q = p') ∨ (j ≠ i ∧ About v j ref' q) := by
    rintro j ref' q ⟨t', hj, hread'⟩
    rcases update_some_eq_some hj with ⟨rfl, heq⟩ | ⟨hne, hj⟩
    · cases heq
      rw [hread] at hread'
      exact Or.inl ⟨rfl, (Option.some.inj hread').symm, rfl⟩
    · exact Or.inr ⟨hne, t', hj, hread'⟩
  have hold : ∀ {j ref' q}, About ⟨w', Function.update v.phases i (some (.step t, p'))⟩ j ref' q →
      ∃ q', About v j ref' q' := by
    intro j ref' q hj
    rcases habout hj with ⟨rfl, rfl, rfl⟩ | ⟨-, hj⟩
    · exact ⟨p, hi⟩
    · exact ⟨q, hj⟩
  -- another handling of a notification node is about another node
  have hother : ∀ {j ref' q}, j ≠ i → About v j ref' q →
      nodeType wfs ref' = some .notification →
      (ref'.executionID, ref'.stepID) ≠ (ref.executionID, ref.stepID) := by
    intro j ref' q hne hj hn heq
    exact hne (h.alone j i ref' ref q p hj hi (Prod.mk.inj heq).1 (Prod.mk.inj heq).2 hn)
  refine ⟨howned, hwf.trans h.workflows, ?_, ?_, ?_, ?_, ?_, ?_, ?_⟩
  · intro j ref' q ty hj hty
    rcases habout hj with ⟨rfl, rfl, rfl⟩ | ⟨-, hj⟩
    · exact htyped ty hty
    · exact h.typed j ref' q ty hj hty
  · intro j j' ref' ref'' q q' hj hj'
    obtain ⟨_, h1⟩ := hold hj
    obtain ⟨_, h2⟩ := hold hj'
    exact h.alone j j' ref' ref'' _ _ h1 h2
  · intro j ref' q hj hn hmay
    rcases habout hj with ⟨rfl, rfl, rfl⟩ | ⟨hne, hj⟩
    · exact hunsent hn hmay
    · rw [hsent _ _ (hother hne hj hn)]
      exact h.unsent j ref' q hj hn hmay
  · intro j ref' q hj hn hq
    rcases habout hj with ⟨rfl, rfl, rfl⟩ | ⟨hne, hj⟩
    · exact hrunning hn hq
    · rw [hsteps _ _ (hother hne hj hn)]
      exact h.running j ref' q hj hn hq
  · intro x n
    by_cases hxn : (x, n) = (ref.executionID, ref.stepID)
    · cases hxn
      exact hle
    · rw [hsent x n hxn]
      exact h.le_one x n
  · intro x n
    by_cases hxn : (x, n) = (ref.executionID, ref.stepID)
    · cases hxn
      exact hrow
    · rw [hsent x n hxn, hsteps x n hxn]
      exact h.sent_row x n
  · intro x n hx
    by_cases hxn : (x, n) = (ref.executionID, ref.stepID)
    · cases hxn
      obtain ⟨row, hget, href⟩ := h.owned.ref_eq hi
      obtain ⟨row', hget', hwf', henv'⟩ := hk _ row hget
      refine ⟨row', hget', ?_⟩
      rw [hwf', henv', ← href]
      exact htype hx
    · rw [hsent x n hxn] at hx
      obtain ⟨row, hget, hty⟩ := h.sent_type x n hx
      obtain ⟨row', hget', hwf', henv'⟩ := hk x row hget
      exact ⟨row', hget', by rw [hwf', henv']; exact hty⟩

/-- A move that neither opens, closes nor fails a row nor sends keeps what is
known about its node. -/
theorem SendsOnce.quiet (h : SendsOnce wfs v) {i : ℕ} {t : Task} {ref : StepRef}
    {p p' : Phase} {w' : World} (hph : v.phases i = some (.step t, p))
    (hread : readJob t.job = some ref)
    (howned : Ownership ⟨w', Function.update v.phases i (some (.step t, p'))⟩)
    (hwf : w'.workflows = v.world.workflows) (hk : Kept v.world w')
    (hsteps : w'.steps = v.world.steps) (hsent : w'.notifications = v.world.notifications)
    (htyped : ∀ ty, p'.type = some ty → nodeType wfs ref = some ty)
    (hmay : p'.maySend = true → p.maySend = true)
    (hholds : p'.holdsRow = true → p.holdsRow = true) :
    SendsOnce wfs ⟨w', Function.update v.phases i (some (.step t, p'))⟩ := by
  have hi : About v i ref p := ⟨t, hph, hread⟩
  have hc := sentCount_eq_of_notifications_eq hsent
  have hst := stepStatus_eq_of_steps_eq hsteps
  refine h.change hph hread howned hwf hk (fun x n _ => hst x n) (fun x n _ => hc x n) htyped
    ?_ ?_ ?_ ?_ ?_
  · intro hn hm
    rw [hc]
    exact h.unsent i ref p hi hn (hmay hm)
  · intro hn hq
    rw [hst]
    exact h.running i ref p hi hn (hholds hq)
  · rw [hc]
    exact h.le_one _ _
  · rw [hc, hst]
    exact h.sent_row _ _
  · rw [hc]
    exact h.type_of_sent hi

/-- So does a move that writes the row of its node to a status that a sent node may have. -/
theorem SendsOnce.write (h : SendsOnce wfs v) {i : ℕ} {t : Task} {ref : StepRef}
    {p p' : Phase} {w' : World} {st : Status} (hph : v.phases i = some (.step t, p))
    (hread : readJob t.job = some ref)
    (howned : Ownership ⟨w', Function.update v.phases i (some (.step t, p'))⟩)
    (hwf : w'.workflows = v.world.workflows) (hk : Kept v.world w')
    (hoff : ∀ x n, (x, n) ≠ (ref.executionID, ref.stepID) →
      w'.stepStatus x n = v.world.stepStatus x n)
    (hst : StepWritten ref.executionID ref.stepID st v.world w')
    (hrow : st = .running ∨ st = .completed ∨
      v.world.sentCount ref.executionID ref.stepID = 0)
    (htyped : ∀ ty, p'.type = some ty → nodeType wfs ref = some ty)
    (hmay : p'.maySend = true → p.maySend = true) (hholds : p'.holdsRow = true → st = .running) :
    SendsOnce wfs ⟨w', Function.update v.phases i (some (.step t, p'))⟩ := by
  have hi : About v i ref p := ⟨t, hph, hread⟩
  have hself := hst.stepStatus_self
  have hc : ∀ x n, w'.sentCount x n = v.world.sentCount x n := by
    obtain ⟨-, -, -, rfl⟩ := hst
    exact fun x n => rfl
  refine h.change hph hread howned hwf hk hoff (fun x n _ => hc x n) htyped ?_ ?_ ?_ ?_ ?_
  · intro hn hq
    rw [hc]
    exact h.unsent i ref p hi hn (hmay hq)
  · intro _ hq
    rw [hself, hholds hq]
  · rw [hc]
    exact h.le_one _ _
  · rw [hc, hself]
    intro hpos
    rcases hrow with rfl | rfl | hzero
    · exact Or.inl rfl
    · exact Or.inr rfl
    · omega
  · rw [hc]
    exact h.type_of_sent hi

/-- **One call of a handling keeps the invariant.** -/
theorem SendsOnce.move (h : SendsOnce wfs v) {i : ℕ} {t : Task} {ref : StepRef}
    {p p' : Phase} {a : Answered Op.Res GoError} {w' : World}
    (hph : v.phases i = some (.step t, p)) (hread : readJob t.job = some ref)
    (hm : Move ref a p v.world p' w')
    (howned : Ownership ⟨w', Function.update v.phases i (some (.step t, p'))⟩) :
    SendsOnce wfs ⟨w', Function.update v.phases i (some (.step t, p'))⟩ := by
  have hi : About v i ref p := ⟨t, hph, hread⟩
  have hwf := hm.workflows
  have hk := hm.kept
  have htyped : ∀ ty, p.type = some ty → nodeType wfs ref = some ty :=
    fun ty => h.typed i ref p ty hi
  have hoff := fun x n => hm.stepStatus_of_ne (x := x) (n := n)
  cases hm with
  | stay => exact h.quiet hph hread howned rfl hk rfl rfl htyped id id
  | fetch =>
      exact h.quiet hph hread howned rfl hk rfl rfl (by rintro _ ⟨⟩) (by simp [Phase.maySend])
        (by simp [Phase.holdsRow])
  | @locate workflow definition node u _ hfind hl =>
      refine h.quiet hph hread howned rfl hk rfl rfl ?_ (by simp [Phase.maySend])
        (by simp [Phase.holdsRow])
      rintro ty ⟨⟩
      rw [← h.workflows, nodeType, hfind, Option.bind_some, hl]
      rfl
  | miss | «break» =>
      exact h.quiet hph hread howned rfl hk rfl rfl (by rintro _ ⟨⟩) (by simp [Phase.maySend])
        (by simp [Phase.holdsRow])
  | «open» hst =>
      exact h.write hph hread howned hwf hk hoff hst (Or.inl rfl) htyped
        (by simp [Phase.maySend]) fun _ => rfl
  | run hst =>
      obtain ⟨_, _, -, -, -, -, -, -, -, rfl⟩ := hst
      exact h.quiet hph hread howned rfl hk rfl rfl htyped (by simp [Phase.maySend])
        (by simp [Phase.holdsRow])
  | @send u handed _ job hjob =>
      have hnode : nodeType wfs ref = some .notification := htyped _ rfl
      have hzero := h.unsent i ref _ hi hnode rfl
      have hrunning := h.running i ref _ hi hnode rfl
      have hcount := sentCount_send (w := v.world) hjob
      have hself := hcount ref.executionID ref.stepID
      rw [if_pos rfl, hzero, Nat.zero_add] at hself
      refine h.change hph hread howned rfl hk hoff ?_ htyped ?_ (fun _ _ => hrunning) ?_
        (fun _ => Or.inl hrunning) fun _ => hnode
      · intro x n hne
        rw [hcount, if_neg hne, Nat.add_zero]
      · rintro - ⟨⟩
      · exact le_of_eq hself
  | schedule _ hq =>
      obtain ⟨-, rfl⟩ := hq
      exact h.quiet hph hread howned rfl hk rfl rfl htyped id id
  | complete hst =>
      exact h.write hph hread howned hwf hk hoff hst (Or.inr (Or.inl rfl)) (by rintro _ ⟨⟩)
        (by simp [Phase.maySend]) (by simp [Phase.holdsRow])
  | dispatch _ hq =>
      obtain ⟨-, rfl⟩ := hq
      exact h.quiet hph hread howned rfl hk rfl rfl (by rintro _ ⟨⟩) id id
  | settle hst | giveUp hst =>
      obtain ⟨_, _, -, -, -, -, -, -, -, rfl⟩ := hst
      exact h.quiet hph hread howned rfl hk rfl rfl (by rintro _ ⟨⟩) (by simp [Phase.maySend])
        (by simp [Phase.holdsRow])
  | fail hst =>
      -- a row is failed only where nothing has been sent
      have hzero : v.world.sentCount ref.executionID ref.stepID = 0 := by
        by_contra hne
        have hnode := h.type_of_sent hi (Nat.pos_of_ne_zero hne)
        exact hne (h.unsent i ref _ hi hnode rfl)
      exact h.write hph hread howned hwf hk hoff hst (Or.inr (Or.inr hzero)) (by rintro _ ⟨⟩)
        (by simp [Phase.maySend]) (by simp [Phase.holdsRow])

/-- A job that is taken up while its row is unsent keeps the invariant. -/
theorem SendsOnce.take (h : SendsOnce wfs v) {i : ℕ} {t : Task} {w' : World}
    (hnone : v.phases i = none) (hw : w' = { v.world with queue := v.world.queue.erase t })
    (howned : Ownership ⟨w', Function.update v.phases i
      (some (.step t, (handling s).init (.step t)))⟩)
    (hsafe : ∀ ref, readJob t.job = some ref → nodeType wfs ref = some .notification →
      (∀ j ref' p, About v j ref' p → ref'.executionID = ref.executionID →
        ref'.stepID ≠ ref.stepID) ∧ Unsent v.world ref.executionID ref.stepID) :
    SendsOnce wfs ⟨w', Function.update v.phases i
      (some (.step t, (handling s).init (.step t)))⟩ := by
  subst hw
  have hinit : ∀ ref, readJob t.job = some ref → (handling s).init (.step t) = .start := by
    intro ref hread
    simp [handling, hread]
  -- the handling that begins, or one that has been there
  have habout : ∀ {j ref p}, About ⟨{ v.world with queue := v.world.queue.erase t },
      Function.update v.phases i (some (.step t, (handling s).init (.step t)))⟩ j ref p →
      (j = i ∧ readJob t.job = some ref ∧ p = .start) ∨ (j ≠ i ∧ About v j ref p) := by
    rintro j ref p ⟨t', hj, hread⟩
    rcases update_some_eq_some hj with ⟨rfl, heq⟩ | ⟨hne, hj⟩
    · cases heq
      exact Or.inl ⟨rfl, hread, hinit ref hread⟩
    · exact Or.inr ⟨hne, t', hj, hread⟩
  refine ⟨howned, h.workflows, ?_, ?_, ?_, ?_, h.le_one, h.sent_row, h.sent_type⟩
  · intro j ref p ty hj hty
    rcases habout hj with ⟨-, -, rfl⟩ | ⟨-, hj⟩
    · cases hty
    · exact h.typed j ref p ty hj hty
  · intro j j' ref ref' p p' hj hj' hx hn hnode
    have hnode' : nodeType wfs ref' = some .notification := by
      rw [← howned.ref_unique hj hj' hx hn]
      exact hnode
    rcases habout hj with ⟨hji, hread, -⟩ | ⟨-, hold⟩ <;>
      rcases habout hj' with ⟨hji', hread', -⟩ | ⟨-, hold'⟩
    · exact hji.trans hji'.symm
    -- nobody else is about this step
    · exact absurd hn.symm ((hsafe ref hread hnode).1 j' ref' p' hold' hx.symm)
    · exact absurd hn ((hsafe ref' hread' hnode').1 j ref p hold hx)
    · exact h.alone j j' ref ref' p p' hold hold' hx hn hnode
  · intro j ref p hj hnode hmay
    rcases habout hj with ⟨-, hread, -⟩ | ⟨-, hj⟩
    · by_contra hne
      have hrow := h.sent_row _ _ (Nat.pos_of_ne_zero hne)
      -- had it been sent, its row would say so
      rcases (hsafe ref hread hnode).2 with hu | hu | ⟨-, hu⟩
      · rw [hu] at hrow
        rcases hrow with hrow | hrow <;> cases hrow
      · rw [hu] at hrow
        rcases hrow with hrow | hrow <;> cases hrow
      · exact hne hu
    · exact h.unsent j ref p hj hnode hmay
  · intro j ref p hj hnode hq
    rcases habout hj with ⟨-, -, rfl⟩ | ⟨-, hj⟩
    · cases hq
    · exact h.running j ref p hj hnode hq

/-- **Every step under the condition keeps the invariant.** -/
theorem SendsOnce.step {p : EnginePool} {e : EngineEvent} {v' : View World Activity Phase}
    (hkept : (handling s).Kept p) (h : SendsOnce wfs ((handling s).view p))
    (hfixed : definitionsFixed e) (htaken : takenUnsent p e)
    (hs : (handling s).ViewStep (engine s) ((handling s).view p) e v') : SendsOnce wfs v' := by
  have howned := h.owned.step hs
  generalize hv : (handling s).view p = v at h hs
  cases hs with
  | @start w w' ph i l hnone hsp =>
      cases l with
      | step t =>
          -- the condition on jobs that are taken up is used here only
          refine h.take hnone hsp.2 howned fun ref hread hnode => ?_
          have hworld : p.world = w := by rw [← Protocol.view_world (P := handling s) p, hv]
          rw [← h.workflows, ← hworld] at hnode
          obtain ⟨hfree, hu⟩ := htaken ref hread hnode
          refine ⟨?_, hworld ▸ hu⟩
          rintro j ref' q ⟨t', hj, hread'⟩ hx hn
          rw [← hv] at hj
          obtain ⟨⟨l, log, prog⟩, hthread, rfl, -, -⟩ := hkept.thread_of_view hj
          exact hfree ⟨j, t', log, prog, ref', hthread, hread', hx, hn⟩
      | trigger environmentID input =>
          cases hsp
          refine h.mono howned rfl rfl rfl (kept_of_executions_eq rfl) ?_
          rintro j ref q ⟨t, hj, hread⟩
          rcases update_some_eq_some hj with ⟨-, heq⟩ | ⟨-, hj⟩
          · cases heq
          · exact ⟨t, hj, hread⟩
  | @call w w' ph i l q q' op r hi hnext hcall =>
      cases l with
      | step t =>
          obtain ⟨ref, hread, hmove⟩ := move_of_next hnext hcall
          exact h.move hi hread hmove howned
      | trigger environmentID input =>
          -- a trigger writes neither step rows nor notifications
          have hmove := triggerMove_of_call hnext hcall
          obtain ⟨hwf, hsteps, hsent⟩ := hmove.frame
          refine h.mono howned hwf hsteps hsent hmove.kept ?_
          rintro j ref q ⟨t, hj, hread⟩
          rcases update_some_eq_some hj with ⟨-, heq⟩ | ⟨-, hj⟩
          · cases heq
          · exact ⟨t, hj, hread⟩
  | @finish w w' ph i l q out hi hends hclose =>
      have hframe : w'.workflows = w.workflows ∧ w'.steps = w.steps ∧
          w'.notifications = w.notifications ∧ w'.executions = w.executions := by
        cases l with
        | step t =>
            cases hclose
            rcases closeTask_queue s.maxRetry w t out with heq | ⟨heq, -, -⟩ <;> rw [heq] <;>
              exact ⟨rfl, rfl, rfl, rfl⟩
        | trigger => cases hclose; exact ⟨rfl, rfl, rfl, rfl⟩
      refine h.mono howned hframe.1 hframe.2.1 hframe.2.2.1
        (kept_of_executions_eq hframe.2.2.2) ?_
      rintro j ref q ⟨t, hj, hread⟩
      exact ⟨t, (update_none_eq_some hj).2, hread⟩
  | @lose w w' ph i l q hi hl =>
      have hframe : w'.workflows = w.workflows ∧ w'.steps = w.steps ∧
          w'.notifications = w.notifications ∧ w'.executions = w.executions := by
        cases l <;> cases hl <;> exact ⟨rfl, rfl, rfl, rfl⟩
      refine h.mono howned hframe.1 hframe.2.1 hframe.2.2.1
        (kept_of_executions_eq hframe.2.2.2) ?_
      rintro j ref q ⟨t, hj, hread⟩
      exact ⟨t, (update_none_eq_some hj).2, hread⟩
  | @env w w' ph c he =>
      cases he
      cases c with
      | directory subscribers templates =>
          exact h.mono howned rfl rfl rfl (kept_of_executions_eq rfl) fun i ref q hi => hi
      | _ => exact hfixed.elim

end Steps

/-- Nothing has been sent at the beginning. -/
theorem sendsOnce_of_fresh (h : w.Fresh) :
    SendsOnce w.workflows ((handling s).view (idle w)) where
  owned := ownership_of_fresh h
  workflows := rfl
  typed i ref p ty := by rintro ⟨t, hi, -⟩; cases hi
  alone i j ref ref' p p' := by rintro ⟨t, hi, -⟩; cases hi
  unsent i ref p := by rintro ⟨t, hi, -⟩; cases hi
  running i ref p := by rintro ⟨t, hi, -⟩; cases hi
  le_one x n := by
    simp only [Protocol.view_world, idle, World.sentCount, h.notifications, List.countP_nil,
      Nat.zero_le]
  sent_row x n hx := by
    simp [Protocol.view_world, idle, World.sentCount, h.notifications] at hx
  sent_type x n hx := by
    simp [Protocol.view_world, idle, World.sentCount, h.notifications] at hx

/-- The invariant holds along every run under the condition. -/
theorem sendsOnce_of_run {p : EnginePool} {evs : List EngineEvent} (hfresh : w.Fresh)
    (h : Run (engine s) (fun p e => definitionsFixed e ∧ takenUnsent p e) (idle w) evs p) :
    SendsOnce w.workflows ((handling s).view p) := by
  refine (h.view_invariant (P := handling s) (I := fun _ v => SendsOnce w.workflows v)
    (keeps_engine s) ?_ ?_ (Protocol.kept_of_idle fun _ => rfl) (sendsOnce_of_fresh hfresh)).2
  · intro evs p e p' hk hI hc hs i a l st he hph
    subst he
    cases hs with
    | call _ hcall => exact expects_of_call hcall
  · intro evs p e v' hk hI hc hs
    exact hI.step hk hc.1 hc.2 hs

/-- **At most one notification for a node of an execution**, in every run in which
calls may fail and jobs may be retried or redelivered at any point, as long as
definitions stay as they are and the job of a notification node is only taken up
while nobody else handles the node and its row shows that nothing was sent. -/
theorem sentCount_le_one {p : EnginePool} {evs : List EngineEvent} (hfresh : w.Fresh)
    (h : Run (engine s) (fun p e => definitionsFixed e ∧ takenUnsent p e) (idle w) evs p)
    (x : UUID) (n : String) : p.world.sentCount x n ≤ 1 :=
  (sendsOnce_of_run hfresh h).le_one x n

/-- A workflow of one notification: triggered and handled once, it meets the condition. -/
theorem sentCount_le_one_single : ∃ evs p,
    Run (engine Sample.service) (fun p e => definitionsFixed e ∧ takenUnsent p e)
      (idle (Sample.world Sample.single)) evs p ∧
    0 < p.world.sentCount Sample.executionID "mail" ∧
    p.world.sentCount Sample.executionID "mail" ≤ 1 := by
  have hC : ∀ (p : EnginePool) e, isProgress e → definitionsFixed e ∧ takenUnsent p e := by
    rintro p (_ | _ | _ | _ | _) he <;> first | exact ⟨True.intro, True.intro⟩ | exact he.elim
  obtain ⟨evs₁, h₁⟩ := run_trigger (s := Sample.service) hC (Sample.world Sample.single)
    Sample.environmentID Sample.event ⟨True.intro, True.intro⟩
  have hstart : takenUnsent
      (idle ((Sample.world Sample.single).trigger Sample.service Sample.environmentID Sample.event))
      (.start 0 (.step { job := Sample.job "mail" })) := by
    intro ref hread _
    cases Sample.readJob_mail.symm.trans hread
    refine ⟨?_, Or.inl (by decide +kernel)⟩
    rintro ⟨j, t, log, prog, ref, hj, -⟩
    cases hj
  obtain ⟨evs₂, h₂⟩ := run_handle (s := Sample.service) hC _ (t := { job := Sample.job "mail" })
    (by decide +kernel) ⟨True.intro, hstart⟩
  have hrun := h₁.trans h₂
  exact ⟨_, _, hrun, by decide +kernel,
    sentCount_le_one (Sample.fresh_world Sample.single) hrun Sample.executionID "mail"⟩

/-! ### Two paths to one node -/

/-- A node that is reached directly and through another one. -/
def diamond : Definition where
  trigger := ⟨"user.signup"⟩
  nodes := [Sample.start "root", Sample.start "detour", Sample.notify "mail"]
  edgeSlice := some [⟨"root", "mail", ""⟩, ⟨"root", "detour", ""⟩, ⟨"detour", "mail", ""⟩]

/-- A node that two edges lead to sends twice. -/
theorem two_notifications_for_one_node :
    validateDefinition diamond = .ok () ∧
    ∃ evs p, Run (engine Sample.service) (fun _ e => definitionsFixed e)
        (idle (Sample.world diamond)) evs p ∧
      p.world.sentCount Sample.executionID "mail" = 2 := by
  refine ⟨by rfl, ?_⟩
  obtain ⟨evs, hrun⟩ := run_acts (s := Sample.service) (C := fun _ e => definitionsFixed e)
    (fun _ e he => by cases e <;> first | exact True.intro | exact he.elim)
    (fun _ _ => True.intro) (Sample.world diamond)
    [.trigger Sample.environmentID Sample.event, .handle 0, .handle 0, .handle 0, .handle 0]
    (fun _ c hc => by simp at hc)
  exact ⟨evs, _, hrun, by decide +kernel⟩

end Iwifunni.Workflow
