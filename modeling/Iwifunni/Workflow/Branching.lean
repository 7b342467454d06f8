/-
Iwifunni/Workflow/Branching.lean

Which edges the engine follows, against the rule the repository documents.

The documentation of the definition knows two kinds of edges: one without a
branch is followed unconditionally, one with a branch "only when the condition
node evaluates to the matching branch value".  The engine decides by the one
helper `nextNodeIDs`, whose branch argument is the empty string for every node
that is not a condition, and with an empty argument no edge is left out:

    node            edge ""      edge "true"/"false"     other labels
    condition       followed     if it matches           never
    any other       followed     followed                followed

So the jobs of a completed node are those of the documented edges, in the order
of the edge list, exactly if the node is a condition or has no labelled edge
(`followsRule_iff`).
-/
import Iwifunni.Workflow.Constraints
import Iwifunni.Workflow.Routing

namespace Iwifunni.Workflow

open Go Db Effect Effect.Prog

/-! ### The documented rule -/

/-- An edge without a branch. -/
def Edge.Blank (edge : Edge) : Prop := trimSpace edge.branch = ""

instance (edge : Edge) : Decidable edge.Blank := by
  unfold Edge.Blank
  infer_instance

/-- The value a node has been evaluated to, for the nodes that have one. -/
def evaluated (node : Node) (triggerPayload : Option Json) : Option Bool :=
  if node.type = .condition then (conditionOutcome node triggerPayload).toOption else none

/-- Does a branch, in whatever spelling, name this value? -/
def Edge.Names (edge : Edge) (value : Bool) : Prop :=
  toLower (trimSpace edge.branch) = branchName value

instance (edge : Edge) (value : Bool) : Decidable (edge.Names value) := by
  unfold Edge.Names
  infer_instance

/-- The edges of a node that are to be followed once it is completed. -/
def documentedEdges (definition : Definition) (node : Node) (triggerPayload : Option Json) :
    List Edge :=
  definition.edges.filter fun edge => edge.source = node.id ∧
    (edge.Blank ∨ ∃ value ∈ evaluated node triggerPayload, edge.Names value)

/-- No edge of the node has a label. -/
def Unlabelled (definition : Definition) (node : Node) : Prop :=
  ∀ edge ∈ definition.edges, edge.source = node.id → edge.Blank

/-! ### What a handling hands on -/

/-- The step job a call has put on the queue, at once or with a delay. -/
def handedOn : Answered Op.Res GoError → Option WorkflowStepJob
  | ⟨.enqueueWorkflowStep job, .ok _⟩ => some job
  | ⟨.enqueueWorkflowStepIn job _, .ok _⟩ => some job
  | _ => none

/-- The step jobs of a log, in the order in which they were enqueued. -/
def dispatched (log : List (Answered Op.Res GoError)) : List WorkflowStepJob :=
  log.filterMap handedOn

theorem dispatched_append (log log' : List (Answered Op.Res GoError)) :
    dispatched (log ++ log') = dispatched log ++ dispatched log' :=
  List.filterMap_append

/-- A call that enqueues no step job does not count. -/
theorem dispatched_cons {a : Answered Op.Res GoError} (h : handedOn a = none)
    (log : List (Answered Op.Res GoError)) : dispatched (a :: log) = dispatched log :=
  List.filterMap_cons_none h

theorem dispatched_cons_some {a : Answered Op.Res GoError} {job : WorkflowStepJob}
    (h : handedOn a = some job) (log : List (Answered Op.Res GoError)) :
    dispatched (a :: log) = job :: dispatched log :=
  List.filterMap_cons_some h

/-- What a finished handling has read: it has completed this node of this
definition in this execution. -/
def Handled (job : WorkflowStepJob) (log : List (Answered Op.Res GoError))
    (execution : WorkflowExecution) (definition : Definition) (node : Node) : Prop :=
  ∃ ref workflow rest, readJob job = some ref ∧
    log = ⟨.getExecutionByID ref.executionID ref.environmentID, .ok execution⟩ ::
      ⟨.getByID ref.workflowID ref.environmentID, .ok workflow⟩ :: rest ∧
    locate workflow ref.stepID = .ok (definition, node)

/-! ### The jobs of a handling -/

section Dispatched

variable {s : Service} {job : WorkflowStepJob} {execution : WorkflowExecution}
  {row : WorkflowStepExecution} {definition : Definition} {node : Node} {next : List String}
  {log : List (Answered Op.Res GoError)}

/-- A step that fails is not completed. -/
theorem not_path_failCurrentStep {cause : GoError} :
    ¬ Path (failCurrentStep execution row cause) log (.ok ()) := by
  intro h
  unfold failCurrentStep at h
  obtain ⟨ts, log₁, -, h₁⟩ := path_perform_ok h
  obtain ⟨row', log₂, -, h₂⟩ := path_perform_ok h₁
  obtain ⟨execution', log₃, -, h₃⟩ := path_perform_ok h₂
  exact not_path_fail h₃

/-- The loop enqueues one job for each successor, in order. -/
theorem dispatched_dispatchNext (h : Path (dispatchNext execution next) log (.ok ())) :
    dispatched log = next.map (stepJob execution) := by
  induction next generalizing log with
  | nil =>
      obtain ⟨rfl, -⟩ := path_ret h
      rfl
  | cons n rest ih =>
      obtain ⟨u, log₁, rfl, h₁⟩ := path_perform_ok h
      rw [dispatched_cons_some rfl, ih h₁]
      rfl

/-- What is scheduled. -/
theorem dispatched_scheduleNext {duration : Duration}
    (h : Path (scheduleNext execution duration next) log (.ok (.ok ()))) :
    dispatched log = next.map (stepJob execution) := by
  induction next generalizing log with
  | nil =>
      obtain ⟨rfl, -⟩ := path_ret h
      rfl
  | cons n rest ih =>
      obtain ⟨answer, log₁, rfl, h₁⟩ := path_ask_bind h
      rcases answer with e | u
      · obtain ⟨-, hout⟩ := path_ret h₁
        cases hout
      · rw [dispatched_cons_some rfl, ih h₁]
        rfl

/-- What is dispatched at the end of a step. -/
theorem dispatched_completeCurrentAndDispatchNext {output : Option Json}
    (h : Path (completeCurrentAndDispatchNext s execution row node next output) log (.ok ())) :
    dispatched log = next.map (stepJob execution) := by
  unfold completeCurrentAndDispatchNext at h
  obtain ⟨ts, log₁, rfl, h₁⟩ := path_perform_ok h
  obtain ⟨row', log₂, rfl, h₂⟩ := path_perform_ok h₁
  rw [dispatched_cons rfl, dispatched_cons rfl]
  rcases next with - | ⟨n, rest⟩
  · -- the last node completes the execution
    obtain ⟨execution', log₃, rfl, h₃⟩ := path_perform_ok h₂
    obtain ⟨rfl, -⟩ := path_ret h₃
    rfl
  · dsimp only at h₂
    split at h₂
    · obtain ⟨u, log₃, log₄, rfl, h₃, h₄⟩ := path_bind_ok h₂
      obtain ⟨execution', log₅, rfl, h₅⟩ := path_perform_ok h₄
      obtain ⟨rfl, -⟩ := path_ret h₅
      rw [dispatched_append, dispatched_dispatchNext h₃, dispatched_cons rfl]
      exact List.append_nil _
    · exact (not_path_fail h₂).elim

/-- What a notification enqueues. -/
theorem dispatched_handleNotificationStep
    (h : Path (handleNotificationStep s execution row definition node) log (.ok ())) :
    dispatched log = (nextNodeIDs definition node.id "").map (stepJob execution) := by
  unfold handleNotificationStep at h
  dsimp only at h
  split at h
  · exact (not_path_failCurrentStep h).elim
  split at h
  · exact (not_path_failCurrentStep h).elim
  split at h
  · exact (not_path_failCurrentStep h).elim
  obtain ⟨answer, log₁, rfl, h₁⟩ := path_ask_bind h
  rcases answer with e | subscriber
  · exact (not_path_failCurrentStep h₁).elim
  obtain ⟨answer, log₂, rfl, h₂⟩ := path_ask_bind h₁
  rcases answer with e | template
  · exact (not_path_failCurrentStep h₂).elim
  dsimp only at h₂
  split at h₂
  · exact (not_path_failCurrentStep h₂).elim
  obtain ⟨jobID, log₃, rfl, h₃⟩ := path_perform_ok h₂
  obtain ⟨answer, log₄, rfl, h₄⟩ := path_ask_bind h₃
  rcases answer with e | u
  · exact (not_path_failCurrentStep h₄).elim
  · rw [dispatched_cons rfl, dispatched_cons rfl, dispatched_cons rfl, dispatched_cons rfl]
    exact dispatched_completeCurrentAndDispatchNext h₄

/-- What a delay enqueues. -/
theorem dispatched_handleDelayStep
    (h : Path (handleDelayStep s execution row definition node) log (.ok ())) :
    dispatched log = (nextNodeIDs definition node.id "").map (stepJob execution) := by
  unfold handleDelayStep at h
  dsimp only at h
  split at h
  · exact (not_path_failCurrentStep h).elim
  rcases hnext : nextNodeIDs definition node.id "" with - | ⟨n, rest⟩
  · rw [hnext] at h
    exact dispatched_completeCurrentAndDispatchNext h
  rw [hnext] at h
  dsimp only at h
  split at h
  · exact (not_path_failCurrentStep h).elim
  obtain ⟨result, log₁, log₂, rfl, h₁, h₂⟩ := path_bind_ok h
  rcases result with e | u
  · exact (not_path_failCurrentStep h₂).elim
  · obtain ⟨ts, log₃, rfl, h₃⟩ := path_perform_ok h₂
    obtain ⟨row', log₄, rfl, h₄⟩ := path_perform_ok h₃
    obtain ⟨execution', log₅, rfl, h₅⟩ := path_perform_ok h₄
    obtain ⟨rfl, -⟩ := path_ret h₅
    rw [dispatched_append, dispatched_scheduleNext h₁, dispatched_cons rfl, dispatched_cons rfl,
      dispatched_cons rfl]
    exact List.append_nil _

/-- A completed condition has a value. -/
theorem dispatched_handleConditionStep
    (h : Path (handleConditionStep s execution row definition node) log (.ok ())) :
    ∃ value, conditionOutcome node execution.triggerPayload = .ok value ∧
      dispatched log =
        (nextNodeIDs definition node.id (branchName value)).map (stepJob execution) := by
  unfold handleConditionStep at h
  rcases hvalue : conditionOutcome node execution.triggerPayload with e | value
  · rw [hvalue] at h
    exact (not_path_failCurrentStep h).elim
  · rw [hvalue] at h
    exact ⟨value, rfl, dispatched_completeCurrentAndDispatchNext h⟩

theorem dispatched_handleStep (hty : node.type ≠ .condition)
    (h : Path (handleStep s execution row definition node) log (.ok ())) :
    dispatched log = (nextNodeIDs definition node.id "").map (stepJob execution) := by
  unfold handleStep at h
  split at h
  · exact dispatched_completeCurrentAndDispatchNext h
  · exact dispatched_handleDelayStep h
  · next hc => exact absurd hc hty
  · exact dispatched_handleNotificationStep h
  · exact (not_path_failCurrentStep h).elim

/-- Opening the step row enqueues nothing. -/
theorem dispatched_openStep {stepExecution : WorkflowStepExecution}
    (h : Path (openStep execution node) log (.ok stepExecution)) : dispatched log = [] := by
  unfold openStep at h
  obtain ⟨ts, log₁, rfl, h₁⟩ := path_perform_ok h
  obtain ⟨answer, log₂, rfl, h₂⟩ := path_ask_bind h₁
  rw [dispatched_cons rfl, dispatched_cons rfl]
  split at h₂
  · obtain ⟨id, log₃, rfl, h₃⟩ := path_perform_ok h₂
    rw [path_perform h₃]
    rfl
  · exact (not_path_fail h₂).elim
  · rw [path_perform h₂]
    rfl

/-- What `ProcessStep` does before the handler enqueues nothing. -/
theorem path_handleStep (h : Path (processStep s job) log (.ok ()))
    (hh : Handled job log execution definition node) :
    ∃ row rest, Path (handleStep s execution row definition node) rest (.ok ()) ∧
      dispatched log = dispatched rest := by
  obtain ⟨ref, workflow, rest, hread, rfl, hl⟩ := hh
  unfold processStep at h
  rw [hread] at h
  obtain ⟨execution', log₁, hlog, h₁⟩ := path_perform_ok h
  obtain ⟨⟨⟩, rfl⟩ := List.cons.inj hlog
  obtain ⟨workflow', log₂, hlog, h₂⟩ := path_perform_ok h₁
  obtain ⟨⟨⟩, rfl⟩ := List.cons.inj hlog
  rw [hl] at h₂
  obtain ⟨row, log₃, log₄, rfl, h₃, h₄⟩ := path_bind_ok h₂
  obtain ⟨execution', log₅, rfl, h₅⟩ := path_perform_ok h₄
  refine ⟨row, log₅, h₅, ?_⟩
  rw [dispatched_cons rfl, dispatched_cons rfl, dispatched_append, dispatched_openStep h₃,
    dispatched_cons rfl]
  rfl

/-- Every handling that returns nil is the handling of a node. -/
theorem handled_of_path (h : Path (processStep s job) log (.ok ())) :
    ∃ execution definition node, Handled job log execution definition node := by
  unfold processStep at h
  rcases hread : readJob job with - | ref
  · rw [hread] at h
    exact (not_path_fail h).elim
  rw [hread] at h
  obtain ⟨execution, log₁, rfl, h₁⟩ := path_perform_ok h
  obtain ⟨workflow, log₂, rfl, h₂⟩ := path_perform_ok h₁
  rcases hl : locate workflow ref.stepID with e | ⟨definition, node⟩
  · rw [hl] at h₂
    exact (not_path_fail h₂).elim
  · exact ⟨execution, definition, node, ⟨ref, workflow, log₂, hread, rfl, hl⟩⟩

end Dispatched

/-! ### The rule and the helper -/

section Rule

variable {β : Type} {definition : Definition} {node : Node} {triggerPayload : Option Json}

theorem toLower_eq_empty {s : String} : toLower s = "" ↔ s = "" := by
  constructor
  · intro h
    have hlist := congrArg String.toList h
    rw [toLower, String.toList_ofList] at hlist
    exact String.toList_inj.mp (List.map_eq_nil_iff.mp hlist)
  · rintro rfl
    rfl

/-- With the branch of a condition's value the helper is the rule. -/
theorem nextNodeIDs_branchName (hty : node.type = .condition) {value : Bool}
    (hvalue : conditionOutcome node triggerPayload = .ok value) :
    nextNodeIDs definition node.id (branchName value) =
      (documentedEdges definition node triggerPayload).map (·.target) := by
  have hname : branchName value ≠ "" := by cases value <;> decide
  have hval : evaluated node triggerPayload = some value := by
    rw [evaluated, if_pos hty, hvalue]
    rfl
  refine congrArg (List.map _) (List.filter_congr fun edge _ => ?_)
  rw [Bool.eq_iff_iff, hval]
  simp only [Edge.Blank, Edge.Names, Option.mem_some_iff, exists_eq_left', decide_eq_true_eq,
    Bool.and_eq_true, beq_iff_eq, ← toLower_eq_empty (s := trimSpace edge.branch)]
  refine and_congr_right fun _ => ?_
  -- "not (a branch is asked for, the edge has one, and it is another)"
  simp [hname]

/-- With no branch asked for the helper follows every edge of the node. -/
theorem nextNodeIDs_empty : nextNodeIDs definition node.id "" =
    (definition.edges.filter fun edge => edge.source = node.id).map (·.target) := by
  refine congrArg (List.map _) (List.filter_congr fun edge _ => ?_)
  rw [Bool.eq_iff_iff]
  simp

/-- The rule follows those without a label. -/
theorem documentedEdges_of_ne (hty : node.type ≠ .condition) :
    documentedEdges definition node triggerPayload =
      (definition.edges.filter fun edge => edge.source = node.id).filter fun edge =>
        edge.Blank := by
  rw [List.filter_filter]
  refine List.filter_congr fun edge _ => ?_
  simp [evaluated, hty, Bool.and_comm]

/-- The two agree only where nothing is left out. -/
theorem nextNodeIDs_eq_documented_iff (hty : node.type ≠ .condition) (f : String → β) :
    (nextNodeIDs definition node.id "").map f =
      (documentedEdges definition node triggerPayload).map (fun edge => f edge.target) ↔
        Unlabelled definition node := by
  rw [nextNodeIDs_empty, documentedEdges_of_ne hty, List.map_map]
  constructor
  · intro h edge hedge hsource
    have hlen := congrArg List.length h
    rw [List.length_map, List.length_map] at hlen
    have hmem : edge ∈ definition.edges.filter fun edge => edge.source = node.id :=
      List.mem_filter.mpr ⟨hedge, by simpa using hsource⟩
    simpa using List.length_filter_eq_length_iff.mp hlen.symm edge hmem
  · intro h
    have hall : ∀ edge ∈ definition.edges.filter fun edge => edge.source = node.id,
        decide edge.Blank = true := by
      intro edge hmem
      obtain ⟨hedge, hsource⟩ := List.mem_filter.mp hmem
      simpa using h edge hedge (by simpa using hsource)
    rw [List.filter_eq_self.mpr hall]
    rfl

end Rule

/-! ### The rule at run time -/

variable {s : Service} {job : WorkflowStepJob} {execution : WorkflowExecution}
  {definition : Definition} {node : Node} {log : List (Answered Op.Res GoError)}

/-- The completion of a node follows the documented rule: its jobs are those for
the targets of the documented edges, in the order of the edge list. -/
def FollowsRule (log : List (Answered Op.Res GoError)) (execution : WorkflowExecution)
    (definition : Definition) (node : Node) : Prop :=
  dispatched log = (documentedEdges definition node execution.triggerPayload).map fun edge =>
    stepJob execution edge.target

/-- **The engine follows the documented edges of a node exactly if the node is a
condition or has no labelled edge.** -/
theorem followsRule_iff (h : Path (processStep s job) log (.ok ()))
    (hh : Handled job log execution definition node) :
    FollowsRule log execution definition node ↔
      (node.type = .condition ∨ Unlabelled definition node) := by
  obtain ⟨row, rest, hstep, hlog⟩ := path_handleStep h hh
  unfold FollowsRule
  rw [hlog]
  by_cases hty : node.type = .condition
  · refine iff_of_true ?_ (Or.inl hty)
    unfold handleStep at hstep
    rw [hty] at hstep
    obtain ⟨value, hvalue, hjobs⟩ := dispatched_handleConditionStep hstep
    rw [hjobs, nextNodeIDs_branchName hty hvalue, List.map_map]
    rfl
  · rw [dispatched_handleStep hty hstep, nextNodeIDs_eq_documented_iff hty]
    simp [hty]

/-! ### A label under a trigger -/

/-- A trigger whose only edge carries a branch. -/
def labelled : Definition where
  trigger := ⟨"user.signup"⟩
  nodes := [Sample.start "root", Sample.notify "mail"]
  edgeSlice := some [⟨"root", "mail", "true"⟩]

/-- The calls that complete its trigger node. -/
def labelledTrace : List (Answered Op.Res GoError) :=
  ((processStep Sample.service (Sample.job "root")).drive World.answer
    ((Sample.world labelled).trigger Sample.service Sample.environmentID Sample.event)).1

theorem path_labelledTrace :
    Path (processStep Sample.service (Sample.job "root")) labelledTrace (.ok ()) := by
  have hout : ((processStep Sample.service (Sample.job "root")).drive World.answer
      ((Sample.world labelled).trigger Sample.service Sample.environmentID
        Sample.event)).2.1 = .ok () := by rfl
  rw [← hout]
  exact path_drive ..

theorem followsRule_iff_labelled : ∃ execution definition node,
    Handled (Sample.job "root") labelledTrace execution definition node ∧
      (FollowsRule labelledTrace execution definition node ↔
        (node.type = .condition ∨ Unlabelled definition node)) := by
  obtain ⟨execution, definition, node, hh⟩ := handled_of_path path_labelledTrace
  exact ⟨execution, definition, node, hh, followsRule_iff path_labelledTrace hh⟩

/-- The labelled edge of the trigger is followed. -/
theorem label_followed : validateDefinition labelled = .ok () ∧ ∃ execution,
    Path (processStep Sample.service (Sample.job "root")) labelledTrace (.ok ()) ∧
    Handled (Sample.job "root") labelledTrace execution labelled (Sample.start "root") ∧
    dispatched labelledTrace = [stepJob execution "mail"] ∧
    ¬ FollowsRule labelledTrace execution labelled (Sample.start "root") := by
  refine ⟨by rfl, _, path_labelledTrace, ⟨_, _, _, rfl, rfl, rfl⟩, ?_, ?_⟩
  · rfl
  · intro h
    exact absurd (congrArg List.length h) (by decide +kernel)

end Iwifunni.Workflow
