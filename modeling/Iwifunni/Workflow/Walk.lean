/-
Iwifunni/Workflow/Walk.lean

How far an execution has got on its way through the definition, and what the books say
then.

    done       n₁ --> n₂ --> ... --> nₖ         completed, one after the other
    waiting                             --> m   a job, with the delay of nₖ

The way is that of the documented rule (`documentedEdges`), which knows nothing of jobs.
On definitions in which each node leads to at most one other (`OnePath`), the handler of a
node finds in the books of a walk what it needs, and leaves those of the next one
(`Walkable.pass`).
-/
import Mathlib.Data.List.Chain
import Iwifunni.Workflow.Books
import Iwifunni.Workflow.Branching
import Iwifunni.Workflow.Traversal

namespace Iwifunni.Workflow

open Go Db Effect Effect.Prog Relation

variable {d : Definition} {payload : Option Json} {first : String} {node : Node}
  {next : Option String}

/-! ### Walks -/

/-- The nodes that are done, and the step that waits, with its delay. -/
structure Walk where
  done : List Node
  waiting : Option (String × Option Duration)

namespace Walk

/-- Nothing is done and the first step waits. -/
def start (first : String) : Walk := ⟨[], some (first, none)⟩

/-- One more node is done. -/
def pass (σ : Walk) (node : Node) (next : Option String) : Walk :=
  ⟨σ.done ++ [node], next.map fun stepID => (stepID, delayOf node)⟩

end Walk

/-- The documented rule leads from a node to exactly one other. -/
def Hands (d : Definition) (payload : Option Json) (a b : Node) : Prop :=
  (documentedEdges d a payload).map (·.target) = [b.id]

/-- The walk goes along the documented edges from the first step on, and waits where they
lead to from its last node. -/
structure Walk.OnPath (d : Definition) (payload : Option Json) (first : String) (σ : Walk) :
    Prop where
  nodes : ∀ node ∈ σ.done, node ∈ d.nodes
  chain : σ.done.IsChain (Hands d payload)
  head : ∀ node ∈ σ.done.head?, node.id = first
  start : σ.done = [] → σ.waiting = some (first, none)
  last : ∀ node ∈ σ.done.getLast?,
    (documentedEdges d node payload).map (·.target) = (σ.waiting.map Prod.fst).toList ∧
    ∀ step ∈ σ.waiting, step.2 = delayOf node

namespace Walk

variable {σ : Walk}

theorem onPath_start : (Walk.start first).OnPath d payload first where
  nodes node hnode := by cases hnode
  chain := List.IsChain.nil
  head node hnode := by cases hnode
  start _ := rfl
  last node hnode := by cases hnode

/-- The waiting step is done. -/
theorem OnPath.pass (h : σ.OnPath d payload first) {delay : Option Duration}
    (hwaiting : σ.waiting = some (node.id, delay)) (hnode : node ∈ d.nodes)
    (hnext : (documentedEdges d node payload).map (·.target) = next.toList) :
    (σ.pass node next).OnPath d payload first where
  nodes n hn := by
    rcases List.mem_append.mp hn with hn | hn
    · exact h.nodes n hn
    · rw [List.mem_singleton.mp hn]
      exact hnode
  chain := by
    refine List.isChain_append.mpr ⟨h.chain, List.isChain_singleton _, ?_⟩
    rintro a ha b ⟨⟩
    -- the last node that is done leads to the one that waits
    have hlast := (h.last a ha).1
    rw [hwaiting] at hlast
    exact hlast
  head n hn := by
    rw [Walk.pass] at hn
    rcases hdone : σ.done with - | ⟨a, rest⟩
    · have hstart := h.start hdone
      rw [hwaiting] at hstart
      rw [hdone] at hn
      cases hn
      cases hstart
      rfl
    · refine h.head n ?_
      rw [hdone] at hn ⊢
      exact hn
  start hdone := by
    rw [Walk.pass, List.append_eq_nil_iff] at hdone
    cases hdone.2
  last n hn := by
    rw [Walk.pass, List.getLast?_concat] at hn
    cases hn
    refine ⟨?_, ?_⟩
    · rw [hnext, Walk.pass, Option.map_map]
      cases next with
      | none => rfl
      | some stepID => rfl
    · rintro step hstep
      rw [Walk.pass] at hstep
      obtain ⟨stepID, -, rfl⟩ := Option.map_eq_some_iff.mp hstep
      rfl

/-- An edge the rule follows is one of the definition. -/
theorem leads_of_hands {a b : Node} (h : Hands d payload a b) :
    Leads d.ends (trimSpace a.id) (trimSpace b.id) := by
  have hmem : b.id ∈ (documentedEdges d a payload).map (·.target) := by
    rw [h]
    exact List.mem_singleton_self _
  obtain ⟨edge, hedge, htarget⟩ := List.mem_map.mp hmem
  obtain ⟨hd, hsource⟩ := List.mem_filter.mp hedge
  rw [decide_eq_true_eq] at hsource
  refine List.mem_map.mpr ⟨edge, hd, ?_⟩
  rw [hsource.1, htarget]

/-- **No node is done twice**, because there is no cycle. -/
theorem OnPath.nodup (h : σ.OnPath d payload first) (hd : Accepted d) :
    (σ.done.map (·.id)).Nodup := by
  have hleads : (σ.done.map fun n => trimSpace n.id).IsChain (TransGen (Leads d.ends)) :=
    List.isChain_map_of_isChain _ (fun a b hab => TransGen.single (leads_of_hands hab)) h.chain
  have hirrefl : ∀ n, ¬ TransGen (Leads d.ends) n n := by
    intro n hn
    -- a node that leads to itself is on a cycle
    have hcycle := (hasCycle_iff d.ends).mpr ⟨n, hn⟩
    rw [hd.acyclic] at hcycle
    cases hcycle
  have hnodup : (σ.done.map fun n => trimSpace n.id).Nodup := by
    refine (List.isChain_iff_pairwise.mp hleads).imp fun {a b} hab => ?_
    rintro rfl
    exact hirrefl a hab
  have hmap : σ.done.map (fun n => trimSpace n.id) = (σ.done.map (·.id)).map trimSpace := by
    rw [List.map_map]
    rfl
  rw [hmap] at hnodup
  exact List.Nodup.of_map _ hnodup

end Walk

/-! ### Definitions with one path -/

/-- Ids are written without white space around them, labels are found under conditions only,
and from each node the rule leads to one other at most. -/
structure OnePath (d : Definition) (payload : Option Json) : Prop where
  node : ∀ node ∈ d.nodes, trimSpace node.id = node.id
  edge : ∀ edge ∈ d.edges, trimSpace edge.target = edge.target
  unlabelled : ∀ node ∈ d.nodes, node.type ≠ .condition → Unlabelled d node
  single : ∀ node ∈ d.nodes, (documentedEdges d node payload).length ≤ 1

section OnePath

variable {s : Service} {supplies : World} {execution : WorkflowExecution}

/-- The engine goes where the rule leads. -/
theorem OnePath.successors (h : OnePath d payload) (hnode : node ∈ d.nodes)
    (hready : ∀ e, node.type = .condition → conditionOutcome node payload ≠ .error e) :
    ∃ next : Option String, Workflow.successors d node payload = next.toList ∧
      (documentedEdges d node payload).map (·.target) = next.toList := by
  have hsame : Workflow.successors d node payload =
      (documentedEdges d node payload).map (·.target) := by
    rw [Workflow.successors]
    by_cases hty : node.type = .condition
    · rw [hty]
      dsimp only
      rcases hvalue : conditionOutcome node payload with err | value
      · exact (hready err hty hvalue).elim
      · exact nextNodeIDs_branchName hty hvalue
    · have hrule : (nextNodeIDs d node.id "").map id =
          (documentedEdges d node payload).map (fun edge => id edge.target) :=
        (nextNodeIDs_eq_documented_iff hty id).mpr (h.unlabelled node hnode hty)
      rw [List.map_id] at hrule
      split
      · next heq => exact (hty heq).elim
      · exact hrule
  have hlen := h.single node hnode
  rw [hsame]
  rcases hedges : documentedEdges d node payload with - | ⟨edge, - | ⟨edge', rest⟩⟩
  · exact ⟨none, rfl, rfl⟩
  · exact ⟨some edge.target, rfl, rfl⟩
  · rw [hedges] at hlen
    simp at hlen

/-- The node of a step that waits. -/
theorem OnePath.waiting (h : OnePath d payload) (hd : Accepted d)
    (hfirst : ∃ node ∈ d.nodes, node.id = first) {σ : Walk} (hσ : σ.OnPath d payload first)
    {stepID : String} {delay : Option Duration} (hwaiting : σ.waiting = some (stepID, delay)) :
    ∃ node ∈ d.nodes, node.id = stepID := by
  rcases hlast : σ.done.getLast? with - | last
  · have hstart := hσ.start (List.getLast?_eq_none_iff.mp hlast)
    rw [hwaiting] at hstart
    cases hstart
    exact hfirst
  · obtain ⟨hedges, -⟩ := hσ.last last hlast
    rw [hwaiting] at hedges
    have hmem : stepID ∈ (documentedEdges d last payload).map (·.target) := by
      rw [hedges]
      exact List.mem_singleton_self _
    obtain ⟨edge, hedge, rfl⟩ := List.mem_map.mp hmem
    have hin := (List.mem_filter.mp hedge).1
    obtain ⟨node, hnode, hid⟩ := List.mem_map.mp (hd.edge edge hin).2
    refine ⟨node, hnode, ?_⟩
    rw [← h.node node hnode, hid, h.edge edge hin]

/-- An operator that is allowed gives an outcome on an object. -/
theorem evaluateCondition_ok {fields : List (String × Json)} {config : ConditionConfig}
    (hpayload : payload = some (.obj fields))
    (hoperator : toLower (trimSpace config.operator) ∈ allowedConditionOperators) :
    ∃ matched, evaluateCondition payload config = .ok matched := by
  rw [hpayload, evaluateCondition]
  simp only [Json.toMap]
  split_ifs with h₁ h₂ h₃ h₄
  · exact ⟨_, rfl⟩
  · exact ⟨_, rfl⟩
  · exact ⟨_, rfl⟩
  · exact ⟨_, rfl⟩
  · simp [allowedConditionOperators, h₁, h₂, h₃, h₄] at hoperator

/-- All nodes of an accepted definition are ready but the notifications, for which there
has to be a subscriber and a template. -/
theorem ready_of_accepted (hd : Accepted d) {fields : List (String × Json)}
    (hpayload : execution.triggerPayload = some (.obj fields)) (hnode : node ∈ d.nodes)
    (hnotification : node.type = .notification → node.Ready s supplies execution) :
    node.Ready s supplies execution := by
  have hvalid := hd.node node hnode
  rw [validateNode] at hvalid
  rcases hty : node.type with - | - | - | - | ⟨raw, hraw⟩
  · rw [Node.Ready, hty]
    exact True.intro
  · exact hnotification hty
  · rw [Node.Ready, hty]
    simp only [hty] at hvalid
    -- the validator has parsed the duration
    show ∃ duration, delayDuration node = .ok duration
    rw [delayDuration]
    rcases hconfig : Json.unmarshal node.config decodeDelayConfig with err | config
    · simp only [hconfig, reduceCtorEq] at hvalid
    · simp only [hconfig] at hvalid ⊢
      rcases hduration : Duration.parse (trimSpace config.duration) with - | duration
      · rw [if_pos hduration] at hvalid
        cases hvalid
      · exact ⟨duration, rfl⟩
  · rw [Node.Ready, hty]
    simp only [hty] at hvalid
    -- and knows the operator
    show ∃ matched, conditionOutcome node execution.triggerPayload = .ok matched
    rw [conditionOutcome]
    rcases hconfig : Json.unmarshal node.config decodeConditionConfig with err | config
    · simp only [hconfig, reduceCtorEq] at hvalid
    · simp only [hconfig] at hvalid ⊢
      split_ifs at hvalid with hfield hoperator
      exact evaluateCondition_ok hpayload hoperator
  · simp only [hty, reduceCtorEq] at hvalid

end OnePath

/-! ### The books of a walk -/

namespace Walk

/-- What is written about an execution that has got so far. -/
def books (execution : WorkflowExecution) (σ : Walk) : Books where
  status := if σ.waiting.isNone then .completed else .queued
  steps n := if n ∈ σ.done.map (·.id) then some .completed else none
  queue := (σ.waiting.map fun step =>
    { job := stepJob execution step.1, delay := step.2 : Task }).toList
  sent := (σ.done.filter fun node => node.type = .notification).map fun node =>
    (some execution.id.toString, some node.id)

variable {execution : WorkflowExecution} {σ : Walk}

/-- The books after a node is done. -/
theorem books_pass (σ : Walk) (node : Node) (next : Option String) :
    (((σ.books execution).takeUp.setStep node.id .running).setStatus .running).finish
        execution node next = (σ.pass node next).books execution := by
  have hsteps : Function.update (Function.update (σ.books execution).steps node.id
      (some .running)) node.id (some .completed) = ((σ.pass node next).books execution).steps := by
    rw [Function.update_idem]
    funext n
    show _ = if n ∈ (σ.done ++ [node]).map (·.id) then some Status.completed else none
    rw [List.map_append, List.map_singleton]
    by_cases hn : n = node.id
    · rw [hn, Function.update_self, if_pos (List.mem_append_right _ (List.mem_singleton_self _))]
    · rw [Function.update_of_ne hn]
      show (if n ∈ σ.done.map (·.id) then some Status.completed else none) = _
      simp [hn]
  have hsent : ((σ.pass node next).books execution).sent = (σ.books execution).sent ++
      if node.type = .notification then [(some execution.id.toString, some node.id)] else [] := by
    show ((σ.done ++ [node]).filter _).map _ = _
    rw [List.filter_append, List.map_append]
    apply congrArg (_ ++ ·)
    split
    · next hty => simp [hty]
    · next hty => simp [hty]
  have hstatus : (if next.isNone then Status.completed else .queued) =
      ((σ.pass node next).books execution).status := by
    cases next <;> rfl
  have hqueue : [] ++ (next.map (nextTask execution node)).toList =
      ((σ.pass node next).books execution).queue := by
    cases next <;> rfl
  rw [Books.finish_eq]
  exact (Books.mk.injEq ..).mpr ⟨hstatus, hsteps, hqueue, hsent.symm⟩

end Walk

/-! ### From one walk to the next -/

/-- An execution can walk through a definition: it is the one stored for its workflow, and
nothing that a handler needs is missing. -/
structure Walkable (s : Service) (supplies : World) (execution : WorkflowExecution)
    (d : Definition) (first : String) : Prop where
  producer : s.producer = true
  stored : ∃ workflow, (World.answer (.getByID execution.workflowID execution.environmentID)
    supplies).1 = .ok workflow ∧ parseDefinition workflow.definitionJson = .ok (some d)
  accepted : Accepted d
  path : OnePath d execution.triggerPayload
  first : ∃ node ∈ d.nodes, node.id = first
  payload : ∃ fields, execution.triggerPayload = some (.obj fields)
  notifications : ∀ node ∈ d.nodes, node.type = .notification →
    node.Ready s supplies execution

section Walkable

variable {s : Service} {w supplies : World} {execution : WorkflowExecution} {σ σ' : Walk}

/-- The second walk has done the step the first one waits for, and no other. -/
def Walk.Passes (d : Definition) (σ σ' : Walk) (stepID : String) : Prop :=
  ∃ node ∈ d.nodes, node.id = stepID ∧ ∃ next, σ' = σ.pass node next

/-- **Handling the step that waits** leads from the books of one walk to those of the
next. -/
theorem Walkable.pass (h : Walkable s supplies execution d first)
    (hσ : σ.OnPath d execution.triggerPayload first) {stepID : String} {delay : Option Duration}
    (hwaiting : σ.waiting = some (stepID, delay))
    (hw : w.Shows supplies execution (σ.books execution).takeUp) :
    ∃ σ' : Walk, σ'.OnPath d execution.triggerPayload first ∧ σ.Passes d σ' stepID ∧
      Ensures Served (Ends supplies execution (σ'.books execution))
        (processStep s (stepJob execution stepID)) w := by
  obtain ⟨workflow, hworkflow, hparse⟩ := h.stored
  obtain ⟨fields, hpayload⟩ := h.payload
  obtain ⟨named, hnamed, hid⟩ := h.path.waiting h.accepted h.first hσ hwaiting
  have htrim : trimSpace stepID = stepID := by rw [← hid, h.path.node named hnamed]
  obtain ⟨node, hnode, hfound⟩ := findNode_ok ⟨named, hnamed, hid⟩
  have hlocate : locate workflow (trimSpace stepID) = .ok (d, node) := by
    rw [locate, hparse]
    dsimp only
    rw [htrim, hfound]
    rfl
  have hnodeID : node.id = stepID := (locate_id hlocate).trans htrim
  have hread : readJob (stepJob execution stepID) = some
      ⟨execution.environmentID, execution.id, execution.workflowID, trimSpace stepID⟩ := by
    refine readJob_eq_some.mpr ⟨UUID.parse_trimSpace_toString _, jobExecution_stepJob _ _,
      UUID.parse_trimSpace_toString _, rfl, ?_⟩
    show trimSpace stepID ≠ ""
    rw [← hnodeID]
    exact h.accepted.id_ne node hnode
  have hready := ready_of_accepted h.accepted hpayload hnode (h.notifications node hnode)
  have houtcome : ∀ e, node.type = .condition →
      conditionOutcome node execution.triggerPayload ≠ .error e := by
    intro e hty hvalue
    rw [Node.Ready, hty] at hready
    obtain ⟨matched, hmatched⟩ := hready
    rw [hvalue] at hmatched
    cases hmatched
  obtain ⟨next, hnext, hedges⟩ := h.path.successors hnode houtcome
  have hwait : σ.waiting = some (node.id, delay) := by
    rw [hnodeID]
    exact hwaiting
  have hpath := hσ.pass hwait hnode hedges
  -- the node has no step row, for it would be done twice
  have hnew : (σ.books execution).takeUp.steps node.id = none := by
    refine if_neg fun hmem => ?_
    have hnodup := hpath.nodup h.accepted
    rw [Walk.pass, List.map_append, List.nodup_append] at hnodup
    exact hnodup.2.2 node.id hmem node.id (List.mem_singleton_self _) rfl
  have hensures := ensures_processStep h.producer hw rfl hread hworkflow hlocate hnew hready hnext
  rw [Walk.books_pass] at hensures
  exact ⟨σ.pass node next, hpath, ⟨node, hnode, hnodeID, next, rfl⟩, hensures⟩

end Walkable

end Iwifunni.Workflow
