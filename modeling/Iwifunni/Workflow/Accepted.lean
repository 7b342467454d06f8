/-
Iwifunni/Workflow/Accepted.lean

What `ValidateDefinition` promises of a definition it accepts (`Accepted`): the
trimmed ids are there and distinct, every node passes its own check, every edge
joins two nodes, and there is no cycle.
-/
import Iwifunni.Workflow.Acyclic

namespace Iwifunni.Workflow

open Go

/-- The trimmed ids of the nodes. -/
def Definition.ids (d : Definition) : List String := d.nodes.map fun node => trimSpace node.id

/-- The trimmed ends of the edges. -/
def Definition.ends (d : Definition) : List (String × String) :=
  d.edges.map fun edge => (trimSpace edge.source, trimSpace edge.target)

/-- The promises of `ValidateDefinition`. -/
structure Accepted (d : Definition) : Prop where
  event : trimSpace d.trigger.event ≠ ""
  nodes : d.nodes ≠ []
  id_ne : ∀ node ∈ d.nodes, trimSpace node.id ≠ ""
  nodup : d.ids.Nodup
  node : ∀ node ∈ d.nodes, validateNode { node with id := trimSpace node.id } = .ok ()
  edge : ∀ edge ∈ d.edges, trimSpace edge.source ∈ d.ids ∧ trimSpace edge.target ∈ d.ids
  start : ∃ node ∈ d.nodes, ∀ edge ∈ d.edges, trimSpace edge.target ≠ node.id
  acyclic : hasCycle d.ends = false

/-- The loop over the nodes. -/
theorem validateNodes_ok {seen : List String} {nodes : List Node} {ids : List String}
    (h : validateNodes seen nodes = .ok ids) :
    ids = seen ++ nodes.map (fun node => trimSpace node.id) ∧ (seen.Nodup → ids.Nodup) ∧
      (∀ node ∈ nodes, trimSpace node.id ≠ "") ∧
      ∀ node ∈ nodes, validateNode { node with id := trimSpace node.id } = .ok () := by
  induction nodes generalizing seen with
  | nil =>
      cases h
      exact ⟨(List.append_nil _).symm, fun hseen => hseen, by simp, by simp⟩
  | cons node nodes ih =>
      simp only [validateNodes] at h
      split at h
      · cases h
      next hne =>
      split at h
      · cases h
      next hfresh =>
      rcases hnode : validateNode { node with id := trimSpace node.id } with e | u
      · rw [hnode] at h
        cases h
      rw [hnode] at h
      obtain ⟨hids, hnodup, hnes, hnodes⟩ := ih h
      refine ⟨?_, fun hseen => hnodup ?_, ?_, ?_⟩
      · rw [hids, List.append_assoc]
        rfl
      · exact List.nodup_append.mpr ⟨hseen, List.nodup_singleton _, fun a ha b hb => by
          rintro rfl
          exact hfresh (List.mem_singleton.mp hb ▸ ha)⟩
      · exact List.forall_mem_cons.mpr ⟨hne, hnes⟩
      · exact List.forall_mem_cons.mpr ⟨hnode, hnodes⟩

/-- The loop over the edges. -/
theorem validateEdges_ok {ids : List String} {edges : List Edge} {ends : List (String × String)}
    (h : validateEdges ids edges = .ok ends) :
    ends = edges.map (fun edge => (trimSpace edge.source, trimSpace edge.target)) ∧
      ∀ edge ∈ edges, trimSpace edge.source ∈ ids ∧ trimSpace edge.target ∈ ids := by
  induction edges generalizing ends with
  | nil =>
      cases h
      exact ⟨rfl, fun _ he => by cases he⟩
  | cons edge edges ih =>
      simp only [validateEdges] at h
      split at h
      · cases h
      split at h
      · cases h
      next hsource =>
      split at h
      · cases h
      next htarget =>
      rcases hrest : validateEdges ids edges with e | rest
      · rw [hrest] at h
        cases h
      rw [hrest] at h
      cases h
      obtain ⟨rfl, hedges⟩ := ih hrest
      exact ⟨rfl, List.forall_mem_cons.mpr
        ⟨⟨not_not.mp hsource, not_not.mp htarget⟩, hedges⟩⟩

/-- **What the validator accepts.** -/
theorem accepted_of_validateDefinition {d : Definition} (h : validateDefinition d = .ok ()) :
    Accepted d := by
  simp only [validateDefinition] at h
  split at h
  · cases h
  next hevent =>
  split at h
  · cases h
  next hnodes =>
  rcases hids : validateNodes [] d.nodes with e | ids
  · rw [hids] at h
    cases h
  rw [hids] at h
  dsimp only [except_ok_bind] at h
  rcases hends : validateEdges ids d.edges with e | ends
  · rw [hends] at h
    cases h
  rw [hends] at h
  dsimp only [except_ok_bind] at h
  split at h
  · cases h
  next hstart =>
  split at h
  · cases h
  next hcycle =>
  obtain ⟨rfl, hnodup, hne, hnode⟩ := validateNodes_ok hids
  obtain ⟨rfl, hedge⟩ := validateEdges_ok hends
  refine ⟨hevent, hnodes, hne, hnodup List.nodup_nil, hnode, hedge, ?_, ?_⟩
  · simpa using hstart
  · exact Bool.eq_false_iff.mpr hcycle

end Iwifunni.Workflow
