/-
Iwifunni/Web/Canvas.lean

The canvas of the workflow builder (`store/builder`, `utils/canvas`,
`draft/from-canvas.ts`).

On the canvas every node of a draft has an id of its own, which edges refer to, and
a position.  The draft of the canvas lists the nodes from top to bottom, the
trigger first.

    draft  --buildCanvasGraphFromDraft-->  canvas  --StoreAction-->  canvas
    draft  <-------buildDraftFromCanvas---------------------------------

The positions are those `dagre` gives: a function of the ids and the edges that is
left open (`Layout`).  Selections are not modelled.
-/
import Mathlib.Data.List.Sort
import Mathlib.Data.Rat.Defs
import Iwifunni.Web.Draft

namespace Iwifunni.Web

open Go Workflow

/-! ### Nodes and edges of the canvas -/

structure Position where
  x : Rat
  y : Rat

/-- `WorkflowCanvasNode`. -/
structure WorkflowCanvasNode where
  id : String
  position : Position
  draft : BuilderNodeDraft

/-- `WorkflowCanvasEdge`. -/
structure WorkflowCanvasEdge where
  id : String
  source : String
  target : String
  branch : String

/-- The state of `createWorkflowBuilderStore`. -/
structure WorkflowCanvas where
  triggerEvent : String
  nodes : List WorkflowCanvasNode
  edges : List WorkflowCanvasEdge

/-- Where `dagre` puts the nodes of a graph. -/
abbrev Layout : Type := List String → List (String × String) → String → Position

/-- `createCanvasNodeId`. -/
def createCanvasNodeId (random : String) : String := "canvas_" ++ slice random 2 10

/-- `createCanvasEdgeId`. -/
def createCanvasEdgeId (random : String) : String := "edge_" ++ slice random 2 10

/-- `buildCanvasNode`. -/
def buildCanvasNode (draft : BuilderNodeDraft) (random : String) : WorkflowCanvasNode where
  id := createCanvasNodeId random
  position := ⟨0, 0⟩
  draft := draft

/-- `buildCanvasEdge`. -/
def buildCanvasEdge (source target branch random : String) : WorkflowCanvasEdge where
  id := createCanvasEdgeId random
  source := source
  target := target
  branch := branch

/-- `layoutCanvasGraph`, of the nodes. -/
def layoutCanvasGraph (layout : Layout) (nodes : List WorkflowCanvasNode)
    (edges : List WorkflowCanvasEdge) : List WorkflowCanvasNode :=
  let place := layout (nodes.map fun node => node.id)
    (edges.map fun edge => (edge.source, edge.target))
  nodes.map fun node => { node with position := place node.id }

/-! ### From a draft and back -/

/-- The nodes `buildCanvasGraphFromDraft` builds, with random ids from `start` on. -/
def canvasNodes (random : Random) : ℕ → List BuilderNodeDraft → List WorkflowCanvasNode
  | _, [] => []
  | start, draft :: drafts =>
      buildCanvasNode draft (random start) :: canvasNodes random (start + 1) drafts

/-- The node on the canvas an end of an edge of the draft means: the first one whose
draft has that id. -/
def canvasNodeId (nodes : List WorkflowCanvasNode) (draftId : String) : Option String :=
  (nodes.find? fun node => trim node.draft.id != "" && trim node.draft.id == trim draftId).map
    fun node => node.id

/-- The edges it builds, of those with both ends on the canvas; no id there is empty. -/
def canvasEdges (nodes : List WorkflowCanvasNode) (random : Random) :
    ℕ → List BuilderEdgeDraft → List WorkflowCanvasEdge
  | _, [] => []
  | start, edge :: edges =>
      match canvasNodeId nodes edge.source, canvasNodeId nodes edge.target with
      | some source, some target =>
          buildCanvasEdge source target edge.branch (random start) ::
            canvasEdges nodes random (start + 1) edges
      | _, _ => canvasEdges nodes random start edges

/-- `buildCanvasGraphFromDraft`, with the event of the draft. -/
def buildCanvasGraphFromDraft (layout : Layout) (random : Random) (draft : WorkflowBuilderDraft) :
    WorkflowCanvas :=
  let nodes := canvasNodes random 0 draft.nodes
  let edges := canvasEdges nodes random draft.nodes.length draft.edges
  ⟨draft.triggerEvent, layoutCanvasGraph layout nodes edges, edges⟩

/-- The order of the nodes on the canvas: from top to bottom, then from left to right. -/
def Position.notAfter (p q : Position) : Bool := p.y < q.y || (p.y == q.y && p.x ≤ q.x)

/-- The draft of a node that is given by its id on the canvas. -/
def draftIdOf (nodes : List WorkflowCanvasNode) (id : String) : String :=
  (Json.lookup (nodes.map fun node => (node.id, node.draft.id)) id).getD ""

/-- `buildDraftFromCanvas`. -/
def buildDraftFromCanvas (canvas : WorkflowCanvas) : WorkflowBuilderDraft where
  triggerEvent := canvas.triggerEvent
  nodes :=
    let ordered := canvas.nodes.insertionSort fun a b => a.position.notAfter b.position
    (ordered.map fun node => node.draft).insertionSort fun a b =>
      a.type = .trigger ∨ b.type ≠ .trigger
  edges :=
    let ordered := canvas.nodes.insertionSort fun a b => a.position.notAfter b.position
    canvas.edges.map fun edge =>
      ⟨draftIdOf ordered edge.source, draftIdOf ordered edge.target, edge.branch⟩

/-! ### The store -/

/-- The actions of the store. -/
inductive StoreAction
  | setTriggerEvent (value : String)
  | addConnectedNode (sourceNodeId : String) (type : WorkflowNodeType) (channel : Option String)
  | insertNodeOnEdge (edgeId : String) (type : WorkflowNodeType) (channel : Option String)
  | updateNodeDraft (nodeId : String) (updater : BuilderNodeDraft → BuilderNodeDraft)
  | duplicateNode (nodeId : String)
  | removeNode (nodeId : String)
  | onNodesChange (move : String → Option Position)
  | onEdgesChange (keep : String → Bool)
  | connectNodes (source target : String)
  | updateEdgeBranch (edgeId : String)
  | removeEdge (edgeId : String)
  | autoLayout

/-- `addConnectedNodeAction`. -/
def addConnectedNodeAction (layout : Layout) (random : Random) (canvas : WorkflowCanvas)
    (sourceNodeId : String) (type : WorkflowNodeType) (channel : Option String) : WorkflowCanvas :=
  let nextNode := buildCanvasNode (createNodeDraft type channel (random 0)) (random 1)
  let edges := canvas.edges ++ [buildCanvasEdge sourceNodeId nextNode.id "" (random 2)]
  ⟨canvas.triggerEvent, layoutCanvasGraph layout (canvas.nodes ++ [nextNode]) edges, edges⟩

/-- The node a terminal edge starts from. -/
def terminalSource (edgeId : String) : Option String :=
  (edgeId.toList.dropPrefix? "terminal:".toList).map String.ofList

/-- `insertNodeOnEdgeAction`. -/
def insertNodeOnEdgeAction (layout : Layout) (random : Random) (canvas : WorkflowCanvas)
    (edgeId : String) (type : WorkflowNodeType) (channel : Option String) : WorkflowCanvas :=
  match canvas.edges.find? fun edge => edge.id == edgeId with
  | none =>
      match terminalSource edgeId with
      | none => canvas
      | some sourceNodeId =>
          if canvas.nodes.any fun node => node.id == sourceNodeId then
            addConnectedNodeAction layout random canvas sourceNodeId type channel
          else canvas
  | some currentEdge =>
      let nextNode := buildCanvasNode (createNodeDraft type channel (random 0)) (random 1)
      let edges := canvas.edges.filter (fun edge => edge.id != edgeId) ++
        [buildCanvasEdge currentEdge.source nextNode.id "" (random 2),
          buildCanvasEdge nextNode.id currentEdge.target "" (random 3)]
      ⟨canvas.triggerEvent, layoutCanvasGraph layout (canvas.nodes ++ [nextNode]) edges, edges⟩

/-- The draft of a duplicate: that of the node, with an id of its own. -/
def duplicatedDraft (draft : BuilderNodeDraft) (random : String) : BuilderNodeDraft :=
  normalizeNodeDraftForType
    { draft with
      id := (createNodeDraft draft.type (some draft.channel) random).id }
    draft.type

/-- `duplicateNodeAction`. -/
def duplicateNodeAction (layout : Layout) (random : Random) (canvas : WorkflowCanvas)
    (nodeId : String) : WorkflowCanvas :=
  match canvas.nodes.find? fun node => node.id == nodeId with
  | none => canvas
  | some currentNode =>
      if currentNode.draft.type = .trigger then canvas
      else
        let duplicatedNode :=
          buildCanvasNode (duplicatedDraft currentNode.draft (random 0)) (random 1)
        let outgoingEdges := canvas.edges.filter fun edge => edge.source == nodeId
        let edges := canvas.edges.filter (fun edge => edge.source != nodeId) ++
          [buildCanvasEdge nodeId duplicatedNode.id "" (random 2)] ++
          (outgoingEdges.head?.map fun edge =>
            buildCanvasEdge duplicatedNode.id edge.target "" (random 3)).toList
        ⟨canvas.triggerEvent, layoutCanvasGraph layout (canvas.nodes ++ [duplicatedNode]) edges,
          edges⟩

/-- `removeNodeAction`. -/
def removeNodeAction (layout : Layout) (random : Random) (canvas : WorkflowCanvas)
    (nodeId : String) : WorkflowCanvas :=
  let remainingNodes := canvas.nodes.filter fun node => node.id != nodeId
  let nodes := if remainingNodes = [] then
      [buildCanvasNode (createNodeDraft .trigger none "") (random 0)]
    else remainingNodes
  let incomingEdges := canvas.edges.filter fun edge => edge.target == nodeId
  let outgoingEdges := canvas.edges.filter fun edge => edge.source == nodeId
  let bridge := match incomingEdges, outgoingEdges with
    | [incoming], [outgoing] =>
        if incoming.source = outgoing.target then []
        else [buildCanvasEdge incoming.source outgoing.target "" (random 1)]
    | _, _ => []
  let edges := canvas.edges.filter (fun edge => edge.source != nodeId && edge.target != nodeId) ++
    bridge
  ⟨canvas.triggerEvent, layoutCanvasGraph layout nodes edges, edges⟩

/-- `updateNodeDraft`, of one node. -/
def updatedNode (nodeId : String) (updater : BuilderNodeDraft → BuilderNodeDraft)
    (node : WorkflowCanvasNode) : WorkflowCanvasNode :=
  if node.id = nodeId then
    { node with
      draft := normalizeNodeDraftForType (updater node.draft) (updater node.draft).type }
  else node

/-- `addEdge` of React Flow: there is one edge between two nodes at most. -/
def addEdge (edge : WorkflowCanvasEdge) (edges : List WorkflowCanvasEdge) :
    List WorkflowCanvasEdge :=
  if edges.any fun e => e.source == edge.source && e.target == edge.target then edges
  else edges ++ [edge]

/-- One action of the store. -/
def StoreAction.apply (layout : Layout) (random : Random) (canvas : WorkflowCanvas) :
    StoreAction → WorkflowCanvas
  | setTriggerEvent value => { canvas with triggerEvent := value }
  | addConnectedNode sourceNodeId type channel =>
      addConnectedNodeAction layout random canvas sourceNodeId type channel
  | insertNodeOnEdge edgeId type channel =>
      insertNodeOnEdgeAction layout random canvas edgeId type channel
  | updateNodeDraft nodeId updater =>
      { canvas with nodes := canvas.nodes.map (updatedNode nodeId updater) }
  | duplicateNode nodeId => duplicateNodeAction layout random canvas nodeId
  | removeNode nodeId => removeNodeAction layout random canvas nodeId
  | onNodesChange move => { canvas with
      nodes := canvas.nodes.filterMap fun node =>
        (move node.id).map fun position => { node with position := position } }
  | onEdgesChange keep => { canvas with edges := canvas.edges.filter fun edge => keep edge.id }
  | connectNodes source target =>
      if source = "" ∨ target = "" then canvas
      else { canvas with
        edges := addEdge (buildCanvasEdge source target "" (random 0)) canvas.edges }
  | updateEdgeBranch edgeId => { canvas with
      edges := canvas.edges.map fun edge =>
        if edge.id = edgeId then { edge with branch := "" } else edge }
  | removeEdge edgeId =>
      if (terminalSource edgeId).isSome then canvas
      else { canvas with edges := canvas.edges.filter fun edge => edge.id != edgeId }
  | autoLayout => { canvas with nodes := layoutCanvasGraph layout canvas.nodes canvas.edges }

namespace Sample

/-- Random numbers that differ. -/
def random : Random := fun n => "0.sample" ++ Nat.repr n

/-- A layout that puts everything on one spot. -/
def onOneSpot : Layout := fun _ _ _ => ⟨0, 0⟩

end Sample

end Iwifunni.Web
