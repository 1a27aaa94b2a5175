/-
This file draws the edges that the shape of an outline implies. A parent leads to
its subgraphs and to the first of its leaves, each leaf leads to the next, and the
steps of a process are chained in the order of the outline across all levels.
-/

import OutlineDiagram.Graph.Basic

namespace OutlineDiagram

/-! ### Hierarchy edges -/

/-- What has been seen of the children of one parent. -/
structure SiblingState where
  /-- The parent has led to its first step already. -/
  hasFlowLink : Bool := false
  /-- The last leaf. -/
  lastLeaf : Option Node := none
  deriving DecidableEq, Repr, Inhabited

namespace SiblingState

/-- The edge that reaches a child, if any, and what has been seen after it. -/
def visit (parent child : Node) (below : Forest Node) (state : SiblingState) :
    Option Edge × SiblingState :=
  match child.kind with
  | .flowBreak => (none, state)
  | .flow =>
    if !parent.isProcess && !state.hasFlowLink then
      (some ⟨parent.id, child.id, .hierarchy, true⟩, { state with hasFlowLink := true })
    else (none, state)
  | .data =>
    if !below.isEmpty then (some ⟨parent.id, child.id, .hierarchy, true⟩, state)
    else
      (some ⟨(state.lastLeaf.getD parent).id, child.id, .hierarchy, true⟩,
        { state with lastLeaf := some child })

end SiblingState

/-- The hierarchy edges of the children of a parent and of all that is below them. -/
def hierarchyEdgesFrom (parent : Node) : SiblingState → Forest Node → List Edge
  | _, .nil => []
  | state, .cons child below after =>
    let visited := state.visit parent child below
    visited.1.toList ++ hierarchyEdgesFrom child {} below ++
      hierarchyEdgesFrom parent visited.2 after

/-- The hierarchy edges of the nodes below a parent. -/
def hierarchyEdges (parent : Node) (below : Forest Node) : List Edge :=
  hierarchyEdgesFrom parent {} below

/-! ### Flow edges -/

/-- The edge from a node to the node met next: it is there when the next one is a step and this
one a step or the start of a chain. -/
def flowEdge? (first second : Node) : Option Edge :=
  if second.isProcess && (first.isProcess || first.isFlowBreak) then
    some ⟨first.id, second.id, .flow, true⟩
  else none

/-- The flow edges between neighbours of a list of nodes. -/
def flowEdgesOf : List Node → List Edge
  | first :: second :: rest => (flowEdge? first second).toList ++ flowEdgesOf (second :: rest)
  | _ => []

/-- The flow edges of a forest, whose nodes are neighbours in pre-order. -/
def flowEdges (forest : Forest Node) : List Edge := flowEdgesOf forest.toList

namespace Graph

/-- The graph with siblings in drawing order and its implied edges added. -/
def withImpliedEdges (graph : Graph) : Graph :=
  let forest := graph.forest.arrange
  { graph with
    forest := forest
    links := (graph.links.addEdges (hierarchyEdges .root forest)).addEdges (flowEdges forest) }

end Graph

end OutlineDiagram
