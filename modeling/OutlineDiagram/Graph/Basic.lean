/-
This file says what the graph of an outline is: a forest of nodes, the edges
between their ids, and the ids that carry a marker. How a node is drawn follows
from its kind, from the number of bullets below it in the outline, and from
whether the forest shows any of them.
-/

import OutlineDiagram.Forest.Arrange
import OutlineDiagram.Ids.IdSet
import OutlineDiagram.Line.Basic
import OutlineDiagram.Links.Basic

namespace OutlineDiagram

/-! ### Nodes -/

/-- A bullet as a node of the graph. -/
structure Node where
  /-- The id of the node. -/
  id : String := ""
  /-- The kind of the bullet. -/
  kind : BulletKind := .data
  /-- The label of the bullet. -/
  label : String := ""
  /-- The bullet is highlighted. -/
  isHighlighted : Bool := false
  /-- The number of bullets below it in the outline, shown or not. -/
  size : Int := 0
  deriving DecidableEq, Repr, Inhabited

/-- How a node is drawn. -/
inductive NodeType where
  /-- An ordinary node with nothing below it. -/
  | data
  /-- An ordinary node with nodes below it. -/
  | subgraph
  /-- An ordinary node with bullets below it of which none is shown. -/
  | folded
  /-- A step with nothing below it. -/
  | process
  /-- A step with nodes below it. -/
  | subgraphProcess
  /-- A step with bullets below it of which none is shown. -/
  | foldedProcess
  deriving DecidableEq, Repr, Inhabited

namespace NodeType

/-- The name of a node type. -/
def name : NodeType → String
  | data => "data"
  | subgraph => "subgraph"
  | folded => "folded"
  | process => "process"
  | subgraphProcess => "subgraph_process"
  | foldedProcess => "folded_process"

end NodeType

namespace Node

/-- The node of a bullet, before anything below it is counted. -/
def ofLine (line : Line) : Node where
  id := line.id
  kind := line.kind
  label := line.label
  isHighlighted := line.isHighlighted
  size := 0

/-- The outline has nothing below the node. -/
def isLeaf (node : Node) : Bool := node.size == 0

/-- The node is a step of a process. -/
def isProcess (node : Node) : Bool := node.kind == .flow

/-- The node starts a chain of steps. -/
def isFlowBreak (node : Node) : Bool := node.kind == .flowBreak

/-- The outline has bullets below the node and the forest shows none of them. -/
def isFolded (node : Node) (below : Forest Node) : Bool := !node.isLeaf && below.isEmpty

/-- How the node is drawn above a given forest. -/
def type (node : Node) (below : Forest Node) : NodeType :=
  match node.kind with
  | .data =>
    if !below.isEmpty then .subgraph else if node.isFolded below then .folded else .data
  | _ =>
    if !below.isEmpty then .subgraphProcess
    else if node.isFolded below then .foldedProcess
    else .process

/-- The node above all trees, which is never drawn. -/
def root : Node := {}

end Node

namespace Forest

/-! ### Counting -/

/-- The forest with the number of nodes below it written at each node. -/
def withSizes : Forest Node → Forest Node
  | nil => nil
  | cons node below after => cons { node with size := below.size } below.withSizes after.withSizes

/-! ### Order of siblings -/

/-- A tree has something below its root. -/
def hasBelow (tree : Node × Forest Node) : Bool := !tree.2.isEmpty

/-- Sibling trees with those of one kind rearranged among their places, subgraphs first. -/
def arrangeKind (kind : BulletKind) (trees : List (Node × Forest Node)) :
    List (Node × Forest Node) :=
  preferWithin (fun tree => tree.1.kind == kind) hasBelow trees

/-- Sibling trees with subgraphs before leaves, among ordinary nodes and among those that start a
chain. Steps of a process never move. -/
def arrangeSiblings (trees : List (Node × Forest Node)) : List (Node × Forest Node) :=
  arrangeKind .flowBreak (arrangeKind .data trees)

/-- The forest with its trees in drawing order; what is below them stays as it is. -/
def arrangeTop (forest : Forest Node) : Forest Node := ofTrees (arrangeSiblings forest.trees)

/-- The forest with everything below its trees in drawing order. -/
def arrangeBelow : Forest Node → Forest Node
  | nil => nil
  | cons node below after => cons node (arrangeTop below.arrangeBelow) after.arrangeBelow

/-- The forest with all siblings in drawing order. -/
def arrange (forest : Forest Node) : Forest Node := arrangeTop forest.arrangeBelow

end Forest

/-! ### Graphs -/

/-- The graph of an outline. -/
structure Graph where
  /-- The nodes, nested as the bullets are. -/
  forest : Forest Node := .nil
  /-- The edges. -/
  links : LinkGraph := {}
  /-- The ids of the folded bullets. -/
  foldIds : IdSet := ∅
  /-- The ids of the hidden bullets. -/
  hideIds : IdSet := ∅
  /-- The ids that more than one bullet declares. -/
  duplicateIds : IdSet := ∅
  deriving DecidableEq, Inhabited

namespace Graph

/-- The nodes in pre-order. -/
def nodes (graph : Graph) : List Node := graph.forest.toList

/-- The ids of the nodes in pre-order. -/
def nodeIds (graph : Graph) : List String := graph.nodes.map Node.id

/-- The last node in pre-order with an id, and what is below it. -/
def findNode? (graph : Graph) (id : String) : Option (Node × Forest Node) :=
  graph.forest.findLast? fun node => node.id == id

end Graph

end OutlineDiagram
