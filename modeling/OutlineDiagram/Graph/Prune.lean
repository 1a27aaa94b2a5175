/-
This file takes hidden bullets and what is below folded ones out of a graph. On
the way from the top to a node two things are inherited: the id of the outermost
folded node, and whether some node was hidden. They decide whether the node
survives, and if not, which surviving node stands for it.
-/

import OutlineDiagram.Event
import OutlineDiagram.Graph.Basic

namespace OutlineDiagram

/-! ### What a path inherits -/

/-- What the nodes from the top down to one node say about the nodes below it. -/
structure PathState where
  /-- The id of the outermost folded node. -/
  floor? : Option String := none
  /-- Some node is hidden. -/
  isHidden : Bool := false
  deriving DecidableEq, Repr, Inhabited

namespace PathState

/-- The state below a node, given the state above it. -/
def enter (foldIds hideIds : IdSet) (state : PathState) (id : String) : PathState where
  floor? := state.floor?.or (if foldIds.contains id then some id else none)
  isHidden := state.isHidden || hideIds.contains id

/-- The id that stands for a node, given the state above it: none for a hidden node, else the
outermost folded node above it, else the node itself. -/
def target (foldIds hideIds : IdSet) (state : PathState) (id : String) : Option String :=
  if (state.enter foldIds hideIds id).isHidden then none else some (state.floor?.getD id)

/-- A node survives, given the state above it. -/
def keeps (foldIds hideIds : IdSet) (state : PathState) (id : String) : Bool :=
  !(state.enter foldIds hideIds id).isHidden && state.floor?.isNone

end PathState

/-! ### Trees -/

/-- The forest of the nodes that survive, given the state above its trees. -/
def pruneForest (foldIds hideIds : IdSet) : PathState → Forest Node → Forest Node
  | _, .nil => .nil
  | state, .cons node below after =>
    let later := pruneForest foldIds hideIds state after
    if state.keeps foldIds hideIds node.id then
      .cons node (pruneForest foldIds hideIds (state.enter foldIds hideIds node.id) below) later
    else later

/-- Each node in pre-order with the id that stands for it, given the state above the trees. -/
def targetsFrom (foldIds hideIds : IdSet) :
    PathState → Forest Node → List (String × Option String)
  | _, .nil => []
  | state, .cons node below after =>
    (node.id, state.target foldIds hideIds node.id) ::
      (targetsFrom foldIds hideIds (state.enter foldIds hideIds node.id) below ++
        targetsFrom foldIds hideIds state after)

/-! ### Reroute tables -/

/-- Which id stands for each id, or that none does. Of two entries for an id the later one
counts, in the place of the earlier. -/
structure RerouteTable where
  /-- The ids with what stands for them. -/
  entries : List (String × Option String) := []
  deriving DecidableEq, Repr, Inhabited

namespace RerouteTable

/-- The table with what stands for an id set. -/
def put (table : RerouteTable) (entry : String × Option String) : RerouteTable :=
  if table.entries.any fun known => known.1 == entry.1 then
    ⟨table.entries.map fun known => if known.1 == entry.1 then entry else known⟩
  else ⟨table.entries ++ [entry]⟩

/-- The table of a list of entries. -/
def ofList (entries : List (String × Option String)) : RerouteTable := entries.foldl put {}

/-- What stands for an id. An id without entry stands for itself. -/
def resolve (table : RerouteTable) (id : String) : Option String :=
  match table.entries.find? fun known => known.1 == id with
  | some entry => entry.2
  | none => some id

/-- The number of ids for which another one stands. -/
def rerouted (table : RerouteTable) : Nat :=
  (table.entries.filter fun entry => entry.2 != none && entry.2 != some entry.1).length

/-- The number of ids for which nothing stands. -/
def removed (table : RerouteTable) : Nat :=
  (table.entries.filter fun entry => entry.2 == none).length

end RerouteTable

/-- An edge between what stands for its ends. A hierarchy edge, one that loses an end and one
that becomes a loop are dropped. -/
def reroute? (table : RerouteTable) (edge : Edge) : Option Edge :=
  if edge.kind = .hierarchy then none
  else
    match table.resolve edge.source, table.resolve edge.destination with
    | some source, some destination =>
      if source == destination then none else some ⟨source, destination, edge.kind, true⟩
    | _, _ => none

namespace LinkGraph

/-- The link graph of the rerouted edges. -/
def reroute (table : RerouteTable) (links : LinkGraph) : LinkGraph :=
  addEdges {} (links.edges.filterMap (reroute? table))

end LinkGraph

/-! ### Graphs -/

namespace Graph

/-- The table of what stands for the ids of a graph. -/
def rerouteTable (graph : Graph) : RerouteTable :=
  .ofList (targetsFrom graph.foldIds graph.hideIds {} graph.forest)

/-- The forest of the nodes that survive. -/
def prunedForest (graph : Graph) : Forest Node :=
  pruneForest graph.foldIds graph.hideIds {} graph.forest

/-- The graph without hidden nodes and without the nodes below folded ones. Its links are
rerouted, and implied edges are not drawn anew. -/
def prune (graph : Graph) : Graph :=
  { graph with
    forest := graph.prunedForest
    links := graph.links.reroute graph.rerouteTable }

/-- What is reported when a graph is pruned. -/
def pruneEvent (graph : Graph) : Event :=
  .graphPruned graph.rerouteTable.rerouted graph.rerouteTable.removed

end Graph

end OutlineDiagram
