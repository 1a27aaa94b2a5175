/-
This file holds the edges between node ids. Each id that an edge touches has an
entry with the edges that leave it and the edges that reach it; entries are kept in
the order in which their ids were first touched. An edge that reaches an id is
stored as that id sees it, with the id itself as its source.
-/

namespace OutlineDiagram

/-! ### Edges -/

/-- The kind of an edge. -/
inductive EdgeKind where
  /-- From a bullet to a bullet below or beside it. -/
  | hierarchy
  /-- From one step of a process to the next. -/
  | flow
  /-- A link written in the outline. -/
  | link
  /-- Two opposite edges drawn as one. -/
  | bilink
  deriving DecidableEq, Repr, Inhabited

namespace EdgeKind

/-- The name of a kind. -/
def name : EdgeKind → String
  | hierarchy => "hierarchy"
  | flow => "flow"
  | link => "link"
  | bilink => "bilink"

/-- The kind with a given name. -/
def ofName? (name : String) : Option EdgeKind :=
  [hierarchy, flow, link, bilink].find? fun kind => kind.name == name

end EdgeKind

/-- An edge between two ids. -/
structure Edge where
  /-- The id that the edge leaves. -/
  source : String
  /-- The id that the edge reaches. -/
  destination : String
  /-- The kind of the edge. -/
  kind : EdgeKind
  /-- The edge is drawn; the second half of a merged pair is not. -/
  mustRender : Bool := true
  deriving DecidableEq, Repr, Inhabited

namespace Edge

/-- Both edges join the same ids with the same kind. -/
def sameAs (first second : Edge) : Bool :=
  first.source == second.source && first.destination == second.destination &&
    first.kind == second.kind

/-- The edge as the other end sees it. -/
def flip (edge : Edge) : Edge :=
  { edge with source := edge.destination, destination := edge.source }

end Edge

/-! ### Link graphs -/

/-- The edges at one id. -/
structure NodeLinks where
  /-- The edges that leave the id. -/
  outputs : List Edge := []
  /-- The edges that reach the id, with the id as source. -/
  inputs : List Edge := []
  deriving DecidableEq, Repr, Inhabited

/-- The edges of a graph, by the ids that they touch. -/
structure LinkGraph where
  /-- The ids with their edges, in the order in which they were first touched. -/
  entries : List (String × NodeLinks) := []
  deriving DecidableEq, Repr, Inhabited

namespace LinkGraph

/-- The ids that some edge touches. -/
def nodeIds (links : LinkGraph) : List String := links.entries.map Prod.fst

/-- Some edge touches the id. -/
def contains (links : LinkGraph) (id : String) : Bool := links.nodeIds.contains id

/-- The edges at an id; none for an id that no edge touches. -/
def linksOf (links : LinkGraph) (id : String) : NodeLinks :=
  ((links.entries.find? fun entry => entry.1 == id).map Prod.snd).getD {}

/-- The edges that leave an id. -/
def outputs (links : LinkGraph) (id : String) : List Edge := (links.linksOf id).outputs

/-- The edges that reach an id, with the id as source. -/
def inputs (links : LinkGraph) (id : String) : List Edge := (links.linksOf id).inputs

/-- All edges, each once and in its own direction. -/
def edges (links : LinkGraph) : List Edge := links.entries.flatMap fun entry => entry.2.outputs

/-- The edges of a kind. -/
def edgesOf (links : LinkGraph) (kind : EdgeKind) : List Edge :=
  links.edges.filter fun edge => edge.kind == kind

/-- The number of edges. -/
def size (links : LinkGraph) : Nat := links.edges.length

/-- The graph with the edges at one id changed. An id without entry has nothing to change. -/
def modify (links : LinkGraph) (id : String) (change : NodeLinks → NodeLinks) : LinkGraph :=
  ⟨links.entries.map fun entry => if entry.1 == id then (entry.1, change entry.2) else entry⟩

/-- The graph with an entry for an id, the last one if it is new. -/
def touch (links : LinkGraph) (id : String) : LinkGraph :=
  if links.contains id then links else ⟨links.entries ++ [(id, NodeLinks.mk [] [])]⟩

/-- The graph with one more edge. An edge at the empty id, which is nobody's, is not added. -/
def addEdge (links : LinkGraph) (source destination : String) (kind : EdgeKind) : LinkGraph :=
  if source == "" || destination == "" then links
  else
    ((links.touch source).modify source fun own =>
      { own with outputs := own.outputs ++ [⟨source, destination, kind, true⟩] }).touch destination
      |>.modify destination fun own =>
        { own with inputs := own.inputs ++ [⟨destination, source, kind, true⟩] }

/-- The graph with the ends and kinds of given edges added, in order. -/
def addEdges (links : LinkGraph) (edges : List Edge) : LinkGraph :=
  edges.foldl (fun sofar edge => sofar.addEdge edge.source edge.destination edge.kind) links

end LinkGraph

end OutlineDiagram
