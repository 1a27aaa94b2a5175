/-
This file writes a graph as a diagram in the DOT language. The text is laid out in
blocks: a default statement and then what it applies to, one block for each node
type and for each edge kind. Labels come last, in nested clusters that follow the
outline.
-/

import OutlineDiagram.Dot.Token
import OutlineDiagram.Event
import OutlineDiagram.Graph.Basic
import OutlineDiagram.Settings.Basic

namespace OutlineDiagram.Dot

/-! ### Styles -/

/-- How the nodes or edges of one block look. -/
structure BlockStyle (Kind : Type) where
  /-- What the block holds. -/
  kind : Kind
  /-- What a comment above the block calls it. -/
  title : String
  /-- The attributes of the block. -/
  attributes : String
  deriving DecidableEq, Repr

/-- The blocks of nodes, in order. -/
def nodeStyles : List (BlockStyle NodeType) :=
  [⟨.subgraph, "subgraph data", "color=grey30, fontcolor=grey80, fontsize=14, shape=plain"⟩,
    ⟨.subgraphProcess, "subgraph process",
      "color=grey30, fontcolor=\"#aaaadd\", fontsize=14, shape=plain"⟩,
    ⟨.data, "data", "color=grey20, fontcolor=grey60, fontsize=14, style=solid, shape=box"⟩,
    ⟨.process, "process",
      "color=grey30, fontcolor=\"#8888bb\", fontsize=14, style=rounded, shape=box"⟩,
    ⟨.folded, "folded data",
      "color=grey40, fontcolor=grey70, fontsize=14, style=bold, shape=box3d"⟩,
    ⟨.foldedProcess, "folded process",
      "color=grey40, fontcolor=\"#aaaadd\", fontsize=14, style=\"rounded,bold\", shape=box"⟩]

/-- The blocks of edges, in order. -/
def edgeStyles : List (BlockStyle EdgeKind) :=
  [⟨.flow, "flow", "color=grey50, style=solid, dir=forward"⟩,
    ⟨.hierarchy, "hierarchy", "color=grey20, style=invis, arrowtail=none, arrowhead=none"⟩,
    ⟨.link, "link", "color=\"#aa5555\", style=solid, dir=forward, arrowhead=normal"⟩,
    ⟨.bilink, "bidirectional link",
      "color=\"#aa5555\", style=solid, dir=both, arrowtail=normal, arrowhead=normal"⟩]

/-- The attributes of a highlighted node. -/
def highlightAttributes : String :=
  "style=\"rounded,filled\", fillcolor=\"#ddcc77\", fontcolor=grey10"

/-- The attributes of ids that no bullet declares. -/
def undeclaredAttributes : String :=
  "color=\"#aa3333\", fontcolor=grey10, style=\"rounded,filled\", shape=box"

/-! ### Blocks -/

/-- The attributes of one node. -/
def nodeAttributes (settings : RenderSettings) (node : Node) : List String :=
  (if settings.scaleFont && !node.isLeaf then ["fontsize=" ++ toString (fontSize node.size)]
    else []) ++
    if node.isHighlighted then [highlightAttributes] else []

/-- The line of one node in the block of its type. -/
def nodeLine (settings : RenderSettings) (node : Node) : String :=
  let attributes := nodeAttributes settings node
  "\t" ++ quoteId node.id ++
    (if attributes.isEmpty then "" else " [" ++ ", ".intercalate attributes ++ "]") ++
    " // " ++ node.label

/-- The block of the nodes of one type. -/
def nodeBlock (settings : RenderSettings) (forest : Forest Node) (style : BlockStyle NodeType) :
    List String :=
  ["\t// Node style for " ++ style.title ++ " nodes.", "\tnode [" ++ style.attributes ++ "]"] ++
    ((forest.visits.filter fun visit => visit.value.type visit.below == style.kind).map
      fun visit => nodeLine settings visit.value) ++
    [""]

/-- The drawn edges. -/
def drawnEdges (links : LinkGraph) : List Edge := links.edges.filter Edge.mustRender

/-- The ends of drawn edges that no node has as its id, in the order in which they are met. -/
def undeclaredIds (graph : Graph) : List String :=
  let ends := (drawnEdges graph.links).flatMap fun edge => [edge.source, edge.destination]
  (IdSet.ofList (ends.filter fun id => !graph.nodeIds.contains id)).toList

/-- The block of the ids that no node has. -/
def undeclaredBlock (graph : Graph) : List String :=
  ["\t// Style for undeclared nodes (referenced but never declared).",
    "\tnode [" ++ undeclaredAttributes ++ "]"] ++
    (undeclaredIds graph).map (fun id => "\t" ++ quoteId id) ++ [""]

/-- The line of one edge. -/
def edgeLine (edge : Edge) : String :=
  "\t" ++ quoteId edge.source ++ " -> " ++ quoteId edge.destination

/-- The block of the edges of one kind. -/
def edgeBlock (links : LinkGraph) (style : BlockStyle EdgeKind) : List String :=
  ["\t// Edge style for " ++ style.title ++ " edges.", "\tedge [" ++ style.attributes ++ "]"] ++
    ((drawnEdges links).filter fun edge => edge.kind == style.kind).map edgeLine ++ [""]

/-- The statement that gives a node its label. -/
def labelLine (width : Int) (node : Node) : String :=
  quoteId node.id ++ " [label=\"" ++ String.ofList (wrap width node.label.toList) ++ "\"]"

/-- The nested clusters of a forest. -/
def clusterLines (width : Int) : (indent : String) → Forest Node → List String
  | _, .nil => []
  | indent, .cons node below after =>
    (if below.isEmpty then [indent ++ labelLine width node]
      else
        ["",
          indent ++ "subgraph " ++ quoteId ("cluster_" ++ node.id) ++ " \x7b",
          indent ++ "\tcolor = gray30; " ++
            (if node.isProcess then "style = rounded" else "style = solid"),
          indent ++ "\t" ++ labelLine width node ++ " // subgraph name"] ++
        clusterLines width (indent ++ "\t") below ++
        [indent ++ "\x7d"]) ++
      clusterLines width indent after

/-! ### Diagrams -/

/-- The lines of a diagram. -/
def diagramLines (settings : RenderSettings) (graph : Graph) : List String :=
  let font := quoteId settings.fontName
  ["digraph G \x7b",
    "",
    "\tsplines = " ++ settings.splines,
    "",
    "\t// High level default styles.",
    "\tgraph [bgcolor=grey10, fontcolor=grey50, fontname=" ++ font ++ "]",
    "\tedge [fontname=" ++ font ++ "]",
    "\tnode [fontname=" ++ font ++ "]",
    ""] ++
    nodeStyles.flatMap (nodeBlock settings graph.forest) ++
    undeclaredBlock graph ++
    edgeStyles.flatMap (edgeBlock graph.links) ++
    ["\t// Subgraph node hierarchy.", "\tsubgraph clusterRoot \x7b"] ++
    clusterLines settings.wrapWidth "\t\t" graph.forest ++
    ["\t\x7d", "\x7d"]

/-- The text of a diagram. -/
def render (settings : RenderSettings) (graph : Graph) : String :=
  "\n".intercalate (diagramLines settings graph) ++ "\n"

/-- Some node has a font size that cannot be worked out. -/
def hasOversizedNode (settings : RenderSettings) (graph : Graph) : Bool :=
  settings.scaleFont && graph.nodes.any fun node => !node.isLeaf && !(fontSize? node.size).isOk

/-- The text of a diagram, refused when a font size cannot be worked out. -/
def render? (settings : RenderSettings) (graph : Graph) : Except FontError String :=
  if hasOversizedNode settings graph then .error .oversized else .ok (render settings graph)

/-- What is reported when a diagram is written. -/
def renderEvent (graph : Graph) : Event :=
  .dotRendered graph.nodes.length (drawnEdges graph.links).length (undeclaredIds graph).length

end OutlineDiagram.Dot
