/-
This file compiles an outline: its graph is built, bullets are counted, implied
edges are drawn, folded and hidden parts are taken out and the edges implied by
what is left are drawn again, and the links are brought into their normal form.
-/

import OutlineDiagram.Graph.Build
import OutlineDiagram.Graph.Implied
import OutlineDiagram.Graph.Prune
import OutlineDiagram.Links.Normal

namespace OutlineDiagram.Graph

/-- The graph with the number of nodes below it written at each node. -/
def withSizes (graph : Graph) : Graph := { graph with forest := graph.forest.withSizes }

/-- The graph with its links in normal form. -/
def normalize (graph : Graph) : Graph := { graph with links := graph.links.normalize }

/-- The built graph with sizes and implied edges, pruned if asked for. -/
def drawn (prune : Bool) (graph : Graph) : Graph :=
  let full := graph.withSizes.withImpliedEdges
  if prune then full.prune.withImpliedEdges else full

/-- The graph that an outline is drawn as. -/
def compile (prune : Bool) (lines : List Line) : Except StructureError Graph :=
  (build lines).map fun graph => (graph.drawn prune).normalize

/-- What is reported when the links of a graph are brought into normal form. -/
def normalizeEvent (links : LinkGraph) : Event :=
  .linksNormalized links.repeats links.withoutRepeats.merged.2

/-- What is reported while an outline is compiled. -/
def compileEvents (prune : Bool) (lines : List Line) : List Event :=
  buildEvents lines ++
    match build lines with
    | .error _ => []
    | .ok graph =>
      let drawn := graph.drawn prune
      let final := drawn.normalize
      (if prune then [graph.withSizes.withImpliedEdges.pruneEvent] else []) ++
        [normalizeEvent drawn.links,
          .outlineCompiled final.nodes.length final.links.size prune]

end OutlineDiagram.Graph
