/-
This file brings a link graph into the form in which it is drawn: no list holds an
edge twice, and two opposite edges of one kind are one edge with two heads. Of such
a pair the edge that leaves the id with the earlier entry is drawn.
-/

import OutlineDiagram.Links.Basic
import OutlineDiagram.Unique

namespace OutlineDiagram

/-! ### Repeated edges -/

namespace NodeLinks

/-- The edges at an id without repeats in either list. -/
def withoutRepeats (links : NodeLinks) : NodeLinks :=
  { outputs := uniqueBy Edge.sameAs links.outputs
    inputs := uniqueBy Edge.sameAs links.inputs }

/-- The number of edges in both lists. -/
def size (links : NodeLinks) : Nat := links.outputs.length + links.inputs.length

end NodeLinks

namespace LinkGraph

/-- The number of edges in all lists, so that each edge counts at both of its ends. -/
def listedSize (links : LinkGraph) : Nat :=
  (links.entries.map fun entry => entry.2.size).foldr (· + ·) 0

/-- The graph without repeats in any list. -/
def withoutRepeats (links : LinkGraph) : LinkGraph :=
  ⟨links.entries.map fun entry => (entry.1, entry.2.withoutRepeats)⟩

/-- The number of listed edges that repeat an earlier one. -/
def repeats (links : LinkGraph) : Nat := links.listedSize - links.withoutRepeats.listedSize

/-! ### Opposite edges -/

/-- The edge as one half of a merged pair. -/
def asBilink (edge : Edge) : Edge := { edge with kind := .bilink }

/-- The edges at the far end of a merged edge: those that lead back to an id with the kind
that the edge had become part of the pair, and the ones that leave are not drawn. -/
def closePair (id : String) (kind : EdgeKind) (far : NodeLinks) : NodeLinks where
  outputs := far.outputs.map fun edge =>
    if edge.destination == id && edge.kind == kind then
      { edge with kind := .bilink, mustRender := false }
    else edge
  inputs := far.inputs.map fun edge =>
    if edge.destination == id && edge.kind == kind then asBilink edge else edge

/-- The graph after looking for the opposite of one edge, given by its source and its position
there, and the number of pairs merged so far. An edge has an opposite when the edges that reach
its source hold the same edge. -/
def mergeAt (id : String) (state : LinkGraph × Nat) (position : Nat) : LinkGraph × Nat :=
  let links := state.1
  match (links.outputs id)[position]? with
  | none => state
  | some edge =>
    if !edge.mustRender then state
    else
      match (links.inputs id).findIdx? edge.sameAs with
      | none => state
      | some facing =>
        let opened := links.modify id fun own =>
          { outputs := own.outputs.modify position asBilink
            inputs := own.inputs.modify facing asBilink }
        (opened.modify edge.destination (closePair id edge.kind),
          if edge.kind = .bilink then state.2 else state.2 + 1)

/-- The graph after looking at all edges that leave one id. -/
def mergeFrom (state : LinkGraph × Nat) (id : String) : LinkGraph × Nat :=
  (List.range (state.1.outputs id).length).foldl (mergeAt id) state

/-- The graph with opposite edges merged, and the number of pairs. -/
def merged (links : LinkGraph) : LinkGraph × Nat := links.nodeIds.foldl mergeFrom (links, 0)

/-- The graph in the form in which it is drawn. -/
def normalize (links : LinkGraph) : LinkGraph := links.withoutRepeats.merged.1

end LinkGraph

end OutlineDiagram
