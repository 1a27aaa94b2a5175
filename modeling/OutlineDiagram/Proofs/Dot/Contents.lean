/-
This file reads a whole diagram back and proves that its text carries the whole graph.
The reader cuts the text into lines, passes over the lines that set defaults, and reads
the blocks of nodes, the block of ids that no node has, the blocks of edges and the
clusters, one after the other. What it gives back is every node once, in the block of
its type, every drawn edge once, in the block of its kind, every id that an edge needs
and no node has, and the outline.
-/

import OutlineDiagram.Proofs.Dot.Block
import OutlineDiagram.Proofs.Dot.Entry
import OutlineDiagram.Proofs.Dot.Outline
import OutlineDiagram.Proofs.Graph.Survivors
import OutlineDiagram.Settings.Fault

namespace OutlineDiagram.Dot

/-! ### Reading diagrams -/

/-- What a diagram tells of a graph. -/
structure Contents where
  /-- The nodes, under the types of their blocks. -/
  nodes : List (NodeType × NodeEntry)
  /-- The ids in the block of those that no node has. -/
  undeclared : List String
  /-- The ends of the edges, under the kinds of their blocks. -/
  edges : List (EdgeKind × String × String)
  /-- The clusters. -/
  outline : Forest OutlineEntry
  deriving DecidableEq

/-- The first lines of a block of nodes. -/
def nodeHeading (style : BlockStyle NodeType) : List String :=
  ["\t// Node style for " ++ style.title ++ " nodes.", "\tnode [" ++ style.attributes ++ "]"]

/-- The first lines of the block of ids that no node has. -/
def undeclaredHeading : List String :=
  ["\t// Style for undeclared nodes (referenced but never declared).",
    "\tnode [" ++ undeclaredAttributes ++ "]"]

/-- The first lines of a block of edges. -/
def edgeHeading (style : BlockStyle EdgeKind) : List String :=
  ["\t// Edge style for " ++ style.title ++ " edges.", "\tedge [" ++ style.attributes ++ "]"]

/-- The lines before the clusters. -/
def outlineHeading : List String :=
  ["\t// Subgraph node hierarchy.", "\tsubgraph clusterRoot \x7b"]

/-- The number of lines before the first block. -/
def preambleLength : Nat := 9

/-- What a text tells of a graph if it is a diagram. -/
def read (text : String) : Option Contents := do
  let lines := text.toList.dropLast.splitOn '\n'
  let (nodes, rest) ← readBlocks readNode nodeHeading nodeStyles (lines.drop preambleLength)
  let (undeclared, rest) ← readBlock readUndeclared undeclaredHeading rest
  let (edges, rest) ← readBlocks readEdge edgeHeading edgeStyles rest
  let clusters ← rest.dropPrefix? (outlineHeading.map String.toList)
  -- Two more braces close the clusters and the diagram.
  match ← readOutline clusters with
  | [outline, .nil, .nil] => some ⟨nodes, undeclared, edges, outline⟩
  | _ => none

/-- The contents of the diagram of a graph, in the order of the blocks. -/
def contentsOf (graph : Graph) : Contents where
  nodes := nodeStyles.flatMap fun style =>
    (graph.forest.visits.filter fun visit => visit.value.type visit.below == style.kind).map
      fun visit => (style.kind, NodeEntry.of visit.value)
  undeclared := undeclaredIds graph
  edges := edgeStyles.flatMap fun style =>
    ((drawnEdges graph.links).filter fun edge => edge.kind == style.kind).map fun edge =>
      (style.kind, edge.source, edge.destination)
  outline := outlineOf graph.forest

/-! ### Graphs with texts on one line -/

/-- The routing of edges is one that can be set, and no text that goes into a diagram has a
newline. -/
structure StaysOnLines (settings : RenderSettings) (graph : Graph) : Prop where
  /-- The routing of edges is a known one. -/
  splines : settings.splines ∈ splinesNames
  /-- The name of the font has no newline. -/
  font : IsOneLine settings.fontName
  /-- The ids and labels of nodes have no newline. -/
  node : ∀ node ∈ graph.nodes, IsOneLine node.id ∧ IsOneLine node.label
  /-- The ends of drawn edges have no newline. -/
  edge : ∀ edge ∈ drawnEdges graph.links, IsOneLine edge.source ∧ IsOneLine edge.destination

section Lines

variable {settings : RenderSettings} {graph : Graph}

theorem isOneLine_of_mem_nodeHeading :
    ∀ style ∈ nodeStyles, ∀ first ∈ nodeHeading style, IsOneLine first := by
  simp only [nodeStyles, nodeHeading, List.forall_mem_cons, List.not_mem_nil, IsEmpty.forall_iff,
    implies_true, isOneLine_append, and_true]
  and_intros <;> exact isOneLine_ofList (by decide)

theorem isOneLine_of_mem_undeclaredHeading : ∀ first ∈ undeclaredHeading, IsOneLine first := by
  simp only [undeclaredHeading, undeclaredAttributes, List.forall_mem_cons, List.not_mem_nil,
    IsEmpty.forall_iff, implies_true, isOneLine_append, and_true]
  and_intros <;> exact isOneLine_ofList (by decide)

theorem isOneLine_of_mem_edgeHeading :
    ∀ style ∈ edgeStyles, ∀ first ∈ edgeHeading style, IsOneLine first := by
  simp only [edgeStyles, edgeHeading, List.forall_mem_cons, List.not_mem_nil, IsEmpty.forall_iff,
    implies_true, isOneLine_append, and_true]
  and_intros <;> exact isOneLine_ofList (by decide)

/-- A walk meets the nodes of the graph. -/
theorem value_mem_nodes {visit : Forest.Visit Node} (member : visit ∈ graph.forest.visits) :
    visit.value ∈ graph.nodes := by
  rw [Graph.nodes, ← Forest.map_value_visitsFrom 0 graph.forest]
  exact List.mem_map_of_mem member

theorem mem_undeclaredIds_iff {id : String} :
    id ∈ undeclaredIds graph ↔ id ∉ graph.nodeIds ∧
      ∃ edge ∈ drawnEdges graph.links, id = edge.source ∨ id = edge.destination := by
  rw [undeclaredIds]
  refine IdSet.mem_ofList.trans ?_
  simp [and_comm]

theorem isOneLine_of_mem_diagramLines (stays : StaysOnLines settings graph) :
    ∀ line ∈ diagramLines settings graph, IsOneLine line := by
  have splines : IsOneLine settings.splines :=
    (by decide : ∀ name ∈ splinesNames, IsOneLine name) _ stays.splines
  have font := isOneLine_quoteId stays.font
  rw [diagramLines]
  simp only [List.forall_mem_append]
  refine ⟨⟨⟨⟨⟨⟨?_, ?_⟩, ?_⟩, ?_⟩, by decide⟩, ?_⟩, by decide⟩
  · simp only [List.forall_mem_cons, List.not_mem_nil, IsEmpty.forall_iff, implies_true,
      isOneLine_append, splines, font, and_true]
    and_intros <;> exact isOneLine_ofList (by decide)
  · rw [List.forall_mem_flatMap]
    refine fun style listed => isOneLine_of_mem_block (isOneLine_of_mem_nodeHeading style listed)
      fun visit member => ?_
    obtain ⟨id, label⟩ := stays.node _ (value_mem_nodes (List.mem_filter.mp member).1)
    exact isOneLine_nodeLine settings id label
  · refine isOneLine_of_mem_block isOneLine_of_mem_undeclaredHeading fun id member =>
      isOneLine_append.mpr ⟨by decide, ?_⟩
    obtain ⟨-, edge, drawn, isEnd⟩ := mem_undeclaredIds_iff.mp member
    obtain ⟨source, destination⟩ := stays.edge edge drawn
    rcases isEnd with rfl | rfl
    · exact isOneLine_quoteId source
    · exact isOneLine_quoteId destination
  · rw [List.forall_mem_flatMap]
    refine fun style listed => isOneLine_of_mem_block (isOneLine_of_mem_edgeHeading style listed)
      fun edge member => ?_
    obtain ⟨source, destination⟩ := stays.edge edge (List.mem_filter.mp member).1
    exact isOneLine_edgeLine source destination
  · exact isOneLine_of_mem_clusterLines settings.wrapWidth stays.node (by decide)

end Lines

/-! ### Reading a diagram back -/

section Whole

variable {settings : RenderSettings} {graph : Graph}

theorem splitOn_render (stays : StaysOnLines settings graph) :
    (render settings graph).toList.dropLast.splitOn '\n' =
      (diagramLines settings graph).map String.toList := by
  have noNewline : ∀ line ∈ (diagramLines settings graph).map String.toList, '\n' ∉ line :=
    List.forall_mem_map.mpr (isOneLine_of_mem_diagramLines stays)
  have written : (render settings graph).toList =
      ['\n'].intercalate ((diagramLines settings graph).map String.toList) ++ ['\n'] := by
    rw [render, String.toList_append, String.toList_intercalate]
    rfl
  rw [written, List.dropLast_concat]
  exact List.splitOn_intercalate '\n' noNewline (by simp [diagramLines])

/-- After its preamble a diagram has the blocks of nodes, the block of ids that no node has, the
blocks of edges and the clusters. -/
theorem drop_diagramLines (settings : RenderSettings) (graph : Graph) :
    ((diagramLines settings graph).map String.toList).drop preambleLength =
      (nodeStyles.flatMap (nodeBlock settings graph.forest)).map String.toList ++
        ((undeclaredBlock graph).map String.toList ++
          ((edgeStyles.flatMap (edgeBlock graph.links)).map String.toList ++
            (outlineHeading.map String.toList ++
              ((clusterLines settings.wrapWidth "\t\t" graph.forest).map String.toList ++
                ["\t\x7d".toList, "\x7d".toList])))) := by
  simp only [diagramLines, preambleLength, List.cons_append, List.nil_append, List.append_assoc,
    List.map_cons, List.map_append, List.drop_succ_cons, List.drop_zero]
  rfl

section Parts

variable (stays : StaysOnLines settings graph) (rest : List (List Char))

include stays

theorem readBlocks_nodeBlock :
    readBlocks readNode nodeHeading nodeStyles
        ((nodeStyles.flatMap (nodeBlock settings graph.forest)).map String.toList ++ rest) =
      some ((contentsOf graph).nodes, rest) := by
  have writes : ∀ type, Writes readNode (fun visit => nodeLine settings visit.value)
      (fun visit => NodeEntry.of visit.value)
      (graph.forest.visits.filter fun visit => visit.value.type visit.below == type) :=
    fun _ => ⟨rfl, fun visit member => readNode_nodeLine settings
      (stays.node _ (value_mem_nodes (List.mem_filter.mp member).1)).1⟩
  exact readBlocks_flatMap nodeHeading writes nodeStyles rest

theorem readBlock_undeclaredBlock :
    readBlock readUndeclared undeclaredHeading ((undeclaredBlock graph).map String.toList ++ rest) =
      some (undeclaredIds graph, rest) := by
  have writes : Writes readUndeclared (fun id => "\t" ++ quoteId id) id (undeclaredIds graph) := by
    refine ⟨rfl, fun id member => readUndeclared_quoteId ?_⟩
    obtain ⟨-, edge, drawn, isEnd⟩ := mem_undeclaredIds_iff.mp member
    rcases isEnd with rfl | rfl
    · exact (stays.edge edge drawn).1
    · exact (stays.edge edge drawn).2
  have read := readBlock_append undeclaredHeading writes rest
  rwa [List.map_id] at read

theorem readBlocks_edgeBlock :
    readBlocks readEdge edgeHeading edgeStyles
        ((edgeStyles.flatMap (edgeBlock graph.links)).map String.toList ++ rest) =
      some ((contentsOf graph).edges, rest) := by
  have writes : ∀ kind, Writes readEdge edgeLine (fun edge => (edge.source, edge.destination))
      ((drawnEdges graph.links).filter fun edge => edge.kind == kind) := by
    refine fun _ => ⟨rfl, fun edge member => ?_⟩
    obtain ⟨source, destination⟩ := stays.edge edge (List.mem_filter.mp member).1
    exact readEdge_edgeLine source destination
  exact readBlocks_flatMap edgeHeading writes edgeStyles rest

theorem readOutline_diagram :
    readOutline ((clusterLines settings.wrapWidth "\t\t" graph.forest).map String.toList ++
        ["\t\x7d".toList, "\x7d".toList]) = some [outlineOf graph.forest, .nil, .nil] := by
  have closing : readOutline ["\t\x7d".toList, "\x7d".toList] = some [.nil, .nil, .nil] := rfl
  have tabs : ∀ character ∈ "\t\t".toList, character = '\t' := by simp
  have read := readOutline_clusterLines settings.wrapWidth
    (fun node member => (stays.node node member).1) tabs closing
  rwa [Forest.append_nil] at read

end Parts

/-- A diagram is read back. -/
theorem read_render_eq (stays : StaysOnLines settings graph) :
    read (render settings graph) = some (contentsOf graph) := by
  have heading : ∀ rest : List (List Char), (outlineHeading.map String.toList ++ rest).dropPrefix?
      (outlineHeading.map String.toList) = some rest := fun rest =>
    List.dropPrefix?_append_of_beq rest (beq_self_eq_true _)
  simp only [read, splitOn_render stays, drop_diagramLines, readBlocks_nodeBlock stays,
    readBlock_undeclaredBlock stays, readBlocks_edgeBlock stays, heading,
    readOutline_diagram stays, Option.bind_eq_bind, Option.bind_some]
  rfl

/-! ### What a diagram carries -/

/-- Contents of a diagram carry a whole graph, each part once. -/
structure Contents.Carries (contents : Contents) (graph : Graph) : Prop where
  /-- Each node stands once, in the block of its type. -/
  nodes : contents.nodes.Perm (graph.forest.visits.map fun visit =>
    (visit.value.type visit.below, NodeEntry.of visit.value))
  /-- Each drawn edge stands once, in the block of its kind. -/
  edges : contents.edges.Perm ((drawnEdges graph.links).map fun edge =>
    (edge.kind, edge.source, edge.destination))
  /-- No id stands twice in the block of ids that no node has. -/
  nodup : contents.undeclared.Nodup
  /-- In that block stand the ends of drawn edges that no node has. -/
  mem_undeclared : ∀ id, id ∈ contents.undeclared ↔ id ∉ graph.nodeIds ∧
    ∃ edge ∈ drawnEdges graph.links, id = edge.source ∨ id = edge.destination
  /-- Each end of an edge stands in a block of nodes or in the block of ids that no node has. -/
  introduced : ∀ edge ∈ contents.edges, ∀ id ∈ [edge.2.1, edge.2.2],
    id ∈ contents.nodes.map (fun entry => entry.2.id) ∨ id ∈ contents.undeclared
  /-- The clusters are the outline. -/
  outline : contents.outline = outlineOf graph.forest

theorem nodes_contentsOf_perm (graph : Graph) :
    (contentsOf graph).nodes.Perm (graph.forest.visits.map fun visit =>
      (visit.value.type visit.below, NodeEntry.of visit.value)) := by
  have complete : ∀ type, type ∈ nodeStyles.map BlockStyle.kind := by
    intro type
    cases type <;> decide
  exact flatMap_styles_perm (by decide) complete graph.forest.visits

theorem edges_contentsOf_perm (graph : Graph) :
    (contentsOf graph).edges.Perm ((drawnEdges graph.links).map fun edge =>
      (edge.kind, edge.source, edge.destination)) := by
  have complete : ∀ kind, kind ∈ edgeStyles.map BlockStyle.kind := by
    intro kind
    cases kind <;> decide
  exact flatMap_styles_perm (by decide) complete (drawnEdges graph.links)

theorem ids_contentsOf_perm (graph : Graph) :
    ((contentsOf graph).nodes.map fun entry => entry.2.id).Perm graph.nodeIds := by
  refine ((nodes_contentsOf_perm graph).map _).trans (List.Perm.of_eq ?_)
  rw [Graph.nodeIds, Graph.nodes, ← Forest.map_value_visitsFrom 0, List.map_map, List.map_map]
  rfl

theorem carries_contentsOf (graph : Graph) : (contentsOf graph).Carries graph where
  nodes := nodes_contentsOf_perm graph
  edges := edges_contentsOf_perm graph
  nodup := (IdSet.ofList _).nodup
  mem_undeclared := fun _ => mem_undeclaredIds_iff
  introduced := by
    intro written member id isEnd
    obtain ⟨edge, drawn, rfl⟩ := List.mem_map.mp ((edges_contentsOf_perm graph).mem_iff.mp member)
    rw [(ids_contentsOf_perm graph).mem_iff]
    refine or_iff_not_imp_left.mpr fun absent =>
      mem_undeclaredIds_iff.mpr ⟨absent, edge, drawn, ?_⟩
    simpa using isEnd
  outline := rfl

/-- The text of a diagram carries the whole graph, once. Unless a font size cannot be worked out
there is a text, and from it can be read back every node in the block of its type, every drawn edge
in the block of its kind, every id that an edge needs and no node has, and the outline. -/
theorem read_render (stays : StaysOnLines settings graph)
    (sized : hasOversizedNode settings graph = false) :
    ∃ text contents, render? settings graph = .ok text ∧ read text = some contents ∧
      contents.Carries graph := by
  refine ⟨render settings graph, contentsOf graph, ?_, read_render_eq stays,
    carries_contentsOf graph⟩
  rw [render?, sized, if_neg Bool.false_ne_true]

/-- A graph with an id and a label that need escapes, and an edge to an id that no node has. -/
theorem read_render_quoted :
    let graph : Graph :=
      { forest := .cons
          { id := "a \"b\\", label := "say \"hi\" // \\", isHighlighted := true, size := 1 }
          (.cons { id := "c", label := "]" } .nil .nil) .nil
        links := LinkGraph.addEdge {} "c" "d e" .link }
    StaysOnLines {} graph ∧ hasOversizedNode {} graph = false ∧
      ∃ text contents, render? {} graph = .ok text ∧ read text = some contents ∧
        "d e" ∈ contents.undeclared ∧
        (.subgraph, ⟨"a \"b\\", "say \"hi\" // \\", true⟩) ∈ contents.nodes := by
  intro graph
  have stays : StaysOnLines {} graph := ⟨by decide, by decide, by decide, by decide⟩
  have sized : hasOversizedNode {} graph = false := by decide +kernel
  obtain ⟨text, contents, written, told, carries⟩ := read_render stays sized
  refine ⟨stays, sized, text, contents, written, told, ?_, ?_⟩
  · exact (carries.mem_undeclared "d e").mpr (by decide +kernel)
  · exact carries.nodes.mem_iff.mpr (by decide +kernel)

/-- There is no text when a node has too many others below it for its font size to be worked out. -/
theorem not_render?_oversized :
    let graph : Graph :=
      { forest := .cons { id := "a", label := "A", size := Int.pow 10 400 } .nil .nil }
    StaysOnLines {} graph ∧ ¬ ∃ text, render? {} graph = .ok text := by
  intro graph
  refine ⟨⟨by decide, by decide, by decide, by decide⟩, fun ⟨text, written⟩ => ?_⟩
  have refused : render? {} graph = .error .oversized := by decide +kernel
  rw [refused] at written
  cases written

end Whole

end OutlineDiagram.Dot
