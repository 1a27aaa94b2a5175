/-
This file reads back the nested clusters at the end of a diagram. The lines are read
from the last one to the first: a closing brace opens a forest that is still empty, a
label adds a tree without anything below it to the forest that was opened last, and
the head of a cluster closes that forest and puts it below a tree of the forest
around it. So the reader needs no more of the layout than that each line is
recognized, and what it gives back is the outline that was written, with the ids in
order, their nesting, and a cluster where there is something below.
-/

import OutlineDiagram.Dot.Render
import OutlineDiagram.Proofs.Dot.Token

namespace OutlineDiagram

/-- The forest with further trees after its own. -/
def Forest.append {α : Type} : Forest α → Forest α → Forest α
  | .nil, later => later
  | .cons value below after, later => .cons value below (after.append later)

theorem Forest.append_nil {α : Type} (forest : Forest α) : forest.append .nil = forest := by
  induction forest with
  | nil => rfl
  | cons value below after _ afterHypothesis => rw [append, afterHypothesis]

namespace Dot

/-! ### Outlines -/

/-- What the nested clusters tell of a node. -/
structure OutlineEntry where
  /-- The id of the node. -/
  id : String
  /-- The label as it is drawn. -/
  label : String
  /-- The node stands in a cluster of its own. -/
  isCluster : Bool
  deriving DecidableEq, Repr

/-- The outline of a forest: its ids and labels, with a cluster for each node that has something
below it. -/
def outlineOf : Forest Node → Forest OutlineEntry
  | .nil => .nil
  | .cons node below after =>
    .cons ⟨node.id, String.ofList (Text.trim node.label.toList), !below.isEmpty⟩ (outlineOf below)
      (outlineOf after)

/-! ### Reading lines -/

/-- The text without the tabs before it. -/
def unindent (text : List Char) : List Char := text.dropWhile (· == '\t')

/-- The id and the label of the statement at the start of a text, and what is left after it. -/
def readLabel (text : List Char) : Option (String × String × List Char) := do
  let (id, rest) ← readId text
  let (label, rest) ← readQuoted (← expect " [label=\"" rest)
  let rest ← expect "]" rest
  some (id, String.ofList label, rest)

/-- The entry of a line with nothing but a label. -/
def readLeaf (line : List Char) : Option OutlineEntry := do
  let (id, label, rest) ← readLabel (unindent line)
  if rest.isEmpty then some ⟨id, label, false⟩ else none

/-- The entry of a cluster by its first line and by the line with its label. The cluster has the
name of its node. -/
def readCluster (head own : List Char) : Option OutlineEntry := do
  let (name, rest) ← readId (← expect "subgraph " (unindent head))
  let (id, label, comment) ← readLabel (unindent own)
  if name = "cluster_" ++ id ∧ rest = " \x7b".toList ∧ comment = " // subgraph name".toList then
    some ⟨id, label, true⟩
  else none

/-! ### Reading clusters -/

/-- The forests that lines lead to which end inside other ones, the innermost forest first. An empty
line starts a cluster; after it come the first line of the cluster, its style and its label. -/
def readOutline : List (List Char) → Option (List (Forest OutlineEntry))
  | [] => some [.nil]
  | [] :: head :: _ :: own :: rest => do
    let entry ← readCluster head own
    match ← readOutline rest with
    | below :: after :: outer => some (.cons entry below after :: outer)
    | _ => none
  | line :: rest => do
    let sofar ← readOutline rest
    if unindent line = ['\x7d'] then some (.nil :: sofar)
    else
      let entry ← readLeaf line
      match sofar with
      | after :: outer => some (.cons entry .nil after :: outer)
      | [] => none

/-! ### Lines of clusters -/

/-- The text of an id does not start with a tab. -/
theorem ne_tab_of_mem_head?_quoteId {id : String} (oneLine : IsOneLine id) {first : Char}
    {rest : List Char} (starts : first ∈ ((quoteId id).toList ++ rest).head?) : first ≠ '\t' := by
  rw [quoteId] at starts
  split at starts
  · rename_i plain
    obtain ⟨some, -, word⟩ := isPlainId_word plain oneLine
    rw [List.head?_append_of_ne_nil _ some] at starts
    rintro rfl
    exact absurd (word _ (List.mem_of_mem_head? starts)) (by decide)
  · have quoted : ("\"" ++ String.ofList (escape id.toList) ++ "\"").toList ++ rest =
        '"' :: (escape id.toList ++ '"' :: rest) := by simp
    rw [quoted] at starts
    rw [← Option.some_inj.mp starts]
    decide

section Indent

variable {indent : String} (tabs : ∀ character ∈ indent.toList, character = '\t')

include tabs

theorem unindent_append {text : List Char} (starts : ∀ first ∈ text.head?, first ≠ '\t') :
    unindent (indent.toList ++ text) = text :=
  dropWhile_append_of_stops (fun character member => beq_iff_eq.mpr (tabs character member))
    fun first isFirst => beq_eq_false_iff_ne.mpr (starts first isFirst)

theorem tabs_append_tab : ∀ character ∈ (indent ++ "\t").toList, character = '\t' := by
  rw [String.toList_append]
  exact List.forall_mem_append.mpr ⟨tabs, by simp⟩

end Indent

section Lines

variable (width : Int) {node : Node} (oneLine : IsOneLine node.id)

include oneLine

/-- The statement that gives a node its label is read back, whatever comes after it. -/
theorem readLabel_labelLine (rest : List Char) :
    readLabel ((labelLine width node).toList ++ rest) =
      some (node.id, String.ofList (Text.trim node.label.toList), rest) := by
  have written : (labelLine width node).toList ++ rest = (quoteId node.id).toList ++
      (" [label=\"".toList ++ (wrap width node.label.toList ++ '"' :: ("]".toList ++ rest))) := by
    simp [labelLine]
  have id : readId ((quoteId node.id).toList ++
      (" [label=\"".toList ++ (wrap width node.label.toList ++ '"' :: ("]".toList ++ rest)))) =
        some (node.id,
          " [label=\"".toList ++ (wrap width node.label.toList ++ '"' :: ("]".toList ++ rest))) :=
    readId_quoteId_space oneLine _
  rw [written]
  simp only [readLabel, id, expect_append, readQuoted_wrap, Option.bind_eq_bind, Option.bind_some]

theorem ne_tab_of_mem_head?_labelLine (rest : List Char) :
    ∀ first ∈ ((labelLine width node).toList ++ rest).head?, first ≠ '\t' := by
  intro first starts
  rw [labelLine, String.toList_append, String.toList_append, String.toList_append,
    List.append_assoc, List.append_assoc, List.append_assoc] at starts
  exact ne_tab_of_mem_head?_quoteId oneLine starts

variable {indent : String} (tabs : ∀ character ∈ indent.toList, character = '\t')

include tabs

/-- A line with nothing but a label tells the node. -/
theorem readLeaf_labelLine :
    readLeaf (indent ++ labelLine width node).toList =
      some ⟨node.id, String.ofList (Text.trim node.label.toList), false⟩ := by
  have starts := ne_tab_of_mem_head?_labelLine width oneLine []
  have label := readLabel_labelLine width oneLine []
  rw [List.append_nil] at starts label
  rw [String.toList_append, readLeaf, unindent_append tabs starts, label]
  rfl

/-- The lines before what is in a cluster tell its node. -/
theorem readCluster_labelLine :
    readCluster (indent ++ "subgraph " ++ quoteId ("cluster_" ++ node.id) ++ " \x7b").toList
        (indent ++ "\t" ++ labelLine width node ++ " // subgraph name").toList =
      some ⟨node.id, String.ofList (Text.trim node.label.toList), true⟩ := by
  have named : IsOneLine ("cluster_" ++ node.id) := isOneLine_append.mpr ⟨by decide, oneLine⟩
  have head : unindent
      (indent ++ "subgraph " ++ quoteId ("cluster_" ++ node.id) ++ " \x7b").toList =
        "subgraph ".toList ++ ((quoteId ("cluster_" ++ node.id)).toList ++ " \x7b".toList) := by
    rw [String.toList_append, String.toList_append, String.toList_append, List.append_assoc,
      List.append_assoc]
    exact unindent_append tabs fun first isFirst => Option.some_inj.mp isFirst ▸ by decide
  have own : unindent (indent ++ "\t" ++ labelLine width node ++ " // subgraph name").toList =
      (labelLine width node).toList ++ " // subgraph name".toList := by
    rw [String.toList_append, String.toList_append, List.append_assoc]
    exact unindent_append (tabs_append_tab tabs)
      (ne_tab_of_mem_head?_labelLine width oneLine _)
  have name : readId ((quoteId ("cluster_" ++ node.id)).toList ++ " \x7b".toList) =
      some ("cluster_" ++ node.id, " \x7b".toList) := readId_quoteId_space named _
  simp only [readCluster, head, own, expect_append, name, readLabel_labelLine width oneLine,
    Option.bind_eq_bind, Option.bind_some, and_self, if_true]

end Lines

/-! ### Clusters -/

section Steps

variable {line : List Char} {rest : List (List Char)} {entry : OutlineEntry}
  {below after : Forest OutlineEntry} {outer sofar : List (Forest OutlineEntry)}

theorem readOutline_cons (some : line ≠ []) :
    readOutline (line :: rest) = (readOutline rest).bind fun sofar =>
      if unindent line = ['\x7d'] then .some (.nil :: sofar)
      else (readLeaf line).bind fun entry =>
        match sofar with
        | after :: outer => .some (.cons entry .nil after :: outer)
        | [] => none := by
  rw [readOutline]
  · rfl
  · exact fun _ _ _ _ none _ => some none

/-- A closing brace opens a forest, seen from the last line. -/
theorem readOutline_brace (closes : unindent line = ['\x7d'])
    (read : readOutline rest = some sofar) :
    readOutline (line :: rest) = some (.nil :: sofar) := by
  have filled : line ≠ [] := by
    rintro rfl
    exact absurd closes (by decide)
  rw [readOutline_cons filled, read, Option.bind_some, if_pos closes]

/-- A label adds a tree with nothing below it. -/
theorem readOutline_leaf (leaf : readLeaf line = some entry)
    (read : readOutline rest = some (after :: outer)) :
    readOutline (line :: rest) = some (.cons entry .nil after :: outer) := by
  have filled : line ≠ [] := by
    rintro rfl
    exact Option.some_ne_none _ leaf.symm
  have noBrace : unindent line ≠ ['\x7d'] := fun closes => by
    rw [readLeaf, closes] at leaf
    exact Option.some_ne_none _ leaf.symm
  rw [readOutline_cons filled, read, Option.bind_some, if_neg noBrace, leaf, Option.bind_some]

/-- The head of a cluster closes the forest opened last. -/
theorem readOutline_cluster {head style own : List Char}
    (cluster : readCluster head own = some entry)
    (read : readOutline rest = some (below :: after :: outer)) :
    readOutline ([] :: head :: style :: own :: rest) =
      some (.cons entry below after :: outer) := by
  rw [readOutline, cluster, read]
  rfl

end Steps

/-- The lines of a node with others below it: the head of its cluster, what is in the cluster, and a
closing brace, before the lines of the trees after it. -/
theorem map_clusterLines_cons (width : Int) (indent : String) {node : Node} {below : Forest Node}
    (hasBelow : below.isEmpty = false) (later : Forest Node) :
    (clusterLines width indent (.cons node below later)).map String.toList =
      [] :: (indent ++ "subgraph " ++ quoteId ("cluster_" ++ node.id) ++ " \x7b").toList ::
        (indent ++ "\tcolor = gray30; " ++
          (if node.isProcess then "style = rounded" else "style = solid")).toList ::
        (indent ++ "\t" ++ labelLine width node ++ " // subgraph name").toList ::
        ((clusterLines width (indent ++ "\t") below).map String.toList ++
          (indent ++ "\x7d").toList :: (clusterLines width indent later).map String.toList) := by
  rw [clusterLines, hasBelow, if_neg Bool.false_ne_true]
  simp only [List.map_append, List.map_cons, List.cons_append, List.nil_append, List.append_assoc]
  rfl

/-- The clusters of a forest are read back, before whatever was read after them. -/
theorem readOutline_clusterLines (width : Int) {forest : Forest Node}
    (oneLine : ∀ node ∈ forest.toList, IsOneLine node.id) {indent : String}
    (tabs : ∀ character ∈ indent.toList, character = '\t') {rest : List (List Char)}
    {after : Forest OutlineEntry} {outer : List (Forest OutlineEntry)}
    (read : readOutline rest = some (after :: outer)) :
    readOutline ((clusterLines width indent forest).map String.toList ++ rest) =
      some ((outlineOf forest).append after :: outer) := by
  induction forest generalizing indent rest after outer with
  | nil => exact read
  | cons node below later belowHypothesis laterHypothesis =>
    rw [Forest.toList, List.forall_mem_cons, List.forall_mem_append] at oneLine
    obtain ⟨own, belowOneLine, laterOneLine⟩ := oneLine
    have further := laterHypothesis laterOneLine tabs read
    cases below with
    | nil => exact readOutline_leaf (readLeaf_labelLine width own tabs) further
    | cons first inner others =>
      have hasBelow : (Forest.cons first inner others).isEmpty = false := rfl
      generalize Forest.cons first inner others = below at *
      have brace : unindent (indent ++ "\x7d").toList = ['\x7d'] := by
        rw [String.toList_append]
        exact unindent_append tabs (by simp)
      have inside := belowHypothesis belowOneLine (tabs_append_tab tabs)
        (readOutline_brace brace further)
      rw [Forest.append_nil] at inside
      rw [map_clusterLines_cons width indent hasBelow, List.cons_append, List.cons_append,
        List.cons_append, List.cons_append, List.append_assoc, List.cons_append,
        readOutline_cluster (readCluster_labelLine width own tabs) inside, outlineOf, hasBelow]
      rfl

/-! ### Newlines in clusters -/

theorem isOneLine_labelLine (width : Int) {node : Node} (id : IsOneLine node.id)
    (label : IsOneLine node.label) : IsOneLine (labelLine width node) := by
  simp only [labelLine, isOneLine_append, isOneLine_quoteId id, isOneLine_wrap label width,
    true_and]
  decide

theorem isOneLine_of_mem_clusterLines (width : Int) {forest : Forest Node}
    (oneLine : ∀ node ∈ forest.toList, IsOneLine node.id ∧ IsOneLine node.label)
    {indent : String} (start : IsOneLine indent) :
    ∀ line ∈ clusterLines width indent forest, IsOneLine line := by
  induction forest generalizing indent with
  | nil => exact fun _ member => absurd member List.not_mem_nil
  | cons node below later belowHypothesis laterHypothesis =>
    rw [Forest.toList, List.forall_mem_cons, List.forall_mem_append] at oneLine
    obtain ⟨⟨id, label⟩, belowOneLine, laterOneLine⟩ := oneLine
    have own := isOneLine_labelLine width id label
    have deeper : IsOneLine (indent ++ "\t") := isOneLine_append.mpr ⟨start, by decide⟩
    have name : IsOneLine (quoteId ("cluster_" ++ node.id)) :=
      isOneLine_quoteId (isOneLine_append.mpr ⟨by decide, id⟩)
    have style : IsOneLine (if node.isProcess then "style = rounded" else "style = solid") := by
      split <;> decide
    rw [clusterLines, List.forall_mem_append]
    refine ⟨?_, laterHypothesis laterOneLine start⟩
    split
    · exact List.forall_mem_singleton.mpr (isOneLine_append.mpr ⟨start, own⟩)
    · rw [List.forall_mem_append, List.forall_mem_append]
      refine ⟨⟨?_, belowHypothesis belowOneLine deeper⟩, ?_⟩
      · simp only [List.forall_mem_cons, isOneLine_append, start, own, name, style, true_and]
        decide
      · exact List.forall_mem_singleton.mpr (isOneLine_append.mpr ⟨start, by decide⟩)

end Dot

end OutlineDiagram
