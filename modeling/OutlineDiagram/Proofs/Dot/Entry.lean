/-
This file reads back the lines of a diagram's blocks. The line of a node tells its id,
its label and whether it is highlighted; the line of an edge tells both of its ends.
The label comes last on its line, after the attributes and a comment sign, so no
label can be taken for anything else.
-/

import OutlineDiagram.Dot.Render
import OutlineDiagram.Proofs.Dot.Token

namespace OutlineDiagram.Dot

/-! ### Reading lines -/

/-- What the line of a node tells. -/
structure NodeEntry where
  /-- The id of the node. -/
  id : String
  /-- The label of the node. -/
  label : String
  /-- The node is highlighted. -/
  isHighlighted : Bool
  deriving DecidableEq, Repr

/-- The node that a line tells of. The attributes of a node, where it has some, end at the first
closing bracket. -/
def readNode (line : List Char) : Option NodeEntry := do
  let (id, rest) ← readId (← expect "\t" line)
  match expect " // " rest with
  | some label => some ⟨id, String.ofList label, false⟩
  | none =>
    let listed ← expect " [" rest
    let attributes := listed.takeWhile (· != ']')
    let label ← expect "] // " (listed.dropWhile (· != ']'))
    some ⟨id, String.ofList label, highlightAttributes.toList.isSuffixOf attributes⟩

/-- The id on a line of its own. -/
def readUndeclared (line : List Char) : Option String := do
  let (id, rest) ← readId (← expect "\t" line)
  if rest.isEmpty then some id else none

/-- The two ends of the edge that a line tells of. -/
def readEdge (line : List Char) : Option (String × String) := do
  let (source, rest) ← readId (← expect "\t" line)
  let (destination, rest) ← readId (← expect " -> " rest)
  if rest.isEmpty then some (source, destination) else none

/-! ### Attributes -/

theorem isDigit_of_mem_toString {number : Int} {character : Char}
    (member : character ∈ (toString number).toList) :
    character = '-' ∨ character.isDigit = true := by
  have digits : ∀ {count : Nat}, character ∈ count.repr.toList → character.isDigit = true :=
    fun inside => Nat.isDigit_of_mem_toDigits (by decide) (by decide)
      (Nat.toList_repr ▸ inside)
  rw [Int.toString_eq_repr, Int.repr_eq_if] at member
  split at member
  · exact Or.inr (digits member)
  · rw [String.toList_append] at member
    exact (List.mem_append.mp member).imp List.mem_singleton.mp digits

/-- The characters that an attribute which is not quoted must not have. -/
def attributeEnds : List Char := [']', '"', '\n']

theorem not_mem_attributeEnds_of_mem_font {size : Int} {character : Char}
    (member : character ∈ ("fontsize=" ++ toString size).toList) : character ∉ attributeEnds := by
  rw [String.toList_append, List.mem_append] at member
  rcases member with name | value
  · have letters : ∀ letter ∈ "fontsize=".toList, letter ∉ attributeEnds := by simp [attributeEnds]
    exact letters character name
  · rcases isDigit_of_mem_toString value with rfl | digit
    · decide
    · have noDigit : ∀ other ∈ attributeEnds, other.isDigit = false := by simp [attributeEnds]
      exact fun ends => absurd digit (by simp [noDigit character ends])

/-- The attributes of a node are those for a highlight, where it has one, after others that close no
bracket and quote nothing. -/
theorem exists_toList_attributes (settings : RenderSettings) (node : Node) :
    ∃ front : List Char, (∀ character ∈ front, character ∉ attributeEnds) ∧
      (", ".intercalate (nodeAttributes settings node)).toList =
        front ++ if node.isHighlighted then highlightAttributes.toList else [] := by
  rw [nodeAttributes, String.toList_intercalate]
  by_cases scaled : (settings.scaleFont && !node.isLeaf) = true
  · have font : ∀ character ∈ ("fontsize=" ++ toString (fontSize node.size)).toList,
        character ∉ attributeEnds := fun _ => not_mem_attributeEnds_of_mem_font
    cases node.isHighlighted with
    | false => exact ⟨_, font, by simp [scaled]⟩
    | true =>
      refine ⟨_ ++ ", ".toList, List.forall_mem_append.mpr ⟨font, by simp [attributeEnds]⟩, ?_⟩
      simp [scaled, List.intercalate_cons_cons]
  · refine ⟨[], fun _ none => absurd none List.not_mem_nil, ?_⟩
    cases node.isHighlighted <;> simp [scaled]

/-- The attributes of a node close no bracket and stay on their line. -/
theorem not_mem_attributes (settings : RenderSettings) (node : Node) {character : Char}
    (ends : character = ']' ∨ character = '\n') :
    character ∉ (", ".intercalate (nodeAttributes settings node)).toList := by
  obtain ⟨front, plain, listed⟩ := exists_toList_attributes settings node
  rw [listed, List.mem_append, not_or]
  refine ⟨fun member => plain _ member (by rcases ends with rfl | rfl <;> decide), ?_⟩
  cases node.isHighlighted <;> rcases ends with rfl | rfl <;> decide

/-- The attributes of a node end in those for a highlight exactly if it is highlighted. -/
theorem isSuffixOf_attributes (settings : RenderSettings) (node : Node) :
    highlightAttributes.toList.isSuffixOf
        (", ".intercalate (nodeAttributes settings node)).toList = node.isHighlighted := by
  obtain ⟨front, plain, listed⟩ := exists_toList_attributes settings node
  rw [listed, Bool.eq_iff_iff, List.isSuffixOf_iff_suffix]
  cases node.isHighlighted with
  | true => exact iff_of_true (List.suffix_append _ _) rfl
  | false =>
    refine iff_of_false (fun ends => ?_) Bool.false_ne_true
    rw [if_neg Bool.false_ne_true, List.append_nil] at ends
    exact plain '"' (ends.subset (by decide)) (by decide)

/-! ### Lines -/

/-- The entry of a node. -/
def NodeEntry.of (node : Node) : NodeEntry := ⟨node.id, node.label, node.isHighlighted⟩

/-- The line of a node tells its id, its label and its highlight. -/
theorem readNode_nodeLine (settings : RenderSettings) {node : Node} (oneLine : IsOneLine node.id) :
    readNode (nodeLine settings node).toList = some (NodeEntry.of node) := by
  have noBracket := not_mem_attributes settings node (Or.inl rfl)
  have highlight := isSuffixOf_attributes settings node
  rw [nodeLine]
  generalize nodeAttributes settings node = attributes at noBracket highlight
  split
  · rename_i unlisted
    have written : ("\t" ++ quoteId node.id ++ "" ++ " // " ++ node.label).toList =
        "\t".toList ++ ((quoteId node.id).toList ++ (" // ".toList ++ node.label.toList)) := by
      simp only [String.toList_append, String.append_empty, List.append_assoc]
    have id : readId ((quoteId node.id).toList ++ (" // ".toList ++ node.label.toList)) =
        some (node.id, " // ".toList ++ node.label.toList) := readId_quoteId_space oneLine _
    have plain : node.isHighlighted = false := by
      rw [← highlight, List.isEmpty_iff.mp unlisted]
      decide
    rw [written]
    simp only [readNode, expect_append, id, Option.bind_eq_bind, Option.bind_some]
    rw [String.ofList_toList, NodeEntry.of, plain]
  · have written : ("\t" ++ quoteId node.id ++ (" [" ++ ", ".intercalate attributes ++ "]") ++
        " // " ++ node.label).toList =
        "\t".toList ++ ((quoteId node.id).toList ++ (" [".toList ++
          ((", ".intercalate attributes).toList ++ ("] // ".toList ++ node.label.toList)))) := by
      simp [List.append_assoc]
    generalize (", ".intercalate attributes).toList = listed at written noBracket highlight
    have id : readId ((quoteId node.id).toList ++ (" [".toList ++
        (listed ++ ("] // ".toList ++ node.label.toList)))) =
        some (node.id, " [".toList ++ (listed ++ ("] // ".toList ++ node.label.toList))) :=
      readId_quoteId_space oneLine _
    have unlabelled : expect " // " (" [".toList ++
        (listed ++ ("] // ".toList ++ node.label.toList))) = none := rfl
    have inside : ∀ character ∈ listed, (character != ']') = true := fun character member =>
      bne_iff_ne.mpr fun same => noBracket (same ▸ member)
    have ends : ∀ next ∈ ("] // ".toList ++ node.label.toList).head?, (next != ']') = false :=
      fun _ same => Option.some_inj.mp same ▸ by decide
    rw [written]
    simp only [readNode, expect_append, id, unlabelled, Option.bind_eq_bind, Option.bind_some,
      takeWhile_append_of_stops inside ends, dropWhile_append_of_stops inside ends]
    rw [String.ofList_toList, NodeEntry.of, highlight]

theorem readUndeclared_quoteId {id : String} (oneLine : IsOneLine id) :
    readUndeclared ("\t" ++ quoteId id).toList = some id := by
  rw [String.toList_append]
  simp only [readUndeclared, expect_append, readId_quoteId_end oneLine, Option.bind_eq_bind,
    Option.bind_some]
  rfl

/-- The line of an edge tells both of its ends. -/
theorem readEdge_edgeLine {edge : Edge} (sourceOneLine : IsOneLine edge.source)
    (destinationOneLine : IsOneLine edge.destination) :
    readEdge (edgeLine edge).toList = some (edge.source, edge.destination) := by
  have written : (edgeLine edge).toList = "\t".toList ++ ((quoteId edge.source).toList ++
      (" -> ".toList ++ (quoteId edge.destination).toList)) := by
    simp only [edgeLine, String.toList_append, List.append_assoc]
  have source : readId ((quoteId edge.source).toList ++
      (" -> ".toList ++ (quoteId edge.destination).toList)) =
        some (edge.source, " -> ".toList ++ (quoteId edge.destination).toList) :=
    readId_quoteId_space sourceOneLine _
  rw [written]
  simp only [readEdge, expect_append, source, readId_quoteId_end destinationOneLine,
    Option.bind_eq_bind, Option.bind_some]
  rfl

/-! ### Newlines in lines -/

theorem isOneLine_nodeLine (settings : RenderSettings) {node : Node} (id : IsOneLine node.id)
    (label : IsOneLine node.label) : IsOneLine (nodeLine settings node) := by
  have listed : IsOneLine (", ".intercalate (nodeAttributes settings node)) :=
    not_mem_attributes settings node (Or.inr rfl)
  have start : IsOneLine ("\t" ++ quoteId node.id) :=
    isOneLine_append.mpr ⟨by decide, isOneLine_quoteId id⟩
  rw [nodeLine]
  refine isOneLine_append.mpr ⟨isOneLine_append.mpr ⟨isOneLine_append.mpr ⟨start, ?_⟩, by decide⟩,
    label⟩
  split
  · decide
  · exact isOneLine_append.mpr ⟨isOneLine_append.mpr ⟨by decide, listed⟩, by decide⟩

theorem isOneLine_edgeLine {edge : Edge} (source : IsOneLine edge.source)
    (destination : IsOneLine edge.destination) : IsOneLine (edgeLine edge) :=
  isOneLine_append.mpr ⟨isOneLine_append.mpr ⟨isOneLine_append.mpr
    ⟨by decide, isOneLine_quoteId source⟩, by decide⟩, isOneLine_quoteId destination⟩

end OutlineDiagram.Dot
