/-
This file proves that each line of a document keeps a position of its own. Reading
counts the lines, and edits change the metadata of a line and nothing else, so
through a whole session a position names at most one line.
-/

import Mathlib.Data.List.Nodup
import OutlineDiagram.Proofs.Document.Session

namespace OutlineDiagram.Document

/-- No two lines of the document share a position. -/
def IsPlaced (document : Document) : Prop := (document.lines.map Line.index).Nodup

/-! ### Read lines -/

theorem index_of_line?_readEntry {unit index : Int} {text : String} {supply : IdSupply}
    {line : Line} (read : (readEntry unit index text supply).1.line? = some line) :
    line.index = index := by
  rw [readEntry] at read
  split at read
  · exact absurd read (by simp [Entry.line?])
  · exact absurd read (by simp [Entry.line?])
  · rw [← Option.some.inj read]
    exact Line.index_readNext unit index text supply

/-- Lines are read at positions from the first one on. -/
theorem le_index_of_mem_readEntries {unit index : Int} {texts : List String} {supply : IdSupply}
    {line : Line} (member : line ∈ (readEntries unit index texts supply).1.filterMap Entry.line?) :
    index ≤ line.index := by
  induction texts generalizing index supply with
  | nil => exact absurd member List.not_mem_nil
  | cons text rest inductionHypothesis =>
    obtain ⟨entry, inside, read⟩ := List.mem_filterMap.mp member
    rcases List.mem_cons.mp inside with rfl | later
    · exact Int.le_of_eq (index_of_line?_readEntry read).symm
    · have further := inductionHypothesis (List.mem_filterMap.mpr ⟨entry, later, read⟩)
      omega

theorem nodup_index_readEntries (unit index : Int) (texts : List String) (supply : IdSupply) :
    (((readEntries unit index texts supply).1.filterMap Entry.line?).map Line.index).Nodup := by
  induction texts generalizing index supply with
  | nil => exact List.nodup_nil
  | cons text rest inductionHypothesis =>
    have others := inductionHypothesis (index + 1) (readEntry unit index text supply).2
    rw [readEntries, List.filterMap_cons]
    cases read : (readEntry unit index text supply).1.line? with
    | none => exact others
    | some line =>
      refine List.nodup_cons.mpr ⟨fun again => ?_, others⟩
      obtain ⟨other, member, same⟩ := List.mem_map.mp again
      have later := le_index_of_mem_readEntries member
      rw [same, index_of_line?_readEntry read] at later
      omega

/-! ### Edited lines -/

/-- Edits move no line. -/
theorem EditedFrom.map_index_lines {later first : Document} (edited : later.EditedFrom first) :
    later.lines.map Line.index = first.lines.map Line.index := by
  have each := edited.entries
  rw [lines, lines]
  generalize later.entries = changed, first.entries = read at each
  induction each with
  | nil => rfl
  | @cons now before _ _ step _ inductionHypothesis =>
    cases step with
    | kept =>
      cases now with
      | blank text => exact inductionHypothesis
      | script text => exact inductionHypothesis
      | parsed line wasEdited => exact congrArg (line.index :: ·) inductionHypothesis
    | changed frame name =>
      have sameIndex := congrArg Line.index frame
      exact congrArg₂ List.cons sameIndex inductionHypothesis

/-- In a session each line has a position of its own. -/
theorem isPlaced_afterAll (unit : Int) (supply : IdSupply) (text : String) (edits : List Edit) :
    ((ofText unit supply text).afterAll edits).IsPlaced := by
  rw [IsPlaced, (editedFrom_afterAll _ edits).map_index_lines]
  exact nodup_index_readEntries unit 0 (linesOf text) supply

variable {document : Document}

theorem IsPlaced.nodup_bullets (placed : document.IsPlaced) : document.bullets.Nodup :=
  (List.Nodup.of_map Line.index placed).filter _

/-- A position names one bullet. -/
theorem IsPlaced.bullet_unique (placed : document.IsPlaced) {first second : Line}
    (firstMember : first ∈ document.bullets) (secondMember : second ∈ document.bullets)
    (same : first.index = second.index) : first = second :=
  List.inj_on_of_nodup_map placed (List.mem_filter.mp firstMember).1
    (List.mem_filter.mp secondMember).1 same

end OutlineDiagram.Document
