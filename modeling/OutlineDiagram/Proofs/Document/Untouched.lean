/-
This file says when a document keeps the text that it was read from outside the
lines of edited bullets. Each line that is not an edited bullet is always written as
it stood. Between the lines, though, the document writes newlines, so the text comes
back exactly where its own lines end in newlines.
-/

import OutlineDiagram.Proofs.Document.Session
import OutlineDiagram.Proofs.Text.LineEnd

namespace OutlineDiagram

open Text

/-- The document is written as the text, line ends included, with other words in the lines of
edited bullets at most. -/
structure Document.KeepsText (document : Document) (text : String) : Prop where
  /-- The document has as many lines as the text. -/
  length_eq : document.renderedLines.length = (linesOf text).length
  /-- The lines are written with the line ends of the text. -/
  render_eq : document.render.toList =
    joinLines (document.renderedLines.map String.toList) (lineEnds text.toList)
  /-- A line that is no edited bullet is written as it stood. -/
  line_eq : ∀ (position : Nat) (original : String), (linesOf text)[position]? = some original →
    document.renderedLines[position]? = some original ∨
      ∃ line, document.entries[position]? = some (.parsed line true) ∧ line.isBullet = true

/-- An entry that is edited from one that was read is written as that one stood, unless it is an
edited bullet. -/
theorem Entry.EditedFrom.render_cases {drawn : String → Prop} {later first : Entry}
    (edited : later.EditedFrom drawn first) (unedited : first.wasEdited = false) :
    later.render = first.asRead ∨ ∃ line, later = .parsed line true ∧ line.isBullet = true := by
  cases edited with
  | kept =>
    cases later with
    | blank text => exact Or.inl rfl
    | script text => exact Or.inl rfl
    | parsed line isEdited => exact Or.inl (render_of_not_edited (Or.inl unedited))
  | @changed now before _ frame _ =>
    cases bullet : now.isBullet with
    | true => exact Or.inr ⟨now, rfl, bullet⟩
    | false =>
      refine Or.inl ((render_of_not_edited (Or.inr bullet)).trans ?_)
      exact Line.text_eq_of_withoutMetadata frame

namespace Document

theorem wasEdited_of_mem_readEntries {unit index : Int} {texts : List String}
    {supply : IdSupply} {entry : Entry}
    (member : entry ∈ (readEntries unit index texts supply).1) : entry.wasEdited = false := by
  cases entry with
  | blank text => rfl
  | script text => rfl
  | parsed line isEdited => exact (exists_read_of_mem_readEntries member).1

/-- Whatever a session does, each line has its place, and each line that is no edited bullet is
written as it stood. -/
theorem lines_afterAll (unit : Int) (supply : IdSupply) (text : String) (edits : List Edit) :
    let final := (ofText unit supply text).afterAll edits
    final.renderedLines.length = (linesOf text).length ∧
      ∀ (position : Nat) (original : String), (linesOf text)[position]? = some original →
        final.renderedLines[position]? = some original ∨
          ∃ line, final.entries[position]? = some (.parsed line true) ∧
            line.isBullet = true := by
  intro final
  have edited := (editedFrom_afterAll (ofText unit supply text) edits).entries
  have texts : (ofText unit supply text).entries.map Entry.asRead = linesOf text :=
    map_asRead_readEntries unit 0 (linesOf text) supply
  have unedited : ∀ entry ∈ (ofText unit supply text).entries, entry.wasEdited = false :=
    fun entry member => wasEdited_of_mem_readEntries member
  change List.Forall₂ _ final.entries _ at edited
  rw [renderedLines, ← texts]
  generalize final.entries = entries, (ofText unit supply text).entries = read at edited unedited
  refine ⟨by rw [List.length_map, List.length_map, edited.length_eq], ?_⟩
  intro position original found
  induction edited generalizing position with
  | nil => exact absurd found (by simp)
  | cons step _ inductionHypothesis =>
    rw [List.forall_mem_cons] at unedited
    cases position with
    | zero =>
      obtain rfl := Option.some.inj found
      refine (step.render_cases unedited.1).imp (congrArg some) fun isBullet => ?_
      obtain ⟨line, same, bullet⟩ := isBullet
      exact ⟨line, congrArg some same, bullet⟩
    | succ position => exact inductionHypothesis unedited.2 position found

theorem renderedLines_ofText (unit : Int) (supply : IdSupply) (text : String) :
    (ofText unit supply text).renderedLines = linesOf text := by
  conv_rhs => rw [← map_asRead_readEntries unit 0 (linesOf text) supply]
  refine List.map_congr_left fun entry member => ?_
  have unedited := wasEdited_of_mem_readEntries member
  cases entry with
  | blank text => rfl
  | script text => rfl
  | parsed line isEdited => exact Entry.render_of_not_edited (Or.inl unedited)

theorem toList_render (document : Document) :
    document.render.toList =
      ['\n'].intercalate (document.renderedLines.map String.toList) ++
        if document.endsWithNewline then ['\n'] else [] := by
  rw [render, String.toList_append, String.toList_intercalate]
  cases document.endsWithNewline <;> rfl

theorem map_toList_linesOf (text : String) :
    (linesOf text).map String.toList = Text.lines text.toList := by
  rw [linesOf, List.map_map]
  exact (List.map_congr_left fun line _ => String.toList_ofList).trans (List.map_id _)

/-- In a session on a text with newlines only, the line ends stay. -/
theorem keepsText_afterAll {text : String} (plain : HasOnlyNewlines text.toList) (unit : Int)
    (supply : IdSupply) (edits : List Edit) :
    ((ofText unit supply text).afterAll edits).KeepsText text := by
  obtain ⟨length, each⟩ := lines_afterAll unit supply text edits
  refine ⟨length, ?_, each⟩
  have ended : ((ofText unit supply text).afterAll edits).endsWithNewline =
      (text.toList.getLast? == some '\n') :=
    (editedFrom_afterAll (ofText unit supply text) edits).endsWithNewline
  rw [toList_render, ended, joinLines_eq_intercalate plain]
  rw [List.length_map, length, ← map_toList_linesOf, List.length_map]

/-- A text comes back as it was exactly if its lines end in newlines only. Then whatever is edited,
the text stays as it was, line ends included, outside the lines of edited bullets. -/
theorem keepsText_afterAll_iff (unit : Int) (supply : IdSupply) (text : String) :
    ((ofText unit supply text).render = text ∧
        ∀ edits : List Edit, ((ofText unit supply text).afterAll edits).KeepsText text) ↔
      HasOnlyNewlines text.toList := by
  constructor
  · rintro ⟨same, -⟩
    have written := (ofText unit supply text).toList_render
    rw [same, renderedLines_ofText, map_toList_linesOf] at written
    refine hasOnlyNewlines_of_eq (fun character member => ?_) written.symm
    split at member
    · exact List.mem_singleton.mp member
    · exact absurd member List.not_mem_nil
  · intro plain
    refine ⟨?_, keepsText_afterAll plain unit supply⟩
    have written := (keepsText_afterAll plain unit supply []).render_eq
    change (ofText unit supply text).render.toList = _ at written
    rw [afterAll, List.foldl_nil, renderedLines_ofText, map_toList_linesOf, joinLines_lines]
      at written
    exact String.toList_inj.mp written

/-- A carriage return before a newline is lost. -/
theorem render_ofText_ne :
    (ofText 2 (IdSupply.ofListedHex []) "- A\r\n- B\n").render ≠ "- A\r\n- B\n" := by
  decide +kernel

end Document

end OutlineDiagram
