/-
This file says when an edit without effect leaves the text alone. An edited line is
written anew even if its metadata is what it was, and then its section is spelled in
one way, however it was spelled. So a session that leaves all metadata as it was read
gives the text back exactly where the sections of the edited bullets were spelled in
that way before.
-/

import OutlineDiagram.Proofs.Document.Untouched

namespace OutlineDiagram

open Text

/-! ### Lines without newlines -/

namespace Metadata

/-- A written section holds no newline. -/
theorem newline_notMem_addedText {metadata : Metadata} (known : metadata.IsBare) :
    '\n' ∉ metadata.addedText := by
  rw [addedText]
  split
  · exact List.not_mem_nil
  · intro inside
    simp only [writtenText, List.mem_cons] at inside
    rcases inside with same | same | same | same | inside
    · exact absurd same (by decide)
    · exact absurd same (by decide)
    · exact absurd same (by decide)
    · exact absurd same (by decide)
    · rcases mem_intercalate inside with gap | ⟨token, member, inside⟩
      · exact absurd (List.mem_singleton.mp gap) (by decide)
      · have solid := ((solid_of_mem_writtenTokens known member).2 '\n' inside).1
        exact absurd solid (by decide)

end Metadata

namespace Line

/-- A bullet without newlines that is written anew as it was read holds none then. -/
theorem newline_notMem_render {unit index : Int} {placeholder text : String}
    (bullet : (read unit index placeholder text).isBullet = true) (whole : '\n' ∉ text.toList) :
    '\n' ∉ (read unit index placeholder text).render.toList := by
  obtain ⟨content, shape⟩ := exists_lineShape_of_isBullet bullet
  obtain ⟨first, rest, split, parts⟩ := exists_isBulletText shape
  have sameText := text_read unit index placeholder text
  rw [toList_render (by rw [sameText]; exact split) parts]
  rw [split] at whole
  intro inside
  rcases List.mem_append.mp inside with before | inside
  · exact whole (List.mem_append_left _ before)
  rcases List.mem_cons.mp inside with same | inside
  · exact whole (List.mem_append_right _ (same ▸ List.mem_cons_self))
  rcases List.mem_append.mp inside with kept | added
  · have later := ((trimEnd_isPrefix _).trans (cutSection_isPrefix rest)).subset kept
    exact whole (List.mem_append_right _ (List.mem_cons_of_mem _ later))
  · exact Metadata.newline_notMem_addedText (isBare_read unit index placeholder text) added

theorem eq_of_withoutMetadata {later first : Line}
    (frame : later.withoutMetadata = first.withoutMetadata)
    (same : later.toMetadata = first.toMetadata) : later = first := by
  cases later
  cases first
  simp only [withoutMetadata, mk.injEq] at frame same ⊢
  simp_all

end Line

/-! ### Entries with the metadata as read -/

/-- The entry was read, and it is not edited yet. -/
structure Entry.IsRead (entry : Entry) : Prop where
  /-- The entry does not count as edited. -/
  unedited : entry.wasEdited = false
  /-- The line is what its text says. -/
  read : ∀ line, entry.line? = some line →
    ∃ unit index placeholder text, line = Line.read unit index placeholder text

/-- What may have become of an entry that was read when its metadata is the same: it is the same,
or it counts as edited now. -/
inductive Entry.IsAsRead : Entry → Entry → Prop where
  /-- The entry was left alone. -/
  | kept {entry : Entry} (unedited : entry.wasEdited = false) : IsAsRead entry entry
  /-- The line counts as edited, and it is what was read. -/
  | counted (unit index : Int) (placeholder text : String) :
    IsAsRead (.parsed (Line.read unit index placeholder text) true)
      (.parsed (Line.read unit index placeholder text) false)

/-- Entries that were edited without an effect on the metadata are as they were read. -/
theorem forall₂_isAsRead {drawn : String → Prop} {laters firsts : List Entry}
    (edited : List.Forall₂ (Entry.EditedFrom drawn) laters firsts)
    (read : ∀ entry ∈ firsts, entry.IsRead)
    (same : (laters.filterMap Entry.line?).map Line.toMetadata =
      (firsts.filterMap Entry.line?).map Line.toMetadata) :
    List.Forall₂ Entry.IsAsRead laters firsts := by
  induction edited with
  | nil => exact .nil
  | @cons later first laters firsts step _ inductionHypothesis =>
    rw [List.forall_mem_cons] at read
    have others := inductionHypothesis read.2
    cases step with
    | kept =>
      refine .cons (.kept read.1.unedited) (others ?_)
      cases later with
      | blank text => exact same
      | script text => exact same
      | parsed line isEdited => exact (List.cons.inj same).2
    | @changed _ first _ frame name =>
      obtain ⟨head, tail⟩ := List.cons.inj same
      obtain rfl := Line.eq_of_withoutMetadata frame head
      obtain rfl := read.1.unedited
      obtain ⟨unit, index, placeholder, text, rfl⟩ := read.1.read _ rfl
      exact .cons (.counted unit index placeholder text) (others tail)

namespace Entry.IsAsRead

variable {later first : Entry}

/-- An entry that is as it was read is written as it stood, unless it is an edited bullet whose
section stood there otherwise than it is written. -/
theorem render_eq_iff (asRead : later.IsAsRead first) :
    later.render = first.asRead ↔ ∀ line, later = .parsed line true → line.isBullet = true →
      line.hasSection = true → line.render = line.text := by
  cases asRead with
  | kept unedited =>
    refine iff_of_true ?_ ?_
    · cases later with
      | blank text => rfl
      | script text => rfl
      | parsed line isEdited => exact render_of_not_edited (Or.inl unedited)
    · rintro line rfl
      exact absurd unedited (by simp [wasEdited])
  | counted unit index placeholder text =>
    generalize known : Line.read unit index placeholder text = line
    have only : (∀ other, Entry.parsed line true = .parsed other true → other.isBullet = true →
        other.hasSection = true → other.render = other.text) ↔
          (line.isBullet = true → line.hasSection = true → line.render = line.text) :=
      ⟨fun each => each line rfl, fun this other same => (Entry.parsed.inj same).1 ▸ this⟩
    rw [only, Entry.render, Bool.true_and, Entry.asRead]
    cases bullet : line.isBullet with
    | false => simp
    | true =>
      cases section? : line.hasSection with
      | true => simp
      | false =>
        have nothing : line.toMetadata = {} := by
          rw [← known] at section? ⊢
          exact Line.toMetadata_read_of_hasSection section?
        have empty : line.toMetadata.render = "" := by
          rw [nothing]
          rfl
        simp [empty]

theorem newline_notMem_render (asRead : later.IsAsRead first)
    (whole : '\n' ∉ first.asRead.toList) : '\n' ∉ later.render.toList := by
  cases asRead with
  | kept unedited =>
    cases later with
    | blank text => exact whole
    | script text => exact whole
    | parsed line isEdited =>
      have same : (parsed line isEdited).render = line.text :=
        render_of_not_edited (Or.inl unedited)
      rw [same]
      exact whole
  | counted unit index placeholder text =>
    rw [Entry.asRead, Line.text_read] at whole
    rw [Entry.render, Line.text_read]
    split
    · next written =>
      simp only [Bool.true_and, Bool.and_eq_true] at written
      exact Line.newline_notMem_render written.1 whole
    · exact whole

end Entry.IsAsRead

/-- Entries as they were read are written as they stood if each of them is. -/
theorem map_render_eq_iff {laters firsts : List Entry}
    (asRead : List.Forall₂ Entry.IsAsRead laters firsts) :
    laters.map Entry.render = firsts.map Entry.asRead ↔
      ∀ line, Entry.parsed line true ∈ laters → line.isBullet = true → line.hasSection = true →
        line.render = line.text := by
  induction asRead with
  | nil => simp
  | cons step _ inductionHypothesis =>
    rw [List.map_cons, List.map_cons, List.cons.injEq, step.render_eq_iff, inductionHypothesis]
    constructor
    · rintro ⟨head, tail⟩ line member
      rcases List.mem_cons.mp member with same | later
      · exact head line same.symm
      · exact tail line later
    · exact fun each => ⟨fun line same => each line (same ▸ List.mem_cons_self),
        fun line member => each line (List.mem_cons_of_mem _ member)⟩

theorem newline_notMem_of_forall₂ {laters firsts : List Entry}
    (asRead : List.Forall₂ Entry.IsAsRead laters firsts)
    (whole : ∀ text ∈ firsts.map Entry.asRead, '\n' ∉ text.toList) :
    ∀ text ∈ laters.map Entry.render, '\n' ∉ text.toList := by
  induction asRead with
  | nil => exact fun _ member => absurd member List.not_mem_nil
  | cons step _ inductionHypothesis =>
    rw [List.map_cons, List.forall_mem_cons] at whole ⊢
    exact ⟨step.newline_notMem_render whole.1, inductionHypothesis whole.2⟩

namespace Document

theorem isRead_of_mem_readEntries {unit index : Int} {texts : List String} {supply : IdSupply}
    {entry : Entry} (member : entry ∈ (readEntries unit index texts supply).1) : entry.IsRead where
  unedited := wasEdited_of_mem_readEntries member
  read line found := by
    cases entry with
    | blank text => exact absurd found (by simp [Entry.line?])
    | script text => exact absurd found (by simp [Entry.line?])
    | parsed now isEdited =>
      obtain rfl := Option.some.inj found
      obtain ⟨-, place, placeholder, text, same⟩ := exists_read_of_mem_readEntries member
      exact ⟨unit, place, placeholder, text, same⟩

/-- The document is written as the text was if and only if every line is. -/
theorem render_eq_iff {document : Document} {text : String} (plain : HasOnlyNewlines text.toList)
    (length : document.renderedLines.length = (linesOf text).length)
    (ended : document.endsWithNewline = (text.toList.getLast? == some '\n'))
    (whole : ∀ line ∈ document.renderedLines, '\n' ∉ line.toList) :
    document.render = text ↔ document.renderedLines = linesOf text := by
  have original : text.toList = ['\n'].intercalate (Text.lines text.toList) ++
      if text.toList.getLast? == some '\n' then ['\n'] else [] := by
    rw [← joinLines_eq_intercalate plain rfl, joinLines_lines]
  have originalWhole : ∀ line ∈ Text.lines text.toList, '\n' ∉ line := fun line member inside =>
    absurd (isLineBoundary_of_mem_lines member inside) (by decide)
  have writtenWhole : ∀ line ∈ document.renderedLines.map String.toList, '\n' ∉ line := by
    intro line member
    obtain ⟨written, inside, rfl⟩ := List.mem_map.mp member
    exact whole written inside
  have sameLength : (document.renderedLines.map String.toList).length =
      (Text.lines text.toList).length := by
    rw [List.length_map, length, linesOf, List.length_map]
  rw [← String.toList_inj, document.toList_render, ended]
  constructor
  · intro same
    have joined := List.append_cancel_right (same.trans original)
    have lines : document.renderedLines.map String.toList = Text.lines text.toList := by
      cases none : Text.lines text.toList with
      | nil => exact List.length_eq_zero_iff.mp (sameLength.trans (none ▸ rfl))
      | cons first others =>
        have some : Text.lines text.toList ≠ [] := none ▸ List.cons_ne_nil first others
        have writtenSome : document.renderedLines.map String.toList ≠ [] := by
          rw [← List.length_pos_iff, sameLength]
          exact List.length_pos_iff.mpr some
        rw [← none, ← List.splitOn_intercalate '\n' writtenWhole writtenSome, joined,
          List.splitOn_intercalate '\n' originalWhole some]
    rw [← map_toList_linesOf] at lines
    exact List.map_injective_iff.mpr (fun _ _ => String.toList_inj.mp) lines
  · intro same
    rw [same, map_toList_linesOf]
    exact original.symm

/-- In every session on a text with newlines only that leaves the metadata of every line as it was
read, the text comes back if and only if the section of each edited bullet stood there as it is
written. -/
theorem render_afterAll_eq_iff {text : String} (plain : HasOnlyNewlines text.toList) (unit : Int)
    (supply : IdSupply) (edits : List Edit) :
    let start := ofText unit supply text
    let final := start.afterAll edits
    final.lines.map Line.toMetadata = start.lines.map Line.toMetadata →
      (final.render = text ↔ ∀ line, Entry.parsed line true ∈ final.entries →
        line.isBullet = true → line.hasSection = true → line.render = line.text) := by
  intro start final same
  have edited : final.EditedFrom start := editedFrom_afterAll start edits
  have asRead := forall₂_isAsRead edited.entries (fun _ => isRead_of_mem_readEntries) same
  have texts : start.entries.map Entry.asRead = linesOf text :=
    map_asRead_readEntries unit 0 (linesOf text) supply
  have whole : ∀ line ∈ start.entries.map Entry.asRead, '\n' ∉ line.toList := by
    rw [texts]
    intro line member inside
    obtain ⟨original, isLine, rfl⟩ := List.mem_map.mp member
    rw [String.toList_ofList] at inside
    exact absurd (isLineBoundary_of_mem_lines isLine inside) (by decide)
  have length : final.renderedLines.length = (linesOf text).length := by
    rw [renderedLines, List.length_map, edited.entries.length_eq, ← texts, List.length_map]
  rw [render_eq_iff plain length edited.endsWithNewline (newline_notMem_of_forall₂ asRead whole),
    ← texts]
  exact map_render_eq_iff asRead

/-- Folding a bullet that has nothing below it and then unfolding everything leaves a text alone in
which sections are spelled as they are written. -/
theorem render_afterAll_fold_leaf :
    let text := "- Solo // [!] a >b\n- B\n"
    let start := ofText 2 (IdSupply.ofListedHex []) text
    let final := start.afterAll [.line .fold 1, .whole .unfoldAll]
    HasOnlyNewlines text.toList ∧
      final.lines.map Line.toMetadata = start.lines.map Line.toMetadata ∧ final.isEdited = true ∧
      final.render = text := by
  intro text start final
  have plain : HasOnlyNewlines text.toList := by
    have each : (text.toList.all fun character =>
        !isLineBoundary character || character == '\n') = true := by decide +kernel
    intro character member boundary
    simpa [boundary] using List.all_eq_true.mp each character member
  have same : final.lines.map Line.toMetadata = start.lines.map Line.toMetadata := by
    decide +kernel
  have spelled : ∀ line ∈ final.lines, line.hasSection = true → line.render = line.text := by
    decide +kernel
  refine ⟨plain, same, by decide +kernel, ?_⟩
  refine (render_afterAll_eq_iff plain 2 (IdSupply.ofListedHex []) _ same).mpr ?_
  intro line member _ hasSection
  exact spelled line (List.mem_filterMap.mpr ⟨_, member, rfl⟩) hasSection

/-- Folding a bullet that has nothing below it changes no line and yet drops a blank before its
section. -/
theorem render_after_fold_ne :
    let start := ofText 2 (IdSupply.ofListedHex []) "- Solo  // a\n"
    let final := start.after (.line .fold 1)
    final.lines = start.lines ∧ final.render ≠ "- Solo  // a\n" := by
  decide +kernel

end Document

end OutlineDiagram
