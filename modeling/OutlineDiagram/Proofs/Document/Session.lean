/-
This file proves what a session of edits does to the lines of a text. A session
begins with a document that was read, so each of its lines carries what the text
says, and a line without a section says nothing. The frame of the edits then
decides how each line is written at the end of the session.
-/

import OutlineDiagram.Proofs.Document.Frame

namespace OutlineDiagram

/-! ### Lines as they were read -/

namespace Line

/-- A line without a section says nothing. -/
theorem toMetadata_read_of_hasSection {unit index : Int} {placeholder text : String}
    (without : (read unit index placeholder text).hasSection = false) :
    (read unit index placeholder text).toMetadata = {} := by
  cases shape : lineShape text.toList with
  | bullet content =>
    rw [toMetadata_read shape]
    simp only [read, shape, Option.isSome_eq_false_iff, Option.isNone_iff_eq_none] at without
    rw [without]
    rfl
  | _ => simp only [read, shape]

theorem exists_read_of_readNext (unit index : Int) (text : String) (supply : IdSupply) :
    ∃ placeholder, (readNext unit index text supply).1 = read unit index placeholder text := by
  rw [readNext]
  split
  · exact ⟨_, rfl⟩
  · exact ⟨_, rfl⟩

theorem compactAt_readNext (unit index : Int) (text : String) (supply : IdSupply) :
    (readNext unit index text supply).2.compactAt = supply.compactAt := by
  rw [readNext]
  split <;> rfl

end Line

namespace Document

/-- A line of a document that was read is not edited yet, and it is what its text says. -/
theorem exists_read_of_mem_readEntries {unit index : Int} {texts : List String}
    {supply : IdSupply} {line : Line} {isEdited : Bool}
    (member : .parsed line isEdited ∈ (readEntries unit index texts supply).1) :
    isEdited = false ∧ ∃ place placeholder text, line = Line.read unit place placeholder text := by
  induction texts generalizing index supply with
  | nil => simp [readEntries] at member
  | cons text rest inductionHypothesis =>
    rcases List.mem_cons.mp member with first | later
    · rw [readEntry] at first
      split at first
      · exact absurd first (by simp)
      · exact absurd first (by simp)
      · obtain ⟨rfl, rfl⟩ := Entry.parsed.inj first
        obtain ⟨placeholder, same⟩ := Line.exists_read_of_readNext unit index text supply
        exact ⟨rfl, index, placeholder, text, same⟩
    · exact inductionHypothesis later

/-- Reading draws placeholders only. -/
theorem compactAt_readEntries (unit index : Int) (texts : List String) (supply : IdSupply) :
    (readEntries unit index texts supply).2.compactAt = supply.compactAt := by
  induction texts generalizing index supply with
  | nil => rfl
  | cons text rest inductionHypothesis =>
    have first : (readEntry unit index text supply).2.compactAt = supply.compactAt := by
      rw [readEntry]
      split
      · rfl
      · rfl
      · exact Line.compactAt_readNext unit index text supply
    exact (inductionHypothesis (index + 1) _).trans first

/-! ### Sessions -/

/-- The document after an edit. An edit that cannot be made leaves it as it is. -/
def after (document : Document) (edit : Edit) : Document :=
  match edit.apply document with
  | .ok done => done.1
  | .error _ => document

/-- The document after a session of edits. -/
def afterAll (document : Document) (edits : List Edit) : Document := edits.foldl after document

theorem editedFrom_after (document : Document) (edit : Edit) :
    (document.after edit).EditedFrom document := by
  rw [after]
  split
  · next done made => exact Edit.editedFrom_apply made
  · exact .refl document

theorem editedFrom_afterAll (document : Document) (edits : List Edit) :
    (document.afterAll edits).EditedFrom document :=
  .foldl editedFrom_after edits document

end Document

/-! ### Lines as they are written -/

/-- Metadata without a token is empty, but for an id that is. -/
theorem Metadata.eq_of_tokens {metadata : Metadata} (none : metadata.tokens = []) :
    metadata = {} ∨ metadata = { explicitId := some "" } := by
  by_cases unnamed : metadata.explicitId = some ""
  · have noToken : { metadata with explicitId := Option.none }.tokens = [] := by
      simpa [tokens, ownId?, unnamed] using none
    have same := congrArg (fun rest => { rest with explicitId := some "" })
      (eq_empty_of_tokens (by simp) noToken)
    refine Or.inr (Eq.trans ?_ same)
    rw [← unnamed]
  · exact Or.inl (eq_empty_of_tokens unnamed none)

/-- The line says nothing but an empty id, and no section stood in it. An empty id is not written. -/
def Line.SaysEmptyId (line : Line) : Prop :=
  line.hasSection = false ∧ line.toMetadata = { explicitId := some "" }

/-- A line that is no bullet, or is not edited, is written as it was read. -/
theorem Entry.render_of_not_edited {line : Line} {isEdited : Bool}
    (alone : isEdited = false ∨ line.isBullet = false) :
    (Entry.parsed line isEdited).render = line.text := by
  rw [Entry.render, if_neg]
  rcases alone with isKept | isOther
  · simp [isKept]
  · simp [isOther]

/-- An edited bullet is written anew if there is something to write or a section stood in it. -/
theorem Entry.render_of_edited {line : Line} (bullet : line.isBullet = true)
    (filled : line.hasSection = false → line.toMetadata.tokens ≠ []) :
    (Entry.parsed line true).render = line.render := by
  rw [Entry.render, if_pos]
  have written : line.hasSection = false → line.toMetadata.render ≠ "" :=
    fun without empty => filled without (Metadata.render_eq_empty_iff.mp empty)
  cases without : line.hasSection with
  | true => simp [bullet]
  | false => simpa [bullet] using written without

section

variable {unit place : Int} {placeholder text : String} {later first : Line}
  (read : first = Line.read unit place placeholder text)

include read

/-- A bullet whose metadata changed since it was read is written anew, unless all that it says is an
empty id. -/
theorem Entry.render_of_changed (frame : later.withoutMetadata = first.withoutMetadata)
    (bullet : later.isBullet = true) (different : later.toMetadata ≠ first.toMetadata)
    (named : ¬ later.SaysEmptyId) : (Entry.parsed later true).render = later.render := by
  refine render_of_edited bullet fun without nothing => ?_
  rcases Metadata.eq_of_tokens nothing with empty | unnamed
  · -- Without a section nothing was read, so an empty metadata would be no change.
    rw [Line.hasSection_eq_of_withoutMetadata frame, read] at without
    rw [read, Line.toMetadata_read_of_hasSection without] at different
    exact different empty
  · exact named ⟨without, unnamed⟩

/-- No line is read with an empty id, so who says one got it by an edit. -/
theorem Line.SaysEmptyId.drawn {drawn : String → Prop} (unnamed : later.SaysEmptyId)
    (name : ∀ id, later.explicitId = some id → first.explicitId = some id ∨ drawn id) :
    drawn "" := by
  have empty : later.explicitId = some "" := congrArg Metadata.explicitId unnamed.2
  have bare := Line.isBare_read unit place placeholder text
  rw [← read] at bare
  exact (name "" empty).resolve_left bare.explicitId_ne

/-- What has become of a line that was read: its frame is as it was, and it is written as it stood or
written anew. -/
theorem Entry.EditedFrom.exists_line {drawn : String → Prop} {now : Entry}
    (step : now.EditedFrom drawn (.parsed first false)) :
    ∃ (later : Line) (isEdited : Bool), now = .parsed later isEdited ∧
      later.withoutMetadata = first.withoutMetadata ∧
      (later.toMetadata ≠ first.toMetadata → isEdited = true) ∧
      (isEdited = false ∨ later.isBullet = false → now.render = first.text) ∧
      (later.isBullet = true → later.toMetadata ≠ first.toMetadata → ¬ later.SaysEmptyId →
        now.render = later.render) ∧
      (later.SaysEmptyId → drawn "") := by
  cases step with
  | kept =>
    exact ⟨first, false, rfl, rfl, absurd rfl, render_of_not_edited,
      fun _ different => absurd rfl different, fun unnamed => unnamed.drawn read fun _ => Or.inl⟩
  | @changed later _ _ frame name =>
    refine ⟨later, true, rfl, frame, fun _ => rfl, fun alone => ?_,
      render_of_changed read frame, fun unnamed => unnamed.drawn read name⟩
    rw [render_of_not_edited alone, Line.text_eq_of_withoutMetadata frame]

end

namespace Document

/-- Whatever edits are made to a text, at each of its lines the document holds either a blank or
script line that is written as it stood, or a line whose place, depth, kind, label and placeholder
are as they were read. A changed line counts as edited, a line that is no bullet or does not count
as edited is written as it stood, and a changed bullet is written anew. There is one exception: a
bullet without a section that was given nothing but an empty id, which only a supply that hands out
empty ids can do. -/
theorem afterAll_frame (unit : Int) (supply : IdSupply) (text : String) (edits : List Edit) :
    let start := ofText unit supply text
    let final := start.afterAll edits
    final.renderedLines.length = (linesOf text).length ∧
      ∀ (position : Nat) (original : String), (linesOf text)[position]? = some original →
        (∃ entry : Entry, start.entries[position]? = some entry ∧ entry.line? = none ∧
          final.entries[position]? = some entry ∧
          final.renderedLines[position]? = some original) ∨
        ∃ (first later : Line) (isEdited : Bool),
          start.entries[position]? = some (Entry.parsed first false) ∧
          final.entries[position]? = some (Entry.parsed later isEdited) ∧
          later.withoutMetadata = first.withoutMetadata ∧
          (later.toMetadata ≠ first.toMetadata → isEdited = true) ∧
          (isEdited = false ∨ later.isBullet = false →
            final.renderedLines[position]? = some original) ∧
          (later.isBullet = true → later.toMetadata ≠ first.toMetadata → ¬ later.SaysEmptyId →
            final.renderedLines[position]? = some later.render) ∧
          (later.SaysEmptyId → supply.HandsOut "") := by
  intro start final
  have edited : final.EditedFrom start := editedFrom_afterAll start edits
  have texts : start.entries.map Entry.asRead = linesOf text :=
    map_asRead_readEntries unit 0 (linesOf text) supply
  have sameLength : final.entries.length = start.entries.length := edited.entries.length_eq
  have handed : start.supply.HandsOut = supply.HandsOut :=
    EditedFrom.handsOut_eq (compactAt_readEntries unit 0 (linesOf text) supply)
  refine ⟨by rw [renderedLines, List.length_map, sameLength, ← texts, List.length_map], ?_⟩
  intro position original found
  rw [← texts, List.getElem?_map, Option.map_eq_some_iff] at found
  obtain ⟨entry, startFound, rfl⟩ := found
  obtain ⟨inside, startSame⟩ := List.getElem?_eq_some_iff.mp startFound
  have finalInside : position < final.entries.length := by rw [sameLength]; exact inside
  obtain ⟨now, finalSame⟩ : ∃ now, final.entries.get ⟨position, finalInside⟩ = now := ⟨_, rfl⟩
  have finalFound : final.entries[position]? = some now := by
    rw [List.getElem?_eq_getElem finalInside, ← finalSame]
    rfl
  have written : final.renderedLines[position]? = some now.render := by
    rw [renderedLines, List.getElem?_map, finalFound, Option.map_some]
  have step : now.EditedFrom start.supply.HandsOut entry := by
    have each := edited.entries.get finalInside inside
    rwa [finalSame, List.get_eq_getElem, startSame] at each
  cases entry with
  | blank text =>
    cases step with
    | kept => exact Or.inl ⟨_, startFound, rfl, finalFound, written⟩
  | script text =>
    cases step with
    | kept => exact Or.inl ⟨_, startFound, rfl, finalFound, written⟩
  | parsed first wasEdited =>
    obtain ⟨rfl, place, placeholder, text, read⟩ :=
      exists_read_of_mem_readEntries (List.mem_of_getElem? startFound)
    obtain ⟨later, isEdited, rfl, frame, counted, alone, anew, unnamed⟩ := step.exists_line read
    refine Or.inr ⟨first, later, isEdited, startFound, finalFound, frame, counted,
      fun isAlone => ?_, fun bullet different named => ?_, fun isUnnamed => handed ▸ unnamed isUnnamed⟩
    · exact written.trans (congrArg some (alone isAlone))
    · rw [written, anew bullet different named]

/-- Hiding a bullet and linking another one to it keeps the blank line between them. -/
theorem afterAll_frame_link :
    let final := (ofText 2 (IdSupply.ofListedHex []) "- A\n\n- B // [+]\n").afterAll
      [.line .hide 3, .link 1 3]
    final.renderedLines.length = 3 ∧ final.renderedLines[1]? = some "" := by
  obtain ⟨length, each⟩ := afterAll_frame 2 (IdSupply.ofListedHex []) "- A\n\n- B // [+]\n"
    [.line .hide 3, .link 1 3]
  refine ⟨length.trans (by decide +kernel), ?_⟩
  rcases each 1 "" (by decide +kernel) with ⟨_, _, _, _, written⟩ | ⟨first, _, _, found, _⟩
  · exact written
  · have blank : (ofText 2 (IdSupply.ofListedHex []) "- A\n\n- B // [+]\n").entries[1]? =
        some (Entry.blank "") := by decide +kernel
    rw [blank] at found
    exact absurd found (by simp)

/-- A bullet that is given an empty id is changed and counts as edited, and yet it is written as it
stood. -/
theorem afterAll_frame_emptyId :
    let start := ofText 2 (IdSupply.numbered [""]) "- A  \n"
    let final := start.afterAll [.materializeId 1]
    ∃ first later : Line, start.entries[0]? = some (Entry.parsed first false) ∧
      final.entries[0]? = some (Entry.parsed later true) ∧ later.isBullet = true ∧
      later.toMetadata ≠ first.toMetadata ∧ final.renderedLines[0]? = some "- A  " ∧
      later.render = "- A" := by
  intro start final
  let first := start.bullets.getD 0 default
  exact ⟨first, { first with explicitId := some "" }, by decide +kernel, by decide +kernel,
    by decide +kernel, by decide +kernel, by decide +kernel, by decide +kernel⟩

end Document

end OutlineDiagram
