/-
This file proves what a line that was written anew is read as. A bullet line
consists of blanks, a first character and what follows it; the first separator
after the first character starts its section. Writing the line anew keeps what
stands before the section, so the new section is found at the place where the
old one stood, and its metadata comes back unless the own id spells a marker.
-/

import OutlineDiagram.Line.Reader
import OutlineDiagram.Proofs.Line.Section

namespace OutlineDiagram

open Text

/-! ### Quotes -/

/-- A character with single quotes for double ones. -/
def withSingleQuote (character : Char) : Char := if character = '"' then '\'' else character

theorem isBlank_withSingleQuote (character : Char) :
    isBlank (withSingleQuote character) = isBlank character := by
  rw [withSingleQuote]
  split
  · next same =>
    rw [same]
    decide
  · rfl

theorem withSingleQuote_eq_iff {character other : Char} (unquoted : other ≠ '"')
    (different : other ≠ '\'') : withSingleQuote character = other ↔ character = other := by
  rw [withSingleQuote]
  split
  · next same =>
    rw [same]
    exact iff_of_false (fun equal => different equal.symm) fun equal => unquoted equal.symm
  · rfl

theorem withSingleQuotes_eq_map (text : List Char) :
    withSingleQuotes text = text.map withSingleQuote := rfl

@[simp] theorem withSingleQuotes_cons (first : Char) (rest : List Char) :
    withSingleQuotes (first :: rest) = withSingleQuote first :: withSingleQuotes rest := rfl

theorem withSingleQuotes_append (first second : List Char) :
    withSingleQuotes (first ++ second) = withSingleQuotes first ++ withSingleQuotes second :=
  List.map_append

/-- Text without double quotes is read as it stands. -/
theorem withSingleQuotes_of_forall {text : List Char}
    (unquoted : ∀ character ∈ text, character ≠ '"') : withSingleQuotes text = text := by
  refine (List.map_congr_left fun character inside => ?_).trans (List.map_id text)
  exact if_neg (unquoted character inside)

theorem trimEnd_withSingleQuotes (text : List Char) :
    trimEnd (withSingleQuotes text) = withSingleQuotes (trimEnd text) := by
  have sameTest : isBlank ∘ withSingleQuote = isBlank := funext isBlank_withSingleQuote
  rw [trimEnd, trimEnd, withSingleQuotes_eq_map, withSingleQuotes_eq_map, ← List.map_reverse,
    List.dropWhile_map, sameTest, List.map_reverse]

/-! ### The first separator -/

/-- The text holds no separator. -/
def HasNoSeparator (text : List Char) : Prop := ¬ ['/', '/'] <:+: text

theorem HasNoSeparator.ofStart {text longer : List Char} (known : HasNoSeparator longer)
    (start : text <+: longer) : HasNoSeparator text :=
  fun inside => known (inside.trans start.isInfix)

theorem HasNoSeparator.tail {first : Char} {rest : List Char}
    (known : HasNoSeparator (first :: rest)) : HasNoSeparator rest :=
  fun inside => known (List.infix_cons inside)

/-- A separator in a text with one more character before it either is in the text or starts with
that character. -/
theorem hasNoSeparator_cons {first : Char} {rest : List Char} (known : HasNoSeparator rest)
    (apart : ¬ (first = '/' ∧ ∃ later, rest = '/' :: later)) : HasNoSeparator (first :: rest) := by
  intro inside
  rcases List.infix_cons_iff.mp inside with start | later
  · rw [List.cons_prefix_cons] at start
    obtain ⟨second, after⟩ := start.2
    exact apart ⟨start.1.symm, second, after.symm⟩
  · exact known later

theorem cutSection_isPrefix (text : List Char) : (cutSection text).1 <+: text := by
  have whole := cutSection_append text
  cases found : cutSection text with
  | mk before after =>
    rw [found] at whole
    cases after with
    | none => exact ⟨[], by rw [List.append_nil]; exact whole⟩
    | some after => exact ⟨_, whole⟩

/-- There is no separator before the first one. -/
theorem hasNoSeparator_cutSection (text : List Char) : HasNoSeparator (cutSection text).1 := by
  fun_induction cutSection text with
  | case1 => exact fun inside => by simpa using inside.length_le
  | case2 rest => exact fun inside => by simpa using inside.length_le
  | case3 first rest notSeparator cut inductionHypothesis =>
    refine hasNoSeparator_cons inductionHypothesis ?_
    rintro ⟨isSlash, later, same⟩
    have whole := cutSection_append rest
    cases found : cutSection rest with
    | mk before after =>
      rw [show (cut).1 = before from congrArg Prod.fst found] at same
      rw [found, same] at whole
      cases after with
      | none => exact notSeparator later isSlash whole.symm
      | some after => exact notSeparator _ isSlash whole.symm

/-- A separator after a blank and after text without separator is the first one. -/
theorem cutSection_append_separator {before : List Char} (known : HasNoSeparator before)
    (after : List Char) :
    cutSection (before ++ ' ' :: '/' :: '/' :: after) = (before ++ [' '], some after) := by
  induction before with
  | nil => rfl
  | cons first rest inductionHypothesis =>
    have others := inductionHypothesis known.tail
    rw [List.cons_append, cutSection, others]
    · rfl
    · rintro later rfl same
      cases rest with
      | nil => simp at same
      | cons second further =>
        have isSlash : second = '/' := (List.cons.inj same).1
        rw [isSlash] at known
        exact known (List.prefix_append ['/', '/'] further).isInfix

/-- Text without separator is not cut. -/
theorem cutSection_of_hasNoSeparator {text : List Char} (known : HasNoSeparator text) :
    cutSection text = (text, none) := by
  induction text with
  | nil => rfl
  | cons first rest inductionHypothesis =>
    rw [cutSection, inductionHypothesis known.tail]
    rintro later rfl rfl
    exact known (List.prefix_append ['/', '/'] later).isInfix

/-- Changed quotes make no separator. -/
theorem startsSeparator_of_withSingleQuotes {first : Char} {rest : List Char}
    (starts : withSingleQuote first = '/' ∧ ∃ later, withSingleQuotes rest = '/' :: later) :
    first = '/' ∧ ∃ later, rest = '/' :: later := by
  obtain ⟨isSlash, later, same⟩ := starts
  have firstSlash := (withSingleQuote_eq_iff (by decide) (by decide)).mp isSlash
  cases rest with
  | nil => exact absurd same (List.cons_ne_nil _ _).symm
  | cons second others =>
    have secondSlash := (withSingleQuote_eq_iff (by decide) (by decide)).mp
      (List.cons.inj same).1
    exact ⟨firstSlash, others, by rw [secondSlash]⟩

theorem HasNoSeparator.withSingleQuotes {text : List Char} (known : HasNoSeparator text) :
    HasNoSeparator (withSingleQuotes text) := by
  induction text with
  | nil => exact known
  | cons first rest inductionHypothesis =>
    refine hasNoSeparator_cons (inductionHypothesis known.tail) fun starts => ?_
    obtain ⟨rfl, others, rfl⟩ := startsSeparator_of_withSingleQuotes starts
    exact known (List.prefix_append ['/', '/'] others).isInfix

/-! ### The parts of a bullet line -/

/-- Blanks, the first other character and what follows it make a bullet line, unless they start a
comment or a script line. -/
structure IsBulletText (before : List Char) (first : Char) (rest : List Char) : Prop where
  /-- Only blanks stand before the first other character. -/
  blank : ∀ character ∈ before, isBlank character = true
  /-- The first other character is not blank. -/
  solid : isBlank first = false
  /-- The line is no script line. -/
  notScript : first ≠ '$'
  /-- The line is no comment. -/
  notComment : ¬ (first = '/' ∧ ∃ later, rest = '/' :: later)

/-- A bullet line is a bullet by its shape. -/
theorem IsBulletText.lineShape {before : List Char} {first : Char} {rest : List Char}
    (known : IsBulletText before first rest) :
    lineShape (before ++ first :: rest) = .bullet (withSingleQuotes (first :: trimEnd rest)) := by
  have quotedBlank : ∀ character ∈ withSingleQuotes before, isBlank character = true := by
    intro character inside
    rw [withSingleQuotes_eq_map] at inside
    obtain ⟨original, member, rfl⟩ := List.mem_map.mp inside
    rw [isBlank_withSingleQuote, known.blank original member]
  have quotedSolid : isBlank (withSingleQuote first) = false := by
    rw [isBlank_withSingleQuote, known.solid]
  have content : trim (withSingleQuotes (before ++ first :: rest)) =
      withSingleQuote first :: withSingleQuotes (trimEnd rest) := by
    rw [withSingleQuotes_append, withSingleQuotes_cons, trim,
      trimStart_append_cons quotedBlank quotedSolid, ← trimEnd_withSingleQuotes]
    exact trimEnd_append_cons [] quotedSolid _
  rw [OutlineDiagram.lineShape, content]
  split
  · next same => exact absurd same (List.cons_ne_nil _ _)
  · next later same =>
    obtain ⟨firstSame, restSame⟩ := List.cons.inj same
    refine absurd ⟨(withSingleQuote_eq_iff (by decide) (by decide)).mp firstSame, ?_⟩
      known.notComment
    obtain ⟨dropped, whole⟩ := trimEnd_isPrefix rest
    cases kept : trimEnd rest with
    | nil => rw [kept] at restSame; exact absurd restSame (List.cons_ne_nil _ _).symm
    | cons second others =>
      rw [kept, withSingleQuotes_cons] at restSame
      have isSlash := (withSingleQuote_eq_iff (by decide) (by decide)).mp (List.cons.inj restSame).1
      exact ⟨others ++ dropped, by rw [← whole, kept, isSlash, List.cons_append]⟩
  · next later same =>
    exact absurd ((withSingleQuote_eq_iff (by decide) (by decide)).mp (List.cons.inj same).1)
      known.notScript
  · rfl

/-- A text that is a bullet by its shape has the parts of a bullet line. -/
theorem exists_isBulletText {text content : List Char} (shape : lineShape text = .bullet content) :
    ∃ first rest, text = leadingBlanks text ++ first :: rest ∧
      IsBulletText (leadingBlanks text) first rest := by
  have quotedTest : isBlank ∘ withSingleQuote = isBlank := funext isBlank_withSingleQuote
  have start : trimStart (withSingleQuotes text) = withSingleQuotes (trimStart text) := by
    rw [trimStart, trimStart, withSingleQuotes_eq_map, withSingleQuotes_eq_map, List.dropWhile_map,
      quotedTest]
  have trimmed : trim (withSingleQuotes text) = withSingleQuotes (trimEnd (trimStart text)) := by
    rw [trim, start, trimEnd_withSingleQuotes]
  rcases trimStart_eq_nil_or_cons text with empty | ⟨first, rest, solid, found⟩
  · rw [empty] at trimmed
    rw [lineShape, trimmed] at shape
    exact absurd shape (by simp [trimEnd, withSingleQuotes])
  · have whole : text = leadingBlanks text ++ first :: rest := by
      rw [← found, leadingBlanks_append_trimStart]
    have kept : trimEnd (first :: rest) = first :: trimEnd rest := trimEnd_append_cons [] solid rest
    rw [found, kept] at trimmed
    rw [lineShape, trimmed] at shape
    refine ⟨first, rest, whole, fun character => isBlank_of_mem_leadingBlanks, solid, ?_, ?_⟩
    · rintro rfl
      exact absurd shape (by simp [withSingleQuote])
    · rintro ⟨rfl, later, rfl⟩
      have slashes : trimEnd ('/' :: later) = '/' :: trimEnd later :=
        trimEnd_append_cons [] (by decide) later
      rw [slashes] at shape
      exact absurd shape (by simp [withSingleQuote])

/-- What stands before a section and the section with it make a bullet line again. -/
theorem IsBulletText.append {before : List Char} {first : Char} {rest : List Char}
    (known : IsBulletText before first rest) {kept : List Char} (start : kept <+: rest)
    {added : List Char} (apart : ∀ later, added ≠ '/' :: later) :
    IsBulletText before first (kept ++ added) where
  blank := known.blank
  solid := known.solid
  notScript := known.notScript
  notComment := by
    rintro ⟨isSlash, later, same⟩
    obtain ⟨dropped, whole⟩ := start
    cases kept with
    | nil => exact apart later same
    | cons second others =>
      refine known.notComment ⟨isSlash, others ++ dropped, ?_⟩
      rw [← whole, (List.cons.inj same).1, List.cons_append]

/-! ### Lines written anew -/

namespace Metadata

/-- The section with the blank before it, as it follows the kept part of a line. -/
def addedText (metadata : Metadata) : List Char :=
  if metadata.tokens.isEmpty then [] else ' ' :: '/' :: '/' :: metadata.writtenText

theorem addedText_ne_slash (metadata : Metadata) (later : List Char) :
    metadata.addedText ≠ '/' :: later := by
  rw [addedText]
  split
  · exact (List.cons_ne_nil _ _).symm
  · intro same
    exact absurd (List.cons.inj same).1 (by decide)

end Metadata

namespace Line

/-- A line written anew keeps what stands before its section, without blanks after that. -/
theorem toList_render {line : Line} {before : List Char} {first : Char} {rest : List Char}
    (text : line.text.toList = before ++ first :: rest)
    (known : IsBulletText before first rest) :
    line.render.toList =
      before ++ first :: (trimEnd (cutSection rest).1 ++ line.toMetadata.addedText) := by
  have start : leadingBlanks line.text.toList = before := by
    rw [text, leadingBlanks_append_cons known.blank known.solid]
  have regroup : before ++ first :: rest = (before ++ [first]) ++ rest := by simp
  have width : before.length + 1 = (before ++ [first]).length := by simp
  have head : line.head = before ++ first :: (cutSection rest).1 := by
    simp only [Line.head, start]
    rw [text, regroup, width, List.take_left, List.drop_left, List.append_assoc]
    rfl
  have kept : trimEnd line.head = before ++ first :: trimEnd (cutSection rest).1 := by
    rw [head, trimEnd_append_cons before known.solid]
  have written := line.toMetadata.toList_render
  simp only [Line.render]
  rw [kept, Metadata.addedText]
  by_cases nothing : line.toMetadata.tokens.isEmpty = true
  · rw [if_pos nothing] at written
    rw [if_pos nothing, String.toList_eq_nil_iff.mp written]
    simp
  · rw [if_neg nothing] at written
    rw [if_neg nothing, if_neg]
    · simp [written]
    · intro empty
      rw [eq_of_beq empty] at written
      exact absurd written.symm (List.cons_ne_nil _ _)

/-- The section of a line is the one that is found after cutting off its kind. -/
theorem toMetadata_read {unit index : Int} {placeholder text : String} {content : List Char}
    (shape : lineShape text.toList = .bullet content) :
    (read unit index placeholder text).toMetadata =
      Metadata.read ((cutSection (cutKind content).2).2.getD []) := by
  simp only [read, shape]

/-- A line that was read as a bullet has the shape of one. -/
theorem exists_lineShape_of_isBullet {unit index : Int} {placeholder text : String}
    (bullet : (read unit index placeholder text).isBullet = true) :
    ∃ content, lineShape text.toList = .bullet content := by
  cases shape : lineShape text.toList with
  | blank => simp [read, shape, isBullet] at bullet
  | comment => simp [read, shape, isBullet] at bullet
  | script => simp [read, shape, isBullet] at bullet
  | bullet content => exact ⟨content, rfl⟩

/-- All ids of a line that was read are bare. -/
theorem isBare_read (unit index : Int) (placeholder text : String) :
    (read unit index placeholder text).toMetadata.IsBare := by
  cases shape : lineShape text.toList with
  | bullet content =>
    rw [toMetadata_read shape]
    exact Metadata.isBare_read _
  | _ =>
    simp only [read, shape]
    exact ⟨by simp, by simp, by simp⟩

end Line

/-- The section after a bullet without separator of its own is found behind the character that
writes the kind, or behind the whole bullet where there is none. -/
theorem cutSection_cutKind {first : Char} {kept : List Char}
    (whole : HasNoSeparator (first :: kept)) (added : List Char) :
    (cutSection (cutKind (first :: (kept ++ ' ' :: '/' :: '/' :: added))).2).2 = some added ∧
      (cutSection (cutKind (first :: kept)).2).2 = none := by
  rw [cutKind, cutKind]
  cases BulletKind.ofMark? first with
  | some kind =>
    constructor
    · exact congrArg Prod.snd (cutSection_append_separator whole.tail added)
    · exact congrArg Prod.snd (cutSection_of_hasNoSeparator whole.tail)
  | none =>
    constructor
    · exact congrArg Prod.snd (cutSection_append_separator whole added)
    · exact congrArg Prod.snd (cutSection_of_hasNoSeparator whole)

namespace Metadata

/-- The text of a written section ends with the last character of its last token. -/
theorem exists_writtenText_eq_concat {metadata : Metadata} (known : metadata.IsBare)
    (written : metadata.tokens ≠ []) :
    ∃ before last, metadata.writtenText = before ++ [last] ∧ isBlank last = false := by
  have ends : ∀ parts : List (List Char), parts ≠ [] →
      (∀ part ∈ parts, part ≠ [] ∧ ∀ character ∈ part, isBlank character = false) →
      ∃ before last, [' '].intercalate parts = before ++ [last] ∧ isBlank last = false := by
    intro parts nonempty solid
    induction parts with
    | nil => exact absurd rfl nonempty
    | cons part others inductionHypothesis =>
      obtain ⟨partNonempty, partSolid⟩ := solid part List.mem_cons_self
      cases others with
      | nil =>
        refine ⟨part.dropLast, part.getLast partNonempty, ?_, partSolid _ (List.getLast_mem _)⟩
        rw [List.intercalate_singleton, List.dropLast_concat_getLast]
      | cons second later =>
        obtain ⟨before, last, same, lastSolid⟩ := inductionHypothesis (by simp)
          fun other member => solid other (List.mem_cons_of_mem _ member)
        refine ⟨part ++ [' '] ++ before, last, ?_, lastSolid⟩
        rw [List.intercalate_cons_cons, same, ← List.append_assoc]
  obtain ⟨before, last, same, solid⟩ := ends metadata.writtenTokens (by simpa [writtenTokens])
    fun token member =>
      have tokenSolid := solid_of_mem_writtenTokens known member
      ⟨tokenSolid.1, fun character inside => (tokenSolid.2 character inside).1⟩
  exact ⟨' ' :: before, last, by rw [writtenText, same, List.cons_append], solid⟩

/-- A written section holds no double quotes. -/
theorem withSingleQuotes_writtenText {metadata : Metadata} (known : metadata.IsBare) :
    withSingleQuotes metadata.writtenText = metadata.writtenText := by
  have unquoted : ∀ parts : List (List Char), (∀ part ∈ parts, ∀ character ∈ part,
      character ≠ '"') → ∀ character ∈ [' '].intercalate parts, character ≠ '"' := by
    intro parts clean
    induction parts with
    | nil => simp
    | cons part others inductionHypothesis =>
      have laterClean := inductionHypothesis
        fun other member => clean other (List.mem_cons_of_mem _ member)
      have partClean := clean part List.mem_cons_self
      cases others with
      | nil => simpa using partClean
      | cons second later =>
        rw [List.intercalate_cons_cons]
        intro character inside
        rcases List.mem_append.mp inside with inside | inside
        · rcases List.mem_append.mp inside with inside | inside
          · exact partClean character inside
          · rw [List.mem_singleton.mp inside]
            decide
        · exact laterClean character inside
  refine withSingleQuotes_of_forall fun character inside => ?_
  rcases List.mem_cons.mp inside with same | later
  · rw [same]
    decide
  · exact unquoted _ (fun token member other inside =>
      ((solid_of_mem_writtenTokens known member).2 other inside).2) character later

end Metadata

namespace Line

/-- Reading a line that was written anew gives what its section says, wherever the line came
from. -/
theorem toMetadata_read_render {line : Line} {before : List Char} {first : Char} {rest : List Char}
    (text : line.text.toList = before ++ first :: rest) (known : IsBulletText before first rest)
    (bare : line.toMetadata.IsBare) (unit index : Int) (placeholder : String) :
    (read unit index placeholder line.render).toMetadata =
      if line.toMetadata.tokens = [] then {} else Metadata.read line.toMetadata.writtenText := by
  have written := toList_render text known
  have keptPrefix : trimEnd (cutSection rest).1 <+: rest :=
    (trimEnd_isPrefix _).trans (cutSection_isPrefix rest)
  have keptWhole : HasNoSeparator (first :: trimEnd (cutSection rest).1) := by
    refine hasNoSeparator_cons ((hasNoSeparator_cutSection rest).ofStart (trimEnd_isPrefix _)) ?_
    rintro ⟨isSlash, later, same⟩
    obtain ⟨dropped, whole⟩ := keptPrefix
    exact known.notComment ⟨isSlash, later ++ dropped, by rw [← whole, same, List.cons_append]⟩
  have quotedWhole : HasNoSeparator
      (withSingleQuote first :: withSingleQuotes (trimEnd (cutSection rest).1)) :=
    keptWhole.withSingleQuotes
  have shape := (known.append keptPrefix line.toMetadata.addedText_ne_slash).lineShape
  rw [← written] at shape
  rw [toMetadata_read shape]
  by_cases nothing : line.toMetadata.tokens = []
  · rw [if_pos nothing, Metadata.addedText, if_pos (by simp [nothing]), List.append_nil,
      trimEnd_trimEnd, withSingleQuotes_cons, (cutSection_cutKind quotedWhole []).2]
    rfl
  · obtain ⟨start, last, same, solid⟩ := Metadata.exists_writtenText_eq_concat bare nothing
    have trimmed : trimEnd (trimEnd (cutSection rest).1 ++ line.toMetadata.addedText) =
        trimEnd (cutSection rest).1 ++ ' ' :: '/' :: '/' :: line.toMetadata.writtenText := by
      have regroup : trimEnd (cutSection rest).1 ++ ' ' :: '/' :: '/' :: (start ++ [last]) =
          (trimEnd (cutSection rest).1 ++ ' ' :: '/' :: '/' :: start) ++ [last] := by simp
      rw [Metadata.addedText, if_neg (by simpa using nothing), same, regroup,
        trimEnd_concat _ solid]
    have quoted : withSingleQuotes (first :: (trimEnd (cutSection rest).1 ++
        ' ' :: '/' :: '/' :: line.toMetadata.writtenText)) =
        withSingleQuote first :: (withSingleQuotes (trimEnd (cutSection rest).1) ++
          ' ' :: '/' :: '/' :: line.toMetadata.writtenText) := by
      rw [withSingleQuotes_cons, withSingleQuotes_append, withSingleQuotes_cons,
        withSingleQuotes_cons, withSingleQuotes_cons, Metadata.withSingleQuotes_writtenText bare]
      rfl
    rw [if_neg nothing, trimmed, quoted, (cutSection_cutKind quotedWhole _).1]
    rfl

/-- A bullet that was read, given any visibility and highlight and written anew, is read with
its metadata again, exactly unless its own id spells the token that hides a bullet or the one
that highlights it. -/
theorem toMetadata_read_render_iff {unit index : Int} {placeholder text : String}
    (bullet : (read unit index placeholder text).isBullet = true) (visibility : Visibility)
    (isHighlighted : Bool) (laterUnit laterIndex : Int) (laterPlaceholder : String) :
    let line : Line := { read unit index placeholder text with
      visibility := visibility, isHighlighted := isHighlighted }
    (read laterUnit laterIndex laterPlaceholder line.render).toMetadata = line.toMetadata ↔
      line.explicitId ≠ some Visibility.hide.token ∧
        line.explicitId ≠ some Metadata.highlightToken := by
  intro line
  obtain ⟨content, shape⟩ := exists_lineShape_of_isBullet bullet
  obtain ⟨first, rest, whole, parts⟩ := exists_isBulletText shape
  have lineText : line.text = text := text_read unit index placeholder text
  have bare : line.toMetadata.IsBare := by
    have readBare := isBare_read unit index placeholder text
    exact ⟨readBare.explicitId, readBare.idsOut, readBare.idsIn⟩
  rw [toMetadata_read_render (by rw [lineText]; exact whole) parts bare]
  by_cases nothing : line.toMetadata.tokens = []
  · rw [if_pos nothing, Metadata.eq_empty_of_tokens bare.explicitId_ne nothing]
    simp
  · rw [if_neg nothing]
    exact Metadata.read_writtenText_eq_iff bare

/-- A hidden step with an own id and a repeated link keeps them all when it is shown and written
anew. -/
theorem toMetadata_read_render_step :
    (read 2 0 "p" "  > Step // [x] [!] s1 >a, >a <b").isBullet = true ∧
      let line : Line := { read 2 0 "p" "  > Step // [x] [!] s1 >a, >a <b" with
        visibility := .normal, isHighlighted := true }
      (read 2 0 "q" line.render).toMetadata = line.toMetadata := by
  have bullet : (read 2 0 "p" "  > Step // [x] [!] s1 >a, >a <b").isBullet = true := by
    decide +kernel
  refine ⟨bullet, ?_⟩
  exact (toMetadata_read_render_iff bullet .normal true 2 0 "q").mpr (by decide +kernel)

/-- The own id of this bullet is what is left of a token with punctuation. Written anew it is the
token that hides the bullet. -/
theorem toMetadata_read_render_ne :
    let line := read 2 0 "p" "- A // [-x]"
    line.isBullet = true ∧ line.explicitId = some "[x]" ∧ line.visibility = .normal ∧
      line.render = "- A // [x]" ∧ (read 2 0 "q" line.render).explicitId = none ∧
      (read 2 0 "q" line.render).visibility = .hide := by
  decide +kernel

end Line

end OutlineDiagram
