/-
This file proves that writing a line anew keeps the bullet. Whatever metadata the line
has got, it is read as a bullet of the same depth, kind and label again. Reading cuts
the section off a text that is trimmed, has single quotes for double ones and has lost
the character that writes the kind; writing it anew looks for the separator in the line
as it stands. Both find the same one.
-/

import OutlineDiagram.Proofs.Line.Rewrite

namespace OutlineDiagram

open Text

/-! ### Blanks at the end -/

namespace Text

variable {blanks : List Char} (blank : ∀ character ∈ blanks, isBlank character = true)

include blank

theorem trimEnd_append_blanks (text : List Char) : trimEnd (text ++ blanks) = trimEnd text := by
  rw [trimEnd, List.reverse_append, List.dropWhile_append_of_pos, trimEnd]
  exact fun character inside => blank character (List.mem_reverse.mp inside)

theorem trim_append_blanks (text : List Char) : trim (text ++ blanks) = trim text := by
  have none : blanks.dropWhile isBlank = [] := List.dropWhile_eq_nil_iff.mpr blank
  rw [trim, trim, trimStart, trimStart, List.dropWhile_append]
  split
  · next empty => rw [none, List.isEmpty_iff.mp empty]
  · exact trimEnd_append_blanks blank _

end Text

/-- Blanks after a label make no difference. -/
theorem sanitizeLabel_append_blanks {blanks : List Char}
    (blank : ∀ character ∈ blanks, isBlank character = true) (label : List Char) :
    sanitizeLabel (label ++ blanks) = sanitizeLabel label := by
  rw [sanitizeLabel, List.filter_append, trim_append_blanks, sanitizeLabel]
  exact fun character inside => blank character (List.mem_filter.mp inside).1

theorem exists_eq_trimEnd_append (text : List Char) :
    ∃ blanks, text = trimEnd text ++ blanks ∧ ∀ character ∈ blanks, isBlank character = true :=
  ⟨text.rtakeWhile isBlank, (List.rdropWhile_append_rtakeWhile ..).symm,
    fun _ inside => List.mem_rtakeWhile_imp inside⟩

/-- A label is read the same without the blanks at its end. -/
theorem sanitizeLabel_trimEnd (start label : List Char) :
    sanitizeLabel (withSingleQuotes (start ++ trimEnd label)) =
      sanitizeLabel (withSingleQuotes (start ++ label)) := by
  obtain ⟨blanks, whole, blank⟩ := exists_eq_trimEnd_append label
  conv_rhs => rw [whole, ← List.append_assoc, withSingleQuotes_append]
  rw [sanitizeLabel_append_blanks]
  intro character inside
  rw [withSingleQuotes_eq_map] at inside
  obtain ⟨original, member, rfl⟩ := List.mem_map.mp inside
  rw [isBlank_withSingleQuote, blank original member]

/-! ### The first separator -/

theorem cutSection_cons_of_apart {first : Char} {rest : List Char}
    (apart : ¬ (first = '/' ∧ ∃ later, rest = '/' :: later)) :
    cutSection (first :: rest) = (first :: (cutSection rest).1, (cutSection rest).2) := by
  rw [cutSection]
  rintro later rfl rfl
  exact apart ⟨rfl, later, rfl⟩

/-- Where the first separator stands does not depend on what follows it. -/
theorem cutSection_of_cut {text before after : List Char}
    (found : cutSection text = (before, some after)) (other : List Char) :
    cutSection (before ++ '/' :: '/' :: other) = (before, some other) := by
  induction text using cutSection.induct generalizing before with
  | case1 => exact absurd found (by simp [cutSection])
  | case2 rest =>
    obtain ⟨rfl, -⟩ := Prod.mk.inj found
    rfl
  | case3 first rest notSeparator inductionHypothesis =>
    have apart : ¬ (first = '/' ∧ ∃ later, rest = '/' :: later) := by
      rintro ⟨isSlash, later, same⟩
      exact notSeparator later isSlash same
    rw [cutSection_cons_of_apart apart] at found
    obtain ⟨rfl, isAfter⟩ := Prod.mk.inj found
    have foundLater : cutSection rest = ((cutSection rest).1, some after) := Prod.ext rfl isAfter
    rw [List.cons_append, cutSection_cons_of_apart, inductionHypothesis foundLater]
    rintro ⟨isSlash, later, same⟩
    have whole := cutSection_append rest
    rw [foundLater] at whole
    cases before : (cutSection rest).1 with
    | nil =>
      rw [before] at whole
      exact apart ⟨isSlash, _, whole.symm⟩
    | cons second others =>
      rw [before] at whole same
      rw [(List.cons.inj same).1] at whole
      exact apart ⟨isSlash, _, whole.symm⟩

theorem cutSection_withSingleQuotes (text : List Char) :
    cutSection (withSingleQuotes text) =
      (withSingleQuotes (cutSection text).1, (cutSection text).2.map withSingleQuotes) := by
  fun_induction cutSection text with
  | case1 => rfl
  | case2 rest => rfl
  | case3 first rest notSeparator cut inductionHypothesis =>
    rw [withSingleQuotes_cons, cutSection_cons_of_apart, inductionHypothesis]
    · rfl
    · intro starts
      obtain ⟨isSlash, later, same⟩ := startsSeparator_of_withSingleQuotes starts
      exact notSeparator later isSlash same

/-- Trimming a text trims what follows its first separator, or all of it where there is none. -/
theorem cutSection_trimEnd (text : List Char) :
    cutSection (trimEnd text) =
      match cutSection text with
      | (before, none) => (trimEnd before, none)
      | (before, some after) => (before, some (trimEnd after)) := by
  have whole := cutSection_append text
  cases found : cutSection text with
  | mk before after =>
    rw [found] at whole
    cases after with
    | none =>
      obtain rfl : before = text := whole
      have known : HasNoSeparator before := by
        have none := hasNoSeparator_cutSection before
        rwa [found] at none
      exact cutSection_of_hasNoSeparator (known.ofStart (trimEnd_isPrefix before))
    | some after =>
      have trimmed : trimEnd text = before ++ '/' :: '/' :: trimEnd after := by
        have second : trimEnd ('/' :: after) = '/' :: trimEnd after :=
          trimEnd_append_cons [] (by decide) after
        rw [← whole, ← second]
        exact trimEnd_append_cons before (by decide) ('/' :: after)
      rw [trimmed, cutSection_of_cut found]

theorem trimEnd_cutSection_trimEnd (text : List Char) :
    trimEnd (cutSection (trimEnd text)).1 = trimEnd (cutSection text).1 := by
  rw [cutSection_trimEnd]
  cases cutSection text with
  | mk before after => cases after <;> simp [trimEnd_trimEnd]

/-- What is kept of a line stands before the section that is added to it. -/
theorem trimEnd_cutSection_addedText {kept : List Char} (whole : HasNoSeparator kept)
    (trimmed : trimEnd kept = kept) (metadata : Metadata) :
    trimEnd (cutSection (kept ++ metadata.addedText)).1 = kept := by
  rw [Metadata.addedText]
  split
  · rw [List.append_nil, cutSection_of_hasNoSeparator whole, trimmed]
  · have blank : ∀ character ∈ [' '], isBlank character = true :=
      List.forall_mem_singleton.mpr (by decide)
    rw [cutSection_append_separator whole, trimEnd_append_blanks blank, trimmed]

/-! ### The label and its first character -/

/-- What the first character of a bullet adds to its label: nothing if it writes the kind. -/
def labelStart (first : Char) : List Char :=
  if (BulletKind.ofMark? first).isSome then [] else [first]

theorem length_labelStart_le (first : Char) : (labelStart first).length ≤ 1 := by
  rw [labelStart]
  split <;> simp

theorem ofMark?_withSingleQuote (character : Char) :
    BulletKind.ofMark? (withSingleQuote character) = BulletKind.ofMark? character := by
  rw [withSingleQuote]
  split
  · next same => rw [same]; rfl
  · rfl

/-- The kind and the rest of a bullet, told from the line as it was written. -/
theorem cutKind_withSingleQuotes (first : Char) (rest : List Char) :
    cutKind (withSingleQuotes (first :: rest)) =
      ((BulletKind.ofMark? first).getD .data, withSingleQuotes (labelStart first ++ rest)) := by
  rw [withSingleQuotes_cons, cutKind, ofMark?_withSingleQuote, labelStart]
  cases BulletKind.ofMark? first <;> rfl

theorem cutSection_labelStart_append {first : Char} {rest : List Char}
    (apart : ¬ (first = '/' ∧ ∃ later, rest = '/' :: later)) :
    cutSection (labelStart first ++ rest) =
      (labelStart first ++ (cutSection rest).1, (cutSection rest).2) := by
  rw [labelStart]
  split
  · rfl
  · exact cutSection_cons_of_apart apart

/-- The position in a text at which reading it cuts off the section. -/
def readSeparator? (text : List Char) : Option Nat :=
  match lineShape text with
  | .bullet content =>
    let unmarked := (cutKind content).2
    let cut := cutSection unmarked
    cut.2.map fun _ =>
      (leadingBlanks text).length + (content.length - unmarked.length) + cut.1.length
  | _ => none

/-- The position in the text of a line at which writing it anew cuts off the section. -/
def Line.separator? (line : Line) : Option Nat :=
  let text := line.text.toList
  let start := (leadingBlanks text).length + 1
  let cut := cutSection (text.drop start)
  cut.2.map fun _ => start + cut.1.length

/-! ### Lines as they are read -/

theorem leadingBlanks_withSingleQuotes (text : List Char) :
    leadingBlanks (withSingleQuotes text) = withSingleQuotes (leadingBlanks text) := by
  have sameTest : isBlank ∘ withSingleQuote = isBlank := funext isBlank_withSingleQuote
  rw [leadingBlanks, leadingBlanks, withSingleQuotes_eq_map, withSingleQuotes_eq_map,
    List.takeWhile_map, sameTest]

theorem measureDepth_congr {text other : List Char}
    (same : leadingBlanks text = leadingBlanks other) (unit : Int) :
    measureDepth unit text = measureDepth unit other := by
  rw [measureDepth, measureDepth, leadingWidth, leadingWidth, same]

namespace IsBulletText

variable {before : List Char} {first : Char} {rest : List Char}
  (known : IsBulletText before first rest)

include known

theorem apart_trimEnd : ¬ (first = '/' ∧ ∃ later, trimEnd rest = '/' :: later) := by
  rintro ⟨isSlash, later, same⟩
  obtain ⟨dropped, whole⟩ := trimEnd_isPrefix rest
  exact known.notComment ⟨isSlash, later ++ dropped, by rw [← whole, same, List.cons_append]⟩

/-- The kind, the label and the section of a bullet line as they are cut from it. -/
theorem cutSection_cutKind :
    cutSection (cutKind (withSingleQuotes (first :: trimEnd rest))).2 =
      (withSingleQuotes (labelStart first ++ (cutSection (trimEnd rest)).1),
        (cutSection (trimEnd rest)).2.map withSingleQuotes) := by
  rw [cutKind_withSingleQuotes, cutSection_withSingleQuotes,
    cutSection_labelStart_append known.apart_trimEnd]

/-- A bullet line is read as a bullet whose depth is told by the blanks before it, whose kind is
told by its first character and whose label is what stands before the section. -/
theorem read_eq {text : String} (parts : text.toList = before ++ first :: rest)
    (unit index : Int) (placeholder : String) :
    let line := Line.read unit index placeholder text
    line.isComment = false ∧ line.isScript = false ∧
      line.depth = measureDepth unit (withSingleQuotes before) ∧
      line.kind = (BulletKind.ofMark? first).getD .data ∧
      line.label = String.ofList (sanitizeLabel
        (withSingleQuotes (labelStart first ++ trimEnd (cutSection rest).1))) := by
  have shape : OutlineDiagram.lineShape text.toList =
      .bullet (withSingleQuotes (first :: trimEnd rest)) := by
    rw [parts]
    exact known.lineShape
  have depth : measureDepth unit (withSingleQuotes text.toList) =
      measureDepth unit (withSingleQuotes before) := by
    refine measureDepth_congr ?_ unit
    rw [leadingBlanks_withSingleQuotes, leadingBlanks_withSingleQuotes, parts,
      leadingBlanks_append_cons known.blank known.solid, leadingBlanks,
      List.takeWhile_eq_self_iff.mpr known.blank]
  have label : sanitizeLabel
      (cutSection (cutKind (withSingleQuotes (first :: trimEnd rest))).2).1 =
        sanitizeLabel (withSingleQuotes (labelStart first ++ trimEnd (cutSection rest).1)) := by
    rw [known.cutSection_cutKind, ← trimEnd_cutSection_trimEnd rest, sanitizeLabel_trimEnd]
  simp only [Line.read, shape]
  exact ⟨trivial, trivial, depth, congrArg Prod.fst (cutKind_withSingleQuotes first (trimEnd rest)),
    congrArg String.ofList label⟩

/-- Reading a bullet line cuts it where writing it anew does. -/
theorem readSeparator?_eq {line : Line} (parts : line.text.toList = before ++ first :: rest) :
    readSeparator? line.text.toList = line.separator? := by
  have blanks : leadingBlanks (before ++ first :: rest) = before :=
    leadingBlanks_append_cons known.blank known.solid rest
  have regroup : before ++ first :: rest = (before ++ [first]) ++ rest := by simp
  have width : before.length + 1 = (before ++ [first]).length := by simp
  have written : line.separator? =
      (cutSection rest).2.map fun _ => before.length + 1 + (cutSection rest).1.length := by
    simp only [Line.separator?]
    rw [parts, blanks, regroup, width, List.drop_left]
  have lengths : (withSingleQuotes (first :: trimEnd rest)).length -
      (cutKind (withSingleQuotes (first :: trimEnd rest))).2.length +
        (labelStart first).length = 1 := by
    have short := length_labelStart_le first
    rw [cutKind_withSingleQuotes, withSingleQuotes_eq_map, withSingleQuotes_eq_map,
      List.length_map, List.length_map, List.length_cons, List.length_append]
    omega
  rw [written, readSeparator?, parts, known.lineShape]
  simp only [blanks]
  rw [known.cutSection_cutKind, cutSection_trimEnd]
  cases cutSection rest with
  | mk label after =>
    cases after with
    | none => rfl
    | some after =>
      simp only [Option.map_some, withSingleQuotes_eq_map, List.length_map, List.length_append,
        Option.some_inj] at lengths ⊢
      omega

end IsBulletText

/-! ### Bullets written anew -/

namespace Line

/-- A bullet that was read and given any metadata is written as a bullet again: it is read with the
same depth, kind and label. The line is cut off for that where it was cut when it was read. -/
theorem read_render_of_isBullet {unit index : Int} {placeholder text : String}
    (bullet : (read unit index placeholder text).isBullet = true) (metadata : Metadata)
    (laterIndex : Int) (laterPlaceholder : String) :
    let line : Line := { read unit index placeholder text with toMetadata := metadata }
    let again := read unit laterIndex laterPlaceholder line.render
    again.isBullet = true ∧ again.depth = line.depth ∧ again.kind = line.kind ∧
      again.label = line.label ∧ line.separator? = readSeparator? text.toList := by
  intro line again
  obtain ⟨content, shape⟩ := exists_lineShape_of_isBullet bullet
  obtain ⟨first, rest, whole, parts⟩ := exists_isBulletText shape
  have lineText : line.text = text := text_read unit index placeholder text
  have lineParts : line.text.toList = leadingBlanks text.toList ++ first :: rest := by
    rw [lineText]
    exact whole
  have written := toList_render lineParts parts
  have kept : trimEnd (cutSection rest).1 <+: rest :=
    (trimEnd_isPrefix _).trans (cutSection_isPrefix rest)
  obtain ⟨-, -, depth, kind, label⟩ := parts.read_eq whole unit index placeholder
  obtain ⟨notComment, notScript, depthAgain, kindAgain, labelAgain⟩ :=
    (parts.append kept line.toMetadata.addedText_ne_slash).read_eq written unit laterIndex
      laterPlaceholder
  have sameKept : trimEnd (cutSection (trimEnd (cutSection rest).1 ++
      line.toMetadata.addedText)).1 = trimEnd (cutSection rest).1 :=
    trimEnd_cutSection_addedText ((hasNoSeparator_cutSection rest).ofStart (trimEnd_isPrefix _))
      (trimEnd_trimEnd _) line.toMetadata
  have sameDepth : again.depth = line.depth := depthAgain.trans depth.symm
  have sameLabel : again.label = line.label := by
    rw [labelAgain, sameKept]
    exact label.symm
  refine ⟨?_, sameDepth, kindAgain.trans kind.symm, sameLabel, ?_⟩
  · have deep : (0 : Int) ≤ line.depth := of_decide_eq_true (Bool.and_eq_true_iff.mp bullet).2
    rw [isBullet, notComment, notScript, sameDepth]
    exact decide_eq_true deep
  · rw [← parts.readSeparator?_eq lineParts, lineText]

/-- A bullet that starts with a slash and whose section starts with one keeps its depth and its
label when it gets another section. -/
theorem read_render_of_isBullet_slash :
    let text := "\t/ \"A\" & B/// [x] a"
    let line : Line := { read 2 0 "p" text with
      toMetadata := { isHighlighted := true, idsOut := ["b//c"] } }
    (read 2 0 "p" text).isBullet = true ∧ line.render = "\t/ \"A\" & B // [!] >b//c" ∧
      (read 2 1 "q" line.render).isBullet = true ∧ (read 2 1 "q" line.render).depth = 1 ∧
      (read 2 1 "q" line.render).kind = .data ∧ (read 2 1 "q" line.render).label = "/ 'A'  B" ∧
      line.separator? = some 10 ∧ readSeparator? text.toList = some 10 := by
  intro text line
  have bullet : (read 2 0 "p" text).isBullet = true := by decide +kernel
  obtain ⟨isBullet, depth, kind, label, same⟩ := read_render_of_isBullet bullet
    { isHighlighted := true, idsOut := ["b//c"] } 1 "q"
  have place : readSeparator? text.toList = some 10 := by decide +kernel
  refine ⟨bullet, by decide +kernel, isBullet, depth.trans ?_, kind.trans ?_, label.trans ?_,
    same.trans place, place⟩
  · decide +kernel
  · decide +kernel
  · decide +kernel

end Line

end OutlineDiagram
