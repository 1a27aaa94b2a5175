/-
This file reads back the blocks of a diagram: the nodes of one type, the ids that no
node has, the edges of one kind. A block is read by its heading and ends at the first
empty line; each of its lines gives one entry. What is written into a block by a
writer that the line reader undoes is read back, entry by entry, and the blocks of all
kinds together hold every member once, under its own kind.
-/

import OutlineDiagram.Dot.Render
import OutlineDiagram.Proofs.Dot.Token
import OutlineDiagram.Proofs.Links.Edges

namespace OutlineDiagram.Dot

variable {Kind Entry Member : Type}

/-- The entries of a block with a given heading, and the lines after the empty line that ends it. -/
def readBlock (readLine : List Char → Option Entry) (heading : List String)
    (lines : List (List Char)) : Option (List Entry × List (List Char)) := do
  let rest ← lines.dropPrefix? (heading.map String.toList)
  let entries ← (rest.takeWhile (!·.isEmpty)).mapM readLine
  match rest.dropWhile (!·.isEmpty) with
  | [] => none
  | _ :: after => some (entries, after)

/-- The entries of one block for each of several kinds, under the kinds of their blocks, and the
lines after the blocks. -/
def readBlocks (readLine : List Char → Option Entry) (heading : BlockStyle Kind → List String) :
    List (BlockStyle Kind) → List (List Char) → Option (List (Kind × Entry) × List (List Char))
  | [], lines => some ([], lines)
  | style :: others, lines => do
    let (entries, rest) ← readBlock readLine (heading style) lines
    let (further, after) ← readBlocks readLine heading others rest
    return (entries.map (style.kind, ·) ++ further, after)

/-- The lines of some members are read as the entries of the members, and no entry is read from an
empty line. -/
structure Writes (readLine : List Char → Option Entry) (line : Member → String)
    (entry : Member → Entry) (members : List Member) : Prop where
  /-- An empty line tells of no member. -/
  blank : readLine [] = none
  /-- The line of a member tells of it. -/
  line : ∀ member ∈ members, readLine (line member).toList = some (entry member)

variable {readLine : List Char → Option Entry} {line : Member → String} {entry : Member → Entry}

theorem Writes.mapM_eq {members : List Member} (writes : Writes readLine line entry members) :
    (members.map fun member => (line member).toList).mapM readLine = some (members.map entry) := by
  induction members with
  | nil => rfl
  | cons first rest inductionHypothesis =>
    have own := writes.line first List.mem_cons_self
    have others := inductionHypothesis ⟨writes.blank, fun member inside =>
      writes.line member (List.mem_cons_of_mem _ inside)⟩
    rw [List.map_cons, List.mapM_cons, own, others]
    rfl

/-- A block is read back, and so are the lines after it. -/
theorem readBlock_append (heading : List String) {members : List Member}
    (writes : Writes readLine line entry members) (rest : List (List Char)) :
    readBlock readLine heading
        ((heading ++ members.map line ++ [""]).map String.toList ++ rest) =
      some (members.map entry, rest) := by
  have lines : (heading ++ members.map line ++ [""]).map String.toList ++ rest =
      heading.map String.toList ++
        ((members.map fun member => (line member).toList) ++ [] :: rest) := by
    simp [Function.comp_def]
  have filled : ∀ written ∈ members.map fun member => (line member).toList,
      (!written.isEmpty) = true := by
    intro written member
    obtain ⟨origin, inside, rfl⟩ := List.mem_map.mp member
    have told := writes.line origin inside
    cases letters : (line origin).toList with
    | nil => rw [letters, writes.blank] at told; exact absurd told (Option.some_ne_none _).symm
    | cons => rfl
  have ends : ∀ next ∈ ([] :: rest : List (List Char)).head?, (!next.isEmpty) = false := by simp
  rw [lines, readBlock, List.dropPrefix?_append_of_beq _ (beq_self_eq_true _), Option.bind_eq_bind,
    Option.bind_some, takeWhile_append_of_stops filled ends, dropWhile_append_of_stops filled ends,
    writes.mapM_eq]
  rfl

theorem isOneLine_of_mem_block {Member : Type} {heading : List String} {line : Member → String}
    {members : List Member} (start : ∀ first ∈ heading, IsOneLine first)
    (each : ∀ member ∈ members, IsOneLine (line member)) :
    ∀ written ∈ heading ++ members.map line ++ [""], IsOneLine written := by
  rw [List.forall_mem_append, List.forall_mem_append, List.forall_mem_map]
  exact ⟨⟨start, each⟩, by decide⟩

/-- The blocks of several kinds are read back, each entry under the kind of its block. -/
theorem readBlocks_flatMap (heading : BlockStyle Kind → List String)
    {members : Kind → List Member} (writes : ∀ kind, Writes readLine line entry (members kind))
    (styles : List (BlockStyle Kind)) (rest : List (List Char)) :
    readBlocks readLine heading styles
        ((styles.flatMap fun style =>
          heading style ++ (members style.kind).map line ++ [""]).map String.toList ++ rest) =
      some (styles.flatMap fun style => (members style.kind).map fun member =>
        (style.kind, entry member), rest) := by
  induction styles with
  | nil => rfl
  | cons style others inductionHypothesis =>
    rw [List.flatMap_cons, List.map_append, List.append_assoc, readBlocks,
      readBlock_append _ (writes style.kind), Option.bind_eq_bind, Option.bind_some]
    dsimp only
    rw [inductionHypothesis, List.flatMap_cons]
    simp [Function.comp_def]

/-- Blocks for all kinds hold each member once, under its own kind. -/
theorem flatMap_styles_perm [DecidableEq Kind] {styles : List (BlockStyle Kind)}
    (distinct : (styles.map BlockStyle.kind).Nodup) {kindOf : Member → Kind}
    (complete : ∀ kind, kind ∈ styles.map BlockStyle.kind) (members : List Member) :
    (styles.flatMap fun style =>
      (members.filter fun member => kindOf member == style.kind).map fun member =>
        (style.kind, entry member)).Perm
      (members.map fun member => (kindOf member, entry member)) := by
  have grouped : (styles.flatMap fun style =>
      (members.filter fun member => kindOf member == style.kind).map fun member =>
        (style.kind, entry member)) =
      ((styles.map BlockStyle.kind).flatMap fun kind =>
        members.filter fun member => kindOf member == kind).map fun member =>
          (kindOf member, entry member) := by
    rw [List.flatMap_map, List.map_flatMap]
    refine List.flatMap_congr fun style _ => List.map_congr_left fun member inside => ?_
    rw [eq_of_beq (List.mem_filter.mp inside).2]
  rw [grouped]
  refine (List.Perm.map _ (LinkGraph.flatMap_filter_perm kindOf distinct members)).trans
    (List.Perm.of_eq (congrArg _ (List.filter_eq_self.mpr fun member _ => ?_)))
  exact List.contains_iff_mem.mpr (complete _)

end OutlineDiagram.Dot
