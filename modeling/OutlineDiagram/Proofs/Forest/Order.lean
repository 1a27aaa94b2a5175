/-
This file says how the paths of a forest follow each other. The next value lies
below some value of the path before it, whatever is above a value comes before it,
and steps of a process beside each other keep their order when siblings are drawn
in another one.
-/

import Mathlib.Data.List.Chain
import Mathlib.Data.List.Nodup
import OutlineDiagram.Proofs.Forest.Path

namespace OutlineDiagram

/-- In a list without repeats the places of the members grow. -/
theorem pairwise_idxOf_lt {α : Type} [BEq α] [LawfulBEq α] {members : List α}
    (distinct : members.Nodup) :
    members.Pairwise fun first second => members.idxOf first < members.idxOf second := by
  refine List.pairwise_iff_getElem.mpr fun i j firstBound secondBound less => ?_
  rwa [distinct.idxOf_getElem i firstBound, distinct.idxOf_getElem j secondBound]

theorem idxOf_lt_idxOf_of_sublist {α : Type} [BEq α] [LawfulBEq α] {members : List α}
    (distinct : members.Nodup) {first second : α} (pair : [first, second].Sublist members) :
    members.idxOf first < members.idxOf second :=
  List.pairwise_iff_forall_sublist.mp (pairwise_idxOf_lt distinct) pair

namespace Forest

section Paths

variable {α : Type} {above : List α} {forest : Forest α}

/-! ### Consecutive paths -/

theorem fst_head_pathsFrom {path : List α × α} (head : (forest.pathsFrom above).head? = some path) :
    path.1 = above := by
  cases forest with
  | nil => exact absurd head (by simp [pathsFrom])
  | cons value below after =>
    rw [pathsFrom, List.head?_cons] at head
    rw [← Option.some.inj head]

theorem suffix_of_mem_pathsFrom {path : List α × α} (member : path ∈ forest.pathsFrom above) :
    above <:+ path.1 := by
  induction forest generalizing above with
  | nil => exact absurd member List.not_mem_nil
  | cons value below after belowHypothesis afterHypothesis =>
    rw [pathsFrom, List.mem_cons, List.mem_append] at member
    rcases member with rfl | inBelow | inAfter
    · exact List.suffix_refl above
    · exact (List.suffix_cons value above).trans (belowHypothesis inBelow)
    · exact afterHypothesis inAfter

/-- What is above a value is part of the path just before. -/
theorem isChain_pathsFrom (above : List α) (forest : Forest α) :
    (forest.pathsFrom above).IsChain fun first second => second.1 <:+ first.2 :: first.1 := by
  induction forest generalizing above with
  | nil => exact List.isChain_nil
  | cons value below after belowHypothesis afterHypothesis =>
    rw [pathsFrom]
    refine List.isChain_cons.mpr ⟨fun next head => ?_, List.isChain_append.mpr
      ⟨belowHypothesis (value :: above), afterHypothesis above, fun last isLast next head => ?_⟩⟩
    · rw [List.head?_append] at head
      cases first : (below.pathsFrom (value :: above)).head? with
      | some path =>
        rw [first, Option.some_or, Option.mem_some_iff] at head
        rw [← head]
        exact fst_head_pathsFrom first ▸ List.suffix_refl _
      | none =>
        rw [first, Option.none_or] at head
        rw [fst_head_pathsFrom head]
        exact List.suffix_cons value above
    · have inside := suffix_of_mem_pathsFrom (List.mem_of_getLast? isLast)
      rw [fst_head_pathsFrom head]
      exact ((List.suffix_cons value above).trans inside).trans (List.suffix_cons _ _)

/-! ### Earlier paths -/

theorem mem_of_mem_pathsFrom {path : List α × α} (member : path ∈ forest.pathsFrom above) :
    path.2 ∈ forest.toList ∧ ∀ value ∈ path.1, value ∈ above ∨ value ∈ forest.toList := by
  induction forest generalizing above with
  | nil => exact absurd member List.not_mem_nil
  | cons value below after belowHypothesis afterHypothesis =>
    rw [pathsFrom, List.mem_cons, List.mem_append] at member
    simp only [toList, List.mem_cons, List.mem_append]
    rcases member with rfl | inBelow | inAfter
    · exact ⟨Or.inl rfl, fun _ => Or.inl⟩
    · obtain ⟨isBelow, way⟩ := belowHypothesis inBelow
      refine ⟨Or.inr (Or.inl isBelow), fun other member => ?_⟩
      rcases way other member with isAbove | inside
      · rcases List.mem_cons.mp isAbove with rfl | isAbove
        · exact Or.inr (Or.inl rfl)
        · exact Or.inl isAbove
      · exact Or.inr (Or.inr (Or.inl inside))
    · obtain ⟨isAfter, way⟩ := afterHypothesis inAfter
      refine ⟨Or.inr (Or.inr isAfter), fun other member => ?_⟩
      exact (way other member).imp_right fun inside => Or.inr (Or.inr inside)

/-- A value does not lie above one that comes before it. -/
theorem pairwise_pathsFrom (distinct : forest.toList.Nodup)
    (apart : ∀ value ∈ above, value ∉ forest.toList) :
    (forest.pathsFrom above).Pairwise fun first second => second.2 ∉ first.2 :: first.1 := by
  induction forest generalizing above with
  | nil => exact List.Pairwise.nil
  | cons value below after belowHypothesis afterHypothesis =>
    rw [toList, List.nodup_cons, List.nodup_append] at distinct
    obtain ⟨fresh, belowDistinct, afterDistinct, disjoint⟩ := distinct
    have belowApart : ∀ other ∈ value :: above, other ∉ below.toList := by
      intro other member inside
      rcases List.mem_cons.mp member with rfl | isAbove
      · exact fresh (List.mem_append_left _ inside)
      · exact apart other isAbove (List.mem_cons_of_mem _ (List.mem_append_left _ inside))
    have afterApart : ∀ other ∈ value :: above, other ∉ after.toList := by
      intro other member inside
      rcases List.mem_cons.mp member with rfl | isAbove
      · exact fresh (List.mem_append_right _ inside)
      · exact apart other isAbove (List.mem_cons_of_mem _ (List.mem_append_right _ inside))
    rw [pathsFrom, List.pairwise_cons, List.pairwise_append]
    refine ⟨fun second member onWay => ?_, belowHypothesis belowDistinct belowApart,
      afterHypothesis afterDistinct fun other isAbove =>
        afterApart other (List.mem_cons_of_mem _ isAbove), fun first inBelow second inAfter => ?_⟩
    · rcases List.mem_append.mp member with inBelow | inAfter
      · exact belowApart _ onWay (mem_of_mem_pathsFrom inBelow).1
      · exact afterApart _ onWay (mem_of_mem_pathsFrom inAfter).1
    · have isAfter := (mem_of_mem_pathsFrom inAfter).1
      obtain ⟨isBelow, way⟩ := mem_of_mem_pathsFrom inBelow
      intro onWay
      rcases List.mem_cons.mp onWay with same | further
      · exact disjoint _ isBelow _ isAfter same.symm
      · rcases way _ further with isAbove | inside
        · exact afterApart _ isAbove isAfter
        · exact disjoint _ inside _ isAfter rfl

/-- Whatever lies above a value has a path of its own, and that one comes before. -/
theorem sublist_of_suffix_pathsFrom {path : List α × α} (member : path ∈ forest.pathsFrom above)
    {upper : List α} {value : α} (part : value :: upper <:+ path.1) :
    value :: upper <:+ above ∨ [(upper, value), path].Sublist (forest.pathsFrom above) := by
  induction forest generalizing above with
  | nil => exact absurd member List.not_mem_nil
  | cons first below after belowHypothesis afterHypothesis =>
    rw [pathsFrom] at member ⊢
    rcases List.mem_cons.mp member with rfl | later
    · exact Or.inl part
    · rcases List.mem_append.mp later with inBelow | inAfter
      · rcases belowHypothesis inBelow with reaches | sublist
        · rcases List.suffix_cons_iff.mp reaches with isFirst | further
          · obtain ⟨rfl, rfl⟩ := List.cons.inj isFirst
            exact Or.inr ((List.singleton_sublist.mpr later).cons_cons _)
          · exact Or.inl further
        · exact Or.inr ((sublist.trans (List.sublist_append_left _ _)).cons _)
      · exact (afterHypothesis inAfter).imp_right fun sublist =>
          (sublist.trans (List.sublist_append_right _ _)).cons _

theorem roots_sublist_toList (forest : Forest α) : forest.roots.Sublist forest.toList := by
  induction forest with
  | nil => exact .slnil
  | cons value below after _ afterHypothesis =>
    exact (afterHypothesis.trans (List.sublist_append_right _ _)).cons_cons value

end Paths

/-! ### Steps beside each other -/

section Steps

/-- A relation holds of two paths if they lead to steps of a process beside each other. -/
def RelateSteps (order : List Node × Node → List Node × Node → Prop)
    (first second : List Node × Node) : Prop :=
  first.1 = second.1 → first.2.isProcess = true → second.2.isProcess = true → order first second

variable {order : List Node × Node → List Node × Node → Prop} {above : List Node}

theorem filter_arrangeSiblings (trees : List (Node × Forest Node)) :
    (arrangeSiblings trees).filter (fun tree => tree.1.isProcess) =
      trees.filter fun tree => tree.1.isProcess := by
  have apart : ∀ kind, kind ≠ .flow → ∀ tree : Node × Forest Node, tree.1.isProcess = true →
      (tree.1.kind == kind) = false := fun _ noFlow _ isStep => beq_kind_eq_false noFlow.symm isStep
  rw [arrangeSiblings, arrangeKind, filter_preferWithin _ (apart .flowBreak (by decide)),
    arrangeKind, filter_preferWithin _ (apart .data (by decide))]

/-- Moving trees among each other keeps what holds of steps beside each other, as long as the
trees of steps keep their order. -/
theorem relateSteps_ofTrees {trees others : List (Node × Forest Node)} (perm : others.Perm trees)
    (steps : others.filter (fun tree => tree.1.isProcess) =
      trees.filter fun tree => tree.1.isProcess)
    (distinct : (trees.map Prod.fst).Nodup)
    (related : ((ofTrees trees).pathsFrom above).Pairwise (RelateSteps order)) :
    ((ofTrees others).pathsFrom above).Pairwise (RelateSteps order) := by
  rw [pathsFrom_ofTrees, List.pairwise_flatMap] at related ⊢
  obtain ⟨each, cross⟩ := related
  refine ⟨fun tree member => each tree (perm.mem_iff.mp member), ?_⟩
  refine List.pairwise_iff_forall_sublist.mpr fun {one two} inOrder first inOne second inTwo => ?_
  intro sameAbove firstStep secondStep
  by_cases bothSteps : one.1.isProcess = true ∧ two.1.isProcess = true
  · have kept := inOrder.filter fun tree : Node × Forest Node => tree.1.isProcess
    have whole : [one, two].filter (fun tree => tree.1.isProcess) = [one, two] :=
      List.filter_eq_self.mpr (by simp [bothSteps.1, bothSteps.2])
    rw [steps, whole] at kept
    have before := List.pairwise_iff_forall_sublist.mp cross (kept.trans List.filter_sublist)
    exact before first inOne second inTwo sameAbove firstStep secondStep
  · -- Paths to the same place in different trees lead to the roots.
    exfalso
    have different : one.1 ≠ two.1 := by
      have both := ((perm.map Prod.fst).nodup_iff.mpr distinct).sublist (inOrder.map Prod.fst)
      exact fun same => (List.nodup_cons.mp both).1 (by simp [same])
    rcases List.mem_cons.mp inOne with rfl | inOne
    · rcases List.mem_cons.mp inTwo with rfl | inTwo
      · exact bothSteps ⟨firstStep, secondStep⟩
      · have longer := (suffix_of_mem_pathsFrom inTwo).length_le
        rw [← sameAbove, List.length_cons] at longer
        exact absurd longer (by simp)
    · have oneSuffix := suffix_of_mem_pathsFrom inOne
      rw [sameAbove] at oneSuffix
      rcases List.mem_cons.mp inTwo with rfl | inTwo
      · have longer := oneSuffix.length_le
        exact absurd longer (by simp)
      · have twoSuffix := suffix_of_mem_pathsFrom inTwo
        have same := List.suffix_of_suffix_length_le oneSuffix twoSuffix (by simp)
        exact different (List.cons.inj (same.eq_of_length (by simp))).1

theorem relateSteps_arrangeTop {forest : Forest Node} (distinct : forest.toList.Nodup)
    (related : (forest.pathsFrom above).Pairwise (RelateSteps order)) :
    (forest.arrangeTop.pathsFrom above).Pairwise (RelateSteps order) := by
  rw [arrangeTop]
  refine relateSteps_ofTrees (arrangeSiblings_perm _) (filter_arrangeSiblings _)
    (distinct.sublist forest.roots_sublist_toList) ?_
  rw [ofTrees_trees]
  exact related

theorem toList_arrangeBelow_perm (forest : Forest Node) :
    forest.arrangeBelow.toList.Perm forest.toList := by
  have paths := (pathsFrom_arrangeBelow_perm [] forest).map Prod.snd
  rwa [map_snd_pathsFrom, map_snd_pathsFrom] at paths

theorem relateSteps_arrangeBelow {forest : Forest Node} (distinct : forest.toList.Nodup)
    (related : (forest.pathsFrom above).Pairwise (RelateSteps order)) :
    (forest.arrangeBelow.pathsFrom above).Pairwise (RelateSteps order) := by
  induction forest generalizing above with
  | nil => exact related
  | cons node below after belowHypothesis afterHypothesis =>
    rw [toList, List.nodup_cons, List.nodup_append] at distinct
    obtain ⟨-, belowDistinct, afterDistinct, -⟩ := distinct
    have belowPerm : (below.arrangeBelow.arrangeTop.pathsFrom (node :: above)).Perm
        (below.pathsFrom (node :: above)) :=
      (pathsFrom_arrangeTop_perm _ _).trans (pathsFrom_arrangeBelow_perm _ _)
    have afterPerm := pathsFrom_arrangeBelow_perm above after
    rw [pathsFrom, List.pairwise_cons, List.pairwise_append] at related
    obtain ⟨first, inBelow, inAfter, cross⟩ := related
    rw [arrangeBelow, pathsFrom, List.pairwise_cons, List.pairwise_append]
    refine ⟨fun second member => first second ?_, ?_, afterHypothesis afterDistinct inAfter, ?_⟩
    · exact (belowPerm.append afterPerm).mem_iff.mp member
    · refine relateSteps_arrangeTop ?_ (belowHypothesis belowDistinct inBelow)
      exact (toList_arrangeBelow_perm below).nodup_iff.mpr belowDistinct
    · intro one oneMember two twoMember
      exact cross one (belowPerm.mem_iff.mp oneMember) two (afterPerm.mem_iff.mp twoMember)

/-- Drawing siblings in another order keeps what holds of steps beside each other. -/
theorem relateSteps_arrange {forest : Forest Node} (distinct : forest.toList.Nodup)
    (related : forest.paths.Pairwise (RelateSteps order)) :
    forest.arrange.paths.Pairwise (RelateSteps order) :=
  relateSteps_arrangeTop ((toList_arrangeBelow_perm forest).nodup_iff.mpr distinct)
    (relateSteps_arrangeBelow distinct related)

end Steps

end Forest

end OutlineDiagram
