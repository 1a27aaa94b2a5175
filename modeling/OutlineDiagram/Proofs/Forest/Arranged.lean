/-
This file proves that drawing order is reached in one pass. Preferred members of a
class that stand first stay where they are, and rearranging one class leaves the
others in their order, so arranging arranged siblings changes nothing. What is below
a tree is arranged without a look at its siblings, so the levels do not interfere.
-/

import OutlineDiagram.Proofs.Forest.Path

namespace OutlineDiagram

/-! ### Preferred members -/

section Lists

variable {α β : Type}

/-- Refilling commutes with a change of the members. -/
theorem refill_map (change : α → β) (inClass : β → Bool) (members given : List α) :
    refill inClass (members.map change) (given.map change) =
      (refill (inClass ∘ change) members given).map change := by
  induction members generalizing given with
  | nil => cases given <;> rfl
  | cons first rest inductionHypothesis =>
    cases given with
    | nil => rfl
    | cons head others =>
      rw [List.map_cons, List.map_cons, refill, refill, ← List.map_cons, inductionHypothesis,
        inductionHypothesis, Function.comp_apply]
      split <;> rfl

/-- The members of the class, preferred ones first. -/
def preferredFirst (inClass preferred : α → Bool) (members : List α) : List α :=
  (members.filter inClass).filter preferred ++
    (members.filter inClass).filter fun member => !preferred member

theorem preferWithin_eq (inClass preferred : α → Bool) (members : List α) :
    preferWithin inClass preferred members =
      refill inClass members (preferredFirst inClass preferred members) := rfl

theorem preferWithin_map (change : α → β) (inClass preferred : β → Bool) (members : List α) :
    preferWithin inClass preferred (members.map change) =
      (preferWithin (inClass ∘ change) (preferred ∘ change) members).map change := by
  have first : preferredFirst inClass preferred (members.map change) =
      (preferredFirst (inClass ∘ change) (preferred ∘ change) members).map change := by
    unfold preferredFirst
    rw [List.filter_map, List.filter_map, List.filter_map, List.map_append]
    rfl
  rw [preferWithin_eq, preferWithin_eq, first, refill_map]

variable (inClass preferred : α → Bool) (members : List α)

theorem filter_preferWithin_self :
    (preferWithin inClass preferred members).filter inClass =
      preferredFirst inClass preferred members :=
  filter_refill_self (length_preferred inClass preferred members)
    fun _ inside => inClass_of_mem_preferred inside

variable {inClass preferred members}

/-- Where the preferred members of the class stand first already, nothing moves. -/
theorem preferWithin_eq_self
    (first : preferredFirst inClass preferred members = members.filter inClass) :
    preferWithin inClass preferred members = members := by
  rw [preferWithin_eq, first, refill_filter]

theorem preferredFirst_eq_filter_of_filter_eq {others : List α}
    (same : others.filter inClass = preferredFirst inClass preferred members) :
    preferredFirst inClass preferred others = others.filter inClass := by
  have front : ((members.filter inClass).filter preferred).filter preferred =
      (members.filter inClass).filter preferred := by
    rw [List.filter_filter]
    simp only [Bool.and_self]
  have back : ((members.filter inClass).filter fun member => !preferred member).filter
      (fun member => !preferred member) =
        (members.filter inClass).filter fun member => !preferred member := by
    rw [List.filter_filter]
    simp only [Bool.and_self]
  have noFront : ((members.filter inClass).filter fun member => !preferred member).filter
      preferred = [] := by
    refine List.filter_eq_nil_iff.mpr fun member inside => ?_
    simpa using (List.mem_filter.mp inside).2
  have noBack : ((members.filter inClass).filter preferred).filter
      (fun member => !preferred member) = [] := by
    refine List.filter_eq_nil_iff.mpr fun member inside => ?_
    simpa using (List.mem_filter.mp inside).2
  rw [preferredFirst, same, preferredFirst, List.filter_append, List.filter_append, front, back,
    noFront, noBack, List.append_nil, List.nil_append]

theorem preferWithin_preferWithin :
    preferWithin inClass preferred (preferWithin inClass preferred members) =
      preferWithin inClass preferred members :=
  preferWithin_eq_self
    (preferredFirst_eq_filter_of_filter_eq (filter_preferWithin_self inClass preferred members))

end Lists

namespace Forest

/-! ### Siblings -/

/-- Arranging looks at the kinds of trees and at whether something is below them. -/
theorem arrangeSiblings_map (change : Node × Forest Node → Node × Forest Node)
    (sameKind : ∀ tree, (change tree).1.kind = tree.1.kind)
    (sameBelow : ∀ tree, hasBelow (change tree) = hasBelow tree)
    (trees : List (Node × Forest Node)) :
    arrangeSiblings (trees.map change) = (arrangeSiblings trees).map change := by
  have classes : ∀ kind, (fun tree : Node × Forest Node => tree.1.kind == kind) ∘ change =
      fun tree => tree.1.kind == kind := by
    intro kind
    funext tree
    rw [Function.comp_apply, sameKind]
  have below : hasBelow ∘ change = hasBelow := funext sameBelow
  unfold arrangeSiblings arrangeKind
  rw [preferWithin_map, preferWithin_map, classes, classes, below]

theorem arrangeSiblings_arrangeSiblings (trees : List (Node × Forest Node)) :
    arrangeSiblings (arrangeSiblings trees) = arrangeSiblings trees := by
  have apart : ∀ tree : Node × Forest Node, (tree.1.kind == BulletKind.data) = true →
      (tree.1.kind == BulletKind.flowBreak) = false := fun _ => beq_kind_eq_false (by decide)
  -- Arranging the starts of chains keeps the order of the ordinary nodes, which is right already.
  have settled : arrangeKind .data (arrangeSiblings trees) = arrangeSiblings trees := by
    have order : (arrangeSiblings trees).filter (fun tree => tree.1.kind == .data) =
        preferredFirst (fun tree => tree.1.kind == .data) hasBelow trees := by
      rw [arrangeSiblings, arrangeKind, filter_preferWithin _ apart, arrangeKind,
        filter_preferWithin_self]
    exact preferWithin_eq_self (preferredFirst_eq_filter_of_filter_eq order)
  rw [arrangeSiblings, settled]
  exact preferWithin_preferWithin

/-! ### Levels -/

theorem isEmpty_ofTrees (trees : List (Node × Forest Node)) :
    (ofTrees trees).isEmpty = trees.isEmpty := by
  cases trees <;> rfl

theorem isEmpty_arrangeBelow (forest : Forest Node) :
    forest.arrangeBelow.isEmpty = forest.isEmpty := by
  cases forest <;> rfl

theorem isEmpty_arrange (forest : Forest Node) : forest.arrange.isEmpty = forest.isEmpty := by
  have perm := arrangeSiblings_perm forest.arrangeBelow.trees
  rw [arrange, arrangeTop, isEmpty_ofTrees, ← isEmpty_arrangeBelow]
  conv_rhs => rw [← ofTrees_trees forest.arrangeBelow, isEmpty_ofTrees]
  rw [Bool.eq_iff_iff, List.isEmpty_iff, List.isEmpty_iff]
  exact ⟨fun empty => List.nil_perm.mp (empty ▸ perm), fun empty => List.perm_nil.mp (empty ▸ perm)⟩

/-- A tree with what is below it arranged. -/
def arrangeTree (tree : Node × Forest Node) : Node × Forest Node := (tree.1, tree.2.arrange)

theorem trees_arrangeBelow (forest : Forest Node) :
    forest.arrangeBelow.trees = forest.trees.map arrangeTree := by
  induction forest with
  | nil => rfl
  | cons node below after _ afterHypothesis =>
    rw [arrangeBelow, trees, trees, List.map_cons, afterHypothesis]
    rfl

theorem arrangeBelow_arrangeTop (forest : Forest Node) :
    forest.arrangeTop.arrangeBelow = forest.arrangeBelow.arrangeTop := by
  have siblings := arrangeSiblings_map arrangeTree (fun _ => rfl)
    (fun tree => congrArg not (isEmpty_arrange tree.2)) forest.trees
  rw [arrangeTop, arrangeTop, trees_arrangeBelow, siblings,
    ← ofTrees_trees (ofTrees (arrangeSiblings forest.trees)).arrangeBelow, trees_arrangeBelow,
    trees_ofTrees]

theorem arrangeTop_arrangeTop (forest : Forest Node) :
    forest.arrangeTop.arrangeTop = forest.arrangeTop := by
  rw [arrangeTop, arrangeTop, trees_ofTrees, arrangeSiblings_arrangeSiblings]

theorem arrangeBelow_arrangeBelow (forest : Forest Node) :
    forest.arrangeBelow.arrangeBelow = forest.arrangeBelow := by
  induction forest with
  | nil => rfl
  | cons node below after belowHypothesis afterHypothesis =>
    rw [arrangeBelow, arrangeBelow, arrangeBelow_arrangeTop, arrangeTop_arrangeTop,
      belowHypothesis, afterHypothesis]

/-- A forest in drawing order stays as it is. -/
theorem arrange_arrange (forest : Forest Node) : forest.arrange.arrange = forest.arrange := by
  rw [arrange, arrange, arrangeBelow_arrangeTop, arrangeTop_arrangeTop, arrangeBelow_arrangeBelow]

end Forest

end OutlineDiagram
