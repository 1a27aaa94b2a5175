/-
This file gives each value of a forest the site where it stands: right below which
value, after which trees beside its own, and above which forest. A walk in pre-order
meets the sites in the order of their values, and it meets the roots of the trees
before a value in sites with the same parent.
-/

import OutlineDiagram.Forest.Basic

namespace OutlineDiagram.Forest

variable {α : Type}

/-- A value of a forest with what is around it. -/
structure Site (α : Type) where
  /-- The value right above it, unless it is on top. -/
  parent? : Option α
  /-- The trees beside its own that come before it, in order. -/
  earlier : List (α × Forest α)
  /-- The value. -/
  value : α
  /-- What is below it. -/
  below : Forest α

/-- The sites of the values of a forest, given what is above all of them and the trees before them
that are beside them. -/
def sitesFrom : Option α → List (α × Forest α) → Forest α → List (Site α)
  | _, _, nil => []
  | parent?, earlier, cons value below after =>
    ⟨parent?, earlier, value, below⟩ ::
      (sitesFrom (some value) [] below ++ sitesFrom parent? (earlier ++ [(value, below)]) after)

/-- The sites of the values of a forest in pre-order. -/
def sites (forest : Forest α) : List (Site α) := forest.sitesFrom none []

theorem map_value_sitesFrom (parent? : Option α) (earlier : List (α × Forest α))
    (forest : Forest α) : (forest.sitesFrom parent? earlier).map Site.value = forest.toList := by
  induction forest generalizing parent? earlier with
  | nil => rfl
  | cons value below after belowHypothesis afterHypothesis =>
    rw [sitesFrom, List.map_cons, List.map_append, belowHypothesis, afterHypothesis, toList]

theorem map_value_sites (forest : Forest α) : forest.sites.map Site.value = forest.toList :=
  map_value_sitesFrom none [] forest

/-- The root of a tree before a value has a site with the same parent, unless the tree is one of
those that were given. -/
theorem mem_sitesFrom_of_earlier {parent? : Option α} {earlier : List (α × Forest α)}
    {forest : Forest α} {site : Site α} (member : site ∈ forest.sitesFrom parent? earlier)
    {front : List (α × Forest α)} {tree : α × Forest α}
    (before : front ++ [tree] <+: site.earlier) :
    ⟨site.parent?, front, tree.1, tree.2⟩ ∈ forest.sitesFrom parent? earlier ∨
      site.parent? = parent? ∧ front ++ [tree] <+: earlier := by
  induction forest generalizing parent? earlier with
  | nil => exact absurd member List.not_mem_nil
  | cons value below after belowHypothesis afterHypothesis =>
    rw [sitesFrom] at member ⊢
    rcases List.mem_cons.mp member with rfl | member
    · exact Or.inr ⟨rfl, before⟩
    · rcases List.mem_append.mp member with inBelow | inAfter
      · rcases belowHypothesis inBelow with found | ⟨-, none⟩
        · exact Or.inl (List.mem_cons_of_mem _ (List.mem_append_left _ found))
        · exact absurd (List.prefix_nil.mp none) (by simp)
      · rcases afterHypothesis inAfter with found | ⟨sameParent, among⟩
        · exact Or.inl (List.mem_cons_of_mem _ (List.mem_append_right _ found))
        · rcases List.prefix_concat_iff.mp among with isHere | among
          · obtain ⟨rfl, sameTree⟩ := List.append_inj' isHere rfl
            rw [List.singleton_inj.mp sameTree, sameParent]
            exact Or.inl List.mem_cons_self
          · exact Or.inr ⟨sameParent, among⟩

/-- The root of a tree before a value has a site with the same parent. -/
theorem mem_sites_of_earlier {forest : Forest α} {site : Site α} (member : site ∈ forest.sites)
    {front : List (α × Forest α)} {tree : α × Forest α}
    (before : front ++ [tree] <+: site.earlier) :
    ⟨site.parent?, front, tree.1, tree.2⟩ ∈ forest.sites := by
  rcases mem_sitesFrom_of_earlier member before with found | ⟨-, none⟩
  · exact found
  · exact absurd (List.prefix_nil.mp none) (by simp)

end OutlineDiagram.Forest
