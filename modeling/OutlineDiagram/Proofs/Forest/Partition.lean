/-
This file says exactly how siblings come into drawing order: the trees of each kind are
parted stably among the places of that kind. The arrangement reads no more of a tree than
its kind and whether something is below it, so it can be run on the places themselves, and
the list that comes out tells where each tree comes from. A pass over one kind puts the
places of that kind in order, and all that can be told of a place without telling two
places of that kind apart is the same after it. So neither pass disturbs the other.
-/

import Mathlib.Data.List.FinRange
import Mathlib.Data.List.NodupEquivFin
import OutlineDiagram.Proofs.Forest.Arranged

namespace OutlineDiagram

/-! ### One pass -/

section Lists

variable {α β : Type} {inClass preferred : α → Bool} {tell : α → β} {members : List α}

/-- What does not tell the members of a class apart is told by each place as before. -/
theorem map_preferWithin (alike : ∀ first second, inClass first = true → inClass second = true →
    tell first = tell second) :
    (preferWithin inClass preferred members).map tell = members.map tell :=
  map_refill tell (fun _ inside => inClass_of_mem_preferred inside) alike

/-- Putting preferred members first puts no other before a preferred one, and both groups keep
the order they had. -/
theorem pairwise_preferredFirst (inClass preferred : α → Bool) {before : α → α → Prop}
    (sorted : members.Pairwise before) :
    (preferredFirst inClass preferred members).Pairwise fun earlier later =>
      (preferred later = true → preferred earlier = true) ∧
        (preferred earlier = preferred later → before earlier later) := by
  have chosen : (members.filter inClass).Pairwise before := sorted.sublist List.filter_sublist
  refine List.pairwise_append.mpr ⟨?_, ?_, fun earlier isPreferred later isOther => ?_⟩
  · refine List.pairwise_filter.mpr (chosen.imp ?_)
    exact fun less isPreferred _ => ⟨fun _ => isPreferred, fun _ => less⟩
  · refine List.pairwise_filter.mpr (chosen.imp ?_)
    intro earlier later less _ isOther
    refine ⟨fun isPreferred => ?_, fun _ => less⟩
    simp [isPreferred] at isOther
  · have first : preferred earlier = true := (List.mem_filter.mp isPreferred).2
    have second : preferred later = false := by simpa using (List.mem_filter.mp isOther).2
    simp [first, second]

/-- A list of all places in some order is a permutation of the places. -/
theorem exists_ofFn_eq {count : Nat} {places : List (Fin count)}
    (perm : places.Perm (List.finRange count)) :
    ∃ origin : Equiv.Perm (Fin count), List.ofFn origin = places := by
  have length : count = places.length := by rw [perm.length_eq, List.length_finRange]
  have distinct : places.Nodup := perm.nodup_iff.mpr (List.nodup_finRange count)
  have complete : ∀ place, place ∈ places := fun place =>
    perm.mem_iff.mpr (List.mem_finRange place)
  refine ⟨(finCongr length).trans (distinct.getEquivOfForallMemList places complete), ?_⟩
  refine List.ext_getElem (by rw [List.length_ofFn, ← length]) fun place _ _ => ?_
  rw [List.getElem_ofFn]
  rfl

end Lists

namespace Forest

/-! ### Stable partitions -/

/-- The kind of the tree at a place. -/
def kindAt (trees : List (Node × Forest Node)) (place : Fin trees.length) : BulletKind :=
  (trees.get place).1.kind

/-- The tree at a place has something below its root. -/
def hasBelowAt (trees : List (Node × Forest Node)) (place : Fin trees.length) : Bool :=
  hasBelow (trees.get place)

/-- An order of trees, told by the place that the tree at each place comes from, that parts the
trees of each kind stably among the places of that kind. -/
structure IsStablePartition (trees : List (Node × Forest Node))
    (origin : Equiv.Perm (Fin trees.length)) : Prop where
  /-- Each place gets a tree of the kind that it held. -/
  kindAt_origin (place : Fin trees.length) : kindAt trees (origin place) = kindAt trees place
  /-- Steps of a process are exactly where they were. -/
  origin_of_flow (place : Fin trees.length) : kindAt trees place = .flow → origin place = place
  /-- Among ordinary nodes, and among those that start a chain, subgraphs come first. -/
  hasBelowAt_of_lt (earlier later : Fin trees.length) : earlier < later →
    kindAt trees (origin earlier) = kindAt trees (origin later) →
    kindAt trees (origin later) ≠ .flow →
    hasBelowAt trees (origin later) = true → hasBelowAt trees (origin earlier) = true
  /-- The subgraphs of one kind keep their order, and so do its leaves. -/
  origin_lt_of_lt (earlier later : Fin trees.length) : earlier < later →
    kindAt trees (origin earlier) = kindAt trees (origin later) →
    hasBelowAt trees (origin earlier) = hasBelowAt trees (origin later) →
    origin earlier < origin later

/-- A map of places that grows within each class leads to no earlier place. -/
theorem le_of_grows {Class : Type} {count : Nat} (classAt : Fin count → Class)
    {move : Fin count → Fin count} (keeps : ∀ place, classAt (move place) = classAt place)
    (grows : ∀ first second, first < second → classAt first = classAt second →
      move first < move second) (place : Fin count) : place ≤ move place := by
  induction place using WellFoundedLT.induction with
  | _ place inductionHypothesis =>
    by_contra back
    have less : move place < place := not_le.mp back
    exact absurd (grows _ _ less (keeps place)) (not_lt.mpr (inductionHypothesis _ less))

namespace IsStablePartition

variable {trees : List (Node × Forest Node)} {origin other : Equiv.Perm (Fin trees.length)}

/-- Steps have not moved, so each of them comes from where it is. -/
theorem symm_origin_of_flow (stable : IsStablePartition trees origin)
    (alsoStable : IsStablePartition trees other) {place : Fin trees.length}
    (isFlow : kindAt trees place = .flow) : other.symm (origin place) = place := by
  rw [stable.origin_of_flow place isFlow, Equiv.symm_apply_eq,
    alsoStable.origin_of_flow place isFlow]

/-- Two stable partitions draw the trees of one kind in the same order. -/
theorem symm_lt_symm (stable : IsStablePartition trees origin)
    (alsoStable : IsStablePartition trees other) {first second : Fin trees.length}
    (less : first < second) (sameKind : kindAt trees first = kindAt trees second) :
    other.symm (origin first) < other.symm (origin second) := by
  have kinds : kindAt trees (origin first) = kindAt trees (origin second) := by
    rw [stable.kindAt_origin, stable.kindAt_origin, sameKind]
  have apart : other.symm (origin first) ≠ other.symm (origin second) := fun same =>
    less.ne (origin.injective (other.symm.injective same))
  refine lt_of_le_of_ne (not_lt.mp fun swapped => ?_) apart
  have secondFirst := alsoStable.hasBelowAt_of_lt _ _ swapped
  have ordered := alsoStable.origin_lt_of_lt _ _ swapped
  rw [Equiv.apply_symm_apply, Equiv.apply_symm_apply] at secondFirst ordered
  by_cases isFlow : kindAt trees second = .flow
  · rw [stable.symm_origin_of_flow alsoStable isFlow,
      stable.symm_origin_of_flow alsoStable (sameKind.trans isFlow)] at swapped
    exact lt_asymm less swapped
  · -- Each of the two would have to be a subgraph if the other is, and then the numbers decide.
    have noFlow : kindAt trees (origin second) ≠ .flow := by rwa [stable.kindAt_origin]
    have sameBelow : hasBelowAt trees (origin first) = hasBelowAt trees (origin second) :=
      Bool.eq_iff_iff.mpr ⟨secondFirst kinds.symm (kinds ▸ noFlow),
        stable.hasBelowAt_of_lt _ _ less kinds noFlow⟩
    exact lt_asymm (stable.origin_lt_of_lt _ _ less kinds sameBelow)
      (ordered kinds.symm sameBelow.symm)

theorem le_symm_origin (stable : IsStablePartition trees origin)
    (alsoStable : IsStablePartition trees other) (place : Fin trees.length) :
    place ≤ other.symm (origin place) := by
  refine le_of_grows (kindAt trees) (fun place => ?_)
    (fun _ _ => stable.symm_lt_symm alsoStable) place
  rw [← alsoStable.kindAt_origin, Equiv.apply_symm_apply, stable.kindAt_origin]

/-- There is at most one stable partition of given trees. -/
theorem unique (stable : IsStablePartition trees origin)
    (alsoStable : IsStablePartition trees other) : other = origin := by
  refine Equiv.ext fun place => ?_
  have back := alsoStable.le_symm_origin stable (other.symm (origin place))
  rw [Equiv.apply_symm_apply, Equiv.symm_apply_apply] at back
  have same : place = other.symm (origin place) :=
    le_antisymm (stable.le_symm_origin alsoStable place) back
  exact (Equiv.eq_symm_apply other).mp same

end IsStablePartition

/-! ### Places in drawing order -/

/-- The places of trees in the order in which the trees are drawn. -/
def drawnPlaces (trees : List (Node × Forest Node)) : List (Fin trees.length) :=
  preferWithin (fun place => kindAt trees place == .flowBreak) (hasBelowAt trees)
    (preferWithin (fun place => kindAt trees place == .data) (hasBelowAt trees)
      (List.finRange trees.length))

variable (trees : List (Node × Forest Node))

theorem arrangeSiblings_eq_map : arrangeSiblings trees = (drawnPlaces trees).map trees.get := by
  have numbered : arrangeSiblings trees =
      arrangeSiblings ((List.finRange trees.length).map trees.get) := by
    rw [List.map_get_finRange]
  rw [numbered, arrangeSiblings, arrangeKind, arrangeKind, preferWithin_map, preferWithin_map]
  rfl

theorem drawnPlaces_perm : (drawnPlaces trees).Perm (List.finRange trees.length) :=
  (preferWithin_perm _ _ _).trans (preferWithin_perm _ _ _)

variable {trees}

/-- What tells neither ordinary nodes nor starts of chains apart is told by each place as before. -/
theorem map_drawnPlaces {β : Type} {tell : Fin trees.length → β}
    (alike : ∀ first second, kindAt trees first = kindAt trees second →
      kindAt trees second ≠ .flow → tell first = tell second) :
    (drawnPlaces trees).map tell = (List.finRange trees.length).map tell := by
  have withinKind : ∀ kind, kind ≠ .flow → ∀ first second,
      (kindAt trees first == kind) = true → (kindAt trees second == kind) = true →
        tell first = tell second := by
    intro kind noFlow first second isFirst isSecond
    rw [beq_iff_eq] at isFirst isSecond
    exact alike first second (isFirst.trans isSecond.symm) (isSecond ▸ noFlow)
  rw [drawnPlaces, map_preferWithin (withinKind .flowBreak (by decide)),
    map_preferWithin (withinKind .data (by decide))]

/-- Each pass orders the places of its own kind, and the other one leaves them as they are. -/
theorem filter_drawnPlaces {kind : BulletKind} (noFlow : kind ≠ .flow) :
    (drawnPlaces trees).filter (fun place => kindAt trees place == kind) =
      preferredFirst (fun place => kindAt trees place == kind) (hasBelowAt trees)
        (List.finRange trees.length) := by
  cases kind with
  | data =>
    rw [drawnPlaces, filter_preferWithin _ fun _ => beq_kind_eq_false (by decide),
      filter_preferWithin_self]
  | flow => exact absurd rfl noFlow
  | flowBreak =>
    rw [drawnPlaces, filter_preferWithin_self, preferredFirst,
      filter_preferWithin _ fun _ => beq_kind_eq_false (by decide), preferredFirst]

theorem pairwise_drawnPlaces {kind : BulletKind} (noFlow : kind ≠ .flow) :
    (drawnPlaces trees).Pairwise fun earlier later =>
      kindAt trees earlier = kind → kindAt trees later = kind →
        (hasBelowAt trees later = true → hasBelowAt trees earlier = true) ∧
          (hasBelowAt trees earlier = hasBelowAt trees later → earlier < later) := by
  have ordered := pairwise_preferredFirst (fun place => kindAt trees place == kind)
    (hasBelowAt trees) (List.sortedLT_finRange trees.length).pairwise
  rw [← filter_drawnPlaces noFlow, List.pairwise_filter] at ordered
  refine ordered.imp fun related isEarlier isLater => ?_
  exact related (beq_iff_eq.mpr isEarlier) (beq_iff_eq.mpr isLater)

/-- The places in drawing order are a stable partition. -/
theorem isStablePartition_of_ofFn_eq {origin : Equiv.Perm (Fin trees.length)}
    (drawn : List.ofFn origin = drawnPlaces trees) : IsStablePartition trees origin := by
  have told : ∀ {β : Type} (tell : Fin trees.length → β),
      (∀ first second, kindAt trees first = kindAt trees second →
        kindAt trees second ≠ .flow → tell first = tell second) →
      ∀ place, tell (origin place) = tell place := by
    intro β tell alike place
    have same := map_drawnPlaces alike
    rw [← drawn, List.map_ofFn, ← List.ofFn_eq_map] at same
    exact congrFun (List.ofFn_injective same) place
  have kinds : ∀ place, kindAt trees (origin place) = kindAt trees place :=
    told (kindAt trees) fun _ _ same _ => same
  have stays : ∀ place, kindAt trees place = .flow → origin place = place := by
    intro place isFlow
    have same := told (fun place => if kindAt trees place = .flow then some place else none)
      (fun first second sameKind noFlow => by rw [sameKind, if_neg noFlow, if_neg noFlow]) place
    rw [kinds, if_pos isFlow, if_pos isFlow] at same
    exact Option.some.inj same
  have ordered := fun {kind : BulletKind} (noFlow : kind ≠ .flow) =>
    List.pairwise_ofFn.mp (drawn ▸ pairwise_drawnPlaces noFlow)
  refine ⟨kinds, stays, fun earlier later less sameKind noFlow => ?_,
    fun earlier later less sameKind => ?_⟩
  · exact (ordered noFlow less sameKind rfl).1
  · by_cases isFlow : kindAt trees (origin later) = .flow
    · have laterFlow := (kinds later).symm.trans isFlow
      have earlierFlow := (kinds earlier).symm.trans (sameKind.trans isFlow)
      rw [stays earlier earlierFlow, stays later laterFlow]
      exact fun _ => less
    · exact (ordered isFlow less sameKind rfl).2

/-- Drawing order parts the siblings of each kind stably among the places of that kind, in the
only way there is, and siblings in drawing order stay as they are. -/
theorem isStablePartition_arrangeTop (siblings : Forest Node) :
    (∃ origin, IsStablePartition siblings.trees origin ∧
      (∀ other, IsStablePartition siblings.trees other → other = origin) ∧
      siblings.arrangeTop.trees = List.ofFn fun place => siblings.trees.get (origin place)) ∧
    siblings.arrangeTop.arrangeTop = siblings.arrangeTop := by
  refine ⟨?_, arrangeTop_arrangeTop siblings⟩
  obtain ⟨origin, drawn⟩ := exists_ofFn_eq (drawnPlaces_perm siblings.trees)
  have stable := isStablePartition_of_ofFn_eq drawn
  refine ⟨origin, stable, fun other alsoStable => stable.unique alsoStable, ?_⟩
  rw [arrangeTop, trees_ofTrees, arrangeSiblings_eq_map, ← drawn, List.map_ofFn]
  rfl

/-- The step `f` stays. The subgraphs `S` and `U` take the first two places of ordinary nodes and
the leaves `a` and `c` the last two, and the starts of chains `b` and `T` change places. -/
example :
    let leaf (id : String) (kind : BulletKind) : Node × Forest Node := ({ id, kind }, .nil)
    let subgraph (id : String) (kind : BulletKind) : Node × Forest Node :=
      ({ id, kind }, .cons {} .nil .nil)
    let siblings := ofTrees [leaf "a" .data, leaf "f" .flow, subgraph "S" .data,
      leaf "b" .flowBreak, subgraph "T" .flowBreak, leaf "c" .data, subgraph "U" .data]
    siblings.arrangeTop.roots.map Node.id = ["S", "f", "U", "T", "b", "a", "c"] := by
  decide

end Forest

end OutlineDiagram
