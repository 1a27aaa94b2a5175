/-
This file says when the normal form of a link graph is its own normal form. Merging
never finds anything to do in it: an edge whose opposite is listed too is half of a
pair by then, and the other half is not drawn. But merging gives edges of two kinds
one kind, after repeats were dropped. So the second time drops what the merge has
made the same, and from then on nothing changes.
-/

import OutlineDiagram.Proofs.Links.Clean
import OutlineDiagram.Proofs.Links.Drawn

namespace OutlineDiagram

/-! ### Lists without repeats -/

section Unique

variable {α : Type} {same : α → α → Bool}

theorem uniqueBy_sublist (members : List α) : (uniqueBy same members).Sublist members := by
  induction members with
  | nil => exact List.Sublist.slnil
  | cons first rest inductionHypothesis =>
    rw [uniqueBy]
    exact (List.filter_sublist.trans inductionHypothesis).cons_cons first

/-- A list in which no member is the same as an earlier one stays as it is. -/
theorem uniqueBy_eq_self_iff {members : List α} :
    uniqueBy same members = members ↔
      members.Pairwise fun earlier later => same later earlier = false := by
  refine ⟨fun unchanged => unchanged ▸ pairwise_uniqueBy members, fun apart => ?_⟩
  induction apart with
  | nil => rfl
  | cons fresh _ inductionHypothesis =>
    rw [uniqueBy, inductionHypothesis, List.filter_eq_self.mpr]
    exact fun member inside => by rw [fresh member inside, Bool.not_false]

end Unique

theorem Edge.sameAs_comm (first second : Edge) : first.sameAs second = second.sameAs first := by
  rw [Bool.eq_iff_iff, sameAs_iff, sameAs_iff]
  exact ⟨fun same => ⟨same.1.symm, same.2.1.symm, same.2.2.symm⟩,
    fun same => ⟨same.1.symm, same.2.1.symm, same.2.2.symm⟩⟩

theorem uniqueBy_sameAs_eq_self_iff {edges : List Edge} :
    uniqueBy Edge.sameAs edges = edges ↔ NoRepeats edges := by
  simp only [uniqueBy_eq_self_iff, NoRepeats, Edge.sameAs_comm]

theorem noRepeats_uniqueBy (edges : List Edge) : NoRepeats (uniqueBy Edge.sameAs edges) :=
  uniqueBy_sameAs_eq_self_iff.mp (uniqueBy_eq_self_iff.mpr (pairwise_uniqueBy edges))

namespace NodeLinks

theorem withoutRepeats_eq_self_iff {own : NodeLinks} :
    own.withoutRepeats = own ↔ NoRepeats own.outputs ∧ NoRepeats own.inputs := by
  obtain ⟨outputs, inputs⟩ := own
  rw [withoutRepeats, NodeLinks.mk.injEq, uniqueBy_sameAs_eq_self_iff, uniqueBy_sameAs_eq_self_iff]

theorem size_withoutRepeats_le (own : NodeLinks) : own.withoutRepeats.size ≤ own.size :=
  Nat.add_le_add (uniqueBy_sublist own.outputs).length_le (uniqueBy_sublist own.inputs).length_le

/-- Where dropping repeats leaves as many edges, it leaves the lists as they are. -/
theorem withoutRepeats_eq_self_of_size_le {own : NodeLinks}
    (enough : own.size ≤ own.withoutRepeats.size) : own.withoutRepeats = own := by
  obtain ⟨outputs, inputs⟩ := own
  have outputsKept : (uniqueBy Edge.sameAs outputs).Sublist outputs := uniqueBy_sublist outputs
  have inputsKept : (uniqueBy Edge.sameAs inputs).Sublist inputs := uniqueBy_sublist inputs
  have counted : outputs.length + inputs.length ≤
      (uniqueBy Edge.sameAs outputs).length + (uniqueBy Edge.sameAs inputs).length := enough
  have fewerOutputs := outputsKept.length_le
  have fewerInputs := inputsKept.length_le
  rw [withoutRepeats, outputsKept.eq_of_length (by omega), inputsKept.eq_of_length (by omega)]

end NodeLinks

namespace LinkGraph

variable {links : LinkGraph} {added given : List Edge}

theorem withoutRepeats_eq_self_iff :
    links.withoutRepeats = links ↔
      ∀ entry ∈ links.entries, NoRepeats entry.2.outputs ∧ NoRepeats entry.2.inputs := by
  obtain ⟨entries⟩ := links
  have asBefore : entries = entries.map id := (List.map_id entries).symm
  rw [withoutRepeats, LinkGraph.mk.injEq]
  nth_rewrite 2 [asBefore]
  rw [List.map_inj_left]
  exact forall₂_congr fun entry _ =>
    Prod.ext_iff.trans ((and_iff_right rfl).trans NodeLinks.withoutRepeats_eq_self_iff)

/-- Dropping repeats a second time drops nothing. -/
theorem withoutRepeats_withoutRepeats (links : LinkGraph) :
    links.withoutRepeats.withoutRepeats = links.withoutRepeats :=
  withoutRepeats_eq_self_iff.mpr (List.forall_mem_map.mpr fun entry _ =>
    ⟨noRepeats_uniqueBy entry.2.outputs, noRepeats_uniqueBy entry.2.inputs⟩)

theorem listedSize_withoutRepeats_le (links : LinkGraph) :
    links.withoutRepeats.listedSize ≤ links.listedSize := by
  obtain ⟨entries⟩ := links
  induction entries with
  | nil => exact Nat.le_refl 0
  | cons entry rest inductionHypothesis =>
    exact Nat.add_le_add entry.2.size_withoutRepeats_le inductionHypothesis

/-- No listed edge counts as a repeat exactly where dropping repeats changes nothing. -/
theorem repeats_eq_zero_iff : links.repeats = 0 ↔ links.withoutRepeats = links := by
  refine ⟨fun none => ?_, fun unchanged => by rw [repeats, unchanged, Nat.sub_self]⟩
  have enough : links.listedSize ≤ links.withoutRepeats.listedSize := Nat.sub_eq_zero_iff_le.mp none
  clear none
  obtain ⟨entries⟩ := links
  induction entries with
  | nil => rfl
  | cons entry rest inductionHypothesis =>
    have counted : entry.2.size + (LinkGraph.mk rest).listedSize ≤
        entry.2.withoutRepeats.size + (LinkGraph.mk rest).withoutRepeats.listedSize := enough
    have fewerHere := entry.2.size_withoutRepeats_le
    have fewerLater := listedSize_withoutRepeats_le ⟨rest⟩
    have here : entry.2.withoutRepeats = entry.2 :=
      NodeLinks.withoutRepeats_eq_self_of_size_le (by omega)
    have later := LinkGraph.mk.inj (inductionHypothesis (by omega))
    rw [withoutRepeats, List.map_cons, here, later]

/-! ### Merged graphs -/

/-- Merging has nothing to do. Where an id lists an edge that is drawn and its opposite, they are a
pair, and of a pair that is drawn the half that leaves the other id is not. -/
structure IsMerged (links : LinkGraph) : Prop where
  /-- Each id has one entry. -/
  nodup : links.nodeIds.Nodup
  /-- An edge that is drawn and reaches its own source as well is a half of a pair. -/
  isPair : ∀ id, ∀ edge ∈ links.outputs id, edge.mustRender = true → ∀ facing ∈ links.inputs id,
    edge.sameAs facing = true → edge.kind = .bilink
  /-- Only one half of a pair is drawn. -/
  isHidden : ∀ id, ∀ edge ∈ links.outputs id, edge.mustRender = true → edge.kind = .bilink →
    ∀ back ∈ links.outputs edge.destination, back.destination = id → back.kind = .bilink →
      back.mustRender = false

theorem modify_eq_self (distinct : links.nodeIds.Nodup) {id : String}
    {change : NodeLinks → NodeLinks} (unchanged : change (links.linksOf id) = links.linksOf id) :
    links.modify id change = links := by
  have asBefore : ∀ entry ∈ links.entries,
      (if entry.1 == id then (entry.1, change entry.2) else entry) = entry := by
    intro entry member
    by_cases isId : (entry.1 == id) = true
    · rw [if_pos isId]
      rw [← eq_of_beq isId, linksOf_of_mem distinct member] at unchanged
      rw [unchanged]
    · rw [if_neg isId]
  rw [modify, List.map_congr_left asBefore, List.map_id']

theorem asBilink_eq_self {edge : Edge} (isBilink : edge.kind = .bilink) : asBilink edge = edge := by
  rw [asBilink, ← isBilink]

/-- Making a listed half of a pair one again changes nothing. -/
theorem modify_asBilink_eq_self {edges : List Edge} {position : Nat}
    (isBilink : ∀ edge, edges[position]? = some edge → edge.kind = .bilink) :
    edges.modify position asBilink = edges := by
  refine List.ext_getElem? fun index => ?_
  rw [List.getElem?_modify]
  cases here : edges[index]? with
  | none => rfl
  | some edge =>
    show some (if position = index then asBilink edge else edge) = some edge
    by_cases isPosition : position = index
    · rw [if_pos isPosition, asBilink_eq_self (isBilink edge (isPosition ▸ here))]
    · rw [if_neg isPosition]

/-- Closing a pair again changes nothing where its other half is not drawn. -/
theorem closePair_eq_self {id : String} {far : NodeLinks}
    (isHidden : ∀ back ∈ far.outputs, back.destination = id → back.kind = .bilink →
      back.mustRender = false) : closePair id .bilink far = far := by
  refine congrArg₂ NodeLinks.mk ?_ ?_
  · refine (List.map_congr_left fun edge member => ?_).trans (List.map_id _)
    by_cases leadsBack : (edge.destination == id && edge.kind == .bilink) = true
    · rw [if_pos leadsBack]
      rw [Bool.and_eq_true, beq_iff_eq, beq_iff_eq] at leadsBack
      rw [← isHidden edge member leadsBack.1 leadsBack.2, ← leadsBack.2]
      rfl
    · rw [if_neg leadsBack]
      rfl
  · refine (List.map_congr_left fun edge _ => ?_).trans (List.map_id _)
    by_cases leadsBack : (edge.destination == id && edge.kind == .bilink) = true
    · rw [if_pos leadsBack]
      rw [Bool.and_eq_true, beq_iff_eq, beq_iff_eq] at leadsBack
      exact asBilink_eq_self leadsBack.2
    · rw [if_neg leadsBack]
      rfl

namespace IsMerged

/-- A visit to an edge changes nothing, and counts no pair. -/
theorem mergeAt (isMerged : links.IsMerged) (id : String) (count position : Nat) :
    mergeAt id (links, count) position = (links, count) := by
  cases here : (links.outputs id)[position]? with
  | none => simp [LinkGraph.mergeAt, here]
  | some edge =>
    have listed := List.mem_of_getElem? here
    cases drawn : edge.mustRender with
    | false => exact mergeAt_of_not_drawn here drawn
    | true =>
      cases place : (links.inputs id).findIdx? edge.sameAs with
      | none => exact mergeAt_of_alone here place
      | some facing =>
        obtain ⟨bound, same, -⟩ := List.findIdx?_eq_some_iff_getElem.mp place
        have isBilink := isMerged.isPair id edge listed drawn _ (List.getElem_mem bound) same
        have opened : links.modify id (fun own =>
            { outputs := own.outputs.modify position asBilink
              inputs := own.inputs.modify facing asBilink }) = links := by
          refine modify_eq_self isMerged.nodup (congrArg₂ NodeLinks.mk ?_ ?_)
          · refine modify_asBilink_eq_self fun other found => ?_
            rw [Option.some.inj (found.symm.trans here)]
            exact isBilink
          · refine modify_asBilink_eq_self fun other found => ?_
            have isFacing := Option.some.inj (found.symm.trans (List.getElem?_eq_getElem bound))
            rw [isFacing, ← (Edge.sameAs_iff.mp same).2.2]
            exact isBilink
        have closed : links.modify edge.destination (closePair id edge.kind) = links := by
          refine modify_eq_self isMerged.nodup ?_
          rw [isBilink]
          exact closePair_eq_self (isMerged.isHidden id edge listed drawn isBilink)
        simp only [LinkGraph.mergeAt, here, drawn, place, Bool.not_true, Bool.false_eq_true,
          if_false]
        rw [opened, closed, if_pos isBilink]

/-- Merging changes nothing, and counts no pair. -/
theorem merged_eq (isMerged : links.IsMerged) : links.merged = (links, 0) := by
  have visited : ∀ id, mergeFrom (links, 0) id = (links, 0) := fun id =>
    List.foldl_fixed' (fun position => isMerged.mergeAt id 0 position) _
  exact List.foldl_fixed' visited links.nodeIds

/-- Dropping repeats leaves nothing to merge. -/
theorem withoutRepeats (isMerged : links.IsMerged) : links.withoutRepeats.IsMerged := by
  have listed : ∀ id, links.withoutRepeats.linksOf id = (links.linksOf id).withoutRepeats :=
    linksOf_mapLinks rfl links
  have leaving : ∀ id, ∀ edge ∈ links.withoutRepeats.outputs id, edge ∈ links.outputs id := by
    intro id edge member
    rw [outputs, listed] at member
    exact mem_of_mem_uniqueBy member
  have reaching : ∀ id, ∀ edge ∈ links.withoutRepeats.inputs id, edge ∈ links.inputs id := by
    intro id edge member
    rw [inputs, listed] at member
    exact mem_of_mem_uniqueBy member
  refine ⟨?_, fun id edge member drawn facing faces same => ?_,
    fun id edge member drawn isBilink back leaves => ?_⟩
  · exact (nodeIds_mapLinks NodeLinks.withoutRepeats links).symm ▸ isMerged.nodup
  · exact isMerged.isPair id edge (leaving id edge member) drawn facing (reaching id facing faces)
      same
  · exact isMerged.isHidden id edge (leaving id edge member) drawn isBilink back
      (leaving _ back leaves)

end IsMerged

/-! ### The normal form -/

/-- In the normal form an edge that is drawn is listed with its opposite only if they are a pair. -/
theorem kind_of_sameAs_farEdge (unmerged : Unmerged added) (ids : List String) {edge far : Edge}
    (inside : edge ∈ added) (farInside : far ∈ added)
    (same : (normalEdge added ids edge).sameAs (farEdge added ids far) = true) :
    (normalEdge added ids edge).kind = .bilink := by
  by_contra single
  have alone : edge.flip ∉ added := mt (unmerged.kind_normalEdge_iff ids inside).mpr single
  have farAlone : far.flip ∉ added := by
    intro present
    have farBilink := (unmerged.kind_normalEdge_iff ids farInside).mpr present
    exact single ((Edge.sameAs_iff.mp same).2.2.trans farBilink)
  -- Neither edge has an opposite, yet each is the opposite of the other.
  rw [normalEdge_of_not_mem alone, farEdge, normalEdge_of_not_mem farAlone] at same
  have isFlip : edge = far.flip :=
    Edge.eq_of_sameAs same (unmerged.drawn edge inside) (unmerged.drawn far farInside)
  rw [isFlip, Edge.flip_flip] at alone
  exact alone farInside

/-- Of two opposite edges in the normal form the one that leaves the id listed later is not drawn. -/
theorem mustRender_normalEdge_of_opposite {ids : List String} {edge back : Edge}
    (opposite : edge.flip ∈ added) (backOpposite : back.flip ∈ added)
    (leaves : back.source = edge.destination) (leadsBack : back.destination = edge.source)
    (drawn : (normalEdge added ids edge).mustRender = true) :
    (normalEdge added ids back).mustRender = false := by
  rw [normalEdge_of_mem opposite] at drawn
  rw [normalEdge_of_mem backOpposite, leaves, leadsBack, decide_eq_false_iff_not]
  exact Nat.lt_asymm (of_decide_eq_true drawn)

/-- In the normal form there is nothing to merge. -/
theorem isMerged_normalize (holds : links.Holds added) (unmerged : Unmerged added) :
    links.normalize.IsMerged := by
  refine ⟨?_, fun id edge member drawn facing faces same => ?_,
    fun id edge member drawn isBilink back leaves leadsBack backBilink => ?_⟩
  · rw [nodeIds_normalize holds unmerged]
    exact holds.nodup
  · obtain ⟨origin, inside, -, rfl⟩ := (mem_outputs_normalize_iff holds unmerged).mp member
    obtain ⟨far, farInside, -, rfl⟩ := (mem_inputs_normalize_iff holds unmerged).mp faces
    exact kind_of_sameAs_farEdge unmerged links.nodeIds inside farInside same
  · obtain ⟨origin, inside, rfl, rfl⟩ := (mem_outputs_normalize_iff holds unmerged).mp member
    obtain ⟨far, farInside, farLeaves, rfl⟩ := (mem_outputs_normalize_iff holds unmerged).mp leaves
    rw [destination_normalEdge] at farLeaves leadsBack
    exact mustRender_normalEdge_of_opposite
      ((unmerged.kind_normalEdge_iff links.nodeIds inside).mp isBilink)
      ((unmerged.kind_normalEdge_iff links.nodeIds farInside).mp backBilink) farLeaves leadsBack
      drawn

/-- The normal form, brought into normal form, only loses its repeats. -/
theorem normalize_normalize (holds : links.Holds added) (unmerged : Unmerged added) :
    links.normalize.normalize = links.normalize.withoutRepeats := by
  have isMerged := (isMerged_normalize holds unmerged).withoutRepeats
  exact congrArg Prod.fst isMerged.merged_eq

/-- The normal form holds no repeats exactly where no two ids are joined both ways by edges of two
kinds. -/
theorem withoutRepeats_normalize_eq_self_iff (holds : links.Holds added)
    (unmerged : Unmerged added) :
    links.normalize.withoutRepeats = links.normalize ↔ OneKindBothWays added := by
  rw [withoutRepeats_eq_self_iff, normalize,
    noRepeats_merged_iff (holds.withoutRepeats unmerged.drawn) unmerged.plain]
  exact OneKindBothWays.congr fun _ => unmerged.mem_uniqueBy_iff

/-- Bringing the normal form of a graph into normal form only drops repeats, which is the last change.
So it changes nothing, and finds no repeats, exactly where no two ids are joined both ways by edges
of two kinds. -/
theorem normalize_normalize_eq_self_iff (noLoop : ∀ edge ∈ given, edge.source ≠ edge.destination)
    (notBilink : ∀ edge ∈ given, edge.kind ≠ .bilink) :
    (addEdges {} given).normalize.normalize = (addEdges {} given).normalize.withoutRepeats ∧
      (addEdges {} given).normalize.normalize.normalize =
        (addEdges {} given).normalize.normalize ∧
      ((addEdges {} given).normalize.normalize = (addEdges {} given).normalize ↔
        OneKindBothWays (addEdges {} given).edges) ∧
      ((addEdges {} given).normalize.repeats = 0 ↔ OneKindBothWays (addEdges {} given).edges) := by
  have unmerged := unmerged_kept noLoop notBilink
  have holds := holds_addEdges given
  have dropsOnly := normalize_normalize holds unmerged
  have isMerged := (isMerged_normalize holds unmerged).withoutRepeats
  have unchanged := (withoutRepeats_normalize_eq_self_iff holds unmerged).trans
    (OneKindBothWays.congr fun _ => holds.edges_perm.mem_iff.symm)
  refine ⟨dropsOnly, ?_, dropsOnly ▸ unchanged, repeats_eq_zero_iff.trans unchanged⟩
  rw [dropsOnly, normalize, withoutRepeats_withoutRepeats, isMerged.merged_eq]

/-- Edges of one kind lead both ways between two ids, one of them twice, and edges of the other kinds
one way only. -/
theorem normalize_normalize_eq_self_of_one :
    let given : List Edge :=
      [⟨"a", "b", .link, true⟩, ⟨"b", "a", .link, true⟩, ⟨"a", "b", .link, true⟩,
        ⟨"a", "b", .flow, true⟩, ⟨"b", "a", .hierarchy, true⟩]
    let links := (addEdges {} given).normalize
    (∀ edge ∈ given, edge.source ≠ edge.destination) ∧ (∀ edge ∈ given, edge.kind ≠ .bilink) ∧
      OneKindBothWays (addEdges {} given).edges ∧ links.normalize = links ∧ links.repeats = 0 := by
  intro given links
  have noLoop : ∀ edge ∈ given, edge.source ≠ edge.destination := by decide
  have notBilink : ∀ edge ∈ given, edge.kind ≠ .bilink := by decide
  have oneKind : OneKindBothWays (addEdges {} given).edges := by decide +kernel
  obtain ⟨-, -, fixed, none⟩ := normalize_normalize_eq_self_iff noLoop notBilink
  exact ⟨noLoop, notBilink, oneKind, fixed.mpr oneKind, none.mpr oneKind⟩

/-- Edges of two kinds lead both ways between two ids, and each of both kinds becomes the same
pair. -/
theorem normalize_normalize_ne_self_of_two :
    let given : List Edge :=
      [⟨"a", "b", .flow, true⟩, ⟨"b", "a", .flow, true⟩, ⟨"a", "b", .link, true⟩,
        ⟨"b", "a", .link, true⟩]
    let links := (addEdges {} given).normalize
    (∀ edge ∈ given, edge.source ≠ edge.destination) ∧ (∀ edge ∈ given, edge.kind ≠ .bilink) ∧
      links.normalize ≠ links ∧ links.repeats = 4 := by
  decide +kernel

end LinkGraph

end OutlineDiagram
