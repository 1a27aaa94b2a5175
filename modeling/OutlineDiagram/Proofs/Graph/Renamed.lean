/-
This file proves that the graph of an outline follows the names of its bullets.
Where bullets get other ids and keep all but their links, the nodes and the marked
ids are the old ones under their new names. The edges are those of the links that
the bullets then have, so links that get the new names as well become the old edges
under their new names.
-/

import OutlineDiagram.Proofs.Graph.Redrawn
import OutlineDiagram.Proofs.Links.Edges

namespace OutlineDiagram

/-! ### New names -/

/-- The line without its id and its links. -/
def Line.withoutIds (line : Line) : Line :=
  { line with explicitId := none, idsIn := [], idsOut := [] }

/-- Lines that agree without ids and links differ in these alone. -/
theorem Line.eq_of_withoutIds {later first : Line} (frame : later.withoutIds = first.withoutIds) :
    later = { first with
      explicitId := later.explicitId, idsIn := later.idsIn, idsOut := later.idsOut } :=
  calc later
    _ = { later.withoutIds with
          explicitId := later.explicitId, idsIn := later.idsIn, idsOut := later.idsOut } := rfl
    _ = { first.withoutIds with
          explicitId := later.explicitId, idsIn := later.idsIn, idsOut := later.idsOut } := by
      rw [frame]
    _ = _ := rfl

/-- The node under its new name. -/
def Node.renamed (rename : String → String) (node : Node) : Node :=
  { node with id := rename node.id }

/-- The edge between the new names of its ends. -/
def Edge.renamed (rename : String → String) (edge : Edge) : Edge :=
  { edge with source := rename edge.source, destination := rename edge.destination }

/-- One graph is another under new names, and has given edges. -/
structure Graph.RenamedFrom (later first : Graph) (rename : String → String)
    (edges : List Edge) : Prop where
  /-- The nodes are the same in the same places, under their new names. -/
  forest : later.forest = first.forest.map (Node.renamed rename)
  /-- The edges are the given ones, in any order. -/
  edges : later.links.edges.Perm edges
  /-- The same bullets are folded. -/
  foldIds : later.foldIds.toList = first.foldIds.toList.map rename
  /-- The same bullets are hidden. -/
  hideIds : later.hideIds.toList = first.hideIds.toList.map rename
  /-- The same ids are declared more than once. -/
  duplicateIds : later.duplicateIds = first.duplicateIds

/-- One graph is another under new names, with more edges. -/
def Graph.GrownFrom (later first : Graph) (rename : String → String) (more : List Edge) : Prop :=
  later.RenamedFrom first rename (first.links.edges.map (Edge.renamed rename) ++ more)

/-- New names can be given one after the other. -/
theorem Graph.GrownFrom.trans {last later first : Graph} {rename further : String → String}
    {more : List Edge} (second : last.GrownFrom later further more)
    (start : later.GrownFrom first rename []) :
    last.GrownFrom first (further ∘ rename) more where
  forest := by
    rw [second.forest, start.forest, Forest.map_map]
    rfl
  edges := by
    have moved := start.edges.map (Edge.renamed further)
    rw [List.append_nil, List.map_map] at moved
    exact second.edges.trans (moved.append_right more)
  foldIds := by rw [second.foldIds, start.foldIds, List.map_map]
  hideIds := by rw [second.hideIds, start.hideIds, List.map_map]
  duplicateIds := second.duplicateIds.trans start.duplicateIds

/-! ### Ids that are told apart -/

namespace IdSet

theorem toList_foldl_insert {start : IdSet} {ids : List String}
    (distinct : (start.toList ++ ids).Nodup) :
    (ids.foldl insert start).toList = start.toList ++ ids := by
  induction ids generalizing start with
  | nil => rw [List.foldl_nil, List.append_nil]
  | cons id rest inductionHypothesis =>
    have fresh : id ∉ start.toList := fun member =>
      List.disjoint_of_nodup_append distinct member List.mem_cons_self
    have added : (start.insert id).toList = start.toList ++ [id] := by rw [insert, dif_neg fresh]
    have further : ((start.insert id).toList ++ rest).Nodup := by
      rwa [added, List.append_assoc, List.singleton_append]
    rw [List.foldl_cons, inductionHypothesis further, added, List.append_assoc,
      List.singleton_append]

/-- Distinct ids are listed as they came. -/
theorem toList_ofList {ids : List String} (distinct : ids.Nodup) : (ofList ids).toList = ids :=
  toList_foldl_insert distinct

end IdSet

theorem Line.id_of_ownId? {line : Line} {id : String} (own : line.ownId? = some id) :
    line.id = id := by rw [Line.id, own, Option.getD_some]

theorem redeclarations_eq_nil_of_fresh {declared : List String} {bullets : List Line}
    (distinct : (bullets.map Line.id).Nodup) (fresh : ∀ bullet ∈ bullets, bullet.id ∉ declared) :
    redeclarations declared bullets = [] := by
  induction bullets generalizing declared with
  | nil => rfl
  | cons bullet rest inductionHypothesis =>
    obtain ⟨notInRest, restDistinct⟩ := List.nodup_cons.mp distinct
    obtain ⟨isFresh, restFresh⟩ := List.forall_mem_cons.mp fresh
    rw [redeclarations]
    cases own : bullet.ownId? with
    | none => exact inductionHypothesis restDistinct restFresh
    | some id =>
      rw [Line.id_of_ownId? own] at isFresh notInRest
      have absent : ¬declared.contains id = true := fun found =>
        isFresh (List.contains_iff_mem.mp found)
      dsimp only
      rw [if_neg absent]
      refine inductionHypothesis restDistinct fun other member declares => ?_
      rcases List.mem_cons.mp declares with same | again
      · exact notInRest (same ▸ List.mem_map_of_mem member)
      · exact restFresh other member again

/-- Where no two bullets share an id, none is declared again. -/
theorem redeclarations_eq_nil {bullets : List Line} (distinct : (bullets.map Line.id).Nodup) :
    redeclarations [] bullets = [] :=
  redeclarations_eq_nil_of_fresh distinct fun _ _ => List.not_mem_nil

/-! ### Links under new names -/

namespace LinkGraph

variable {rename : String → String} (keepsEmpty : ∀ id, rename id = "" ↔ id = "")

include keepsEmpty

/-- New names are empty where the old ones are, so the same edges are added. -/
theorem kept_map_renamed (edges : List Edge) :
    kept (edges.map (Edge.renamed rename)) = (kept edges).map (Edge.renamed rename) := by
  have sameEnds : ((fun edge : Edge => edge.source != "" && edge.destination != "") ∘
      Edge.renamed rename) = fun edge => edge.source != "" && edge.destination != "" := by
    funext edge
    have named : ∀ id, (rename id != "") = (id != "") := fun id =>
      Bool.eq_iff_iff.mpr (by simp [keepsEmpty id])
    rw [Function.comp_apply, Edge.renamed, named, named]
  rw [kept, kept, List.filter_map, sameEnds, List.map_map, List.map_map]
  rfl

end LinkGraph

/-- A choice of edges by their ends can be made before they are added. -/
theorem LinkGraph.kept_filter (stays : String → Bool) (edges : List Edge) :
    kept (edges.filter fun edge => stays edge.source && stays edge.destination) =
      (kept edges).filter fun edge => stays edge.source && stays edge.destination := by
  rw [kept, kept, List.filter_map, List.filter_filter, List.filter_filter]
  refine congrArg _ (List.filter_congr fun edge _ => ?_)
  exact Bool.and_comm _ _

/-- A bullet has its new name, and of its links those that stay. -/
structure Line.RenamedFrom (later first : Line) (rename : String → String)
    (stays : String → Bool) : Prop where
  /-- The bullet has its new name. -/
  id : later.id = rename first.id
  /-- Some incoming links stay as they are. -/
  idsIn : later.idsIn = first.idsIn.filter stays
  /-- Some outgoing links stay as they are. -/
  idsOut : later.idsOut = first.idsOut.filter stays
  /-- The old name of the bullet is one that stays. -/
  ownStays : stays first.id = true
  /-- What a link that stays names has no other name. -/
  fixed : ∀ name ∈ first.linkIds, stays name = true → rename name = name
  /-- A link that stays does not come to name its own bullet. -/
  apart : ∀ name ∈ first.linkIds, stays name = true → name = later.id → name = first.id

namespace Line.RenamedFrom

variable {later first : Line} {rename : String → String} {stays : String → Bool}
  (renamed : later.RenamedFrom first rename stays)

include renamed

/-- The links on one side of a bullet that become edges. -/
theorem filter_filter_eq {names : List String} (inside : ∀ name ∈ names, name ∈ first.linkIds) :
    (names.filter stays).filter (· != later.id) =
      (names.filter (· != first.id)).filter stays := by
  rw [List.filter_filter, List.filter_filter]
  refine List.filter_congr fun name member => ?_
  cases isKept : stays name with
  | false => rw [Bool.and_false, Bool.false_and]
  | true =>
    have fixed := renamed.fixed name (inside name member) isKept
    have same : name = later.id ↔ name = first.id := by
      refine ⟨renamed.apart name (inside name member) isKept, fun equal => ?_⟩
      rw [renamed.id, ← equal, fixed]
    rw [Bool.and_true, Bool.true_and, Bool.eq_iff_iff, bne_iff_ne, bne_iff_ne]
    exact not_congr same

/-- The edges on one side of a bullet. -/
theorem map_filter_eq {names : List String} (inside : ∀ name ∈ names, name ∈ first.linkIds)
    {oldEdge newEdge : String → Edge}
    (chosen : ∀ name, (stays (oldEdge name).source && stays (oldEdge name).destination) = stays name)
    (moved : ∀ name, rename name = name → newEdge name = (oldEdge name).renamed rename) :
    ((names.filter stays).filter (· != later.id)).map newEdge =
      (((names.filter (· != first.id)).map oldEdge).filter fun edge =>
        stays edge.source && stays edge.destination).map (Edge.renamed rename) := by
  have sameChoice : ((fun edge : Edge => stays edge.source && stays edge.destination) ∘ oldEdge) =
      stays := funext chosen
  rw [renamed.filter_filter_eq inside, List.filter_map, sameChoice, List.map_map]
  refine List.map_congr_left fun name member => ?_
  obtain ⟨listed, isKept⟩ := List.mem_filter.mp member
  exact moved name (renamed.fixed name (inside name (List.mem_filter.mp listed).1) isKept)

/-- The edges of a renamed bullet are its old ones between ids that stay, renamed. -/
theorem authoredLinks_eq :
    authoredLinks later =
      ((authoredLinks first).filter fun edge => stays edge.source && stays edge.destination).map
        (Edge.renamed rename) := by
  rw [authoredLinks, authoredLinks, List.filter_append, List.map_append, renamed.idsIn,
    renamed.idsOut]
  refine congrArg₂ _ (renamed.map_filter_eq (fun _ member => List.mem_append_left _ member)
      (fun name => ?_) fun name fixed => ?_)
    (renamed.map_filter_eq (fun _ member => List.mem_append_right _ member)
      (fun name => ?_) fun name fixed => ?_)
  · rw [renamed.ownStays, Bool.and_true]
  · rw [Edge.renamed, fixed, renamed.id]
  · rw [renamed.ownStays, Bool.true_and]
  · rw [Edge.renamed, fixed, renamed.id]

end Line.RenamedFrom

/-! ### Renamed bullets -/

section Bullets

variable {bullets : List Line} {change : Line → Line} {rename : String → String}
  (frame : ∀ line, (change line).withoutIds = line.withoutIds)

include frame

theorem isBullet_of_frame (line : Line) : (change line).isBullet = line.isBullet := by
  rw [Line.eq_of_withoutIds (frame line)]
  rfl

theorem bulletsOf_map (lines : List Line) :
    bulletsOf (lines.map change) = (bulletsOf lines).map change := by
  have same : Line.isBullet ∘ change = Line.isBullet := funext (isBullet_of_frame frame)
  rw [bulletsOf, bulletsOf, List.filter_map, same]

theorem depth_comp_of_frame : Line.depth ∘ change = Line.depth := by
  funext line
  rw [Function.comp_apply, Line.eq_of_withoutIds (frame line)]

theorem firstBadIndent?_map (allowed : Int) :
    firstBadIndent? allowed (bullets.map change) = firstBadIndent? allowed bullets := by
  refine firstBadIndent?_congr ?_ allowed
  rw [List.map_map]
  refine List.map_congr_left fun bullet _ => ?_
  rw [Function.comp_apply, Line.eq_of_withoutIds (frame bullet)]

variable (renames : ∀ bullet ∈ bullets, (change bullet).id = rename bullet.id)

include renames

theorem ofLine_of_frame : ∀ bullet ∈ bullets,
    Node.ofLine (change bullet) = (Node.ofLine bullet).renamed rename := by
  intro bullet member
  rw [Node.ofLine, renames bullet member, Line.eq_of_withoutIds (frame bullet)]
  rfl

theorem forest_ofBullets_map :
    (Graph.ofBullets (bullets.map change)).forest =
      (Graph.ofBullets bullets).forest.map (Node.renamed rename) := by
  show (Forest.nest Line.depth (bullets.map change)).map Node.ofLine =
    ((Forest.nest Line.depth bullets).map Node.ofLine).map (Node.renamed rename)
  rw [Forest.nest_map, depth_comp_of_frame frame, Forest.map_map, Forest.map_map]
  refine Forest.map_congr fun bullet member => ?_
  rw [Forest.toList_nest] at member
  exact ofLine_of_frame frame renames bullet member

omit frame in
theorem map_id_map : (bullets.map change).map Line.id = (bullets.map Line.id).map rename := by
  rw [List.map_map, List.map_map]
  exact List.map_congr_left renames

variable (distinct : (bullets.map Line.id).Nodup)
  (laterDistinct : ((bullets.map change).map Line.id).Nodup)

include distinct laterDistinct

theorem toList_markedIds_map (visibility : Visibility) :
    (markedIds visibility (bullets.map change)).toList =
      (markedIds visibility bullets).toList.map rename := by
  have marks : (fun bullet : Line => bullet.visibility == visibility) ∘ change =
      fun bullet => bullet.visibility == visibility := by
    funext bullet
    rw [Function.comp_apply, Line.eq_of_withoutIds (frame bullet)]
  have before := (List.filter_sublist (l := bullets)
    (p := fun bullet => bullet.visibility == visibility)).map Line.id
  have after := (List.filter_sublist (l := bullets.map change)
    (p := fun bullet => bullet.visibility == visibility)).map Line.id
  rw [markedIds, markedIds, IdSet.toList_ofList (laterDistinct.sublist after),
    IdSet.toList_ofList (distinct.sublist before), List.filter_map, marks]
  exact map_id_map fun bullet member => renames bullet (List.mem_filter.mp member).1

/-- The graph of bullets with other ids is the old one under the new names, with the edges of the
links that they then have. -/
theorem renamedFrom_ofBullets {edges : List Edge}
    (added : (LinkGraph.kept ((bullets.map change).flatMap authoredLinks)).Perm edges) :
    (Graph.ofBullets (bullets.map change)).RenamedFrom (Graph.ofBullets bullets) rename edges where
  forest := forest_ofBullets_map frame renames
  edges := (LinkGraph.holds_addEdges _).edges_perm.trans added
  foldIds := toList_markedIds_map frame renames distinct laterDistinct .fold
  hideIds := toList_markedIds_map frame renames distinct laterDistinct .hide
  duplicateIds := by
    show IdSet.ofList ((redeclarations [] (bullets.map change)).map Prod.fst) =
      IdSet.ofList ((redeclarations [] bullets).map Prod.fst)
    rw [redeclarations_eq_nil distinct, redeclarations_eq_nil laterDistinct]

omit renames in
/-- Where the links of each bullet go with the names, so do the edges. -/
theorem renamedFrom_ofBullets_filter (keepsEmpty : ∀ id, rename id = "" ↔ id = "")
    {stays : String → Bool}
    (renamed : ∀ bullet ∈ bullets, (change bullet).RenamedFrom bullet rename stays) :
    (Graph.ofBullets (bullets.map change)).RenamedFrom (Graph.ofBullets bullets) rename
      (((Graph.ofBullets bullets).links.edges.filter fun edge =>
        stays edge.source && stays edge.destination).map (Edge.renamed rename)) := by
  have links : (bullets.map change).flatMap authoredLinks =
      ((bullets.flatMap authoredLinks).filter fun edge =>
        stays edge.source && stays edge.destination).map (Edge.renamed rename) := by
    rw [List.flatMap_map, List.flatMap_congr fun bullet member =>
      (renamed bullet member).authoredLinks_eq, ← List.map_flatMap, List.filter_flatMap]
  refine renamedFrom_ofBullets frame (fun bullet member => (renamed bullet member).id) distinct
    laterDistinct ?_
  rw [links, LinkGraph.kept_map_renamed keepsEmpty, LinkGraph.kept_filter]
  exact (((LinkGraph.holds_addEdges _).edges_perm.symm).filter _).map _

end Bullets

theorem Graph.build_eq_ok {lines : List Line} (legal : firstBadIndent? 0 (bulletsOf lines) = none) :
    build lines = .ok (ofBullets (bulletsOf lines)) := by rw [build_eq, legal]

end OutlineDiagram
