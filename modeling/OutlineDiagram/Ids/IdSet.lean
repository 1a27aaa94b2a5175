/-
This file holds sets of node ids that remember the order in which their members
came. The order is what a reader of the graph sees, and a second insertion of an
id changes nothing.
-/

namespace OutlineDiagram

/-- A set of ids, listed in the order of their first insertion. -/
structure IdSet where
  /-- The members, first inserted first. -/
  toList : List String
  /-- No id is listed twice. -/
  nodup : toList.Nodup
  deriving DecidableEq

namespace IdSet

/-- The set without members. -/
def empty : IdSet := ⟨[], List.nodup_nil⟩

instance : EmptyCollection IdSet := ⟨empty⟩

instance : Inhabited IdSet := ⟨empty⟩

instance : Membership String IdSet := ⟨fun ids id => id ∈ ids.toList⟩

instance (id : String) (ids : IdSet) : Decidable (id ∈ ids) :=
  inferInstanceAs (Decidable (id ∈ ids.toList))

/-- An id is a member. -/
def contains (ids : IdSet) (id : String) : Bool := ids.toList.contains id

@[simp] theorem contains_iff {ids : IdSet} {id : String} : ids.contains id = true ↔ id ∈ ids :=
  List.contains_iff_mem

/-- The set with one more member, which comes last unless it was one already. -/
def insert (ids : IdSet) (id : String) : IdSet :=
  if absent : id ∈ ids.toList then ids
  else ⟨ids.toList ++ [id], by
    refine List.nodup_append.mpr ⟨ids.nodup, by simp, ?_⟩
    rintro first member second equal rfl
    exact absent (by simpa using List.mem_singleton.mp equal ▸ member)⟩

/-- The members of a set after an insertion. -/
theorem mem_insert {ids : IdSet} {id other : String} :
    other ∈ ids.insert id ↔ other ∈ ids ∨ other = id := by
  show other ∈ (ids.insert id).toList ↔ other ∈ ids.toList ∨ other = id
  rw [insert]
  split
  · constructor
    · exact Or.inl
    · rintro (member | rfl) <;> assumption
  · simp

/-- The set with the members of a list. -/
def ofList (ids : List String) : IdSet := ids.foldl insert empty

/-- The number of members. -/
def size (ids : IdSet) : Nat := ids.toList.length

end IdSet

end OutlineDiagram
