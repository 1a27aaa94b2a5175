/-
This file holds tables: for each of finitely many keys one value. A table is known
by what it finds, and each operation is described by what is found after it.
-/

namespace OutlineDiagram

/-- A value for each of finitely many keys. -/
structure Table (κ α : Type) where
  /-- The keys with their values, the one set last first. -/
  entries : List (κ × α) := []
  deriving DecidableEq, Repr, Inhabited

namespace Table

variable {κ α : Type} [DecidableEq κ]

/-- The value of a key, if it has one. -/
def find? (table : Table κ α) (key : κ) : Option α :=
  (table.entries.find? fun entry => entry.1 = key).map Prod.snd

/-- The key has a value. -/
def contains (table : Table κ α) (key : κ) : Bool := (table.find? key).isSome

/-- The table without a key. -/
def erase (table : Table κ α) (key : κ) : Table κ α where
  entries := table.entries.filter fun entry => entry.1 ≠ key

/-- The table with a value for a key, in place of the value it had. -/
def insert (table : Table κ α) (key : κ) (value : α) : Table κ α where
  entries := (key, value) :: (table.erase key).entries

/-! ### What is found -/

theorem find?_erase_self (table : Table κ α) (key : κ) : (table.erase key).find? key = none := by
  simp [find?, erase]

theorem find?_erase_of_ne (table : Table κ α) {key other : κ} (different : other ≠ key) :
    (table.erase key).find? other = table.find? other := by
  have same : ∀ entries : List (κ × α),
      (entries.filter fun entry => entry.1 ≠ key).find? (fun entry => entry.1 = other) =
        entries.find? fun entry => entry.1 = other := by
    intro entries
    induction entries with
    | nil => rfl
    | cons entry rest inductionHypothesis =>
      by_cases isKey : entry.1 = key
      · have isOther : entry.1 ≠ other := fun equal => different (equal.symm.trans isKey)
        simpa [isKey, isOther, different.symm] using inductionHypothesis
      · by_cases isOther : entry.1 = other
        · simp [isOther, different]
        · simpa [isKey, isOther] using inductionHypothesis
  simp only [find?, erase, same]

theorem find?_insert_self (table : Table κ α) (key : κ) (value : α) :
    (table.insert key value).find? key = some value := by
  simp [find?, insert]

theorem find?_insert_of_ne (table : Table κ α) {key other : κ} (value : α)
    (different : other ≠ key) : (table.insert key value).find? other = table.find? other := by
  rw [← find?_erase_of_ne table different]
  simp [find?, insert, different.symm]

end Table

end OutlineDiagram
