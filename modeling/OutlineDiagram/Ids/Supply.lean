/-
This file hands out ids for bullets that have none of their own. A placeholder
stands in while an outline is read and never reaches its text; a compact id is
written into the outline when a bullet is first linked to. What the next draw
gives depends only on how many ids of each kind were drawn before it.
-/

namespace OutlineDiagram

/-- A source of ids together with the number of ids drawn from it. -/
structure IdSupply where
  /-- The next placeholder after so many placeholders and so many compact ids. -/
  placeholderAt : Nat → Nat → String
  /-- The next compact id after so many placeholders and so many compact ids. -/
  compactAt : Nat → Nat → String
  /-- The number of placeholders drawn. -/
  placeholders : Nat
  /-- The number of compact ids drawn. -/
  compacts : Nat
  /-- How many compact ids in a row may be taken already before the supply counts as used up. -/
  patience : Nat

namespace IdSupply

/-! ### Drawing -/

/-- The next placeholder and the supply after it. -/
def drawPlaceholder (supply : IdSupply) : String × IdSupply :=
  (supply.placeholderAt supply.placeholders supply.compacts,
    { supply with placeholders := supply.placeholders + 1 })

/-- The next compact id and the supply after it. -/
def drawCompact (supply : IdSupply) : String × IdSupply :=
  (supply.compactAt supply.placeholders supply.compacts,
    { supply with compacts := supply.compacts + 1 })

/-- The first compact id, of at most so many, that is not taken, and the supply after it. -/
def drawFresh (taken : List String) : Nat → IdSupply → Option (String × IdSupply)
  | 0, _ => none
  | tries + 1, supply =>
    let drawn := supply.drawCompact
    if taken.contains drawn.1 then drawFresh taken tries drawn.2 else some drawn

/-- An id drawn as fresh is not taken. -/
theorem notMem_of_drawFresh {taken : List String} {tries : Nat} {supply later : IdSupply}
    {id : String} (drawn : drawFresh taken tries supply = some (id, later)) : id ∉ taken := by
  induction tries generalizing supply with
  | zero => simp [drawFresh] at drawn
  | succ tries inductionHypothesis =>
    rw [drawFresh] at drawn
    split at drawn
    · exact inductionHypothesis drawn
    · next absent =>
      have same := Option.some.inj drawn
      intro member
      rw [same] at absent
      exact absent (List.contains_iff_mem.mpr member)

/-! ### Supplies -/

/-- The characters of a text from one position up to another. -/
def slice (start stop : Nat) (text : String) : String :=
  String.ofList ((text.toList.drop start).take (stop - start))

/-- Ids cut out of hexadecimal numbers, one number for each draw of either kind. -/
def ofHex (hexAt : Nat → String) (patience : Nat) : IdSupply where
  placeholderAt placeholders compacts :=
    let hex := hexAt (placeholders + compacts)
    "id_" ++ slice 0 8 hex ++ "_" ++ slice 8 14 hex
  compactAt placeholders compacts := "id_" ++ slice 0 4 (hexAt (placeholders + compacts))
  placeholders := 0
  compacts := 0
  patience := patience

/-- A number in digits of a base, with zeros before it up to a width. -/
def padded (base width number : Nat) : String :=
  let digits := Nat.toDigits base number
  String.ofList (List.replicate (width - digits.length) '0' ++ digits)

/-- Hexadecimal numbers of a list, and after its end the number of the draw, counted from one,
in its first four of 32 digits. -/
def listedHex (listed : List String) (draw : Nat) : String :=
  listed.getD draw (padded 16 4 (draw + 1) ++ String.ofList (List.replicate 28 '0'))

/-- Ids cut out of listed numbers, and after the list out of counted ones. -/
def ofListedHex (listed : List String) : IdSupply :=
  ofHex (listedHex listed) (listed.length + 65536)

/-- Placeholders with a running number; compact ids of a list, then with a running number. -/
def numbered (listed : List String) : IdSupply where
  placeholderAt placeholders _ := "ph_" ++ toString (placeholders + 1)
  compactAt _ compacts :=
    listed.getD compacts ("id_" ++ padded 10 4 (compacts - listed.length + 1))
  placeholders := 0
  compacts := 0
  patience := listed.length + 65536

end IdSupply

end OutlineDiagram
