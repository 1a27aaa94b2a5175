/-
This file takes the control sequences of terminals out of a text, for a stream that
leads to no terminal. A sequence is an escape character, a bracket, some parameters
and a letter that ends it.
-/

namespace OutlineDiagram.Text

/-- The character may be in the parameters of a sequence. -/
def isParameter (character : Char) : Bool :=
  character.isDigit || character == ';' || character == '?'

/-- The text after a sequence, which starts after its escape character. -/
def afterSequence : List Char → Option (List Char)
  | '[' :: rest =>
    match rest.dropWhile isParameter with
    | last :: after => if last.isAlpha then some after else none
    | [] => none
  | _ => none

/-- The text after a sequence is shorter than what it was cut from. -/
theorem length_lt_of_afterSequence {text after : List Char}
    (cut : afterSequence text = some after) : after.length < text.length := by
  unfold afterSequence at cut
  split at cut
  · rename_i rest
    split at cut
    · rename_i last others found
      have shorter := (List.dropWhile_suffix isParameter (l := rest)).length_le
      rw [found] at shorter
      split at cut
      · simp only [Option.some.injEq] at cut
        rw [← cut]
        simp only [List.length_cons] at shorter ⊢
        omega
      · simp at cut
    · simp at cut
  · simp at cut

/-- The text without sequences. -/
def withoutSequences (text : List Char) : List Char :=
  match text with
  | [] => []
  | first :: rest =>
    if first = '\x1b' then
      match _cut : afterSequence rest with
      | some after => withoutSequences after
      | none => first :: withoutSequences rest
    else first :: withoutSequences rest
termination_by text.length
decreasing_by
  · have := length_lt_of_afterSequence _cut
    simp only [List.length_cons]
    omega
  · simp
  · simp

end OutlineDiagram.Text
