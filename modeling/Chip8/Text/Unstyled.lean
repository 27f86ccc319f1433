/-!
# Text without control sequences

A control sequence tells a terminal what to do: an escape and a bracket, parameters out of digits, `;`
and `?`, and a letter.  Elsewhere than in a terminal it would only be noise.
-/

namespace Chip8.Text

/-- Whether a character can be a parameter of a control sequence. -/
def isParameter (c : Char) : Bool := c.isDigit || c == ';' || c == '?'

/-- What is behind the control sequence that an escape in front of these characters begins, if it begins
one. -/
def afterSequence? : List Char → Option (List Char)
  | '[' :: cs =>
    match cs.dropWhile isParameter with
    | c :: rest => if c.isAlpha then some rest else none
    | [] => none
  | _ => none

/-- A control sequence takes characters away. -/
theorem length_afterSequence? {cs rest : List Char} (h : afterSequence? cs = some rest) :
    rest.length < cs.length := by
  unfold afterSequence? at h
  split at h
  · next cs =>
    have bound : (cs.dropWhile isParameter).length ≤ cs.length := (List.dropWhile_sublist _).length_le
    split at h
    · next c behind eq =>
      rw [eq] at bound
      split at h <;> simp at h
      subst h
      simp at bound ⊢
      omega
    · simp at h
  · simp at h

/-- The characters outside control sequences. -/
def withoutSequences : List Char → List Char
  | [] => []
  | c :: cs =>
    if c = '\x1b' then
      match h : afterSequence? cs with
      | some rest =>
        have := length_afterSequence? h
        withoutSequences rest
      | none => c :: withoutSequences cs
    else c :: withoutSequences cs
  termination_by cs => cs.length
  decreasing_by
    · simp; omega
    · simp
    · simp

def unstyled (s : String) : String := String.ofList (withoutSequences s.toList)

end Chip8.Text
