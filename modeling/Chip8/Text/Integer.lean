import Chip8.Text.Blank
import Chip8.Text.Digit

/-!
# Whole numbers as text

Blanks around the number, a sign, and digits of any script, of which two neighbours may have one
underscore between them.  To base sixteen the letters `a` to `f` are digits too, and the digits may follow
`0x`, also with an underscore.  To base ten at most 4300 digits are read.
-/

namespace Chip8.Text

inductive Base
  | ten
  | sixteen
  deriving DecidableEq, Repr

def Base.size : Base → Nat
  | .ten => 10
  | .sixteen => 16

/-- The most digits of a number to base ten. -/
def maxDigits : Nat := 4300

def letterValue? (c : Char) : Option Nat :=
  if 'a' ≤ c ∧ c ≤ 'f' then some (c.toNat - 'a'.toNat + 10)
  else if 'A' ≤ c ∧ c ≤ 'F' then some (c.toNat - 'A'.toNat + 10)
  else none

def Base.digit? (b : Base) (c : Char) : Option Nat :=
  match digitValue? c with
  | some d => some d
  | none =>
    match b with
    | .ten => none
    | .sixteen => letterValue? c

/-- Reads digits behind those of `value`.  With `pending` set a digit has to come next. -/
def Base.digits? (b : Base) : Bool → Nat → List Char → Option Nat
  | pending, value, [] => if pending then none else some value
  | pending, value, c :: cs =>
    if c = '_' then if pending then none else b.digits? true value cs
    else match b.digit? c with
      | some d => b.digits? false (value * b.size + d) cs
      | none => none

/-- What follows `0x`, and one underscore behind that. -/
def withoutMark : List Char → List Char
  | zero :: x :: rest =>
    if digitValue? zero = some 0 ∧ (x = 'x' ∨ x = 'X') then
      match rest with
      | '_' :: rest => rest
      | rest => rest
    else zero :: x :: rest
  | cs => cs

/-- Reads a number without sign. -/
def Base.natural? (b : Base) (cs : List Char) : Option Nat :=
  match b with
  | .ten => if maxDigits < cs.countP (· ≠ '_') then none else b.digits? true 0 cs
  | .sixteen => b.digits? true 0 (withoutMark cs)

def Base.integer? (b : Base) (cs : List Char) : Option Int :=
  match stripBy isNumberBlank cs with
  | '-' :: rest => (b.natural? rest).map fun n => -(n : Int)
  | '+' :: rest => (b.natural? rest).map Int.ofNat
  | rest => (b.natural? rest).map Int.ofNat

end Chip8.Text
