import Chip8.Binary64

/-!
# Decimal text of floats

Two spellings.  `general` rounds to six significant digits and drops trailing zeros; `shortest` has as
few digits as lead back to the same float, and of those the nearest.  Both write the digits positionally
or with an exponent, by the size of the number; they differ in where positional notation ends and in
whether a whole number keeps a point.
-/

namespace Chip8.Decimal

/-- Significant digits and a power of ten: `d₁.d₂d₃… × 10 ^ exponent`. -/
structure Digits where
  digits : List Char
  exponent : Int
  deriving DecidableEq, Repr

/-! ### Digits of a fraction -/

/-- How many decimal digits a number has. -/
def length (n : Nat) : Nat := (Nat.toDigits 10 n).length

/-- The exponent of the first digit of a positive fraction. -/
def leading (num den : Nat) : Int :=
  if den ≤ num then (length (num / den) : Int) - 1
  else -(length ((den + num - 1) / num - 1) : Int)

/-- `num / den` in units of `10 ^ e`, as numerator and denominator. -/
def inUnits (num den : Nat) (e : Int) : Nat × Nat :=
  if 0 ≤ e then (num, den * Nat.pow 10 e.toNat) else (num * Nat.pow 10 (-e).toNat, den)

/-- `n` units of `10 ^ e` as numerator and denominator. -/
def ofUnits (n : Nat) (e : Int) : Nat × Nat :=
  if 0 ≤ e then (n * Nat.pow 10 e.toNat, 1) else (n, Nat.pow 10 (-e).toNat)

/-- The digits of `n` units of `10 ^ e`, without trailing zeros. -/
def strip (n : Nat) (e : Int) : Digits :=
  let cs := Nat.toDigits 10 n
  let kept := (cs.reverse.dropWhile (· == '0')).reverse
  ⟨if kept.isEmpty then ['0'] else kept, e + (cs.length - 1 : Nat)⟩

/-- A positive fraction rounded to `count` significant digits, a half to the even neighbour. -/
def rounded (count num den : Nat) : Digits :=
  let e := leading num den - (count - 1 : Nat)
  let (n, d) := inUnits num den e
  strip (Binary64.divNearest n d) e

/-- The multiple of `10 ^ e` next to a positive float that leads back to it, the nearer of the two
neighbours first. -/
def neighbour? (num den : Nat) (e : Int) : Option Nat :=
  let (n, d) := inUnits num den e
  let below := n / d
  let near := Binary64.divNearest n d
  let candidates := if near = below then [below, below + 1] else [below + 1, below]
  let leadsBack (k : Nat) : Bool :=
    let (a, b) := ofUnits k e
    decide (Binary64.nearestBits a b = Binary64.nearestBits num den)
  candidates.find? leadsBack

/-- The fewest digits that lead back to a positive float, given as a fraction.  Seventeen always do. -/
def fewest (num den : Nat) : Digits :=
  let first := leading num den
  let tries := (List.range 17).filterMap fun (k : Nat) =>
    (neighbour? num den (first - k)).map fun n => strip n (first - k)
  tries.head?.getD (rounded 17 num den)

/-! ### Layout -/

/-- The decisions of a spelling. -/
structure Layout where
  /-- The least exponent that is written out, because the text without one would be too long. -/
  exponentFrom : Int
  /-- Whether a whole number ends in a point and a zero. -/
  keepsPoint : Bool

/-- Six significant digits at most, and nothing behind a whole number. -/
def generalLayout : Layout := ⟨6, false⟩

/-- Sixteen digits at most in front of the point, and a zero behind it. -/
def shortestLayout : Layout := ⟨16, true⟩

/-- An exponent with its sign and at least two digits. -/
def exponentText (e : Int) : String :=
  let cs := Nat.toDigits 10 e.natAbs
  (if e < 0 then "e-" else "e+") ++ String.ofList (List.replicate (2 - cs.length) '0' ++ cs)

def Layout.positive (l : Layout) (d : Digits) : String :=
  if d.exponent < -4 ∨ l.exponentFrom ≤ d.exponent then
    let behind := d.digits.drop 1
    String.ofList (d.digits.take 1 ++ (if behind.isEmpty then [] else '.' :: behind)) ++ exponentText d.exponent
  else if d.exponent < 0 then
    String.ofList ('0' :: '.' :: List.replicate ((-d.exponent).toNat - 1) '0' ++ d.digits)
  else
    let whole := d.exponent.toNat + 1
    let front := d.digits.take whole ++ List.replicate (whole - d.digits.length) '0'
    let behind := d.digits.drop whole
    String.ofList <|
      if behind.isEmpty then front ++ (if l.keepsPoint then ['.', '0'] else []) else front ++ '.' :: behind

/-- The text of any float, given how to find the digits of a positive fraction. -/
def Layout.text (l : Layout) (digits : Nat → Nat → Digits) (x : Float) : String :=
  let sign := if Binary64.isNegative x then "-" else ""
  if Binary64.isFinite x then
    let (num, den) := Binary64.fraction x
    sign ++ l.positive (if num = 0 then ⟨['0'], 0⟩ else digits num den)
  else if Binary64.fractionField x = 0 then sign ++ "inf"
  else "nan"

def general (x : Float) : String := generalLayout.text (rounded 6) x

/-- The shortest text that leads back to the float. -/
def shortest (x : Float) : String := shortestLayout.text fewest x

end Chip8.Decimal
