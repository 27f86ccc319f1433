/-!
# Binary floating point, exactly

A finite 64-bit float is a whole number times a power of two.  Here it is taken apart into that fraction,
a fraction is rounded to the nearest float, and the fractional part is cut off, all in exact arithmetic.
-/

namespace Chip8.Binary64

/-! ### From a float to a fraction -/

def exponentField (x : Float) : Nat := x.toBits.toNat >>> 52 % 2048

def fractionField (x : Float) : Nat := x.toBits.toNat % (1 <<< 52)

def isNegative (x : Float) : Bool := decide (1 <<< 63 ≤ x.toBits.toNat)

/-- Neither infinite nor not a number. -/
def isFinite (x : Float) : Bool := exponentField x != 2047

/-- The size of a finite float as numerator and denominator. -/
def fraction (x : Float) : Nat × Nat :=
  match exponentField x with
  | 0 => (fractionField x, 1 <<< 1074)
  | e + 1 =>
    let significand := 1 <<< 52 + fractionField x
    if 1074 ≤ e then (significand <<< (e - 1074), 1) else (significand, 1 <<< (1074 - e))

/-- Why a float has no whole part. -/
inductive NotFinite
  | notANumber
  | infinite
  deriving DecidableEq, Repr

/-- The whole part: what is behind the point is cut off, towards zero. -/
def truncate (x : Float) : Except NotFinite Int :=
  if isFinite x then
    let (num, den) := fraction x
    let whole : Int := (num / den : Nat)
    .ok (if isNegative x then -whole else whole)
  else if fractionField x = 0 then .error .infinite
  else .error .notANumber

/-! ### From a fraction to a float -/

/-- The quotient rounded to the nearest whole number, a half to the even neighbour. -/
def divNearest (num den : Nat) : Nat :=
  let q := num / den
  let r := num % den
  if den < 2 * r ∨ (2 * r = den ∧ q % 2 = 1) then q + 1 else q

/-- `num / (den * 2 ^ e)`, rounded to the nearest whole number. -/
def scaledNearest (num den : Nat) (e : Int) : Nat :=
  if 0 ≤ e then divNearest num (den <<< e.toNat) else divNearest (num <<< (-e).toNat) den

/-- The power of two that the significand of `num / den` counts: at most 53 bits are kept, and none below
the least power. -/
def unit (num den : Nat) : Int :=
  let e : Int := (num.log2 : Int) - den.log2 - 53
  let fits := if 0 ≤ e then num < den <<< (e.toNat + 53) else num <<< (-e).toNat < den <<< 53
  max (if fits then e else e + 1) (-1074)

/-- The bits of the float nearest to `num / den`, of two equally near the even one.  From half a unit
above the largest float on, that is infinity. -/
def nearestBits (num den : Nat) : Nat :=
  if num = 0 then 0
  else
    let e := unit num den
    min ((e + 1074).toNat <<< 52 + scaledNearest num den e) (2047 <<< 52)

/-- The float nearest to a quotient. -/
def ofRatio (num : Int) (den : Nat) : Float :=
  let bits := nearestBits num.natAbs den
  Float.ofBits (UInt64.ofNat (if num < 0 then bits + 1 <<< 63 else bits))

/-- The float nearest to a whole number, unless the number is too large for a finite one. -/
def ofInt? (n : Int) : Option Float :=
  let x := ofRatio n 1
  if isFinite x then some x else none

end Chip8.Binary64
