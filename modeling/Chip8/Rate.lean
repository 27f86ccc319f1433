import Chip8.Decimal

/-!
# Rates

A rate in Hz is a whole number of any size or a float.  The two are compared and printed as what they
are; a whole number becomes a float only where a period is computed from it.
-/

namespace Chip8

/-- How often a second something happens. -/
inductive Rate
  | whole (n : Int)
  | real (x : Float)

inductive RateError
  /-- An instruction rate outside the bounds. -/
  | clockOutOfRange (x : Float)
  /-- A timer rate that is not positive. -/
  | timerNotPositive (x : Float)
  /-- A scheduler's rate that is not positive. -/
  | frequencyNotPositive (r : Rate)
  /-- A whole number beyond the largest float. -/
  | tooLarge

namespace Rate

/-- The least and the largest number of instructions a second. -/
def leastClock : Nat := 1

def largestClock : Nat := 2000

def toFloat (r : Rate) : Except RateError Float :=
  match r with
  | .real x => .ok x
  | .whole n =>
    match Binary64.ofInt? n with
    | some x => .ok x
    | none => .error .tooLarge

/-- The rate as it is: a whole number in full, a float with as few digits as tell it apart. -/
def text : Rate → String
  | .whole n => toString n
  | .real x => Decimal.shortest x

def generalText (r : Rate) : String :=
  match r.toFloat with
  | .ok x => Decimal.general x
  -- not for a rate within its bounds
  | .error _ => r.text

/-- Zero or below.  What is not a number is not. -/
def isNotPositive : Rate → Bool
  | .whole n => decide (n ≤ 0)
  | .real x => x ≤ 0.0

/-- Within the bounds of an instruction rate.  What is not a number is not. -/
def isClock : Rate → Bool
  | .whole n => decide ((leastClock : Int) ≤ n) && decide (n ≤ largestClock)
  | .real x => decide (1.0 ≤ x) && decide (x ≤ 2000.0)

def checkClock (r : Rate) : Except RateError Unit :=
  if r.isClock then .ok ()
  else match r.toFloat with
    | .ok x => .error (.clockOutOfRange x)
    | .error e => .error e

def checkTimer (r : Rate) : Except RateError Unit :=
  if r.isNotPositive then
    match r.toFloat with
    | .ok x => .error (.timerNotPositive x)
    | .error e => .error e
  else .ok ()

/-- The seconds from one event to the next. -/
def period (r : Rate) : Except RateError Float :=
  match r.toFloat with
  | .ok x => .ok (1.0 / x)
  | .error e => .error e

end Rate

def RateError.text : RateError → String
  | .clockOutOfRange x =>
    "Clock rate must be between " ++ toString Rate.leastClock ++ " and " ++ toString Rate.largestClock ++
      " Hz, got " ++ Decimal.general x
  | .timerNotPositive x => "Timer rate must be positive, got " ++ Decimal.general x
  | .frequencyNotPositive r => "Timer frequency must be positive, got " ++ r.text
  | .tooLarge => "int too large to convert to float"

end Chip8
