import Chip8.Rate

/-!
# Configuration

How fast the machine and its timers run, whether every instruction is reported, and the seed of the
random numbers.
-/

namespace Chip8

structure Config where
  /-- Instructions a second. -/
  clock : Rate := .real 720.0
  /-- Periods of the timer clock a second. -/
  timer : Rate := .real 60.0
  /-- Whether every instruction is reported. -/
  trace : Bool := false
  /-- The seed of the random numbers; without one they differ from run to run. -/
  seed : Option Int := none

namespace Config

/-- Refuses settings with a rate out of bounds, the instruction rate first. -/
def check (c : Config) : Except RateError Config :=
  match c.clock.checkClock with
  | .error e => .error e
  | .ok () =>
    match c.timer.checkTimer with
    | .error e => .error e
    | .ok () => .ok c

def withClock (c : Config) (clock : Rate) : Except RateError Config :=
  match clock.checkClock with
  | .error e => .error e
  -- with the rest, the new rate is checked once more
  | .ok () => { c with clock }.check

end Config

end Chip8
