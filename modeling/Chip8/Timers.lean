/-!
# Delay and sound timers

Two counters that go down to zero, one count a period of the timer clock.  A tone sounds while the
sound timer runs.
-/

namespace Chip8

/-- The two counters.  Programs put bytes into them; a count that is not positive stands still. -/
structure Timers where
  delay : Int := 0
  sound : Int := 0
  deriving DecidableEq, Repr, Inhabited

namespace Timers

/-- One count down, ending at zero. -/
def countDown (n : Int) : Int := if 0 < n then n - 1 else n

def tone (t : Timers) : Bool := decide (0 < t.sound)

/-- One period of the timer clock. -/
def tick (t : Timers) : Timers := ⟨countDown t.delay, countDown t.sound⟩

def ticks (t : Timers) : Nat → Timers
  | 0 => t
  | n + 1 => t.tick.ticks n

end Timers

end Chip8
