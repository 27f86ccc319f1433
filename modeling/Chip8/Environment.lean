import Chip8.Emulator.Peripherals

/-!
# The environment of devices

A clock, a way to let time pass, and someone to report to: what devices of every kind stand on.  With
nothing else plugged in, an emulator still runs: `Unplugged` has no keys and only counts what it is sent.
-/

namespace Chip8

structure Environment (m : Type → Type) where
  /-- The present time in seconds, on a clock that does not go back. -/
  now : m Float
  /-- Lets time pass. -/
  pause : Pause → m Unit
  /-- Takes a report. -/
  note : Notice → m Unit

/-- Devices that are not there. -/
structure Unplugged where
  /-- How many frames were sent. -/
  frames : Nat := 0
  /-- The tone that was sent last. -/
  tone : Bool := false
  deriving DecidableEq, Repr, Inhabited

namespace Unplugged

variable {m : Type → Type} [Monad m]

def perform (env : Environment m) : Request → StateT Unplugged m Unit
  | .frame _ => modify fun d => { d with frames := d.frames + 1 }
  | .drive => StateT.lift (env.note .noDisplay)
  | .tone on => modify fun d => { d with tone := on }
  | .play => StateT.lift (env.note .noAudio)
  | .pause p => StateT.lift (env.pause p)
  | .note n => StateT.lift (env.note n)

def peripherals (env : Environment m) : Peripherals (StateT Unplugged m) where
  poll := pure 0
  keys := pure none
  now := StateT.lift env.now
  perform := perform env

end Unplugged

end Chip8
