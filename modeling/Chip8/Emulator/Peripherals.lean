import Chip8.Framebuffer
import Chip8.Notice

/-!
# Peripherals

What an emulator is connected to: a source of key vectors, a clock, and something that carries out its
requests.  The peripherals act in a monad `m` of their own, so that an emulator runs on real devices and
on simulated ones alike.
-/

namespace Chip8

/-- A wait for the rest of a cycle. -/
structure Pause where
  seconds : Float
  /-- Whether a run is in progress. -/
  running : Bool

/-- What an emulator asks of its peripherals. -/
inductive Request
  /-- Take this frame. -/
  | frame (f : Frame)
  /-- Show the frame taken last. -/
  | drive
  /-- Take this state of the tone. -/
  | tone (on : Bool)
  /-- Start or stop sounding, by the state taken last. -/
  | play
  /-- Let time pass. -/
  | pause (p : Pause)
  /-- Report something. -/
  | note (n : Notice)

structure Peripherals (m : Type → Type) where
  /-- Asks the input device for news. -/
  poll : m Signals
  /-- The present key vector, if the input device has one. -/
  keys : m (Option Int)
  /-- The present time in seconds. -/
  now : m Float
  /-- Carries out a request. -/
  perform : Request → m Unit

namespace Peripherals

variable {m : Type → Type} [Monad m]

def note (p : Peripherals m) (n : Notice) : m Unit := p.perform (.note n)

/-- The same peripherals beside a state of type `σ`, which they leave alone. -/
def lift (σ : Type) (p : Peripherals m) : Peripherals (StateT σ m) where
  poll := StateT.lift p.poll
  keys := StateT.lift p.keys
  now := StateT.lift p.now
  perform r := StateT.lift (p.perform r)

/-- The same peripherals, keeping a list of all requests, the latest last. -/
def recorded (p : Peripherals m) : Peripherals (StateT (List Request) m) :=
  { p.lift (List Request) with
    perform := fun r => do
      modify (· ++ [r])
      StateT.lift (p.perform r) }

end Peripherals

end Chip8
