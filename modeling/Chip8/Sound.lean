import Chip8.Terminal.Directive
import Chip8.Window

/-!
# Audio devices

Two ways to sound a tone: the bell of a terminal, which rings when a tone begins, and a sine tone, which
lasts as long as the tone does.  Both take the state of the tone first and act on it when asked to, and
either can stand in for the audio device of other peripherals.
-/

namespace Chip8

/-- An audio device: how it acts on the state of the tone. -/
structure Speaker (m : Type → Type) where
  act : Bool → m Unit

namespace Speaker

variable {m : Type → Type} [Monad m]

/-- A bell that is rung by writing a character. -/
def bell (write : String → m Unit) : Speaker m where
  act on := if on then write (Directive.text .bell) else return ()

/-- The pitch of the tone, an F, in Hz. -/
def pitch : Rate := .real 349.23

def amplitude : Float := 0.1

def sine (graphics : Graphics m) : Speaker m where
  act on := graphics.call (if on then .playTone true else .pauseTone)

def startSine (graphics : Graphics m) (frequency : Rate) : m (Speaker m) := do
  graphics.call (.queueSine 1.0 frequency amplitude)
  return sine graphics

/-- The same speaker beside a state of type `σ`, which it leaves alone. -/
def lift (σ : Type) (s : Speaker m) : Speaker (StateT σ m) where
  act on := StateT.lift (s.act on)

/-- The same peripherals with another audio device; beside their own state stands the tone received
last. -/
def attach (s : Speaker m) (p : Peripherals m) : Peripherals (StateT Bool m) :=
  { p.lift Bool with
    perform := fun
      | .tone on => set on
      | .play => do
        let on ← get
        StateT.lift (s.act on)
      | r => StateT.lift (p.perform r) }

end Speaker

end Chip8
