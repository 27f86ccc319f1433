import Chip8.Environment
import Chip8.Terminal.Basic

/-!
# Working with a terminal

The terminal at work: raw mode is entered once and left once, keys are polled, and directives are
written as text.
-/

namespace Chip8

structure Tty (m : Type → Type) where
  /-- Whether there is a terminal at all. -/
  isTerminal : m Bool
  settings : m String
  setRaw : m Unit
  /-- Puts settings back, once all output is out. -/
  restore : String → m Unit
  /-- Columns and lines. -/
  size : m (Nat × Nat)
  /-- The bytes that have come, 1024 at most. -/
  pending : m (List UInt8)
  /-- Writes text and makes sure that it is out. -/
  write : String → m Unit

namespace Tty

/-- The most bytes that are read at once. -/
def readSize : Nat := 1024

/-- One reading of the bytes that have come: those that it takes, and those that wait for the next. -/
def readOnce (waiting : List UInt8) : List UInt8 × List UInt8 := waiting.splitAt readSize

end Tty

namespace Terminal

variable {m : Type → Type} [Monad m]

def say (tty : Tty m) (ds : List Directive) : m Unit := tty.write (Directive.textOf ds)

/-- Begins work with the terminal.  Raw mode needs a terminal. -/
def start (env : Environment m) (tty : Tty m) (raw : Bool) : m (Except Error Terminal) := do
  let now ← env.now
  let size ← tty.size
  let t : Terminal := { released := now, size }
  if raw then
    if ← tty.isTerminal then
      let settings ← tty.settings
      tty.setRaw
      say tty opening
      env.note .rawMode
      return .ok { t with saved := some settings }
    else
      return .error (.device "Terminal frontend needs stdin to be a terminal")
  else
    return .ok t

/-- Leaves raw mode, if the terminal is in it. -/
def close (t : Terminal) (env : Environment m) (tty : Tty m) : m Terminal :=
  match t.saved with
  | none => return t
  | some settings => do
    say tty closing
    tty.restore settings
    env.note .restored
    return { t with saved := none }

def pollTty (env : Environment m) (tty : Tty m) : StateT Terminal m Signals := do
  let now ← StateT.lift env.now
  let bytes ← StateT.lift tty.pending
  let (t, signals) := (← get).poll now bytes
  set t
  return signals

def perform (env : Environment m) (tty : Tty m) : Request → StateT Terminal m Unit
  | .frame f => do
    let size ← StateT.lift tty.size
    modify (·.receive size f)
  | .drive => do
    StateT.lift (say tty (← get).picture)
  | .tone on => modify fun t => { t with tone := on }
  | .play => do
    if (← get).tone then
      StateT.lift (say tty [.bell])
  | .pause p => StateT.lift (env.pause p)
  | .note n => StateT.lift (env.note n)

/-- The terminal as input device, display and audio device at once. -/
def peripherals (env : Environment m) (tty : Tty m) : Peripherals (StateT Terminal m) where
  poll := pollTty env tty
  keys := return some (← get).held.toNat
  now := StateT.lift env.now
  perform := perform env tty

end Terminal

end Chip8
