import Chip8.Error
import Chip8.Framebuffer
import Chip8.Instr
import Chip8.Keypad
import Chip8.Memory
import Chip8.Random
import Chip8.Timers

/-!
# The machine

The whole state of a machine, how it starts, and what its surroundings can do to it between
instructions: load a program, report key states, and let a period of the timer clock pass.
-/

namespace Chip8

/-- Events that the host of a machine has to attend to, as a set of bits. -/
abbrev Signals := Nat

namespace Signals

/-- The framebuffer has been drawn on. -/
def refreshDisplay : Signals := 1

/-- The tone has been switched on or off. -/
def soundAudio : Signals := 2

/-- The input device has a new key vector. -/
def newInputs : Signals := 4

/-- The user wants to leave. -/
def programExit : Signals := 8

def wantsRefresh (s : Signals) : Bool := s.testBit 0

def hasInputs (s : Signals) : Bool := s.testBit 2

def wantsExit (s : Signals) : Bool := s.testBit 3

end Signals

structure Machine where
  /-- The registers `V0` to `VF`. -/
  v : Vector UInt8 16
  /-- The address register. -/
  index : UInt16
  /-- Where the next instruction is. -/
  pc : UInt16
  /-- The addresses of the open calls, the latest first. -/
  stack : List Int
  /-- Whether the latest key wait found no key. -/
  awaitingKey : Bool
  memory : Memory
  screen : Framebuffer
  keys : KeyVector
  timers : Timers
  random : Random
  deriving DecidableEq

namespace Machine

/-- A machine that has just been switched on. -/
def powerOn (random : Random) : Machine where
  v := Vector.replicate 16 0
  index := 0
  pc := UInt16.ofNat Memory.programStart
  stack := []
  awaitingKey := false
  memory := .powerOn
  screen := .blank
  keys := 0
  timers := {}
  random := random

instance : Inhabited Machine := ⟨powerOn default⟩

/-- Switches the machine off and on.  Only the random numbers go on where they were. -/
def reset (m : Machine) : Machine := powerOn m.random

/-- Loads a program at `$200`; one that does not fit leaves the machine as it is. -/
def load (m : Machine) (program : List UInt8) : Except Error Machine :=
  match m.memory.load? program with
  | some memory => .ok { m with memory }
  | none => .error (.programSize program.length Memory.programCapacity)

/-- Takes over a key vector, of which the low sixteen bits count; `none` keeps the keys as they are. -/
def receiveKeys (m : Machine) : Option Int → Machine
  | none => m
  | some state => { m with keys := KeyVector.ofInt state }

def tick (m : Machine) : Machine := { m with timers := m.timers.tick }

def ticks (m : Machine) (n : Nat) : Machine := { m with timers := m.timers.ticks n }

def tone (m : Machine) : Bool := m.timers.tone

def frame (m : Machine) : Frame := m.screen.frame

def reg (m : Machine) (x : Reg) : UInt8 := m.v[x.val]

def setReg (m : Machine) (x : Reg) (b : UInt8) : Machine := { m with v := m.v.set x.val b }

/-- The registers by name, then the sizes of what else a program can see. -/
def registers (m : Machine) : List (String × Int) :=
  let others : List (String × Int) :=
    [("i", m.index.toNat), ("pc", m.pc.toNat), ("sp", m.stack.length), ("dt", m.timers.delay),
      ("st", m.timers.sound)]
  (List.finRange 16).map (fun x => ("v" ++ (Hex.ofNat 1 x.val).toLower, ((m.reg x).toNat : Int))) ++ others

def summary (m : Machine) : String :=
  "Chip8(pc=0x" ++ Hex.ofNat 4 m.pc.toNat ++ ", i=0x" ++ Hex.ofNat 4 m.index.toNat ++ ", sp=" ++
    toString m.stack.length ++ ")"

end Machine

end Chip8
