import Chip8.Machine.Basic

/-!
# Execution

A step fetches the word at the program counter, decodes it and carries it out.  Afterwards the program
counter is behind the instruction, unless the instruction set it or waits for a key.  A fault is an
answer without a machine: it changes nothing.
-/

namespace Chip8

inductive Fault
  /-- The program counter does not point at two bytes of program memory. -/
  | invalidProgramCounter (pc : UInt16)
  /-- A return while no call is open. -/
  | stackUnderflow (pc : UInt16)
  /-- A word that is no instruction. -/
  | unrecognized (pc : UInt16) (word : Word)
  deriving DecidableEq, Repr

def Fault.error : Fault → Error
  | .invalidProgramCounter pc => .invalidProgramCounter pc.toNat
  | .stackUnderflow pc => .stackUnderflow pc.toNat (some 0x00EE)
  | .unrecognized pc word => .unrecognized pc.toNat word.toNat

/-- What a machine finds odd, but goes on with. -/
inductive Warning
  /-- A system call was skipped. -/
  | systemCall (word : Word) (pc : UInt16)
  /-- A call made the stack deeper than the first machines allowed. -/
  | deepStack (pc : UInt16)
  deriving DecidableEq, Repr

/-- How deep calls can nest before a warning. -/
def stackDepth : Nat := 12

def Warning.text : Warning → String
  | .systemCall word pc =>
    "Ignoring unsupported system call " ++ word.text ++ " at PC=0x" ++ Hex.ofNat 4 pc.toNat
  | .deepStack pc =>
    "Call stack deeper than " ++ toString stackDepth ++ " entries at PC=0x" ++ Hex.ofNat 4 pc.toNat

/-- What a carried out instruction tells the host. -/
structure Effect where
  signals : Signals := 0
  warning : Option Warning := none
  deriving DecidableEq, Repr

namespace Machine

def fetch (m : Machine) : Except Fault Word :=
  -- both bytes of the word have to be program memory
  if m.pc.toNat < Memory.programStart ∨ Memory.programEnd ≤ m.pc.toNat then
    .error (.invalidProgramCounter m.pc)
  else .ok (m.memory.readWord m.pc.toNat)

def advance (m : Machine) : Machine := { m with pc := m.pc + 2 }

/-- Goes on to the next instruction, or to the one behind it if a condition holds. -/
def skipIf (m : Machine) (condition : Bool) : Machine :=
  if condition then m.advance.advance else m.advance

/-- Whether exactly as many calls are open as the first machines allowed.  One entry more than that
is enough to tell. -/
def hasFullStack (m : Machine) : Bool := (m.stack.take (stackDepth + 1)).length == stackDepth

/-- Gives a register a value and then `VF` a flag. -/
def setFlagged (m : Machine) (x : Reg) (b : UInt8) (flag : Bool) : Machine :=
  (m.setReg x b).setReg 0xF (if flag then 1 else 0)

/-- The registers `V0` to `Vx`, from memory at `I`. -/
def restored (m : Machine) (x : Reg) : Vector UInt8 16 :=
  Vector.ofFn fun k => if k ≤ x then m.memory.read (m.index.toNat + k.val) else m.reg k

/-- Draws the sprite of `n` bytes at `I`; `VF` tells whether it collided. -/
def drawSprite (m : Machine) (x y : Reg) (n : Fin 16) : Machine :=
  let sprite := m.memory.readBytes m.index.toNat n.val
  let (screen, collided) := m.screen.draw (m.reg x).toNat (m.reg y).toNat sprite
  { m with screen }.setReg 0xF (if collided then 1 else 0)

/-- Looks for a held key, in cyclic order from a random one so that no key is preferred.  Without one
the machine stays at the instruction. -/
def awaitKey (m : Machine) (x : Reg) : Machine :=
  let (start, random) := m.random.key
  match m.keys.firstDown? start.val with
  | none => { m with random, awaitingKey := true }
  | some k => ({ m with random, awaitingKey := false }.setReg x (UInt8.ofNat k.val)).advance

def perform (m : Machine) (i : Instr) : Except Fault (Machine × Effect) :=
  match i with
  | .clear => .ok ({ m with screen := .blank }.advance, { signals := .refreshDisplay })
  | .ret =>
    match m.stack with
    | [] => .error (.stackUnderflow m.pc)
    | caller :: stack => .ok ({ m with stack, pc := UInt16.ofInt caller }.advance, {})
  | .sys a => .ok (m.advance, { warning := some (.systemCall (UInt16.ofNat a.val) m.pc) })
  | .jump a => .ok ({ m with pc := UInt16.ofNat a.val }, {})
  | .call a =>
    let warning := if m.hasFullStack then some (.deepStack m.pc) else none
    .ok ({ m with stack := m.pc.toNat :: m.stack, pc := UInt16.ofNat a.val }, { warning })
  | .skipEqByte x b => .ok (m.skipIf (m.reg x == b), {})
  | .skipNeByte x b => .ok (m.skipIf (m.reg x != b), {})
  | .skipEq x y => .ok (m.skipIf (m.reg x == m.reg y), {})
  | .skipNe x y => .ok (m.skipIf (m.reg x != m.reg y), {})
  | .setByte x b => .ok ((m.setReg x b).advance, {})
  | .addByte x b => .ok ((m.setReg x (m.reg x + b)).advance, {})
  | .copy x y => .ok ((m.setReg x (m.reg y)).advance, {})
  | .or x y => .ok ((m.setReg x (m.reg x ||| m.reg y)).advance, {})
  | .and x y => .ok ((m.setReg x (m.reg x &&& m.reg y)).advance, {})
  | .xor x y => .ok ((m.setReg x (m.reg x ^^^ m.reg y)).advance, {})
  | .add x y =>
    .ok ((m.setFlagged x (m.reg x + m.reg y) (0xFF < (m.reg x).toNat + (m.reg y).toNat)).advance, {})
  | .sub x y => .ok ((m.setFlagged x (m.reg x - m.reg y) (m.reg y ≤ m.reg x)).advance, {})
  | .shiftRight x => .ok ((m.setFlagged x (m.reg x >>> 1) ((m.reg x).toNat.testBit 0)).advance, {})
  | .subFrom x y => .ok ((m.setFlagged x (m.reg y - m.reg x) (m.reg x ≤ m.reg y)).advance, {})
  | .shiftLeft x => .ok ((m.setFlagged x (m.reg x <<< 1) ((m.reg x).toNat.testBit 7)).advance, {})
  | .setIndex a => .ok ({ m with index := UInt16.ofNat a.val }.advance, {})
  | .jumpOffset a => .ok ({ m with pc := UInt16.ofNat a.val + (m.reg 0).toUInt16 }, {})
  | .random x mask =>
    let (b, random) := m.random.byte
    .ok (({ m with random }.setReg x (b &&& mask)).advance, {})
  | .draw x y n => .ok ((m.drawSprite x y n).advance, { signals := .refreshDisplay })
  | .skipKey x => .ok (m.skipIf (m.keys.isDown (Key.ofInt (m.reg x).toNat)), {})
  | .skipNoKey x => .ok (m.skipIf (!m.keys.isDown (Key.ofInt (m.reg x).toNat)), {})
  | .getDelay x => .ok ((m.setReg x (UInt8.ofInt m.timers.delay)).advance, {})
  | .waitKey x => .ok (m.awaitKey x, {})
  | .setDelay x => .ok ({ m with timers.delay := (m.reg x).toNat }.advance, {})
  | .setSound x => .ok ({ m with timers.sound := (m.reg x).toNat }.advance, {})
  | .addIndex x => .ok ({ m with index := m.index + (m.reg x).toUInt16 }.advance, {})
  | .glyph x => .ok ({ m with index := UInt16.ofInt (Memory.glyphAddress (m.reg x).toNat) }.advance, {})
  | .decimal x =>
    let n := m.reg x
    .ok ({ m with memory := m.memory.writeBytes m.index.toNat [n / 100, n / 10 % 10, n % 10] }.advance, {})
  | .save x =>
    .ok ({ m with memory := m.memory.writeBytes m.index.toNat (m.v.toList.take (x.val + 1)) }.advance, {})
  | .restore x => .ok ({ m with v := m.restored x }.advance, {})

/-- Carries out the instruction that a word spells. -/
def exec (m : Machine) (w : Word) : Except Fault (Machine × Effect) :=
  match Instr.decode? w with
  | some i => m.perform i
  | none => .error (.unrecognized m.pc w)

def step (m : Machine) : Except Fault (Machine × Effect) :=
  match m.fetch with
  | .ok w => m.exec w
  | .error f => .error f

end Machine

end Chip8
