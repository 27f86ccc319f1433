import Chip8.Word

/-!
# Memory

    $000-$04F  sprites of the hexadecimal digits, five bytes each
    $050-$1FF  unused, zero
    $200-$FFF  program and data

The address bus has twelve bits: every access reduces its address modulo 4096, so `$1000` is `$000`
and `-1` is `$FFF`.
-/

namespace Chip8

/-- The 4096 cells. -/
structure Memory where
  cells : Vector UInt8 4096
  deriving DecidableEq

namespace Memory

/-- Where programs are loaded. -/
def programStart : Nat := 0x200

def programEnd : Nat := 0xFFF

/-- The largest program that fits. -/
def programCapacity : Nat := 3584

/-- The number of rows of a digit sprite. -/
def glyphHeight : Nat := 5

/-- The sprites of the digits `0` to `F`, one row a byte. -/
def glyphs : List UInt8 := [
  0xF0, 0x90, 0x90, 0x90, 0xF0,
  0x20, 0x60, 0x20, 0x20, 0x70,
  0xF0, 0x10, 0xF0, 0x80, 0xF0,
  0xF0, 0x10, 0xF0, 0x10, 0xF0,
  0x90, 0x90, 0xF0, 0x10, 0x10,
  0xF0, 0x80, 0xF0, 0x10, 0xF0,
  0xF0, 0x80, 0xF0, 0x90, 0xF0,
  0xF0, 0x10, 0x20, 0x40, 0x40,
  0xF0, 0x90, 0xF0, 0x90, 0xF0,
  0xF0, 0x90, 0xF0, 0x10, 0xF0,
  0xF0, 0x90, 0xF0, 0x90, 0x90,
  0xE0, 0x90, 0xE0, 0x90, 0xE0,
  0xF0, 0x80, 0x80, 0x80, 0xF0,
  0xE0, 0x90, 0x90, 0x90, 0xE0,
  0xF0, 0x80, 0xF0, 0x80, 0xF0,
  0xF0, 0x80, 0xF0, 0x80, 0x80]

/-- The cell that an address selects. -/
def cell (address : Int) : Addr := ⟨(address % 4096).toNat, by omega⟩

def read (m : Memory) (address : Int) : UInt8 := m.cells[(cell address).val]

def write (m : Memory) (address : Int) (b : UInt8) : Memory :=
  ⟨m.cells.set (cell address).val b⟩

/-- The word at an address, high byte first; its low byte may wrap to address zero. -/
def readWord (m : Memory) (address : Int) : Word :=
  Word.ofBytes (m.read address) (m.read (address + 1))

/-- `count` bytes from an address on; none when the count is not positive. -/
def readBytes (m : Memory) (address count : Int) : List UInt8 :=
  (List.range count.toNat).map fun (k : Nat) => m.read (address + k)

/-- Puts the bytes at consecutive addresses, first to last. -/
def writeBytes (m : Memory) (address : Int) : List UInt8 → Memory
  | [] => m
  | b :: bs => (m.write address b).writeBytes (address + 1) bs

/-- Puts numbers at consecutive addresses, each taken modulo 256. -/
def writeValues (m : Memory) (address : Int) (values : List Int) : Memory :=
  m.writeBytes address (values.map UInt8.ofInt)

/-- Memory at power-on: the digit sprites, and zero everywhere else. -/
def powerOn : Memory :=
  writeBytes ⟨Vector.replicate 4096 0⟩ 0 glyphs

instance : Inhabited Memory := ⟨powerOn⟩

/-- Copies a program to `$200`, or answers `none` when it does not fit. -/
def load? (m : Memory) (program : List UInt8) : Option Memory :=
  if program.length ≤ programCapacity then some (m.writeBytes programStart program) else none

def glyphAddress (digit : Int) : Int := digit * glyphHeight

end Memory

end Chip8
