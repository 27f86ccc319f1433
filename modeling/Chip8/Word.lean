import Chip8.Hex

/-!
# Instruction words

Every instruction is one 16-bit word, stored high byte first.  Its operands are read off the nibbles:

    bits    15-12   11-8   7-4   3-0
            op      x      y     n
                           byte------
                    address----------
-/

namespace Chip8

/-- A number of one of the sixteen registers. -/
abbrev Reg := Fin 16

/-- A memory address as an instruction can spell it: twelve bits. -/
abbrev Addr := Fin 4096

/-! Numerals of both types rest on these two facts; the zero of the numbers is spelled out, since with other
libraries around there are more ways to it. -/

instance neZero_sixteen : @NeZero Nat Zero.ofOfNat0 16 := Nat.instNeZeroSucc

instance neZero_4096 : @NeZero Nat Zero.ofOfNat0 4096 := Nat.instNeZeroSucc

/-- An instruction word. -/
abbrev Word := UInt16

namespace Word

/-- The word whose bytes in memory are `hi` and then `lo`. -/
def ofBytes (hi lo : UInt8) : Word := hi.toUInt16 <<< 8 ||| lo.toUInt16

/-- The byte at the lower address. -/
def high (w : Word) : UInt8 := (w >>> 8).toUInt8

/-- The byte at the higher address. -/
def low (w : Word) : UInt8 := w.toUInt8

/-- The instruction class, bits 12 to 15. -/
def op (w : Word) : Fin 16 := Fin.ofNat 16 (w.toNat / 4096)

/-- The first register operand, bits 8 to 11. -/
def x (w : Word) : Reg := Fin.ofNat 16 (w.toNat / 256)

/-- The second register operand, bits 4 to 7. -/
def y (w : Word) : Reg := Fin.ofNat 16 (w.toNat / 16)

/-- The nibble operand, bits 0 to 3. -/
def n (w : Word) : Fin 16 := Fin.ofNat 16 w.toNat

/-- The byte operand, bits 0 to 7. -/
def byte (w : Word) : UInt8 := w.toUInt8

/-- The address operand, bits 0 to 11. -/
def address (w : Word) : Addr := Fin.ofNat 4096 w.toNat

def text (w : Word) : String := "0x" ++ Hex.ofNat 4 w.toNat

end Word

end Chip8
