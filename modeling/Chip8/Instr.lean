import Chip8.Word

/-!
# Instructions

The thirty-five instruction forms and the words that spell them.  A word that fits no form is no
instruction: `Instr.decode?` answers `none`.  The shifts ignore the nibble of their second register, so
they carry one register only; `00E0` and `00EE` take precedence over the system call `0nnn`.
-/

namespace Chip8

/-- What a machine can be told to do in one step. -/
inductive Instr
  /-- `00E0`: darken the framebuffer. -/
  | clear
  /-- `00EE`: go back behind the latest open call. -/
  | ret
  /-- `0nnn`: a system call, which does nothing here. -/
  | sys (a : Addr)
  /-- `1nnn`: go to an address. -/
  | jump (a : Addr)
  /-- `2nnn`: remember where we are and go to an address. -/
  | call (a : Addr)
  /-- `3xnn`: skip the next instruction if `Vx = nn`. -/
  | skipEqByte (x : Reg) (b : UInt8)
  /-- `4xnn`: skip the next instruction if `Vx ≠ nn`. -/
  | skipNeByte (x : Reg) (b : UInt8)
  /-- `5xy0`: skip the next instruction if `Vx = Vy`. -/
  | skipEq (x y : Reg)
  /-- `6xnn`: `Vx := nn`. -/
  | setByte (x : Reg) (b : UInt8)
  /-- `7xnn`: `Vx := Vx + nn`, without a flag. -/
  | addByte (x : Reg) (b : UInt8)
  /-- `8xy0`: `Vx := Vy`. -/
  | copy (x y : Reg)
  /-- `8xy1`: bitwise or. -/
  | or (x y : Reg)
  /-- `8xy2`: bitwise and. -/
  | and (x y : Reg)
  /-- `8xy3`: bitwise exclusive or. -/
  | xor (x y : Reg)
  /-- `8xy4`: `Vx := Vx + Vy`, carry in `VF`. -/
  | add (x y : Reg)
  /-- `8xy5`: `Vx := Vx - Vy`, `VF` is set unless it borrows. -/
  | sub (x y : Reg)
  /-- `8xy6`: shift `Vx` right, the lost bit in `VF`. -/
  | shiftRight (x : Reg)
  /-- `8xy7`: `Vx := Vy - Vx`, `VF` is set unless it borrows. -/
  | subFrom (x y : Reg)
  /-- `8xyE`: shift `Vx` left, the lost bit in `VF`. -/
  | shiftLeft (x : Reg)
  /-- `9xy0`: skip the next instruction if `Vx ≠ Vy`. -/
  | skipNe (x y : Reg)
  /-- `Annn`: `I := nnn`. -/
  | setIndex (a : Addr)
  /-- `Bnnn`: go to `nnn + V0`. -/
  | jumpOffset (a : Addr)
  /-- `Cxnn`: `Vx` becomes a random byte masked with `nn`. -/
  | random (x : Reg) (mask : UInt8)
  /-- `Dxyn`: draw the `n` bytes at `I` as a sprite at column `Vx` and row `Vy`. -/
  | draw (x y : Reg) (n : Fin 16)
  /-- `Ex9E`: skip the next instruction while key `Vx` is held. -/
  | skipKey (x : Reg)
  /-- `ExA1`: skip the next instruction unless key `Vx` is held. -/
  | skipNoKey (x : Reg)
  /-- `Fx07`: `Vx` becomes the delay timer. -/
  | getDelay (x : Reg)
  /-- `Fx0A`: wait for a key and put it into `Vx`. -/
  | waitKey (x : Reg)
  /-- `Fx15`: the delay timer becomes `Vx`. -/
  | setDelay (x : Reg)
  /-- `Fx18`: the sound timer becomes `Vx`. -/
  | setSound (x : Reg)
  /-- `Fx1E`: `I := I + Vx`. -/
  | addIndex (x : Reg)
  /-- `Fx29`: `I` becomes the address of the sprite of digit `Vx`. -/
  | glyph (x : Reg)
  /-- `Fx33`: the three decimal digits of `Vx` go to `I`, `I + 1` and `I + 2`. -/
  | decimal (x : Reg)
  /-- `Fx55`: `V0` to `Vx` go to memory from `I` on. -/
  | save (x : Reg)
  /-- `Fx65`: `V0` to `Vx` come from memory from `I` on. -/
  | restore (x : Reg)
  deriving DecidableEq, Repr

namespace Instr

/-- The forms of class 8, told apart by the low nibble. -/
def decodeArithmetic? (x y : Reg) (n : Fin 16) : Option Instr :=
  match n.val with
  | 0x0 => some (.copy x y)
  | 0x1 => some (.or x y)
  | 0x2 => some (.and x y)
  | 0x3 => some (.xor x y)
  | 0x4 => some (.add x y)
  | 0x5 => some (.sub x y)
  | 0x6 => some (.shiftRight x)
  | 0x7 => some (.subFrom x y)
  | 0xE => some (.shiftLeft x)
  | _ => none

/-- The forms of class F, told apart by the low byte. -/
def decodeTransfer? (x : Reg) (b : UInt8) : Option Instr :=
  match b.toNat with
  | 0x07 => some (.getDelay x)
  | 0x0A => some (.waitKey x)
  | 0x15 => some (.setDelay x)
  | 0x18 => some (.setSound x)
  | 0x1E => some (.addIndex x)
  | 0x29 => some (.glyph x)
  | 0x33 => some (.decimal x)
  | 0x55 => some (.save x)
  | 0x65 => some (.restore x)
  | _ => none

/-- The instruction that a word spells, if it spells one. -/
def decode? (w : Word) : Option Instr :=
  match w.op.val with
  | 0x0 => some (if w = 0x00E0 then .clear else if w = 0x00EE then .ret else .sys w.address)
  | 0x1 => some (.jump w.address)
  | 0x2 => some (.call w.address)
  | 0x3 => some (.skipEqByte w.x w.byte)
  | 0x4 => some (.skipNeByte w.x w.byte)
  | 0x5 => if w.n = 0 then some (.skipEq w.x w.y) else none
  | 0x6 => some (.setByte w.x w.byte)
  | 0x7 => some (.addByte w.x w.byte)
  | 0x8 => decodeArithmetic? w.x w.y w.n
  | 0x9 => if w.n = 0 then some (.skipNe w.x w.y) else none
  | 0xA => some (.setIndex w.address)
  | 0xB => some (.jumpOffset w.address)
  | 0xC => some (.random w.x w.byte)
  | 0xD => some (.draw w.x w.y w.n)
  | 0xE =>
    if w.byte = 0x9E then some (.skipKey w.x)
    else if w.byte = 0xA1 then some (.skipNoKey w.x)
    else none
  | _ => decodeTransfer? w.x w.byte

end Instr

end Chip8
