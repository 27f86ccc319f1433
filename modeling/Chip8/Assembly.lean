import Chip8.Word

/-!
# Assembly text

How a word is written in assembly text: the name of an operation and its operands, the destination first.
`Assembly.ofWord?` goes by the four nibbles of the word and answers `none` for one that has no name.  It is a table
for readers: what a machine does with a word is not asked here.
-/

namespace Chip8

/-- How a listing spells one operand. -/
inductive Operand
  /-- A register, `V0` to `VF`. -/
  | reg (x : Reg)
  /-- A byte, `#$nn`. -/
  | byte (b : UInt8)
  /-- An address, `$nnn`. -/
  | addr (a : Addr)
  /-- A number of sprite rows, in decimal. -/
  | rows (n : Fin 16)
  /-- `I` -/
  | index
  /-- The cells that `I` points at, `[I]`. -/
  | atIndex
  /-- `DT` -/
  | delay
  /-- `ST` -/
  | sound
  /-- `K` -/
  | key
  /-- `F` -/
  | glyph
  /-- `B` -/
  | decimal
  deriving DecidableEq, Repr

def Operand.text : Operand → String
  | .reg x => "V" ++ Hex.ofNat 1 x.val
  | .byte b => "#$" ++ Hex.ofByte b
  | .addr a => "$" ++ Hex.ofNat 3 a.val
  | .rows n => toString n.val
  | .index => "I"
  | .atIndex => "[I]"
  | .delay => "DT"
  | .sound => "ST"
  | .key => "K"
  | .glyph => "F"
  | .decimal => "B"

/-- An instruction in assembly text.  One name serves several forms, which then differ in their operands. -/
structure Assembly where
  mnemonic : String
  operands : List Operand
  deriving DecidableEq, Repr

namespace Assembly

def operandText (a : Assembly) : String := String.intercalate ", " (a.operands.map Operand.text)

/-- What a word is in assembly text, if it is anything: by the first row that fits its nibbles. -/
def ofWord? (w : Word) : Option Assembly :=
  match w.op.val, w.x.val, w.y.val, w.n.val with
  | 0x0, 0x0, 0xE, 0x0 => some ⟨"CLS", []⟩
  | 0x0, 0x0, 0xE, 0xE => some ⟨"RET", []⟩
  | 0x0, _, _, _ => some ⟨"SYS", [.addr w.address]⟩
  | 0x1, _, _, _ => some ⟨"JP", [.addr w.address]⟩
  | 0x2, _, _, _ => some ⟨"CALL", [.addr w.address]⟩
  | 0x3, _, _, _ => some ⟨"SE", [.reg w.x, .byte w.byte]⟩
  | 0x4, _, _, _ => some ⟨"SNE", [.reg w.x, .byte w.byte]⟩
  | 0x5, _, _, 0x0 => some ⟨"SE", [.reg w.x, .reg w.y]⟩
  | 0x6, _, _, _ => some ⟨"LD", [.reg w.x, .byte w.byte]⟩
  | 0x7, _, _, _ => some ⟨"ADD", [.reg w.x, .byte w.byte]⟩
  | 0x8, _, _, 0x0 => some ⟨"LD", [.reg w.x, .reg w.y]⟩
  | 0x8, _, _, 0x1 => some ⟨"OR", [.reg w.x, .reg w.y]⟩
  | 0x8, _, _, 0x2 => some ⟨"AND", [.reg w.x, .reg w.y]⟩
  | 0x8, _, _, 0x3 => some ⟨"XOR", [.reg w.x, .reg w.y]⟩
  | 0x8, _, _, 0x4 => some ⟨"ADD", [.reg w.x, .reg w.y]⟩
  | 0x8, _, _, 0x5 => some ⟨"SUB", [.reg w.x, .reg w.y]⟩
  | 0x8, _, _, 0x6 => some ⟨"SHR", [.reg w.x]⟩
  | 0x8, _, _, 0x7 => some ⟨"SUBN", [.reg w.x, .reg w.y]⟩
  | 0x8, _, _, 0xE => some ⟨"SHL", [.reg w.x]⟩
  | 0x9, _, _, 0x0 => some ⟨"SNE", [.reg w.x, .reg w.y]⟩
  | 0xA, _, _, _ => some ⟨"LD", [.index, .addr w.address]⟩
  | 0xB, _, _, _ => some ⟨"JP", [.reg 0, .addr w.address]⟩
  | 0xC, _, _, _ => some ⟨"RND", [.reg w.x, .byte w.byte]⟩
  | 0xD, _, _, _ => some ⟨"DRW", [.reg w.x, .reg w.y, .rows w.n]⟩
  | 0xE, _, 0x9, 0xE => some ⟨"SKP", [.reg w.x]⟩
  | 0xE, _, 0xA, 0x1 => some ⟨"SKNP", [.reg w.x]⟩
  | 0xF, _, 0x0, 0x7 => some ⟨"LD", [.reg w.x, .delay]⟩
  | 0xF, _, 0x0, 0xA => some ⟨"LD", [.reg w.x, .key]⟩
  | 0xF, _, 0x1, 0x5 => some ⟨"LD", [.delay, .reg w.x]⟩
  | 0xF, _, 0x1, 0x8 => some ⟨"LD", [.sound, .reg w.x]⟩
  | 0xF, _, 0x1, 0xE => some ⟨"ADD", [.index, .reg w.x]⟩
  | 0xF, _, 0x2, 0x9 => some ⟨"LD", [.glyph, .reg w.x]⟩
  | 0xF, _, 0x3, 0x3 => some ⟨"LD", [.decimal, .reg w.x]⟩
  | 0xF, _, 0x5, 0x5 => some ⟨"LD", [.atIndex, .reg w.x]⟩
  | 0xF, _, 0x6, 0x5 => some ⟨"LD", [.reg w.x, .atIndex]⟩
  | _, _, _, _ => none

end Assembly

end Chip8
