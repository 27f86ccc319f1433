import Chip8.Assembly

/-!
# Listings

Bytes read as assembly text, two at a time.  A word that is no instruction is listed as `.WORD`, and an
odd byte at the end as `.BYTE`, since programs mix code and pictures freely.  A line keeps the bytes it
stands for, so that nothing of the listed bytes is lost.
-/

namespace Chip8

/-- What a line of a listing stands for. -/
inductive Content
  /-- A word and what it is in assembly text. -/
  | instr (word : Word) (assembly : Assembly)
  /-- A word that is no instruction. -/
  | word (word : Word)
  /-- The odd byte at the end. -/
  | byte (b : UInt8)
  deriving DecidableEq, Repr

/-- A line of a listing.  The address may be any number: it is only shown. -/
structure Line where
  address : Int
  content : Content
  deriving DecidableEq, Repr

inductive OffsetError
  /-- The place is at the end of a buffer of `size` bytes or behind it. -/
  | beyondEnd (offset : Int) (size : Nat)
  /-- The place is in front of the buffer. -/
  | beforeStart
  /-- The place is so far in front that no buffer has such an index. -/
  | noIndex
  deriving DecidableEq, Repr

def OffsetError.text : OffsetError → String
  | .beyondEnd offset size => "Offset " ++ toString offset ++ " beyond data length " ++ toString size
  | .beforeStart => "index out of range"
  | .noIndex => "cannot fit 'int' into an index-sized integer"

namespace Line

def ofWord (address : Int) (w : Word) : Line :=
  ⟨address, match Assembly.ofWord? w with
    | some a => .instr w a
    | none => .word w⟩

/-- The name of the operation or of the directive. -/
def mnemonic (l : Line) : String :=
  match l.content with
  | .instr _ a => a.mnemonic
  | .word _ => ".WORD"
  | .byte _ => ".BYTE"

/-- What stands behind the name; it may be empty. -/
def operands (l : Line) : String :=
  match l.content with
  | .instr _ a => a.operandText
  | .word w => "$" ++ Hex.ofNat 4 w.toNat
  | .byte b => "$" ++ Hex.ofByte b

def bytes (l : Line) : List UInt8 :=
  match l.content with
  | .instr w _ | .word w => [w.high, w.low]
  | .byte b => [b]

/-- The bytes as one number. -/
def value (l : Line) : Nat :=
  match l.content with
  | .instr w _ | .word w => w.toNat
  | .byte b => b.toNat

/-- A remark, empty for most lines. -/
def comment (l : Line) : String :=
  match l.content with
  | .word _ => "unknown instruction"
  | _ => ""

def text (l : Line) : String :=
  if l.operands.isEmpty then l.mnemonic else l.mnemonic ++ " " ++ l.operands

/-- Fills up with blanks on the right. -/
def column (width : Nat) (s : String) : String := String.ofList (s.toList.rightpad width ' ')

def label (l : Line) : String := "$" ++ Hex.ofInt 4 l.address ++ ":"

/-- The bytes in hexadecimal, in a column of five characters. -/
def byteColumn (l : Line) : String := column 5 (String.intercalate " " (l.bytes.map Hex.ofByte))

def render (l : Line) : String :=
  let front := l.label ++ " " ++ l.byteColumn ++ "  "
  if l.comment.isEmpty then front ++ l.text else front ++ column 16 l.text ++ " ; " ++ l.comment

/-- The line with its address only. -/
def renderBrief (l : Line) : String :=
  let front := l.label ++ " " ++ l.text
  if l.comment.isEmpty then front else front ++ "  ; " ++ l.comment

end Line

/-! ### Whole buffers -/

namespace Listing

/-- Whether so many lines are all that were asked for.  Without a count they never are. -/
def isFull (count : Option Int) (listed : Nat) : Bool := count.any fun n => n ≤ (listed : Int)

/-- The lines of a buffer whose first byte is at `address`, behind so many others. -/
def linesAfter (count : Option Int) (listed : Nat) (address : Int) : List UInt8 → List Line
  | [] => []
  | [b] => if isFull count listed then [] else [⟨address, .byte b⟩]
  | high :: low :: rest =>
    if isFull count listed then []
    else Line.ofWord address (Word.ofBytes high low) :: linesAfter count (listed + 1) (address + 2) rest

/-- At most `count` lines of a buffer, all of them without a count. -/
def firstLines (data : List UInt8) (address : Int) (count : Option Int) : List Line :=
  linesAfter count 0 address data

/-- At most `count` lines of a buffer as text. -/
def render (data : List UInt8) (address : Int) (count : Option Int) : String :=
  String.intercalate "\n" ((firstLines data address count).map Line.render)

/-- The byte at an index; a negative index counts from the end. -/
def byteAt? (data : List UInt8) (index : Int) : Option UInt8 :=
  if 0 ≤ index then data[index.toNat]?
  else if 0 ≤ index + data.length then data[(index + data.length).toNat]? else none

/-- The least number that is an index of some buffer, counted from its end. -/
def leastIndex : Int := -0x8000000000000000

/-- The line for the bytes at `offset` and `offset + 1`, or for the last byte alone. -/
def lineAt (data : List UInt8) (address offset : Int) : Except OffsetError Line :=
  if (data.length : Int) ≤ offset then .error (.beyondEnd offset data.length)
  else if offset < leastIndex then .error .noIndex
  else match byteAt? data offset with
    | none => .error .beforeStart
    | some high =>
      if (data.length : Int) ≤ offset + 1 then .ok ⟨address, .byte high⟩
      else match byteAt? data (offset + 1) with
        | none => .error .beforeStart
        | some low => .ok (Line.ofWord address (Word.ofBytes high low))

end Listing

end Chip8
