import Chip8.Hex

/-!
# Errors

What can go wrong with a program or a device, as causes, and the text of each.  Every one of them ends
the program that met it; a defect of the program names the program counter, and the offending word where
there is one.
-/

namespace Chip8

inductive ErrorFamily
  | general
  | loading
  /-- The program does something that no program may do. -/
  | program
  /-- A device could not be started. -/
  | device
  deriving DecidableEq, Repr

/-- An error of the machine or of what is around it. -/
inductive Error
  | general (text : String)
  | loading (text : String)
  /-- A program of `size` bytes where at most `capacity` fit. -/
  | programSize (size capacity : Int)
  /-- A defect of the program, with a text of its own. -/
  | malformed (text : String) (pc : Int) (word : Option Int)
  /-- A return while no call is open. -/
  | stackUnderflow (pc : Int) (word : Option Int)
  /-- The program counter left the program memory. -/
  | invalidProgramCounter (pc : Int)
  /-- A word that is no instruction. -/
  | unrecognized (pc word : Int)
  /-- A device could not be started. -/
  | device (text : String)
  deriving DecidableEq, Repr

namespace Error

def family : Error → ErrorFamily
  | .general _ => .general
  | .loading _ | .programSize .. => .loading
  | .malformed .. | .stackUnderflow .. | .invalidProgramCounter _ | .unrecognized .. => .program
  | .device _ => .device

/-- For a defect of the program: what is wrong, the program counter, and the word if there is one. -/
def defect? : Error → Option (String × Int × Option Int)
  | .malformed text pc word => some (text, pc, word)
  | .stackUnderflow pc word => some ("Return with empty call stack:", pc, word)
  | .invalidProgramCounter pc => some ("Program counter outside program memory", pc, none)
  | .unrecognized pc word => some ("Unrecognized instruction", pc, some word)
  | _ => none

def defectText (what : String) (pc : Int) (word : Option Int) : String :=
  let wordText := match word with
    | none => ""
    | some w => " 0x" ++ Hex.ofInt 4 w
  what ++ wordText ++ " at PC=0x" ++ Hex.ofInt 4 pc

def text : Error → String
  | .general text | .loading text | .device text => text
  | .programSize size capacity =>
    "ROM is " ++ toString size ++ " bytes, program memory holds at most " ++ toString capacity ++ " bytes"
  | e =>
    match e.defect? with
    | some (what, pc, word) => defectText what pc word
    | none => ""

end Error

end Chip8
