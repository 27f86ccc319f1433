import Chip8.Emulator.Basic
import Chip8.Files.Tree

/-!
# Programs from files

A program that cannot be read or does not fit leaves the emulator as it was.
-/

namespace Chip8

inductive ProgramError
  /-- There is no file at the path. -/
  | missing (path : String)
  /-- The file cannot be read. -/
  | unreadable (path : String) (e : FileError)
  /-- The program does not fit. -/
  | rejected (e : Error)
  deriving DecidableEq, Repr

namespace Emulator

variable {m : Type → Type} [Monad m]

def loadFile (e : Emulator) (p : Peripherals m) (read : String → m (Except FileError (List UInt8)))
    (path : String) : m (Emulator × Except ProgramError Unit) := do
  let path := Path.plain path
  match ← read path with
  | .error .notFound | .error .notDirectory => return (e, .error (.missing path))
  | .error err => return (e, .error (.unreadable path err))
  | .ok program =>
    match ← e.load p program with
    | (e, .error err) => return (e, .error (.rejected err))
    | (e, .ok ()) => do
      p.note (.programRead path)
      return (e, .ok ())

end Emulator

end Chip8
