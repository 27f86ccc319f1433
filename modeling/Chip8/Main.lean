import Chip8.Command.Disassemble
import Chip8.Command.Play

/-!
# The program

The system at hand under the two commands.  The first argument is the name of the command, `chip8` or
`chip8dis`; without one of them the command is `chip8`.

The mode of the terminal stays as the user set it, so keys arrive as they are typed if the terminal is in
raw mode already.  There is no graphics library.
-/

namespace Chip8.Main

open Command

/-- Trouble with a file, by the number that the system gave it. -/
def fileError : IO.Error → FileError
  | .noFileOrDirectory .. => .notFound
  | .permissionDenied .. => .denied
  | .inappropriateType _ number details | .resourceExhausted _ number details
  | .invalidArgument _ number details =>
    match number with
    | 20 => .notDirectory
    | 21 => .isDirectory
    | 36 => .nameTooLong
    | number => .other number.toNat details
  | e => .other 5 (toString e)

/-- An action on a file, with its trouble as a result. -/
def attempt {α : Type} (act : IO α) : IO (Except FileError α) := do
  match ← act.toBaseIO with
  | .ok a => return .ok a
  | .error e => return .error (fileError e)

def readFile (path : String) : IO (List UInt8) := do
  let h ← IO.FS.Handle.mk path .read
  return (← h.readBinToEnd).toList

/-- The files of the system.  What can be opened and read is a file. -/
def files : FileSystem IO where
  kind path := do
    match ← attempt (do let h ← IO.FS.Handle.mk path .read; h.read 1) with
    | .ok _ => return .ok .file
    | .error .isDirectory => return .ok .directory
    | .error .denied => return .ok .file
    | .error e => return .error e
  read path := attempt (readFile path)
  write path bytes := attempt (IO.FS.writeBinFile path ⟨bytes.toArray⟩)

/-- A size from the environment. -/
def sizeFrom (name : String) (otherwise : Nat) : IO Nat := do
  let text? ← IO.getEnv name
  return ((text?.bind String.toNat?).filter (0 < ·)).getD otherwise

/-- Gathers bytes as they come, for as long as some come. -/
partial def gather (input : IO.FS.Stream) (pending : IO.Ref (List UInt8)) : IO Unit := do
  let bytes ← input.read 1024
  if bytes.isEmpty then return
  pending.modify (· ++ bytes.toList)
  gather input pending

def terminal (pending : IO.Ref (List UInt8)) : Tty IO where
  isTerminal := do (← IO.getStdin).isTty
  settings := return ""
  setRaw := do
    let _ ← IO.asTask (gather (← IO.getStdin) pending) .dedicated
  restore _ := return ()
  size := return (← sizeFrom "COLUMNS" 80, ← sizeFrom "LINES" 24)
  pending := pending.modifyGet Tty.readOnce
  write text := do
    let out ← IO.getStdout
    out.putStr text
    out.flush

/-- No graphics library. -/
def graphics : Graphics IO where
  isAvailable := return false
  dispatch := return ()
  hasExit := return false
  isHeld _ := return false
  size := return (0, 0)
  call _ := return ()

def now : IO Float := return (← IO.monoNanosNow).toFloat / 1e9

/-- Waits until a time. -/
partial def waitUntil (time : Float) : IO Unit := do
  let rest := time - (← now)
  if rest > 0 then
    IO.sleep (rest * 1000).toUInt32
    waitUntil time

def system (pending : IO.Ref (List UInt8)) : System IO where
  files := files
  terminal := terminal pending
  graphics := graphics
  now := now
  pause p := do waitUntil ((← now) + p.seconds)
  seed := return (← IO.getRandomBytes 8).toList.foldl (fun n b => 256 * n + b.toNat) 0
  out text := do (← IO.getStdout).putStr text
  err text := do (← IO.getStderr).putStr text
  outIsTerminal := do (← IO.getStdout).isTty
  errIsTerminal := do (← IO.getStderr).isTty

def command (sys : System IO) : List String → IO Ending
  | "chip8dis" :: args => Disassemble.command sys args
  | "chip8" :: args | args => do
    let (ending, _) ← Play.command sys args
    return ending

end Chip8.Main

def main (args : List String) : IO UInt32 := do
  let ending ← Chip8.Main.command (Chip8.Main.system (← IO.mkRef [])) args
  (← IO.getStdout).flush
  return UInt32.ofNat ending.exitCode
