import Chip8.Command.Failure
import Chip8.Command.Usage
import Chip8.Sound
import Chip8.Terminal.Device
import Chip8.Text.Unstyled

/-!
# The system under a command

All that a command can do to the outside, in a monad `m` of the system's own, and what commands have in
common: checking files that are named on the command line, and saying what is wrong with it.
-/

namespace Chip8.Command

def version : String := "1.0.0"

/-- Files, devices, time, and two streams for text. -/
structure System (m : Type → Type) where
  files : FileSystem m
  terminal : Tty m
  graphics : Graphics m
  /-- The present time in seconds, on a clock that does not go back. -/
  now : m Float
  /-- Lets time pass. -/
  pause : Pause → m Unit
  /-- A seed that differs from run to run. -/
  seed : m Int
  /-- Writes output. -/
  out : String → m Unit
  /-- Writes messages. -/
  err : String → m Unit
  /-- Whether output goes to a terminal. -/
  outIsTerminal : m Bool
  /-- Whether messages go to a terminal. -/
  errIsTerminal : m Bool

namespace System

variable {m : Type → Type} [Monad m]

/-- Writes output, with control sequences only for a terminal. -/
def say (sys : System m) (text : String) : m Unit := do
  sys.out (if ← sys.outIsTerminal then text else Text.unstyled text)

/-- Writes a message, with control sequences only for a terminal. -/
def tell (sys : System m) (text : String) : m Unit := do
  sys.err (if ← sys.errIsTerminal then text else Text.unstyled text)

/-- Whether a notice is shown: warnings always, all else only if asked for. -/
def shows (verbose : Bool) (n : Notice) : Bool := verbose || n.level = .warning

/-- Time and reports for devices; reports go to the stream for messages. -/
def environment (sys : System m) (verbose : Bool) : Environment m where
  now := sys.now
  pause := sys.pause
  note n := if shows verbose n then sys.err (n.line ++ "\n") else return ()

def refuse (sys : System m) (e : UsageError) : m Ending := do
  sys.tell ("Error: " ++ e.text ++ "\n")
  return ⟨2, false⟩

/-- Says why the command failed, and ends. -/
def fail (sys : System m) (verbose : Bool) (label : String) (f : Failure) : m Ending := do
  sys.tell (f.line label ++ "\n")
  return f.ending verbose

/-- Accepts the path of a file, which may not be a directory and perhaps has to be there. -/
def checkFile (sys : System m) (parameter : String) (mustExist : Bool) (path : String) :
    m (Except UsageError String) := do
  match ← sys.files.kind path with
  | .ok .directory =>
    return .error (.invalidValue (some parameter) ("File " ++ Text.quoted path ++ " is a directory."))
  | .ok .file => return .ok path
  | .error _ =>
    if mustExist then
      return .error (.invalidValue (some parameter) ("File " ++ Text.quoted path ++ " does not exist."))
    else
      return .ok path

/-- Applies the choices one after another, up to the first that is not accepted. -/
def applyAll {κ ο : Type} (apply : κ → Choice → ο → m (Except UsageError ο)) :
    List (κ × Choice) → ο → m (Except UsageError ο)
  | [], o => return .ok o
  | (key, choice) :: rest, o => do
    match ← apply key choice o with
    | .error e => return .error e
    | .ok o => applyAll apply rest o

/-- Takes the one argument that a command has, a file that is there. -/
def soleFile (sys : System m) (name : String) (arguments : List String) : m (Except UsageError String) := do
  match arguments with
  | [] => return .error (.missingArgument name)
  | path :: more =>
    match ← sys.checkFile ("'" ++ name ++ "'") true path with
    | .error e => return .error e
    | .ok path => return if more.isEmpty then .ok path else .error (.extraArguments more)

end System

/-- A number, or what is wrong with it as the value of a parameter. -/
def numberFor (parameter : String) (read : String → Except String Int) (choice : Choice) :
    Except UsageError Int :=
  match choice with
  | .value text => (read text).mapError fun reason => .invalidValue (some parameter) reason
  | _ => .error (.invalidValue (some parameter) "")

end Chip8.Command
