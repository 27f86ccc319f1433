import Chip8.Emulator.Basic
import Chip8.Emulator.Program
import Chip8.Text.Quoted

/-!
# Failures of a command

A command that fails says why in one line and ends with an exit code: one for a program or a device that
does not work, two for a bad request, three for what should not happen.
-/

namespace Chip8.Command

inductive Failure
  /-- The program or a device does not work. -/
  | error (e : Error)
  /-- The request cannot be met as it stands. -/
  | request (text : String)
  /-- Something that should not happen. -/
  | unexpected (text : String)
  deriving DecidableEq, Repr

/-- How a command ended. -/
structure Ending where
  exitCode : Nat
  /-- Whether the place where it failed should be told as well. -/
  detailed : Bool := false
  deriving DecidableEq, Repr

def Ending.success : Ending := ⟨0, false⟩

namespace Failure

/-- The line that says why, begun by `label` for errors of the program or a device. -/
def line (label : String) : Failure → String
  | .error e => (if label.isEmpty then "Error: " else label ++ " error: ") ++ e.text
  | .request text => "Error: " ++ text
  | .unexpected text => "Internal error: " ++ text

/-- How the command ends.  A request that cannot be met needs no details. -/
def ending (verbose : Bool) : Failure → Ending
  | .error _ => ⟨1, verbose⟩
  | .request _ => ⟨2, false⟩
  | .unexpected _ => ⟨3, verbose⟩

/-- An error that the system reports: its number and wording, and what it is about. -/
def systemText (number wording : String) (subjects : List String) : String :=
  "[Errno " ++ number ++ "] " ++ wording ++
    (if subjects.isEmpty then "" else ": " ++ String.intercalate " -> " subjects)

def fileText (e : FileError) (path : String) : String :=
  systemText (toString e.number) e.wording [Text.quoted path]

/-- Whether an error of this number makes a bad request: nothing is there, or it is not permitted. -/
def isRequestNumber (number : Int) : Bool := [2, 1, 13].contains number

def ofFile (e : FileError) (path : String) : Failure :=
  if isRequestNumber e.number then .request (fileText e path) else .unexpected (fileText e path)

/-- A rate out of bounds makes a bad request. -/
def ofRate (e : RateError) : Failure :=
  match e with
  | .tooLarge => .unexpected e.text
  | _ => .request e.text

/-- A program file that is not there makes a bad request, and one that does not fit does not work. -/
def ofProgram : ProgramError → Failure
  | .missing path => .request ("ROM file not found: " ++ path)
  | .unreadable path e => .ofFile e path
  | .rejected e => .error e

/-- A fault of the machine means that the program does not work. -/
def ofCycle : CycleError → Failure
  | .fault f => .error f.error
  | .timing .notANumber => .request PollError.notANumber.text
  | .timing e => .unexpected e.text

end Failure

end Chip8.Command
