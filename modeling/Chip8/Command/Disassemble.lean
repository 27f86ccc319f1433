import Chip8.Command.Address
import Chip8.Command.System
import Chip8.Listing

/-!
# The disassembling command

Lists a program file as assembly text, on the output or into another file.
-/

namespace Chip8.Command.Disassemble

inductive Key
  | output
  | start
  | count
  | noBytes
  | verbose
  | version
  | help
  deriving DecidableEq, Repr

def specs : List (OptionSpec Key) := [
  { key := .output, names := ["-o", "--output"], takesValue := true },
  { key := .start, names := ["-s", "--start"], takesValue := true },
  { key := .count, names := ["-c", "--count"], takesValue := true },
  { key := .noBytes, names := ["--no-bytes"] },
  { key := .verbose, names := ["-v", "--verbose"] },
  { key := .version, names := ["--version"] },
  { key := .help, names := ["--help"] }]

structure Settings where
  output : Option String := none
  start : String := "0x" ++ Hex.ofNat 3 Memory.programStart
  count : Option Int := none
  noBytes : Bool := false
  verbose : Bool := false

variable {m : Type → Type} [Monad m]

/-- Takes over one choice. -/
def apply (sys : System m) (key : Key) (choice : Choice) (s : Settings) : m (Except UsageError Settings) := do
  match key, choice with
  | .output, .value path =>
    match ← sys.checkFile "'-o' / '--output'" false path with
    | .error e => return .error e
    | .ok path => return .ok { s with output := some path }
  | .start, .value text => return .ok { s with start := text }
  | .count, choice =>
    return (numberFor "'-c' / '--count'" ({ least := 1 } : Range).read choice).map
      fun n => { s with count := some n }
  | .noBytes, _ => return .ok { s with noBytes := true }
  | .verbose, _ => return .ok { s with verbose := true }
  | _, _ => return .ok s

/-- The listing of a program as text, with a head that says what is listed. -/
def listing (s : Settings) (name : String) (address : Nat) (program : List UInt8) (lines : List Line) :
    String :=
  let head := [
    "; Disassembly of " ++ name,
    "; Size: " ++ toString program.length ++ " bytes",
    "; Base address: $" ++ Hex.ofNat 4 address,
    ""]
  let body := lines.map fun l => if s.noBytes then l.renderBrief else l.render
  String.intercalate "\n" (head ++ body) ++ "\n"

/-- Puts the listing where it was asked for. -/
def deliver (sys : System m) (s : Settings) (text : String) : m (Except Failure Unit) := do
  match s.output with
  | none => sys.say text; return .ok ()
  | some path =>
    let path := Path.plain path
    match ← sys.files.write path text.toUTF8.toList with
    | .error e => return .error (Failure.ofFile e path)
    | .ok () =>
      if s.verbose then
        sys.tell ("Output written to: " ++ path ++ "\n")
      return .ok ()

/-- Lists the program in a file from an address on. -/
def list (sys : System m) (s : Settings) (input : String) (address : Nat) : m Ending := do
  let path := Path.plain input
  match ← sys.files.read path with
  | .error e => sys.fail s.verbose "" (Failure.ofFile e path)
  | .ok [] => sys.fail s.verbose "" (.request (path ++ " is empty"))
  | .ok program =>
    if s.verbose then
      sys.tell ("Input file: " ++ path ++ " (" ++ toString program.length ++ " bytes)\n")
      sys.tell ("Base address: $" ++ Hex.ofNat 4 address ++ "\n")
    let lines := Listing.firstLines program address s.count
    match ← deliver sys s (listing s (Path.name path) address program lines) with
    | .error f => sys.fail s.verbose "" f
    | .ok () =>
      if s.verbose then
        sys.tell ("Instructions disassembled: " ++ toString lines.length ++ "\n")
      return .success

def command (sys : System m) (args : List String) : m Ending := do
  match parse specs args with
  | .error e => sys.refuse e
  | .ok parsed =>
    let choices := parsed.settled
    match choices.find? fun (key, _) => key = .version ∨ key = .help with
    | some (.version, _) => sys.say ("chip8dis, version " ++ version ++ "\n"); return .success
    | some _ => sys.say "Usage: chip8dis [OPTIONS] INPUT_FILE\n"; return .success
    | none =>
      match ← System.applyAll (apply sys) choices {} with
      | .error e => sys.refuse e
      | .ok settings =>
        match ← sys.soleFile "INPUT_FILE" parsed.arguments with
        | .error e => sys.refuse e
        | .ok input =>
          match parseAddress settings.start with
          | .error .notANumber => sys.fail false "" (.request ("Invalid address '" ++ settings.start ++ "'"))
          | .error e => sys.refuse (.invalidValue none e.text)
          | .ok address => list sys settings input address

end Chip8.Command.Disassemble
