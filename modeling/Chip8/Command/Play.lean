import Chip8.Command.System
import Chip8.Emulator.Run

/-!
# The running command

Runs a program file in the terminal, in a window, or without any devices.  Trouble with the file comes
before a device is opened, and whatever was opened is closed however the run ends.
-/

namespace Chip8.Command.Play

inductive Key
  | gui
  | headless
  | nativeAudio
  | bell
  | freq
  | maxCycles
  | seed
  | trace
  | verbose
  | version
  | help
  deriving DecidableEq, Repr

def specs : List (OptionSpec Key) := [
  { key := .gui, names := ["-g", "--gui"], opposites := ["-t", "--tui"] },
  { key := .headless, names := ["--headless"] },
  { key := .nativeAudio, names := ["-a", "--native-audio"] },
  { key := .bell, names := ["--bell"] },
  { key := .freq, names := ["-f", "--freq"], takesValue := true },
  { key := .maxCycles, names := ["-n", "--max-cycles"], takesValue := true },
  { key := .seed, names := ["--seed"], takesValue := true },
  { key := .trace, names := ["--trace"] },
  { key := .verbose, names := ["-v", "--verbose"] },
  { key := .version, names := ["--version"] },
  { key := .help, names := ["--help"] }]

structure Settings where
  gui : Bool := false
  headless : Bool := false
  nativeAudio : Bool := false
  bell : Bool := false
  freq : Int := 720
  maxCycles : Option Int := none
  seed : Option Int := none
  trace : Bool := false
  verbose : Bool := false

/-- Whether the tone is synthesized: if asked for, and with a window, unless the bell is asked for. -/
def wantsNativeAudio (gui nativeAudio bell : Bool) : Bool := (nativeAudio || gui) && !bell

/-- Takes over one choice. -/
def apply (key : Key) (choice : Choice) (s : Settings) : Except UsageError Settings :=
  match key with
  | .gui => .ok { s with gui := choice = .on }
  | .headless => .ok { s with headless := true }
  | .nativeAudio => .ok { s with nativeAudio := true }
  | .bell => .ok { s with bell := true }
  | .freq =>
    (numberFor "'-f' / '--freq'" ({ least := 1, greatest := some 2000 } : Range).read choice).map
      fun n => { s with freq := n }
  | .maxCycles =>
    (numberFor "'-n' / '--max-cycles'" ({ least := 0 } : Range).read choice).map
      fun n => { s with maxCycles := some n }
  | .seed => (numberFor "'--seed'" readInteger choice).map fun n => { s with seed := some n }
  | .trace => .ok { s with trace := true }
  | .verbose => .ok { s with verbose := true }
  | .version | .help => .ok s

/-- Whether notices of all levels are shown. -/
def Settings.isVerbose (s : Settings) : Bool := s.verbose || s.trace

def Settings.config (s : Settings) : Config := { clock := .whole s.freq, trace := s.trace, seed := s.seed }

variable {m : Type → Type} [Monad m]

/-- How a run ended: the emulator afterwards, and the number of instructions or why there is none. -/
abbrev Played := Emulator × Except Failure Nat

/-- The outcome of a run in terms of the command. -/
def played : Emulator × Except CycleError Nat → Played
  | (e, .ok n) => (e, .ok n)
  | (e, .error err) => (e, .error (Failure.ofCycle err))

/-- The synthesized tone, which needs a graphics library. -/
def nativeSpeaker (sys : System m) : m (Except Failure (Speaker m)) := do
  if ← sys.graphics.isAvailable then
    return .ok (← Speaker.startSine sys.graphics Speaker.pitch)
  else
    return .error (.error (.device "Native audio needs pyglet: pip install chip8vm[gui]"))

def playHeadless (env : Environment m) (s : Settings) (e : Emulator) : m Played := do
  let (result, _) ← (e.run (Unplugged.peripherals env) s.maxCycles).run {}
  return played result

/-- Runs in a terminal that has been opened, with its bell or with another speaker. -/
def playOpened (sys : System m) (env : Environment m) (s : Settings) (e : Emulator)
    (speaker : Option (Speaker m)) (t : Terminal) : m Played := do
  let p := Terminal.peripherals env sys.terminal
  match speaker with
  | none =>
    let (result, t) ← (e.run p s.maxCycles).run t
    let _ ← t.close env sys.terminal
    return played result
  | some speaker =>
    let ((result, _), t) ← ((e.run ((speaker.lift Terminal).attach p) s.maxCycles).run false).run t
    let _ ← t.close env sys.terminal
    return played result

def playTerminal (sys : System m) (env : Environment m) (s : Settings) (e : Emulator) : m Played := do
  let speaker : Except Failure (Option (Speaker m)) ←
    if wantsNativeAudio s.gui s.nativeAudio s.bell then do
      let speaker ← nativeSpeaker sys
      pure (speaker.map some)
    else pure (.ok none)
  match speaker with
  | .error f => return (e, .error f)
  | .ok speaker =>
    match ← Terminal.start env sys.terminal true with
    | .error err => return (e, .error (.error err))
    | .ok t => playOpened sys env s e speaker t

def playWindow (sys : System m) (env : Environment m) (s : Settings) (e : Emulator) (title : String) :
    m Played := do
  if ← sys.graphics.isAvailable then
    let w ← Window.start env sys.graphics title Window.defaultScale
    let speaker ←
      if wantsNativeAudio s.gui s.nativeAudio s.bell then Speaker.startSine sys.graphics Speaker.pitch
      else pure (Speaker.bell sys.out)
    let p := (speaker.lift Window).attach (Window.peripherals env sys.graphics)
    let ((result, _), _) ← ((e.run p s.maxCycles).run false).run w
    Window.close sys.graphics
    return played result
  else
    return (e, .error (.error (.device "The windowed frontend needs pyglet: pip install chip8vm[gui]")))

/-- Loads the program in a file and runs it as asked for. -/
def play (sys : System m) (env : Environment m) (s : Settings) (path : String) (e : Emulator) : m Played := do
  let silent : Peripherals m := { poll := pure 0, keys := pure none, now := sys.now, perform := fun
    | .note n => env.note n
    | _ => pure () }
  match ← e.loadFile silent sys.files.read path with
  | (e, .error err) => return (e, .error (Failure.ofProgram err))
  | (e, .ok ()) =>
    if s.headless then playHeadless env s e
    else if s.gui then playWindow sys env s e (Path.name path)
    else playTerminal sys env s e

/-- Runs a program file; also answers the emulator, if there has been one. -/
def perform (sys : System m) (s : Settings) (path : String) : m (Ending × Option Emulator) := do
  let env := sys.environment s.isVerbose
  let seed ← sys.seed
  let now ← sys.now
  match s.config.check.bind (Emulator.create · seed now) with
  | .error err => return (← sys.fail s.isVerbose "Emulator" (Failure.ofRate err), none)
  | .ok e =>
    match ← play sys env s path e with
    | (e, .error f) => return (← sys.fail s.isVerbose "Emulator" f, some e)
    | (e, .ok executed) =>
      if s.isVerbose then
        sys.tell ("Executed " ++ toString executed ++ " instructions\n")
        sys.tell ("Final state: " ++ e.summary ++ "\n")
      return (.success, some e)

/-- The command with its arguments; also answers the emulator, if there has been one. -/
def command (sys : System m) (args : List String) : m (Ending × Option Emulator) := do
  match parse specs args with
  | .error e => return (← sys.refuse e, none)
  | .ok parsed =>
    let choices := parsed.settled
    match choices.find? fun (key, _) => key = .version ∨ key = .help with
    | some (.version, _) => sys.say ("chip8, version " ++ version ++ "\n"); return (.success, none)
    | some _ => sys.say "Usage: chip8 [OPTIONS] ROM\n"; return (.success, none)
    | none =>
      match ← System.applyAll (fun key choice s => return apply key choice s) choices {} with
      | .error e => return (← sys.refuse e, none)
      | .ok settings =>
        match ← sys.soleFile "ROM" parsed.arguments with
        | .error e => return (← sys.refuse e, none)
        | .ok path => perform sys settings path

end Chip8.Command.Play
