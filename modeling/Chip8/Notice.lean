import Chip8.Listing
import Chip8.Machine.Exec
import Chip8.Rate

/-!
# Notices

What the emulator and its devices report while they work.  A notice has a level, the part that reports
it, and a text.
-/

namespace Chip8

/-- How much a notice matters. -/
inductive Level
  | debug
  | warning
  deriving DecidableEq, Repr

def Level.name : Level → String
  | .debug => "DEBUG"
  | .warning => "WARNING"

inductive Notice
  /-- A program of so many bytes is in memory. -/
  | programLoaded (size : Nat)
  /-- The machine found something odd. -/
  | warned (w : Warning)
  | programRead (path : String)
  /-- A run begins, at an instruction rate. -/
  | runStarted (clock : Rate)
  /-- A run is over, after so many cycles. -/
  | runStopped (cycles : Nat)
  | exitRequested
  /-- A word at an address is about to be carried out. -/
  | traced (pc : UInt16) (word : Word)
  | noDisplay
  | noAudio
  | rawMode
  | restored
  | windowOpened (width height : Int)

namespace Notice

def level : Notice → Level
  | .warned _ => .warning
  | _ => .debug

/-- The part that reports. -/
def source : Notice → String
  | .programLoaded _ | .warned _ => "vm.cpu"
  | .programRead _ | .runStarted _ | .runStopped _ | .exitRequested | .traced .. => "vm.emulator"
  | .noDisplay | .noAudio => "devices.null"
  | .rawMode | .restored => "devices.terminal"
  | .windowOpened .. => "devices.window"

/-- A line of a trace: address, word, and its assembly text. -/
def traceLine (pc : UInt16) (word : Word) : String :=
  Hex.ofNat 4 pc.toNat ++ ": " ++ Hex.ofNat 4 word.toNat ++ " " ++ (Line.ofWord pc.toNat word).text

def text : Notice → String
  | .programLoaded size =>
    "Loaded " ++ toString size ++ " byte ROM at 0x" ++ Hex.ofNat 3 Memory.programStart
  | .warned w => w.text
  | .programRead path => "Program loaded from " ++ path
  | .runStarted clock => "Host loop started at " ++ clock.generalText ++ " Hz"
  | .runStopped cycles => "Host loop stopped after " ++ toString cycles ++ " cycles"
  | .exitRequested => "Exit requested by input device"
  | .traced pc word => traceLine pc word
  | .noDisplay => "Nothing to display to"
  | .noAudio => "Nothing to play audio through"
  | .rawMode => "Terminal switched to raw mode"
  | .restored => "Terminal state restored"
  | .windowOpened width height => "Opened " ++ toString width ++ "x" ++ toString height ++ " window"

/-- Level, part and text in one line. -/
def line (n : Notice) : String := n.level.name ++ ": chip8vm." ++ n.source ++ ": " ++ n.text

end Notice

end Chip8
