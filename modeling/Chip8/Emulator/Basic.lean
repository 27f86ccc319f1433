import Chip8.Emulator.Config
import Chip8.Emulator.Peripherals
import Chip8.Scheduler

/-!
# The emulator

An emulator drives a machine for its peripherals.  One cycle polls the input device, carries out one
instruction, lets the timers catch up with the clock, and passes on what has changed.  The tone goes to
the audio device when it differs from what went there last: once right after the instruction, before the
timers can end it, and once after the timers.  A fault ends the cycle where it arises.
-/

namespace Chip8

inductive CycleError
  /-- The machine cannot go on. -/
  | fault (f : Fault)
  /-- The periods of the timers cannot be counted. -/
  | timing (e : PollError)
  deriving DecidableEq, Repr

/-- A machine and what drives it. -/
structure Emulator where
  config : Config
  machine : Machine
  scheduler : Scheduler
  /-- The tone that the audio device was told last. -/
  tone : Bool := false
  /-- Instructions carried out since the start or the last reset. -/
  cycles : Nat := 0
  /-- Whether a run is in progress. -/
  running : Bool := false

namespace Emulator

/-- An emulator whose scheduler starts now.  A configuration without a seed takes the one at hand. -/
def create (config : Config) (seed : Int) (now : Float) : Except RateError Emulator :=
  match Scheduler.create config.timer now with
  | .ok scheduler =>
    .ok { config, machine := .powerOn (.ofSeed (config.seed.getD seed)), scheduler }
  | .error e => .error e

def withClock (e : Emulator) (clock : Rate) : Except RateError Emulator :=
  match e.config.withClock clock with
  | .ok config => .ok { e with config }
  | .error err => .error err

/-- Rate, program counter and cycles in one line. -/
def summary (e : Emulator) : String :=
  "Emulator(clock=" ++ e.config.clock.generalText ++ "Hz, pc=$" ++ Hex.ofNat 4 e.machine.pc.toNat ++
    ", cycles=" ++ toString e.cycles ++ ")"

variable {m : Type → Type} [Monad m]

/-! ### The tone -/

/-- Tells the audio device a state of the tone, and to act on it. -/
def sound (p : Peripherals m) (on : Bool) : m Unit := do
  p.perform (.tone on)
  p.perform .play

/-- Tells the audio device the tone of the machine if that has changed. -/
def pushTone (e : Emulator) (p : Peripherals m) : m (Emulator × Signals) := do
  if e.machine.tone = e.tone then
    return (e, 0)
  sound p e.machine.tone
  return ({ e with tone := e.machine.tone }, .soundAudio)

def silence (e : Emulator) (p : Peripherals m) : m Emulator := do
  if e.tone then
    sound p false
  return { e with tone := false }

/-! ### Loading and resetting -/

/-- Loads a program; one that does not fit leaves the emulator as it is. -/
def load (e : Emulator) (p : Peripherals m) (program : List UInt8) : m (Emulator × Except Error Unit) :=
  match e.machine.load program with
  | .error err => return (e, .error err)
  | .ok machine => do
    p.note (.programLoaded program.length)
    return ({ e with machine }, .ok ())

/-- Switches the machine off and on and restarts the timers.  The program has to be loaded again. -/
def reset (e : Emulator) (p : Peripherals m) : m Emulator := do
  let e ← e.silence p
  let now ← p.now
  return { e with machine := e.machine.reset, scheduler := e.scheduler.restart now, cycles := 0 }

/-! ### One cycle -/

def pushFrame (e : Emulator) (p : Peripherals m) (signals : Signals) : m Unit := do
  if signals.wantsRefresh then
    p.perform (.frame e.machine.frame)
    p.perform .drive

/-- The part of a cycle behind its instruction, which raised `signals`: tone, timers, tone, frame. -/
def settle (e : Emulator) (p : Peripherals m) (signals : Signals) :
    m (Emulator × Except CycleError Signals) := do
  let (e, started) ← e.pushTone p
  let now ← p.now
  match e.scheduler.poll now with
  | .error err => return (e, .error (.timing err))
  | .ok (due, scheduler) =>
    let (e, stopped) ← { e with scheduler, machine := e.machine.ticks due }.pushTone p
    let signals := signals ||| started ||| stopped
    e.pushFrame p signals
    return (e, .ok signals)

/-- One instruction in a cycle whose poll answered `signals`, and what follows. -/
def carryOut (e : Emulator) (p : Peripherals m) (signals : Signals) :
    m (Emulator × Except CycleError Signals) :=
  match e.machine.fetch with
  | .error f => return (e, .error (.fault f))
  | .ok word => do
    if e.config.trace then
      p.note (.traced e.machine.pc word)
    match e.machine.exec word with
    | .error f => return (e, .error (.fault f))
    | .ok (machine, effect) =>
      if let some w := effect.warning then
        p.note (.warned w)
      { e with machine, cycles := e.cycles + 1 }.settle p (signals ||| effect.signals)

/-- The part of a cycle behind its poll, which answered `signals`.  If the user wants to leave, no
instruction is carried out. -/
def answered (e : Emulator) (p : Peripherals m) (signals : Signals) : m (Emulator × Except CycleError Signals) := do
  if signals.wantsExit then
    return (e, .ok signals)
  else if signals.hasInputs then
    let keys ← p.keys
    { e with machine := e.machine.receiveKeys keys }.carryOut p signals
  else
    e.carryOut p signals

def step (e : Emulator) (p : Peripherals m) : m (Emulator × Except CycleError Signals) :=
  p.poll >>= e.answered p

end Emulator

end Chip8
