import Chip8.Emulator.Basic

/-!
# Runs

Many cycles one after another, until the user wants to leave, a cycle fails, or a number of cycles is
reached.  `run` keeps to the instruction rate by waiting for the rest of each cycle; `runCycles` does not
wait.
-/

namespace Chip8.Emulator

variable {m : Type → Type} [Monad m]

/-- More cycles than a machine at the highest rate carries out in sixty million years. -/
def unlimited : Nat := 0x4000000000000000

/-- The number of cycles that a run may take; a negative limit allows none. -/
def limitOf : Option Int → Nat
  | some n => n.toNat
  | none => unlimited

/-- At most so many cycles, each filled up to `period` seconds.  Answers how many instructions were
carried out, `executed` before them included, and why the run failed, if it did. -/
def paced (p : Peripherals m) (period : Float) :
    Nat → Nat → Emulator → m (Emulator × Nat × Option CycleError)
  | 0, executed, e => return (e, executed, none)
  | limit + 1, executed, e => do
    let started ← p.now
    let (e, outcome) ← e.step p
    match outcome with
    | .error err => return (e, executed, some err)
    | .ok signals =>
      if signals.wantsExit then
        p.note .exitRequested
        return (e, executed, none)
      else
        let now ← p.now
        let rest := period - (now - started)
        p.perform (.pause ⟨if rest > 0.0 then rest else 0.0, e.running⟩)
        paced p period limit (executed + 1) e

/-- The seconds that a run gives each cycle. -/
def secondsPerCycle (e : Emulator) : Float :=
  match e.config.clock.period with
  | .ok period => period
  -- not for a rate within its bounds
  | .error _ => 0.0

/-- A run as it goes on, before it is stopped: through at most so many cycles.  Answers as `paced` does. -/
def underway (e : Emulator) (p : Peripherals m) (limit : Nat) : m (Emulator × Nat × Option CycleError) := do
  let now ← p.now
  p.note (.runStarted e.config.clock)
  paced p e.secondsPerCycle limit 0 { e with scheduler := e.scheduler.restart now, running := true }

/-- What cycles answer, from how many were gone through and why they failed. -/
def outcome (executed : Nat) : Option CycleError → Except CycleError Nat
  | none => .ok executed
  | some err => .error err

/-- The end of a run: the tone is switched off, and a failure is passed on. -/
def stopping (p : Peripherals m) (e : Emulator) (executed : Nat) (failure : Option CycleError) :
    m (Emulator × Except CycleError Nat) := do
  let e ← e.silence p
  p.note (.runStopped executed)
  return ({ e with running := false }, outcome executed failure)

def within (e : Emulator) (p : Peripherals m) (limit : Nat) : m (Emulator × Except CycleError Nat) := do
  let (e, executed, failure) ← e.underway p limit
  stopping p e executed failure

/-- Runs until the user wants to leave or `max` cycles are over, keeping to the instruction rate.  However
the run ends, the tone is switched off.  Answers the number of instructions carried out. -/
def run (e : Emulator) (p : Peripherals m) (max : Option Int) : m (Emulator × Except CycleError Nat) :=
  e.within p (limitOf max)

def unpaced (p : Peripherals m) : Nat → Nat → Emulator → m (Emulator × Except CycleError Nat)
  | 0, executed, e => return (e, .ok executed)
  | limit + 1, executed, e => do
    let (e, outcome) ← e.step p
    match outcome with
    | .error err => return (e, .error err)
    | .ok signals =>
      if signals.wantsExit then return (e, .ok executed) else unpaced p limit (executed + 1) e

/-- Carries out up to `count` cycles as fast as possible.  Answers the number of instructions carried
out, which is less than `count` if the user wants to leave. -/
def runCycles (e : Emulator) (p : Peripherals m) (count : Int) : m (Emulator × Except CycleError Nat) :=
  unpaced p count.toNat 0 e

end Chip8.Emulator
