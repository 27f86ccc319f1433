import Chip8.Rate

/-!
# Scheduling the timers

The timers go at their own rate, whatever the rate of the instructions.  A scheduler counts the periods
that have passed on a clock since it was started, and hands out each of them once:

    elapsed  |----|----|----|----|-- …      one bar a period
    consumed      1    2    3
    poll          the periods that passed since the last one handed out

A clock that jumps back hands out nothing until it has caught up.
-/

namespace Chip8

/-- A counter of periods. -/
structure Scheduler where
  /-- The length of a period in seconds. -/
  period : Float
  /-- When counting began. -/
  started : Float
  /-- How many periods have been handed out since. -/
  consumed : Nat

inductive PollError
  /-- The period has no length. -/
  | zeroPeriod
  /-- The quotient of time and period is not a number. -/
  | notANumber
  /-- The quotient of time and period is infinite. -/
  | infinite
  deriving DecidableEq, Repr

def PollError.text : PollError → String
  | .zeroPeriod => "float division by zero"
  | .notANumber => "cannot convert float NaN to integer"
  | .infinite => "cannot convert float infinity to integer"

namespace Scheduler

/-- A scheduler that starts counting now. -/
def create (frequency : Rate) (now : Float) : Except RateError Scheduler :=
  if frequency.isNotPositive then .error (.frequencyNotPositive frequency)
  else match frequency.period with
    | .ok period => .ok ⟨period, now, 0⟩
    | .error e => .error e

/-- Starts counting anew; nothing is due. -/
def restart (s : Scheduler) (now : Float) : Scheduler := { s with started := now, consumed := 0 }

def elapsed (s : Scheduler) (now : Float) : Float := now - s.started

/-- The number of whole periods in the time elapsed.  A billionth of a period is added, so that an exact
multiple of the period does not round down. -/
def passed (s : Scheduler) (now : Float) : Except PollError Int :=
  if s.period == 0.0 then .error .zeroPeriod
  else match Binary64.truncate (s.elapsed now / s.period + 1e-9) with
    | .ok n => .ok n
    | .error .notANumber => .error .notANumber
    | .error .infinite => .error .infinite

/-- The periods that are due now, and the scheduler that has handed them out. -/
def poll (s : Scheduler) (now : Float) : Except PollError (Nat × Scheduler) :=
  match s.passed now with
  | .ok n =>
    let reached := max s.consumed n.toNat
    .ok (reached - s.consumed, { s with consumed := reached })
  | .error e => .error e

end Scheduler

end Chip8
