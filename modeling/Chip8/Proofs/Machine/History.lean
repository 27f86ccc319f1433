import Mathlib
import Chip8.Proofs.Machine.Step

/-!
# Histories of a machine

What can happen to a machine from outside, one event after another, failed ones included: a failed event leaves
the machine as it is.
-/

namespace Chip8.Machine

inductive Event
  | step
  | tick
  | input (state : Option Int)
  | load (program : List UInt8)
  | reset

/-- The machine after an event, and how the event went. -/
def act (m : Machine) : Event → Machine × Except Error Signals
  | .step =>
    match m.step with
    | .ok (m', eff) => (m', .ok eff.signals)
    | .error f => (m, .error f.error)
  | .tick => (m.tick, .ok 0)
  | .input state => (m.receiveKeys state, .ok 0)
  | .load program =>
    match m.load program with
    | .ok m' => (m', .ok 0)
    | .error e => (m, .error e)
  | .reset => (m.reset, .ok 0)

theorem act_step_of_ok {m m' : Machine} {eff : Effect} (h : m.step = .ok (m', eff)) :
    m.act .step = (m', .ok eff.signals) := by
  simp [act, h]

theorem act_step_of_error {m : Machine} {f : Fault} (h : m.step = .error f) :
    m.act .step = (m, .error f.error) := by
  simp [act, h]

/-- Loading changes the memory at most. -/
theorem load_eq_ok {m m' : Machine} {program : List UInt8} (h : m.load program = .ok m') :
    ∃ memory, m' = { m with memory } := by
  unfold load at h
  split at h
  · exact ⟨_, (Except.ok.inj h).symm⟩
  · exact nomatch h

theorem act_load (m : Machine) (program : List UInt8) :
    ∃ memory, (m.act (.load program)).1 = { m with memory } := by
  cases h : m.load program with
  | error err => exact ⟨m.memory, by simp [act, h]⟩
  | ok m' =>
    obtain ⟨memory, rfl⟩ := load_eq_ok h
    exact ⟨memory, by simp [act, h]⟩

def after (m : Machine) (es : List Event) : Machine := es.foldl (fun m e => (m.act e).1) m

@[simp] theorem after_nil (m : Machine) : m.after [] = m := rfl

@[simp] theorem after_cons (m : Machine) (e : Event) (es : List Event) :
    m.after (e :: es) = (m.act e).1.after es := rfl

/-- What is kept by single events is kept by histories. -/
theorem after_induction {P : Machine → Prop} (hstep : ∀ m e, P m → P (m.act e).1) {m : Machine}
    (hm : P m) (es : List Event) : P (m.after es) := by
  induction es generalizing m with
  | nil => exact hm
  | cons e es ih => exact ih (hstep m e hm)

end Chip8.Machine
