import Mathlib
import Chip8.Proofs.Machine.Bounds

/-!
# Faults

A step fails in three ways only, and which of them it is can be read off the machine: the program counter is
outside program memory; or else the word there is `00EE` and no call is open; or else the word is of none of the
thirty-five forms.  In all other cases it is carried out (`step_cases`).  A failed step leaves the machine as it
is, and its error names the program counter and the word.
-/

namespace Chip8.Machine

section Cases

variable {m : Machine}

theorem act_step_of_not_inside (h : ¬ m.Inside) :
    m.act .step = (m, .error (.invalidProgramCounter m.pc.toNat)) :=
  act_step_of_error (by rw [step, fetch_of_not_inside h])

theorem act_step_of_underflow (h : m.Inside) (hw : m.word = 0x00EE) (hs : m.stack = []) :
    m.act .step = (m, .error (.stackUnderflow m.pc.toNat (some m.word.toNat))) := by
  have hd : Instr.decode? m.word = some .ret := (Instr.decode?_eq_ret_iff _).mpr hw
  have hstep : m.step = .error (.stackUnderflow m.pc) := by
    rw [step, fetch_of_inside h]
    simp only [exec, hd, perform, hs]
  rw [act_step_of_error hstep, hw]
  rfl

theorem act_step_of_unrecognized (h : m.Inside) (hd : Instr.decode? m.word = none) :
    m.act .step = (m, .error (.unrecognized m.pc.toNat m.word.toNat)) := by
  have hstep : m.step = .error (.unrecognized m.pc m.word) := by
    rw [step, fetch_of_inside h]
    simp only [exec, hd]
  rw [act_step_of_error hstep]
  rfl

theorem act_step_of_some {i : Instr} (h : m.Inside) (hd : Instr.decode? m.word = some i)
    (hi : ¬ (m.word = 0x00EE ∧ m.stack = [])) :
    ∃ m', m.act .step = (m', .ok (if i.draws then .refreshDisplay else 0)) := by
  cases hp : m.perform i with
  | error f =>
    obtain ⟨rfl, hs, -⟩ := perform_eq_error_iff.mp hp
    exact absurd ⟨(Instr.decode?_eq_ret_iff _).mp hd, hs⟩ hi
  | ok r =>
    have hstep : m.step = .ok (r.1, r.2) := step_eq_ok_iff.mpr ⟨i, h, hd, hp⟩
    exact ⟨r.1, by rw [act_step_of_ok hstep, perform_signals hp]⟩

/-- **How a step ends.** -/
theorem step_cases (m : Machine) :
    (¬ m.Inside ∧ m.act .step = (m, .error (.invalidProgramCounter m.pc.toNat))) ∨
    (m.Inside ∧ (m.word = 0x00EE ∧ m.stack = []) ∧
      m.act .step = (m, .error (.stackUnderflow m.pc.toNat (some m.word.toNat)))) ∨
    (m.Inside ∧ Instr.decode? m.word = none ∧
      m.act .step = (m, .error (.unrecognized m.pc.toNat m.word.toNat))) ∨
    (m.Inside ∧ ¬ (m.word = 0x00EE ∧ m.stack = []) ∧
      ∃ i m', Instr.decode? m.word = some i ∧
        m.act .step = (m', .ok (if i.draws then .refreshDisplay else 0))) := by
  by_cases hin : m.Inside
  · by_cases hu : m.word = 0x00EE ∧ m.stack = []
    · exact .inr (.inl ⟨hin, hu, act_step_of_underflow hin hu.1 hu.2⟩)
    · cases hd : Instr.decode? m.word with
      | none => exact .inr (.inr (.inl ⟨hin, rfl, act_step_of_unrecognized hin hd⟩))
      | some i =>
        obtain ⟨m', hm'⟩ := act_step_of_some hin hd hu
        exact .inr (.inr (.inr ⟨hin, hu, i, m', rfl, hm'⟩))
  · exact .inl ⟨hin, act_step_of_not_inside hin⟩

end Cases

/-! ### The outcomes -/

/-- The documented outcomes of a step, and when each of them comes about. -/
structure Documented (m : Machine) : Prop where
  invalidProgramCounter :
    (m.act .step).2 = .error (.invalidProgramCounter m.pc.toNat) ↔ ¬ m.Inside
  stackUnderflow :
    (m.act .step).2 = .error (.stackUnderflow m.pc.toNat (some m.word.toNat)) ↔
      m.Inside ∧ m.word = 0x00EE ∧ m.stack = []
  unrecognized :
    (m.act .step).2 = .error (.unrecognized m.pc.toNat m.word.toNat) ↔
      m.Inside ∧ ∀ p ∈ Pattern.forms, ¬ p.Matches m.word
  /-- There is no other error. -/
  errors : ∀ e, (m.act .step).2 = .error e →
    e = .invalidProgramCounter m.pc.toNat ∨ e = .stackUnderflow m.pc.toNat (some m.word.toNat) ∨
      e = .unrecognized m.pc.toNat m.word.toNat
  /-- A failed step commits nothing. -/
  unchanged : ∀ e, (m.act .step).2 = .error e → (m.act .step).1 = m
  signals : ∀ s, (m.act .step).2 = .ok s → s = 0 ∨ s = .refreshDisplay

theorem documented (m : Machine) : m.Documented := by
  rcases m.step_cases with ⟨hin, h⟩ | ⟨hin, hu, h⟩ | ⟨hin, hd, h⟩ | ⟨hin, hu, i, m', hd, h⟩
  · constructor <;> simp [h, hin]
  · have hd : Instr.decode? 0x00EE ≠ none := by simp [(Instr.decode?_eq_ret_iff _).mpr rfl]
    constructor <;> simp [h, hin, hu, ← Instr.decode?_eq_none_iff, hd]
  · have hu : ¬ (m.word = 0x00EE ∧ m.stack = []) := by
      rintro ⟨hw, -⟩
      simp [(Instr.decode?_eq_ret_iff _).mpr hw] at hd
    constructor <;> simp [h, hin, hu, ← Instr.decode?_eq_none_iff, hd]
  · constructor <;> simp [h, hin, hu, ← Instr.decode?_eq_none_iff, hd]
    cases i.draws <;> simp

theorem load_of_fits {program : List UInt8} (h : program.length ≤ Memory.programCapacity)
    (m : Machine) : m.load program =
      .ok { m with memory := m.memory.writeBytes Memory.programStart program } := by
  simp [load, Memory.load?, h]

/-- **No program can make a machine fail in an undocumented way.**  Switch a machine on, load any program that
fits, and then do anything to it: the next step ends in one of the documented ways, and what it writes without
cutting it off is in range. -/
theorem after_load_documented (program : List UInt8)
    (h : program.length ≤ Memory.programCapacity) (random : Random) (es : List Event) :
    ∃ start, (powerOn random).load program = .ok start ∧
      (start.after es).Documented ∧ (start.after es).InRange ∧ (start.after es).Exact := by
  refine ⟨_, load_of_fits h _, documented _, ?_⟩
  have ht := (tame_powerOn random).act (.load program)
  rw [act, load_of_fits h] at ht
  exact ⟨(ht.after es).inRange, (ht.after es).exact⟩

/-- A lone `00EE` is a return without a call, also after a tick and with all keys held. -/
theorem after_load_documented_ret :
    [0x00, 0xEE].length ≤ Memory.programCapacity ∧
      ∃ start, (powerOn (.ofSeed 0)).load [0x00, 0xEE] = .ok start ∧
        (start.after [.tick, .input (some (-1))]).Documented ∧
        ((start.after [.tick, .input (some (-1))]).act .step).2 =
          .error (.stackUnderflow 0x200 (some 0xEE)) := by
  have hfits : [0x00, 0xEE].length ≤ Memory.programCapacity := by decide
  obtain ⟨start, hload, hdoc, -⟩ :=
    after_load_documented [0x00, 0xEE] hfits (.ofSeed 0) [.tick, .input (some (-1))]
  obtain rfl := Except.ok.inj ((load_of_fits hfits _).symm.trans hload)
  refine ⟨hfits, _, hload, hdoc, ?_⟩
  generalize hm : Machine.after _ _ = m at hdoc ⊢
  obtain ⟨hin, hword, hstack, hpc⟩ :
      m.Inside ∧ m.word = 0x00EE ∧ m.stack = [] ∧ m.pc.toNat = 0x200 := by
    subst hm
    decide +kernel
  have herr := hdoc.stackUnderflow.mpr ⟨hin, hword, hstack⟩
  rw [hword, hpc] at herr
  exact herr

end Chip8.Machine
