import Mathlib
import Chip8.Machine.Exec
import Chip8.Proofs.Pattern

/-!
# What one step does

A step that is carried out fetched a word, and the word spells an instruction (`step_eq_ok_iff`).  What the
instruction does is said here part by part, so that nothing below has to look at the thirty-five forms again:
what it makes of the stack, the timers, the address register, the memory, the keys, the mark of a key wait, the
screen and the random numbers (`perform_frame`, and one projection for each), the registers (`perform_reg`), the
program counter (`perform_pc`), the signals (`perform_signals`), and when it fails (`perform_eq_error_iff`).

`target` is the place where an instruction sends the program counter, in whole numbers; the machine keeps sixteen
bits of it.
-/

namespace Chip8

namespace Instr

def draws : Instr → Bool
  | .clear | .draw .. => true
  | _ => false

def drawsLots : Instr → Bool
  | .random .. | .waitKey _ => true
  | _ => false

/-- Whether an instruction may give a register a value. -/
def touches (r : Reg) : Instr → Bool
  | .setByte x _ | .addByte x _ | .copy x _ | .or x _ | .and x _ | .xor x _ | .random x _
  | .getDelay x | .waitKey x => r = x
  | .add x _ | .sub x _ | .shiftRight x | .subFrom x _ | .shiftLeft x => r = x ∨ r = 0xF
  | .draw .. => r = 0xF
  | .restore x => r ≤ x
  | _ => false

end Instr

namespace Machine

/-! ### Fetching -/

/-- The program counter points at two bytes of program memory. -/
def Inside (m : Machine) : Prop := 0x200 ≤ m.pc.toNat ∧ m.pc.toNat ≤ 0xFFE

instance (m : Machine) : Decidable m.Inside := by unfold Inside; infer_instance

def word (m : Machine) : Word := m.memory.readWord m.pc.toNat

theorem fetch_of_inside {m : Machine} (h : m.Inside) : m.fetch = .ok m.word := by
  obtain ⟨h1, h2⟩ := h
  unfold fetch Memory.programStart Memory.programEnd
  rw [if_neg (by omega)]
  rfl

theorem fetch_of_not_inside {m : Machine} (h : ¬ m.Inside) :
    m.fetch = .error (.invalidProgramCounter m.pc) := by
  unfold Inside at h
  unfold fetch Memory.programStart Memory.programEnd
  rw [if_pos (by omega)]

theorem fetch_eq_ok_iff {m : Machine} {w : Word} : m.fetch = .ok w ↔ m.Inside ∧ w = m.word := by
  by_cases h : m.Inside
  · simp [fetch_of_inside h, h, eq_comm]
  · simp [fetch_of_not_inside h, h]

theorem fetch_eq_error_iff {m : Machine} {f : Fault} :
    m.fetch = .error f ↔ ¬ m.Inside ∧ f = .invalidProgramCounter m.pc := by
  by_cases h : m.Inside
  · simp [fetch_of_inside h, h]
  · simp [fetch_of_not_inside h, h, eq_comm]

theorem exec_of_none {w : Word} (h : Instr.decode? w = none) (m : Machine) :
    m.exec w = .error (.unrecognized m.pc w) := by
  simp only [exec, h]

theorem exec_of_some {w : Word} {i : Instr} (h : Instr.decode? w = some i) (m : Machine) :
    m.exec w = m.perform i := by
  simp only [exec, h]

theorem exec_eq_ok_iff {m : Machine} {w : Word} {r : Machine × Effect} :
    m.exec w = .ok r ↔ ∃ i, Instr.decode? w = some i ∧ m.perform i = .ok r := by
  cases hd : Instr.decode? w with
  | none => simp [exec_of_none hd]
  | some i => simp [exec_of_some hd]

theorem step_eq_ok_iff {m : Machine} {r : Machine × Effect} :
    m.step = .ok r ↔ ∃ i, m.Inside ∧ Instr.decode? m.word = some i ∧ m.perform i = .ok r := by
  unfold step
  by_cases h : m.Inside
  · simp [fetch_of_inside h, exec_eq_ok_iff, h]
  · simp [fetch_of_not_inside h, h]

/-! ### The helpers of an instruction -/

section Helpers

variable (m : Machine)

theorem reg_setReg (x y : Reg) (b : UInt8) :
    (m.setReg x b).reg y = if y = x then b else m.reg y := by
  unfold setReg reg
  rw [Vector.getElem_set]
  by_cases h : y = x
  · rw [if_pos h, if_pos (congrArg Fin.val h.symm)]
  · rw [if_neg h, if_neg fun hval => h (Fin.ext hval.symm)]

theorem reg_setFlagged (x y : Reg) (b : UInt8) (flag : Bool) :
    (m.setFlagged x b flag).reg y =
      if y = 0xF then (if flag then 1 else 0) else if y = x then b else m.reg y := by
  unfold setFlagged
  rw [reg_setReg, reg_setReg]

@[simp] theorem reg_advance (x : Reg) : m.advance.reg x = m.reg x := rfl

/-- A skip moves the program counter and nothing else. -/
theorem skipIf_eq (c : Bool) : m.skipIf c = { m with pc := if c then m.pc + 2 + 2 else m.pc + 2 } := by
  unfold skipIf
  split <;> rfl

theorem toNat_advance_pc : (m.advance.pc.toNat : Int) = (m.pc.toNat + 2) % 2 ^ 16 := by
  simp [advance, UInt16.toNat_add]

theorem toNat_skipIf_pc (c : Bool) :
    ((m.skipIf c).pc.toNat : Int) =
      (if c then (m.pc.toNat : Int) + 4 else m.pc.toNat + 2) % 2 ^ 16 := by
  unfold skipIf
  split <;> simp [advance, UInt16.toNat_add]
  omega

/-- Whether a key wait finds no key. -/
def waits : Bool := (m.keys.firstDown? m.random.key.1.val).isNone

theorem toNat_awaitKey_pc (x : Reg) :
    ((m.awaitKey x).pc.toNat : Int) =
      (if m.waits then (m.pc.toNat : Int) else m.pc.toNat + 2) % 2 ^ 16 := by
  have := m.pc.toNat_lt
  unfold awaitKey waits
  dsimp only
  split <;> rename_i h <;> simp [advance, UInt16.toNat_add, setReg, h]
  omega

end Helpers

/-! ### The frame -/

section After

variable (m : Machine)

def stackAfter : Instr → List Int
  | .ret => m.stack.tail
  | .call _ => m.pc.toNat :: m.stack
  | _ => m.stack

def timersAfter : Instr → Timers
  | .setDelay x => { m.timers with delay := (m.reg x).toNat }
  | .setSound x => { m.timers with sound := (m.reg x).toNat }
  | _ => m.timers

def indexAfter : Instr → UInt16
  | .setIndex a => UInt16.ofNat a.val
  | .addIndex x => m.index + (m.reg x).toUInt16
  | .glyph x => UInt16.ofInt (Memory.glyphAddress (m.reg x).toNat)
  | _ => m.index

def memoryAfter : Instr → Memory
  | .decimal x => m.memory.writeBytes m.index.toNat [m.reg x / 100, m.reg x / 10 % 10, m.reg x % 10]
  | .save x => m.memory.writeBytes m.index.toNat (m.v.toList.take (x.val + 1))
  | _ => m.memory

/-- The mark of a key wait after an instruction. -/
def awaitingKeyAfter : Instr → Bool
  | .waitKey _ => m.waits
  | _ => m.awaitingKey

end After

section Perform

variable {m m' : Machine} {i : Instr} {eff : Effect}

/-- A return needs an open call, and goes back behind the latest one. -/
theorem perform_ret (h : m.perform .ret = .ok (m', eff)) :
    ∃ caller, m.stack = caller :: m'.stack ∧ eff = {} ∧
      m' = { m with stack := m'.stack, pc := UInt16.ofInt caller }.advance := by
  cases hs : m.stack with
  | nil => simp [perform, hs] at h
  | cons caller stack =>
    simp only [perform, hs, Except.ok.injEq, Prod.mk.injEq] at h
    obtain ⟨rfl, rfl⟩ := h
    exact ⟨caller, rfl, rfl, rfl⟩

/-- **What an instruction makes of all parts but registers and program counter.** -/
theorem perform_frame (h : m.perform i = .ok (m', eff)) :
    m' = { m' with
      index := m.indexAfter i
      stack := m.stackAfter i
      awaitingKey := m.awaitingKeyAfter i
      memory := m.memoryAfter i
      screen := if i.draws then m'.screen else m.screen
      keys := m.keys
      timers := m.timersAfter i
      random := if i.drawsLots then m'.random else m.random } := by
  cases i
  case ret =>
    obtain ⟨caller, hs, -, hm⟩ := perform_ret h
    have hstack : m'.stack = m.stack.tail := by rw [hs]; rfl
    rw [hm, hstack]
    rfl
  case waitKey x =>
    obtain ⟨rfl, -⟩ := Prod.mk.inj (Except.ok.inj h)
    have hmark : m.awaitingKeyAfter (.waitKey x) = m.waits := rfl
    rw [hmark]
    unfold awaitKey waits
    dsimp only
    cases m.keys.firstDown? m.random.key.1.val <;> rfl
  all_goals
    simp only [perform, skipIf_eq, Except.ok.injEq, Prod.mk.injEq] at h
    obtain ⟨rfl, -⟩ := h
    rfl

/-- Only calls and returns touch the stack. -/
theorem perform_stack (h : m.perform i = .ok (m', eff)) : m'.stack = m.stackAfter i :=
  congrArg stack (perform_frame h)

theorem perform_timers (h : m.perform i = .ok (m', eff)) : m'.timers = m.timersAfter i :=
  congrArg timers (perform_frame h)

theorem perform_index (h : m.perform i = .ok (m', eff)) : m'.index = m.indexAfter i :=
  congrArg index (perform_frame h)

theorem perform_memory (h : m.perform i = .ok (m', eff)) : m'.memory = m.memoryAfter i :=
  congrArg memory (perform_frame h)

/-- No instruction touches the keys. -/
theorem perform_keys (h : m.perform i = .ok (m', eff)) : m'.keys = m.keys := by
  have hkeys := congrArg keys (perform_frame h)
  exact hkeys

/-- An instruction that does not draw leaves the screen alone. -/
theorem perform_screen (h : m.perform i = .ok (m', eff)) (hi : i.draws = false) : m'.screen = m.screen := by
  simpa [hi] using congrArg screen (perform_frame h)

theorem perform_random (h : m.perform i = .ok (m', eff)) (hi : i.drawsLots = false) : m'.random = m.random := by
  simpa [hi] using congrArg random (perform_frame h)

/-- Only a key wait marks the machine as waiting, or takes the mark away. -/
theorem perform_awaitingKey (h : m.perform i = .ok (m', eff)) (hi : ∀ x, i ≠ .waitKey x) :
    m'.awaitingKey = m.awaitingKey := by
  have hmark : m'.awaitingKey = m.awaitingKeyAfter i := congrArg awaitingKey (perform_frame h)
  rw [hmark, awaitingKeyAfter]
  exact hi

/-! ### The registers -/

/-- An instruction leaves the registers alone that it does not touch. -/
theorem perform_reg (h : m.perform i = .ok (m', eff)) {r : Reg} (hr : i.touches r = false) :
    m'.reg r = m.reg r := by
  cases i <;> simp only [Instr.touches, decide_eq_false_iff_not, not_or] at hr
  case ret =>
    obtain ⟨caller, -, -, hm⟩ := perform_ret h
    rw [hm]
    rfl
  case setByte x b | addByte x b | copy x y | or x y | and x y | xor x y | random x mask | getDelay x =>
    simp only [perform, Except.ok.injEq, Prod.mk.injEq] at h
    obtain ⟨rfl, -⟩ := h
    exact (reg_setReg _ x r _).trans (if_neg hr)
  case add x y | sub x y | shiftRight x | subFrom x y | shiftLeft x =>
    obtain ⟨rfl, -⟩ := Prod.mk.inj (Except.ok.inj h)
    rw [reg_advance, reg_setFlagged, if_neg hr.2, if_neg hr.1]
  case draw x y n =>
    obtain ⟨rfl, -⟩ := Prod.mk.inj (Except.ok.inj h)
    exact (reg_setReg _ 0xF r _).trans (if_neg hr)
  case waitKey x =>
    obtain ⟨rfl, -⟩ := Prod.mk.inj (Except.ok.inj h)
    unfold awaitKey
    dsimp only
    cases m.keys.firstDown? m.random.key.1.val with
    | none => rfl
    | some k => exact (reg_setReg _ x r _).trans (if_neg hr)
  case restore x =>
    obtain ⟨rfl, -⟩ := Prod.mk.inj (Except.ok.inj h)
    simp [reg, advance, restored, hr]
  all_goals
    simp only [perform, skipIf_eq, Except.ok.injEq, Prod.mk.injEq] at h
    obtain ⟨rfl, -⟩ := h
    rfl

/-! ### The program counter -/

def skips (m : Machine) : Instr → Bool
  | .skipEqByte x b => m.reg x == b
  | .skipNeByte x b => m.reg x != b
  | .skipEq x y => m.reg x == m.reg y
  | .skipNe x y => m.reg x != m.reg y
  | .skipKey x => m.keys.isDown (Key.ofInt (m.reg x).toNat)
  | .skipNoKey x => !m.keys.isDown (Key.ofInt (m.reg x).toNat)
  | _ => false

/-- Where an instruction sends the program counter, in whole numbers. -/
def target (m : Machine) : Instr → Int
  | .ret => m.stack.headD m.pc.toNat + 2
  | .jump a | .call a => a.val
  | .jumpOffset a => a.val + (m.reg 0).toNat
  | .waitKey _ => if m.waits then m.pc.toNat else m.pc.toNat + 2
  | i => if m.skips i then m.pc.toNat + 4 else m.pc.toNat + 2

/-- The program counter keeps sixteen bits of where it is sent. -/
theorem perform_pc (h : m.perform i = .ok (m', eff)) :
    (m'.pc.toNat : Int) = m.target i % 2 ^ 16 := by
  cases i
  case ret =>
    obtain ⟨caller, hs, -, hm⟩ := perform_ret h
    rw [hm, toNat_advance_pc]
    simp [target, hs, UInt16.ofInt]
    omega
  all_goals
    simp only [perform, Except.ok.injEq, Prod.mk.injEq] at h
    obtain ⟨rfl, -⟩ := h
    simp [target, toNat_advance_pc, toNat_skipIf_pc, toNat_awaitKey_pc, skips, setReg, setFlagged,
      drawSprite]
  rfl

/-! ### Signals and faults -/

theorem perform_signals (h : m.perform i = .ok (m', eff)) :
    eff.signals = if i.draws then .refreshDisplay else 0 := by
  cases i
  case ret =>
    obtain ⟨-, -, rfl, -⟩ := perform_ret h
    rfl
  all_goals
    simp only [perform, Except.ok.injEq, Prod.mk.injEq] at h
    obtain ⟨-, rfl⟩ := h
    rfl

/-- The one instruction that can fail is a return, for want of an open call. -/
theorem perform_eq_error_iff {f : Fault} :
    m.perform i = .error f ↔ i = .ret ∧ m.stack = [] ∧ f = .stackUnderflow m.pc := by
  cases i
  case ret => cases hs : m.stack <;> simp [perform, hs, eq_comm]
  all_goals simp [perform]

end Perform

end Machine

end Chip8
