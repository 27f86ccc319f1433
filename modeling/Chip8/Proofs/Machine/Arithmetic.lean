import Mathlib
import Chip8.Proofs.Machine.Step

/-!
# Arithmetic on registers

`8xy4` to `8xy7` and `8xyE` put a result into `Vx` and then a flag into `VF`.  Between the operands, the result and the
flag there is an equation (`Balances`), and since the result is a byte and the flag a bit, the equation has only one
solution (`Balances.unique`).  So it says what the instruction does even where `Vx` and `VF` are the same register and
the result is lost (`exec_computes`): the operands are read before anything is written.
-/

namespace Chip8

/-! ### The equations -/

/-- The equation of `8xyN` between its operands, its result and its flag; the other forms have none. -/
def Balances (n : Fin 16) (a b result flag : Int) : Prop :=
  (n = 0x4 ∧ 256 * flag + result = a + b) ∨
  (n = 0x5 ∧ result = a - b + 256 * (1 - flag)) ∨
  (n = 0x6 ∧ 2 * result + flag = a) ∨
  (n = 0x7 ∧ result = b - a + 256 * (1 - flag)) ∨
  (n = 0xE ∧ 256 * flag + result = 2 * a)

instance (n : Fin 16) (a b result flag : Int) : Decidable (Balances n a b result flag) := by
  unfold Balances
  infer_instance

namespace Balances

/-- Byte and bit are determined. -/
theorem unique {n : Fin 16} {a b r r' f f' : Int} (h : Balances n a b r f) (h' : Balances n a b r' f')
    (hr : 0 ≤ r ∧ r ≤ 255) (hr' : 0 ≤ r' ∧ r' ≤ 255) (hf : 0 ≤ f ∧ f ≤ 1) (hf' : 0 ≤ f' ∧ f' ≤ 1) :
    r = r' ∧ f = f' := by
  unfold Balances at h h'
  rcases h with ⟨rfl, h⟩ | ⟨rfl, h⟩ | ⟨rfl, h⟩ | ⟨rfl, h⟩ | ⟨rfl, h⟩
  all_goals
    simp only [Fin.reduceEq, false_and, true_and, or_false, false_or] at h'
    omega

section Bytes

variable (a b : UInt8)

theorem add : Balances 0x4 a.toNat b.toNat (a + b).toNat (decide (0xFF < a.toNat + b.toNat)).toNat := by
  have ha := a.toNat_lt
  have hb := b.toNat_lt
  have hsum : (a + b).toNat = (a.toNat + b.toNat) % 256 := UInt8.toNat_add a b
  refine .inl ⟨rfl, ?_⟩
  by_cases hcarry : 0xFF < a.toNat + b.toNat
  · simp only [hcarry, decide_true, Bool.toNat_true]
    omega
  · simp only [hcarry, decide_false, Bool.toNat_false]
    omega

/-- The two subtractions differ in the order of their operands only. -/
theorem difference : ((a - b).toNat : Int) = a.toNat - b.toNat + 256 * (1 - (decide (b ≤ a)).toNat) := by
  have ha := a.toNat_lt
  have hb := b.toNat_lt
  have hmod : (a - b).toNat = (256 - b.toNat + a.toNat) % 256 := UInt8.toNat_sub a b
  by_cases hle : b ≤ a
  · have hle' : b.toNat ≤ a.toNat := hle
    simp only [hle, decide_true, Bool.toNat_true]
    omega
  · have hle' : ¬ b.toNat ≤ a.toNat := hle
    simp only [hle, decide_false, Bool.toNat_false]
    omega

theorem sub : Balances 0x5 a.toNat b.toNat (a - b).toNat (decide (b ≤ a)).toNat :=
  .inr (.inl ⟨rfl, difference a b⟩)

theorem subFrom : Balances 0x7 a.toNat b.toNat (b - a).toNat (decide (a ≤ b)).toNat :=
  .inr (.inr (.inr (.inl ⟨rfl, difference b a⟩)))

theorem shiftRight (b : Int) : Balances 0x6 a.toNat b (a >>> 1).toNat (a.toNat.testBit 0).toNat := by
  have hhalf : (a >>> 1).toNat = a.toNat / 2 := by simp [Nat.shiftRight_eq_div_pow]
  have hbit : (a.toNat.testBit 0).toNat = a.toNat / 1 % 2 := Nat.toNat_testBit a.toNat 0
  refine .inr (.inr (.inl ⟨rfl, ?_⟩))
  omega

theorem shiftLeft (b : Int) : Balances 0xE a.toNat b (a <<< 1).toNat (a.toNat.testBit 7).toNat := by
  have ha := a.toNat_lt
  have hdouble : (a <<< 1).toNat = 2 * a.toNat % 256 := by simp [Nat.shiftLeft_eq, Nat.mul_comm]
  have hbit : (a.toNat.testBit 7).toNat = a.toNat / 128 % 2 := Nat.toNat_testBit a.toNat 7
  refine .inr (.inr (.inr (.inr ⟨rfl, ?_⟩)))
  omega

end Bytes

end Balances

namespace Machine

/-! ### The instructions -/

/-- What `8xyN` makes of a machine `m`, if it is one of the forms with a flag. -/
structure Computes (m : Machine) (w : Word) (m' : Machine) : Prop where
  /-- Unless it is also the place of the flag, `Vx` holds the result. -/
  result : w.x ≠ 0xF →
    Balances w.n (m.reg w.x).toNat (m.reg w.y).toNat (m'.reg w.x).toNat (m'.reg 0xF).toNat
  /-- `VF` holds the flag that goes with the operands, and nothing else. -/
  flag : ∀ flag : Nat, (m'.reg 0xF).toNat = flag ↔
    flag ≤ 1 ∧ ∃ result : Nat, result ≤ 0xFF ∧ Balances w.n (m.reg w.x).toNat (m.reg w.y).toNat result flag
  bounds : (m'.reg w.x).toNat ≤ 0xFF ∧ (m'.reg 0xF = 0 ∨ m'.reg 0xF = 1)
  registers : ∀ r, r ≠ w.x → r ≠ 0xF → m'.reg r = m.reg r
  /-- Nothing else changes. -/
  rest : m' = { m with v := m'.v, pc := m.pc + 2 }

/-- The two writes of an instruction with a flag: first the result, then the flag. -/
theorem exec_flagged (m : Machine) {w : Word} (hop : w.op = 0x8) (hn : w.n ∈ [0x4, 0x5, 0x6, 0x7, 0xE]) :
    ∃ result flag, m.exec w = .ok ((m.setFlagged w.x result flag).advance, {}) ∧
      Balances w.n (m.reg w.x).toNat (m.reg w.y).toNat result.toNat flag.toNat := by
  have hexec : ∀ {i}, Instr.decodeArithmetic? w.x w.y w.n = some i → m.exec w = m.perform i := by
    intro i hi
    exact exec_of_some ((Instr.decode?_eq_decodeArithmetic? hop).trans hi) m
  simp only [List.mem_cons, List.not_mem_nil, or_false] at hn
  rcases hn with hn | hn | hn | hn | hn
  all_goals rw [hn] at hexec ⊢
  · exact ⟨_, _, hexec rfl, .add _ _⟩
  · exact ⟨_, _, hexec rfl, .sub _ _⟩
  · exact ⟨_, _, hexec rfl, .shiftRight _ _⟩
  · exact ⟨_, _, hexec rfl, .subFrom _ _⟩
  · exact ⟨_, _, hexec rfl, .shiftLeft _ _⟩

theorem toNat_reg_flag (m : Machine) (x : Reg) (b : UInt8) (flag : Bool) :
    ((m.setFlagged x b flag).reg 0xF).toNat = flag.toNat := by
  rw [reg_setFlagged, if_pos rfl]
  cases flag <;> rfl

/-- **The arithmetic on registers is exact, whichever registers are the same.**  The equation of the instruction holds
between the values that `Vx` and `Vy` have before, the value that `Vx` has afterwards and the flag.  Where the flag
takes the place of the result, it is the flag that goes with these operands; and where `VF` is an operand, it is the old
value of `VF` that counts. -/
theorem exec_computes (m : Machine) {w : Word} (hop : w.op = 0x8) (hn : w.n ∈ [0x4, 0x5, 0x6, 0x7, 0xE]) :
    ∃ m', m.exec w = .ok (m', {}) ∧ m.Computes w m' := by
  obtain ⟨result, flag, hexec, hbalances⟩ := m.exec_flagged hop hn
  refine ⟨_, hexec, ?_⟩
  have hresult : result.toNat ≤ 0xFF := Nat.le_of_lt_succ result.toNat_lt
  have hflag : flag.toNat ≤ 1 := flag.toNat_le
  exact {
    result := by
      intro hx
      have hreg : (m.setFlagged w.x result flag).reg w.x = result := by
        rw [reg_setFlagged, if_neg hx, if_pos rfl]
      rw [reg_advance, reg_advance, toNat_reg_flag, hreg]
      exact hbalances
    flag := by
      intro f
      rw [reg_advance, toNat_reg_flag]
      constructor
      · rintro rfl
        exact ⟨hflag, result.toNat, hresult, hbalances⟩
      · rintro ⟨hf, r, hr, h⟩
        have := hbalances.unique h (by omega) (by omega) (by omega) (by omega)
        omega
    bounds := by
      refine ⟨Nat.le_of_lt_succ (UInt8.toNat_lt _), ?_⟩
      rw [reg_advance, reg_setFlagged, if_pos rfl]
      cases flag <;> simp
    registers := by
      intro r hx hF
      rw [reg_advance, reg_setFlagged, if_neg hF, if_neg hx]
    rest := rfl }

/-- `83F5` with `VF` as an operand, and `8FF4` with `VF` in all three parts. -/
theorem exec_computes_aliased :
    ((0x83F5 : Word).op = 0x8 ∧ (0x83F5 : Word).n ∈ [0x4, 0x5, 0x6, 0x7, 0xE]) ∧
    ((0x8FF4 : Word).op = 0x8 ∧ (0x8FF4 : Word).n ∈ [0x4, 0x5, 0x6, 0x7, 0xE]) ∧
    (∃ m', (((powerOn default).setReg 3 3).setReg 0xF 5).exec 0x83F5 = .ok (m', {}) ∧
      (m'.reg 3).toNat = 254 ∧ (m'.reg 0xF).toNat = 0) ∧
    ∃ m', ((powerOn default).setReg 0xF 200).exec 0x8FF4 = .ok (m', {}) ∧ (m'.reg 0xF).toNat = 1 := by
  have hsub : (0x83F5 : Word).op = 0x8 ∧ (0x83F5 : Word).n ∈ [0x4, 0x5, 0x6, 0x7, 0xE] := by decide
  have hadd : (0x8FF4 : Word).op = 0x8 ∧ (0x8FF4 : Word).n ∈ [0x4, 0x5, 0x6, 0x7, 0xE] := by decide
  obtain ⟨m₁, hm₁, h₁⟩ := exec_computes (((powerOn default).setReg 3 3).setReg 0xF 5) hsub.1 hsub.2
  obtain ⟨m₂, hm₂, h₂⟩ := exec_computes ((powerOn default).setReg 0xF 200) hadd.1 hadd.2
  refine ⟨hsub, hadd, ⟨m₁, hm₁, ?_⟩, m₂, hm₂, ?_⟩
  · have hflag : (m₁.reg 0xF).toNat = 0 := (h₁.flag 0).mpr ⟨by decide, 254, by decide, by decide +kernel⟩
    have hresult : Balances 0x5 3 5 (m₁.reg 3).toNat (m₁.reg 0xF).toNat := h₁.result (by decide)
    have hbyte := (m₁.reg 3).toNat_lt
    simp only [Balances, Fin.reduceEq, false_and, true_and, or_false, false_or] at hresult
    omega
  · exact (h₂.flag 1).mpr ⟨by decide, 144, by decide, by decide +kernel⟩

end Machine

end Chip8
