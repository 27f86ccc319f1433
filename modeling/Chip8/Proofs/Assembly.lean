import Mathlib
import Chip8.Listing
import Chip8.Proofs.Machine.Step

/-!
# What is listed is what is carried out

A listing goes by a table of its own (`Assembly.ofWord?`), a machine by another (`Instr.decode?`).  The two say the
same: a word is listed under a name exactly if a machine takes it for an instruction, and then name and operands are
those of that very instruction (`Assembly.ofWord?_eq`).  So a machine refuses a word exactly if a listing shows it as
`.WORD` (`Machine.exec_unrecognized_iff`).
-/

namespace Chip8

/-! ### Instructions in assembly text -/

namespace Instr

/-- The name of the operation in assembly text.  One name serves several forms, which then differ in
their operands. -/
def mnemonic : Instr → String
  | .clear => "CLS"
  | .ret => "RET"
  | .sys _ => "SYS"
  | .jump _ | .jumpOffset _ => "JP"
  | .call _ => "CALL"
  | .skipEqByte .. | .skipEq .. => "SE"
  | .skipNeByte .. | .skipNe .. => "SNE"
  | .setByte .. | .copy .. | .setIndex _ | .getDelay _ | .waitKey _ | .setDelay _ | .setSound _
  | .glyph _ | .decimal _ | .save _ | .restore _ => "LD"
  | .addByte .. | .add .. | .addIndex _ => "ADD"
  | .or .. => "OR"
  | .and .. => "AND"
  | .xor .. => "XOR"
  | .sub .. => "SUB"
  | .subFrom .. => "SUBN"
  | .shiftRight _ => "SHR"
  | .shiftLeft _ => "SHL"
  | .random .. => "RND"
  | .draw .. => "DRW"
  | .skipKey _ => "SKP"
  | .skipNoKey _ => "SKNP"

/-- The operands in assembly text, the destination first. -/
def operands : Instr → List Operand
  | .clear | .ret => []
  | .sys a | .jump a | .call a => [.addr a]
  | .skipEqByte x b | .skipNeByte x b | .setByte x b | .addByte x b | .random x b => [.reg x, .byte b]
  | .skipEq x y | .skipNe x y | .copy x y | .or x y | .and x y | .xor x y | .add x y | .sub x y
  | .subFrom x y => [.reg x, .reg y]
  | .shiftRight x | .shiftLeft x | .skipKey x | .skipNoKey x => [.reg x]
  | .setIndex a => [.index, .addr a]
  | .jumpOffset a => [.reg 0, .addr a]
  | .draw x y n => [.reg x, .reg y, .rows n]
  | .getDelay x => [.reg x, .delay]
  | .waitKey x => [.reg x, .key]
  | .setDelay x => [.delay, .reg x]
  | .setSound x => [.sound, .reg x]
  | .addIndex x => [.index, .reg x]
  | .glyph x => [.glyph, .reg x]
  | .decimal x => [.decimal, .reg x]
  | .save x => [.atIndex, .reg x]
  | .restore x => [.reg x, .atIndex]

def assembly (i : Instr) : Assembly := ⟨i.mnemonic, i.operands⟩

/-- No instruction is called like a directive. -/
theorem mnemonic_ne_word (i : Instr) : i.mnemonic ≠ ".WORD" := by
  cases i <;> simp [mnemonic]

end Instr

/-! ### The two tables -/

namespace Assembly

/-- A word that fits no row of the one table fits no form of the other. -/
theorem decode?_eq_none_of_ofWord? {w : Word} (h : ofWord? w = none) : Instr.decode? w = none := by
  unfold ofWord? at h
  split at h
  case h_36 =>
    rw [Instr.decode?_eq_none_iff]
    simp only [Pattern.forms, Pattern.Matches, List.forall_mem_cons, List.not_mem_nil, Pattern.fits_some,
      Pattern.fits_none, Fin.ext_iff, true_and, and_true, false_imp_iff, implies_true]
    simp only [not_and]
    -- each form is denied by the row for it
    and_intros <;> assumption
  all_goals exact nomatch h

/-- **The two tables agree**, row by row. -/
theorem ofWord?_eq (w : Word) : ofWord? w = (Instr.decode? w).map Instr.assembly := by
  -- what the other table asks for, nibble by nibble
  have hclear : w = 0x00E0 ↔ w.op.val = 0x0 ∧ w.x.val = 0x0 ∧ w.y.val = 0xE ∧ w.n.val = 0x0 := w.eq_iff _
  have hret : w = 0x00EE ↔ w.op.val = 0x0 ∧ w.x.val = 0x0 ∧ w.y.val = 0xE ∧ w.n.val = 0xE := w.eq_iff _
  have hn : w.n = 0 ↔ w.n.val = 0x0 := Fin.ext_iff
  have hbyte : w.byte.toNat = 16 * w.y.val + w.n.val := w.toNat_byte
  have h9E : w.byte = 0x9E ↔ w.byte.toNat = 0x9E := UInt8.toNat_inj.symm
  have hA1 : w.byte = 0xA1 ↔ w.byte.toNat = 0xA1 := UInt8.toNat_inj.symm
  cases h : ofWord? w with
  | none =>
    rw [decode?_eq_none_of_ofWord? h]
    rfl
  | some a =>
    unfold ofWord? at h
    split at h
    case h_36 => exact nomatch h
    all_goals
      obtain rfl := Option.some.inj h
      clear h
      simp_all only [Instr.decode?, Instr.decodeArithmetic?, Instr.decodeTransfer?]
    -- `0nnn` is what the rows above it leave
    case h_3 hother hother' =>
      rw [if_neg, if_neg]
      · rfl
      · rintro ⟨-, hx, hy, hn⟩
        exact hother' hx hy hn
      · rintro ⟨-, hx, hy, hn⟩
        exact hother hx hy hn
    all_goals rfl

end Assembly

/-! ### Listed and carried out -/

namespace Line

theorem ofWord_of_some {w : Word} {i : Instr} (h : Instr.decode? w = some i) (address : Int) :
    ofWord address w = ⟨address, .instr w i.assembly⟩ := by
  have hw : Assembly.ofWord? w = some i.assembly := by rw [Assembly.ofWord?_eq, h, Option.map_some]
  simp only [ofWord, hw]

theorem mnemonic_ofWord_ne {w : Word} {i : Instr} (h : Instr.decode? w = some i) (address : Int) :
    (ofWord address w).mnemonic ≠ ".WORD" := by
  rw [ofWord_of_some h]
  exact i.mnemonic_ne_word

theorem ofWord_of_none {w : Word} (h : Instr.decode? w = none) (address : Int) :
    ofWord address w = ⟨address, .word w⟩ := by
  have hw : Assembly.ofWord? w = none := by rw [Assembly.ofWord?_eq, h, Option.map_none]
  simp only [ofWord, hw]

end Line

namespace Machine

/-- An instruction is carried out, unless it is a return and no call is open. -/
theorem exec_eq_ok {w : Word} {i : Instr} (h : Instr.decode? w = some i) {m : Machine}
    (hopen : ¬ (w = 0x00EE ∧ m.stack = [])) : ∃ r, m.exec w = .ok r := by
  rw [exec_of_some h]
  cases hp : m.perform i with
  | ok r => exact ⟨r, rfl⟩
  | error f =>
    obtain ⟨rfl, hstack, -⟩ := perform_eq_error_iff.mp hp
    exact absurd ⟨(Instr.decode?_eq_ret_iff w).mp h, hstack⟩ hopen

/-- **What is listed as an instruction is carried out, and nothing else.**  Whatever the state of the machine, it
refuses a word as unrecognized exactly if a listing shows the word as `.WORD`, with the remark that goes with it.  A
word that has a name there is carried out, except for `00EE` while no call is open. -/
theorem exec_unrecognized_iff (m : Machine) (w : Word) (address : Int) :
    ((∃ pc word, m.exec w = .error (.unrecognized pc word)) ↔
      (Line.ofWord address w).mnemonic = ".WORD" ∧
        (Line.ofWord address w).comment = "unknown instruction") ∧
    ((Line.ofWord address w).mnemonic ≠ ".WORD" →
      (w = 0x00EE ∧ m.stack = [] → m.exec w = .error (.stackUnderflow m.pc)) ∧
        (¬ (w = 0x00EE ∧ m.stack = []) → ∃ r, m.exec w = .ok r)) := by
  cases h : Instr.decode? w with
  | none =>
    have hline := Line.ofWord_of_none h address
    constructor
    · rw [hline]
      exact iff_of_true ⟨_, _, exec_of_none h m⟩ ⟨rfl, rfl⟩
    · rw [hline]
      exact fun hname => absurd rfl hname
  | some i =>
    have hname := Line.mnemonic_ofWord_ne h address
    have hunderflow : w = 0x00EE ∧ m.stack = [] → m.exec w = .error (.stackUnderflow m.pc) := by
      rintro ⟨rfl, hstack⟩
      obtain rfl : i = .ret := Option.some.inj (h.symm.trans ((Instr.decode?_eq_ret_iff _).mpr rfl))
      rw [exec_of_some h]
      exact perform_eq_error_iff.mpr ⟨rfl, hstack, rfl⟩
    refine ⟨iff_of_false ?_ fun hline => hname hline.1, fun _ => ⟨hunderflow, exec_eq_ok h⟩⟩
    rintro ⟨pc, word, hexec⟩
    rw [exec_of_some h, perform_eq_error_iff] at hexec
    exact nomatch hexec.2.2

end Machine

end Chip8
