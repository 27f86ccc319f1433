import Mathlib
import Chip8.Proofs.Memory
import Chip8.Proofs.Machine.Step

/-!
# What a word leaves alone

Each part of a machine has its own instructions, and no other word changes it (`executed_confined`).  For instructions
this is said part by part in the lemmas about `perform`; here it is read off the word itself, which is known by its
instruction (`Instr.toNat_of_decode?`).  A word that fails changes nothing.
-/

namespace Chip8

/-! ### The nibbles of a word as numbers -/

namespace Word

variable (w : Word)

theorem val_op : w.op.val = w.toNat / 4096 := by
  have := w.toNat_lt
  simp only [op, Fin.ofNat]
  omega

theorem val_x : w.x.val = w.toNat / 256 % 16 := rfl

theorem val_n : w.n.val = w.toNat % 16 := rfl

theorem toNat_byte_eq_mod : w.byte.toNat = w.toNat % 256 := by simp [byte]

/-- A word may give a register a value: it is `Vx` under `6xnn`, `7xnn`, `8xyN`, `Cxnn`, `Fx07` and `Fx0A`, or `VF` as
a flag under `8xy4` to `8xy7`, `8xyE` and `Dxyn`, or one of `V0` to `Vx` under `Fx65`. -/
def MaySet (r : Reg) : Prop :=
  (r = w.x ∧ (w.op ∈ [0x6, 0x7, 0x8, 0xC] ∨ w.op = 0xF ∧ w.byte ∈ [0x07, 0x0A])) ∨
  (r = 0xF ∧ (w.op = 0x8 ∧ w.n ∈ [0x4, 0x5, 0x6, 0x7, 0xE] ∨ w.op = 0xD)) ∨
  (r ≤ w.x ∧ w.op = 0xF ∧ w.byte = 0x65)

end Word

/-! ### The words of the instructions that change a part -/

namespace Instr

variable {w : Word} {i : Instr}

theorem word_of_draws (h : decode? w = some i) (hi : i.draws = true) : w = 0x00E0 ∨ w.op = 0xD := by
  have hw := toNat_of_decode? h
  cases i <;> simp only [draws, Bool.false_eq_true] at hi
  case clear => exact .inl (UInt16.toNat_inj.mp hw)
  case draw x y n =>
    right
    simp only [code, isShift, Bool.false_eq_true, if_false] at hw
    simp only [Fin.ext_iff, Word.val_op]
    omega

theorem word_of_drawsLots (h : decode? w = some i) (hi : i.drawsLots = true) :
    w.op = 0xC ∨ w.op = 0xF ∧ w.byte = 0x0A := by
  have hw := toNat_of_decode? h
  simp only [Fin.ext_iff, ← UInt8.toNat_inj, Word.val_op, Word.toNat_byte_eq_mod, UInt8.reduceToNat]
  cases i <;> simp only [drawsLots, Bool.false_eq_true] at hi
  all_goals simp only [code, isShift, Bool.false_eq_true, if_false] at hw
  case random x mask =>
    have := mask.toNat_lt
    omega
  case waitKey x => omega

theorem word_of_touches (h : decode? w = some i) {r : Reg} (hi : i.touches r = true) : w.MaySet r := by
  have hw := toNat_of_decode? h
  unfold Word.MaySet
  simp only [List.mem_cons, List.not_mem_nil, or_false, Fin.ext_iff, ← UInt8.toNat_inj, Fin.le_def, Word.val_op,
    Word.val_x, Word.val_n, Word.toNat_byte_eq_mod, UInt8.reduceToNat]
  cases i <;> simp only [touches, Bool.false_eq_true, decide_eq_true_eq, Fin.ext_iff, Fin.le_def] at hi
  all_goals simp only [code, isShift, Bool.false_eq_true, if_false, if_true] at hw
  case setByte x b | addByte x b | random x b =>
    have := b.toNat_lt
    exact .inl ⟨by omega, by omega⟩
  case copy | or | and | xor | getDelay | waitKey => exact .inl ⟨by omega, by omega⟩
  case add | sub | shiftRight | subFrom | shiftLeft =>
    have := w.y.isLt
    rcases hi with hi | hi
    · exact .inl ⟨by omega, by omega⟩
    · exact .inr (.inl ⟨hi, .inl ⟨by omega, by omega⟩⟩)
  case draw => exact .inr (.inl ⟨hi, .inr (by omega)⟩)
  case restore => exact .inr (.inr ⟨by omega, by omega, by omega⟩)

end Instr

namespace Machine

variable {m m' : Machine} {w : Word} {i : Instr} {eff : Effect}

theorem word_of_timersAfter (hd : Instr.decode? w = some i) :
    ((m.timersAfter i).delay ≠ m.timers.delay → w.op = 0xF ∧ w.byte = 0x15) ∧
      ((m.timersAfter i).sound ≠ m.timers.sound → w.op = 0xF ∧ w.byte = 0x18) := by
  have hw := Instr.toNat_of_decode? hd
  simp only [Fin.ext_iff, ← UInt8.toNat_inj, Word.val_op, Word.toNat_byte_eq_mod, UInt8.reduceToNat]
  cases i
  case setDelay x | setSound x =>
    simp only [Instr.code, Instr.isShift, Bool.false_eq_true, if_false] at hw
    simp only [timersAfter, ne_eq, not_true_eq_false, false_imp_iff, and_true, true_and]
    omega
  all_goals simp [timersAfter]

theorem word_of_stackAfter (hd : Instr.decode? w = some i) (hne : m.stackAfter i ≠ m.stack) :
    w.op = 0x2 ∨ w = 0x00EE := by
  have hw := Instr.toNat_of_decode? hd
  cases i <;> simp only [stackAfter, ne_eq, not_true_eq_false] at hne
  case ret => exact .inr (UInt16.toNat_inj.mp hw)
  case call a =>
    left
    simp only [Instr.code, Instr.isShift, Bool.false_eq_true, if_false] at hw
    simp only [Fin.ext_iff, Word.val_op]
    omega

theorem word_of_indexAfter (hd : Instr.decode? w = some i) (hne : m.indexAfter i ≠ m.index) :
    w.op = 0xA ∨ w.op = 0xF ∧ w.byte ∈ [0x1E, 0x29] := by
  have hw := Instr.toNat_of_decode? hd
  simp only [List.mem_cons, List.not_mem_nil, or_false, Fin.ext_iff, ← UInt8.toNat_inj, Word.val_op,
    Word.toNat_byte_eq_mod, UInt8.reduceToNat]
  cases i <;> simp only [indexAfter, ne_eq, not_true_eq_false] at hne
  all_goals
    simp only [Instr.code, Instr.isShift, Bool.false_eq_true, if_false] at hw
    omega

theorem word_of_waitKey {x : Reg} (hd : Instr.decode? w = some (.waitKey x)) : w.op = 0xF ∧ w.byte = 0x0A := by
  have hw := Instr.toNat_of_decode? hd
  simp only [Instr.code, Instr.isShift, Bool.false_eq_true, if_false] at hw
  simp only [Fin.ext_iff, ← UInt8.toNat_inj, Word.val_op, Word.toNat_byte_eq_mod, UInt8.reduceToNat]
  omega

/-- A cell that a word may write: one of the three from `I` on under `Fx33`, one of the first `x + 1` under `Fx55`. -/
def MayWrite (m : Machine) (w : Word) (c : Addr) : Prop :=
  (w.op = 0xF ∧ w.byte = 0x33 ∧ ∃ k ≤ 2, c.val = (m.index.toNat + k) % 4096) ∨
  (w.op = 0xF ∧ w.byte = 0x55 ∧ ∃ k ≤ w.x.val, c.val = (m.index.toNat + k) % 4096)

theorem mayWrite_of_memoryAfter (hd : Instr.decode? w = some i) {c : Addr}
    (hne : (m.memoryAfter i).cells.get c ≠ m.memory.cells.get c) : m.MayWrite w c := by
  have hw := Instr.toNat_of_decode? hd
  -- a cell that changes is one of those that are written
  have hcell : ∀ bs : List UInt8, (m.memory.writeBytes m.index.toNat bs).cells.get c ≠ m.memory.cells.get c →
      ∃ k < bs.length, c.val = (m.index.toNat + k) % 4096 := by
    intro bs hbs
    by_contra hnone
    refine hbs (m.memory.cells_writeBytes_of_forall_ne fun k hk hc => hnone ⟨k, hk, ?_⟩)
    rw [Memory.cell_eq_iff] at hc
    omega
  unfold MayWrite
  simp only [Fin.ext_iff, ← UInt8.toNat_inj, Word.val_op, Word.val_x, Word.toNat_byte_eq_mod, UInt8.reduceToNat]
  cases i <;> simp only [memoryAfter, ne_eq, not_true_eq_false] at hne
  all_goals
    simp only [Instr.code, Instr.isShift, Bool.false_eq_true, if_false] at hw
    obtain ⟨k, hk, hc⟩ := hcell _ hne
  case decimal x =>
    simp only [List.length_cons, List.length_nil] at hk
    exact .inl ⟨by omega, by omega, k, by omega, hc⟩
  case save x =>
    simp only [List.length_take, Vector.length_toList] at hk
    exact .inr ⟨by omega, by omega, k, by omega, hc⟩

/-! ### Words -/

/-- The machine after a word has been executed.  A word that fails leaves it as it is. -/
def executed (m : Machine) (w : Word) : Machine :=
  match m.exec w with
  | .ok (m', _) => m'
  | .error _ => m

/-- The machine `m'` differs from `m` only in what the word `w` may change. -/
structure Confined (m : Machine) (w : Word) (m' : Machine) : Prop where
  keys : m'.keys = m.keys
  screen : m'.screen ≠ m.screen → w = 0x00E0 ∨ w.op = 0xD
  delay : m'.timers.delay ≠ m.timers.delay → w.op = 0xF ∧ w.byte = 0x15
  sound : m'.timers.sound ≠ m.timers.sound → w.op = 0xF ∧ w.byte = 0x18
  stack : m'.stack ≠ m.stack → w.op = 0x2 ∨ w = 0x00EE
  index : m'.index ≠ m.index → w.op = 0xA ∨ w.op = 0xF ∧ w.byte ∈ [0x1E, 0x29]
  awaitingKey : m'.awaitingKey ≠ m.awaitingKey → w.op = 0xF ∧ w.byte = 0x0A
  random : m'.random ≠ m.random → w.op = 0xC ∨ w.op = 0xF ∧ w.byte = 0x0A
  memory : ∀ c : Addr, m'.memory.cells.get c ≠ m.memory.cells.get c → m.MayWrite w c
  registers : ∀ r, m'.reg r ≠ m.reg r → w.MaySet r

theorem Confined.refl (m : Machine) (w : Word) : Confined m w m := by
  constructor <;> simp

theorem confined_of_perform (hd : Instr.decode? w = some i) (hp : m.perform i = .ok (m', eff)) :
    Confined m w m' where
  keys := perform_keys hp
  screen hne := by
    refine Instr.word_of_draws hd ?_
    by_contra hi
    exact hne (perform_screen hp (Bool.eq_false_of_not_eq_true hi))
  delay := perform_timers hp ▸ (word_of_timersAfter hd).1
  sound := perform_timers hp ▸ (word_of_timersAfter hd).2
  stack := perform_stack hp ▸ word_of_stackAfter hd
  index := perform_index hp ▸ word_of_indexAfter hd
  awaitingKey hne := by
    by_contra hw
    exact hne (perform_awaitingKey hp fun x hi => hw (word_of_waitKey (hi ▸ hd)))
  random hne := by
    refine Instr.word_of_drawsLots hd ?_
    by_contra hi
    exact hne (perform_random hp (Bool.eq_false_of_not_eq_true hi))
  memory c := perform_memory hp ▸ mayWrite_of_memoryAfter hd
  registers r hne := by
    refine Instr.word_of_touches hd ?_
    by_contra hi
    exact hne (perform_reg hp (Bool.eq_false_of_not_eq_true hi))

/-- **Each part of a machine is changed only by its own words**, whatever the machine and whatever the word.  Nothing
is said of the program counter, which nearly every word moves. -/
theorem executed_confined (m : Machine) (w : Word) : Confined m w (m.executed w) := by
  unfold executed
  cases h : m.exec w with
  | error f => exact .refl m w
  | ok r =>
    obtain ⟨i, hd, hp⟩ := exec_eq_ok_iff.mp h
    exact confined_of_perform hd hp

end Machine

end Chip8
