import Mathlib
import Chip8.Proofs.Memory
import Chip8.Proofs.Machine.Step

/-!
# Between registers and memory

`Fx55` puts the registers `V0` to `Vx` into memory, and `Fx65` gets them from there.  Whatever is executed in between,
the registers come back as they were, if only `I` and the bytes from there on are what they were (`SameBlock`).  Both
instructions take their addresses round the end of memory, and a block of at most sixteen bytes does not meet itself on
the way; so this holds for every `I`, also for one behind the last cell.

In the same way the three digits that `Fx33` leaves can be got by `F265`, and they make up the number again.  Both facts
are `registers_read_back`.
-/

namespace Chip8.Machine

/-! ### Sequences of words -/

/-- Executes words one after another, up to the first that fails. -/
def execAll (m : Machine) : List Word → Except Fault Machine
  | [] => .ok m
  | w :: ws =>
    match m.exec w with
    | .ok (m', _) => m'.execAll ws
    | .error f => .error f

section Sequences

variable {m m' : Machine} {w : Word} {ws : List Word} {eff : Effect}

theorem execAll_cons_of_ok (h : m.exec w = .ok (m', eff)) (ws : List Word) : m.execAll (w :: ws) = m'.execAll ws := by
  simp only [execAll, h]

theorem execAll_append_of_ok (h : m.execAll ws = .ok m') (ws' : List Word) :
    m.execAll (ws ++ ws') = m'.execAll ws' := by
  induction ws generalizing m with
  | nil =>
    obtain rfl := Except.ok.inj h
    rfl
  | cons w ws ih =>
    cases hw : m.exec w with
    | error f =>
      simp only [execAll, hw] at h
      exact nomatch h
    | ok r =>
      rw [execAll_cons_of_ok hw] at h
      rw [List.cons_append, execAll_cons_of_ok hw]
      exact ih h

end Sequences

/-! ### The instructions -/

section Instructions

variable (m : Machine) {w : Word}

/-- The machine behind an instruction that does nothing but write memory. -/
def stored (i : Instr) : Machine := { m with memory := m.memoryAfter i }.advance

/-- The machine behind an `Fx65`. -/
def loaded (x : Reg) : Machine := { m with v := m.restored x }.advance

theorem exec_of_transfer (hop : w.op = 0xF) {b : UInt8} (hb : w.byte = b) {i : Instr}
    (hi : Instr.decodeTransfer? w.x b = some i) : m.exec w = m.perform i :=
  exec_of_some ((Instr.decode?_eq_decodeTransfer? hop).trans (hb ▸ hi)) m

theorem exec_decimal (hop : w.op = 0xF) (hb : w.byte = 0x33) : m.exec w = .ok (m.stored (.decimal w.x), {}) :=
  m.exec_of_transfer hop hb rfl

theorem exec_save (hop : w.op = 0xF) (hb : w.byte = 0x55) : m.exec w = .ok (m.stored (.save w.x), {}) :=
  m.exec_of_transfer hop hb rfl

theorem exec_restore (hop : w.op = 0xF) (hb : w.byte = 0x65) : m.exec w = .ok (m.loaded w.x, {}) :=
  m.exec_of_transfer hop hb rfl

theorem reg_loaded (x r : Reg) :
    (m.loaded x).reg r = if r ≤ x then m.memory.read (m.index.toNat + r.val) else m.reg r := by
  simp [loaded, reg, advance, restored]

variable {m} in
/-- A block of bytes at `I` stands there afterwards, one behind the other. -/
theorem read_stored {i : Instr} {bs : List UInt8} (hi : m.memoryAfter i = m.memory.writeBytes m.index.toNat bs)
    (hlength : bs.length ≤ 4096) {k : Nat} (hk : k < bs.length) :
    (m.stored i).memory.read ((m.stored i).index.toNat + k) = bs[k] := by
  show (m.memoryAfter i).read (m.index.toNat + k) = bs[k]
  rw [hi]
  exact m.memory.read_writeBytes hlength hk

theorem read_saved {x r : Reg} (hr : r ≤ x) :
    (m.stored (.save x)).memory.read ((m.stored (.save x)).index.toNat + r.val) = m.reg r := by
  have hr' : r.val ≤ x.val := hr
  have hlength : (m.v.toList.take (x.val + 1)).length = x.val + 1 := by
    simp only [List.length_take, Vector.length_toList]
    omega
  rw [read_stored rfl (by omega) (by omega)]
  simp [reg]

end Instructions

/-! ### Reading back -/

/-- Both machines have the same `I`, and the same bytes in the cells of the first `x + 1` addresses from there on. -/
structure SameBlock (x : Reg) (m m' : Machine) : Prop where
  index : m'.index = m.index
  bytes : ∀ k ≤ x.val, m'.memory.cells.get (Memory.cell (m.index.toNat + k)) =
    m.memory.cells.get (Memory.cell (m.index.toNat + k))

theorem SameBlock.read {x r : Reg} {m m' : Machine} (h : SameBlock x m m') (hr : r ≤ x) :
    m'.memory.read (m'.index.toNat + r.val) = m.memory.read (m.index.toNat + r.val) := by
  rw [h.index, Memory.read_eq_get, Memory.read_eq_get]
  exact h.bytes r.val hr

/-- The decimal digits of a byte. -/
def digits (n : UInt8) : List UInt8 := [n / 100, n / 10 % 10, n % 10]

theorem digits_sum (n : UInt8) :
    (n / 100).toNat ≤ 9 ∧ (n / 10 % 10).toNat ≤ 9 ∧ (n % 10).toNat ≤ 9 ∧
      100 * (n / 100).toNat + 10 * (n / 10 % 10).toNat + (n % 10).toNat = n.toNat := by
  have hn := n.toNat_lt
  simp only [UInt8.toNat_div, UInt8.toNat_mod, UInt8.reduceToNat]
  omega

theorem reg_loaded_digits (m : Machine) (x : Reg) {r : Reg} (hr : r.val < 3) :
    ((m.stored (.decimal x)).loaded 2).reg r = (digits (m.reg x))[r.val] := by
  have hr' : r ≤ 2 := Nat.le_of_lt_succ hr
  have hblock : m.memoryAfter (.decimal x) = m.memory.writeBytes m.index.toNat (digits (m.reg x)) := rfl
  have hlength : (digits (m.reg x)).length = 3 := rfl
  rw [reg_loaded, if_pos hr', read_stored hblock (by omega) hr]

/-- **What is put into memory can be got from there.**  After `Fx55` and any words that succeed and leave `I` and the
bytes alone, an `Fx65` with the same `x` gives `V0` to `Vx` the values that they had at the `Fx55`; it leaves the other
registers as those words left them, and `I` is as it was.  After `Fx33` an `F265` gives `V0`, `V1` and `V2` the three
decimal digits of `Vx`. -/
theorem registers_read_back (m : Machine) :
    (∀ w w' : Word, w.op = 0xF → w.byte = 0x55 → w'.op = 0xF → w'.byte = 0x65 → w'.x = w.x →
      ∃ saved, m.exec w = .ok (saved, {}) ∧ ∀ ws between, saved.execAll ws = .ok between →
        SameBlock w.x saved between →
        ∃ restored, m.execAll (w :: ws ++ [w']) = .ok restored ∧ (∀ r ≤ w.x, restored.reg r = m.reg r) ∧
          (∀ r, w.x < r → restored.reg r = between.reg r) ∧ restored.index = m.index) ∧
    ∀ w : Word, w.op = 0xF → w.byte = 0x33 →
      ∃ m', m.execAll [w, 0xF265] = .ok m' ∧
        (m'.reg 0).toNat ≤ 9 ∧ (m'.reg 1).toNat ≤ 9 ∧ (m'.reg 2).toNat ≤ 9 ∧
        100 * (m'.reg 0).toNat + 10 * (m'.reg 1).toNat + (m'.reg 2).toNat = (m.reg w.x).toNat := by
  constructor
  · intro w w' hop hb hop' hb' hx
    have hsave := m.exec_save hop hb
    refine ⟨m.stored (.save w.x), hsave, ?_⟩
    intro ws between hws hblock
    have hrestore := between.exec_restore hop' hb'
    refine ⟨between.loaded w'.x, ?_, ?_, ?_, hblock.index⟩
    · rw [List.cons_append, execAll_cons_of_ok hsave, execAll_append_of_ok hws]
      exact execAll_cons_of_ok hrestore []
    · intro r hr
      rw [reg_loaded, hx, if_pos hr, hblock.read hr]
      exact m.read_saved hr
    · intro r hr
      rw [reg_loaded, hx, if_neg (not_le.mpr hr)]
  · intro w hop hb
    have hdecimal := m.exec_decimal hop hb
    have hrestore : (m.stored (.decimal w.x)).exec 0xF265 = .ok ((m.stored (.decimal w.x)).loaded 2, {}) :=
      exec_restore _ rfl rfl
    refine ⟨_, (execAll_cons_of_ok hdecimal _).trans (execAll_cons_of_ok hrestore []), ?_⟩
    rw [m.reg_loaded_digits w.x (by decide), m.reg_loaded_digits w.x (by decide), m.reg_loaded_digits w.x (by decide)]
    exact digits_sum (m.reg w.x)

/-- A machine whose `I` is far behind the last cell and selects it, so that a block goes on at the first. -/
def behindMemory : Machine := { (powerOn default).setReg 3 255 with index := 0xFFFF }

/-- `V3` comes back after `6301` and `6402`, and `V4` is as they left it; its digits are 2, 5 and 5. -/
theorem registers_read_back_around :
    (∃ saved between restored, behindMemory.exec 0xF355 = .ok (saved, {}) ∧
      saved.execAll [0x6301, 0x6402] = .ok between ∧ SameBlock 3 saved between ∧
      behindMemory.execAll [0xF355, 0x6301, 0x6402, 0xF365] = .ok restored ∧
      restored.reg 3 = 255 ∧ restored.reg 4 = 2) ∧
    ∃ m', behindMemory.execAll [0xF333, 0xF265] = .ok m' ∧
      (m'.reg 0).toNat = 2 ∧ (m'.reg 1).toNat = 5 ∧ (m'.reg 2).toNat = 5 := by
  obtain ⟨hsaved, hdigits⟩ := registers_read_back behindMemory
  constructor
  · obtain ⟨saved, hsave, hrestores⟩ := hsaved 0xF355 0xF365 rfl rfl rfl rfl rfl
    have hfirst : saved.exec 0x6301 = .ok ((saved.setReg 3 1).advance, {}) := by
      have hd : Instr.decode? 0x6301 = some (.setByte 3 1) := by decide +kernel
      exact exec_of_some hd saved
    have hsecond : (saved.setReg 3 1).advance.exec 0x6402 =
        .ok (((saved.setReg 3 1).advance.setReg 4 2).advance, {}) := by
      have hd : Instr.decode? 0x6402 = some (.setByte 4 2) := by decide +kernel
      exact exec_of_some hd _
    have hbetween : saved.execAll [0x6301, 0x6402] = .ok ((saved.setReg 3 1).advance.setReg 4 2).advance :=
      (execAll_cons_of_ok hfirst _).trans (execAll_cons_of_ok hsecond [])
    have hblock : SameBlock 3 saved ((saved.setReg 3 1).advance.setReg 4 2).advance := ⟨rfl, fun _ _ => rfl⟩
    obtain ⟨restored, hrun, hback, hother, -⟩ := hrestores _ _ hbetween hblock
    refine ⟨saved, _, restored, hsave, hbetween, hblock, hrun, hback 3 (by decide), ?_⟩
    rw [hother 4 (by decide), reg_advance, reg_setReg, if_pos rfl]
  · obtain ⟨m', hrun, h0, h1, h2, hsum⟩ := hdigits 0xF333 rfl rfl
    have hvalue : (behindMemory.reg (Word.x 0xF333)).toNat = 255 := by decide +kernel
    exact ⟨m', hrun, by omega, by omega, by omega⟩

end Chip8.Machine
