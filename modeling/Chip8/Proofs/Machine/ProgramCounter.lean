import Mathlib
import Chip8.Proofs.Keypad
import Chip8.Proofs.Machine.Frame

/-!
# Where a word sends the program counter

Four kinds of words set the program counter themselves: jumps and calls, the jump with an offset, the return, and a key
wait that finds no key (`Diverts`).  Every other word goes on to the next word or to the one behind it, and it is the
latter exactly if the word is one of the six skips and its condition holds (`MustSkip`).  The program counter has
sixteen bits, and nothing here assumes that it is far from the end of them.

The skips come in pairs with opposite conditions (`Opposed`), so that in any machine exactly one of a pair skips.
-/

namespace Chip8.Machine

/-! ### The skips -/

/-- A word is a skip whose condition holds. -/
def MustSkip (m : Machine) (w : Word) : Prop :=
  (w.op = 0x3 ∧ m.reg w.x = w.byte) ∨
  (w.op = 0x4 ∧ m.reg w.x ≠ w.byte) ∨
  (w.op = 0x5 ∧ w.n = 0 ∧ m.reg w.x = m.reg w.y) ∨
  (w.op = 0x9 ∧ w.n = 0 ∧ m.reg w.x ≠ m.reg w.y) ∨
  (w.op = 0xE ∧ w.byte = 0x9E ∧ m.keys.isDown (Key.ofInt (m.reg w.x).toNat) = true) ∨
  (w.op = 0xE ∧ w.byte = 0xA1 ∧ m.keys.isDown (Key.ofInt (m.reg w.x).toNat) = false)

/-- Two skips with the same operands and opposite conditions. -/
def Opposed (w w' : Word) : Prop :=
  w.x = w'.x ∧
    ((w.op = 0x3 ∧ w'.op = 0x4 ∧ w.byte = w'.byte) ∨
     (w.op = 0x5 ∧ w'.op = 0x9 ∧ w.y = w'.y ∧ w.n = 0 ∧ w'.n = 0) ∨
     (w.op = 0xE ∧ w'.op = 0xE ∧ w.byte = 0x9E ∧ w'.byte = 0xA1))

section Skips

variable {m : Machine} {w w' : Word} {i : Instr}

theorem skips_of_decodeArithmetic? {x y : Reg} {n : Fin 16} (h : Instr.decodeArithmetic? x y n = some i) :
    m.skips i = false := by
  unfold Instr.decodeArithmetic? at h
  split at h
  case h_10 => exact nomatch h
  all_goals
    obtain rfl := Option.some.inj h
    rfl

theorem skips_of_decodeTransfer? {x : Reg} {b : UInt8} (h : Instr.decodeTransfer? x b = some i) :
    m.skips i = false := by
  unfold Instr.decodeTransfer? at h
  split at h
  case h_10 => exact nomatch h
  all_goals
    obtain rfl := Option.some.inj h
    rfl

theorem skips_iff_mustSkip (hd : Instr.decode? w = some i) : m.skips i = true ↔ m.MustSkip w := by
  unfold MustSkip
  simp only [Fin.ext_iff]
  unfold Instr.decode? at hd
  split at hd <;> rename_i hop <;> try split_ifs at hd
  -- the classes 8 and F have tables of their own, without a skip
  case h_9 => simp [skips_of_decodeArithmetic? hd, hop]
  case h_16 => simp_all [skips_of_decodeTransfer? hd]
  all_goals
    obtain rfl := Option.some.inj hd
    simp_all [skips]

theorem exec_opposed (m : Machine) (h : Opposed w w') :
    ∃ c, m.exec w = .ok (m.skipIf c, {}) ∧ m.exec w' = .ok (m.skipIf (!c), {}) := by
  obtain ⟨hx, ⟨hop, hop', hb⟩ | ⟨hop, hop', hy, hn, hn'⟩ | ⟨hop, hop', hb, hb'⟩⟩ := h
  · have hd : Instr.decode? w = some (.skipEqByte w.x w.byte) := by simp [Instr.decode?, hop]
    have hd' : Instr.decode? w' = some (.skipNeByte w.x w.byte) := by simp [Instr.decode?, hop', hx, hb]
    exact ⟨_, exec_of_some hd m, exec_of_some hd' m⟩
  · have hd : Instr.decode? w = some (.skipEq w.x w.y) := by simp [Instr.decode?, hop, hn]
    have hd' : Instr.decode? w' = some (.skipNe w.x w.y) := by simp [Instr.decode?, hop', hn', hx, hy]
    exact ⟨_, exec_of_some hd m, exec_of_some hd' m⟩
  · have hd : Instr.decode? w = some (.skipKey w.x) := by simp [Instr.decode?, hop, hb]
    have hd' : Instr.decode? w' = some (.skipNoKey w.x) := by simp [Instr.decode?, hop', hb', hx]
    exact ⟨_, exec_of_some hd m, exec_of_some hd' m⟩

end Skips

/-! ### The other words -/

/-- A word sets the program counter itself, or leaves it as it is. -/
def Diverts (m : Machine) (w : Word) : Prop :=
  w.op ∈ [0x1, 0x2, 0xB] ∨ w = 0x00EE ∨ (w.op = 0xF ∧ w.byte = 0x0A ∧ m.keys = 0)

section Target

variable {m : Machine} {w : Word} {i : Instr}

theorem waits_iff (m : Machine) : m.waits = true ↔ m.keys = 0 := by
  rw [waits, Option.isNone_iff_eq_none, KeyVector.firstDown?_eq_none_iff]

theorem target_of_jump (hd : Instr.decode? w = some i) (h : w.op = 0x1 ∨ w.op = 0x2) :
    m.target i = w.address.val := by
  unfold Instr.decode? at hd
  rcases h with hop | hop
  all_goals
    rw [hop] at hd
    obtain rfl := Option.some.inj hd
    rfl

theorem target_of_jumpOffset (hd : Instr.decode? w = some i) (hop : w.op = 0xB) :
    m.target i = w.address.val + (m.reg 0).toNat := by
  unfold Instr.decode? at hd
  rw [hop] at hd
  obtain rfl := Option.some.inj hd
  rfl

theorem target_of_blocked (hd : Instr.decode? w = some i) (hop : w.op = 0xF) (hb : w.byte = 0x0A)
    (hkeys : m.keys = 0) : m.target i = m.pc.toNat := by
  rw [Instr.decode?_eq_decodeTransfer? hop, hb] at hd
  obtain rfl := Option.some.inj hd
  exact if_pos (m.waits_iff.mpr hkeys)

theorem target_of_not_diverts (hd : Instr.decode? w = some i) (h : ¬ m.Diverts w) :
    m.target i = if m.skips i then (m.pc.toNat : Int) + 4 else m.pc.toNat + 2 := by
  have hw := Instr.toNat_of_decode? hd
  have hop : w.op.val = w.toNat / 4096 := w.val_op
  cases i
  case ret => exact absurd (.inr (.inl ((Instr.decode?_eq_ret_iff w).mp hd))) h
  case jump a | call a | jumpOffset a =>
    simp only [Instr.code, Instr.isShift, Bool.false_eq_true, if_false] at hw
    refine absurd (.inl ?_) h
    simp only [List.mem_cons, List.not_mem_nil, or_false, Fin.ext_iff]
    omega
  case waitKey x =>
    obtain ⟨hop, hb⟩ := word_of_waitKey hd
    have hkeys : ¬ m.waits = true := fun hwaits => h (.inr (.inr ⟨hop, hb, m.waits_iff.mp hwaits⟩))
    exact if_neg hkeys
  all_goals rfl

end Target

/-! ### The law -/

/-- Where the word `w` sends the program counter of `m`, if `m'` is what it leaves. -/
structure MovesPc (m : Machine) (w : Word) (m' : Machine) : Prop where
  jump : w.op = 0x1 ∨ w.op = 0x2 → m'.pc.toNat = w.address.val
  offset : w.op = 0xB → m'.pc.toNat = w.address.val + (m.reg 0).toNat
  ret : w = 0x00EE → ∃ caller stack, m.stack = caller :: stack ∧ (m'.pc.toNat : Int) = (caller + 2) % 2 ^ 16
  blocked : w.op = 0xF → w.byte = 0x0A → m.keys = 0 → m'.pc = m.pc
  /-- Every other word goes on to the next, or to the one behind it. -/
  next : ¬ m.Diverts w →
    m'.pc.toNat = (m.pc.toNat + 2) % 2 ^ 16 ∨ m'.pc.toNat = (m.pc.toNat + 4) % 2 ^ 16
  /-- It skips one exactly if it is a skip and the condition holds. -/
  skip : ¬ m.Diverts w → (m'.pc.toNat = (m.pc.toNat + 4) % 2 ^ 16 ↔ m.MustSkip w)

theorem movesPc_of_exec {m m' : Machine} {w : Word} {eff : Effect} (h : m.exec w = .ok (m', eff)) : m.MovesPc w m' := by
  obtain ⟨i, hd, hp⟩ := exec_eq_ok_iff.mp h
  have hpc : (m'.pc.toNat : Int) = m.target i % 2 ^ 16 := perform_pc hp
  have hnext (hw : ¬ m.Diverts w) :
      m'.pc.toNat = (m.pc.toNat + if m.skips i then 4 else 2) % 2 ^ 16 := by
    rw [target_of_not_diverts hd hw] at hpc
    split_ifs at hpc ⊢ <;> omega
  exact {
    jump := by
      intro hop
      rw [target_of_jump hd hop] at hpc
      omega
    offset := by
      intro hop
      have hreg := (m.reg 0).toNat_lt
      rw [target_of_jumpOffset hd hop] at hpc
      omega
    ret := by
      rintro rfl
      obtain rfl := Option.some.inj (hd.symm.trans ((Instr.decode?_eq_ret_iff _).mpr rfl))
      obtain ⟨caller, hs, -⟩ := perform_ret hp
      refine ⟨caller, m'.stack, hs, ?_⟩
      rwa [target, hs] at hpc
    blocked := by
      intro hop hb hkeys
      have hlt := m.pc.toNat_lt
      rw [target_of_blocked hd hop hb hkeys] at hpc
      exact UInt16.toNat_inj.mp (by omega)
    next := by
      intro hw
      rw [hnext hw]
      cases m.skips i <;> simp
    skip := by
      intro hw
      rw [hnext hw, ← skips_iff_mustSkip hd]
      cases m.skips i
      · simp only [Bool.false_eq_true, if_false, iff_false]
        omega
      · simp }

/-- **Where the words send the program counter.**  This holds for all machines and all words that are carried out: jumps
go to their address, a return goes behind the latest call, a key wait without a key stays, and everything else goes on
by one word, or by two if it is a skip and its condition holds.  Of two skips with opposite conditions one goes on by
two words, and the other by one. -/
theorem exec_moves_pc (m : Machine) :
    (∀ w m' eff, m.exec w = .ok (m', eff) → m.MovesPc w m') ∧
    ∀ w w', Opposed w w' → ∃ m₁ m₂, m.exec w = .ok (m₁, {}) ∧ m.exec w' = .ok (m₂, {}) ∧
      ((m₁.pc.toNat = (m.pc.toNat + 4) % 2 ^ 16 ∧ m₂.pc.toNat = (m.pc.toNat + 2) % 2 ^ 16) ∨
       (m₁.pc.toNat = (m.pc.toNat + 2) % 2 ^ 16 ∧ m₂.pc.toNat = (m.pc.toNat + 4) % 2 ^ 16)) := by
  refine ⟨fun w m' eff h => movesPc_of_exec h, ?_⟩
  intro w w' h
  obtain ⟨c, hw, hw'⟩ := m.exec_opposed h
  refine ⟨_, _, hw, hw', ?_⟩
  have hpc := m.toNat_skipIf_pc c
  have hpc' := m.toNat_skipIf_pc !c
  cases c
  · right
    simp only [Bool.not_false, Bool.false_eq_true, if_false, if_true] at hpc hpc' ⊢
    omega
  · left
    simp only [Bool.not_true, Bool.false_eq_true, if_false, if_true] at hpc hpc' ⊢
    omega

/-- A machine whose next word is the last that sixteen bits can address. -/
def atLastWord : Machine := { powerOn default with pc := 0xFFFE }

/-- There a skip goes round to the second word of memory, and the opposite one to the first. -/
theorem exec_moves_pc_around :
    (∃ m', atLastWord.exec 0x3000 = .ok (m', {}) ∧ ¬ atLastWord.Diverts 0x3000 ∧ atLastWord.MustSkip 0x3000 ∧
      m'.pc.toNat = 2) ∧
    Opposed 0x3000 0x4000 ∧ ∃ m', atLastWord.exec 0x4000 = .ok (m', {}) ∧ m'.pc.toNat = 0 := by
  obtain ⟨hmoves, hopposed⟩ := exec_moves_pc atLastWord
  have hd : Instr.decode? 0x3000 = some (.skipEqByte 0 0) := by decide +kernel
  have hexec : atLastWord.exec 0x3000 = .ok (atLastWord.skipIf true, {}) := exec_of_some hd atLastWord
  have hdiverts : ¬ atLastWord.Diverts 0x3000 := by
    unfold Diverts
    decide
  have hskip : atLastWord.MustSkip 0x3000 := .inl (by decide)
  have hpair : Opposed 0x3000 0x4000 := ⟨by decide, .inl (by decide)⟩
  have hpc := ((hmoves _ _ _ hexec).skip hdiverts).mpr hskip
  refine ⟨⟨_, hexec, hdiverts, hskip, hpc⟩, hpair, ?_⟩
  obtain ⟨m₁, m₂, hm₁, hm₂, hpcs⟩ := hopposed _ _ hpair
  obtain rfl : m₁ = atLastWord.skipIf true := congrArg Prod.fst (Except.ok.inj (hm₁.symm.trans hexec))
  have hstart : atLastWord.pc.toNat = 0xFFFE := rfl
  exact ⟨m₂, hm₂, by omega⟩

end Chip8.Machine
