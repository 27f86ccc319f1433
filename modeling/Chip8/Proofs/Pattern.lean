import Mathlib
import Chip8.Instr

/-!
# Words that spell an instruction

A form of instruction is known by what it asks of the four nibbles of a word.  `Pattern.forms` is the table
of all thirty-five, in the order in which they are tried: `00E0` and `00EE` stand before `0nnn`.  A word spells
an instruction exactly if one of the patterns fits it (`Instr.isSome_decode?_iff`), and only `00EE` spells a
return.  The other way round, the instruction tells the word, but for the nibble that a shift ignores
(`Instr.toNat_of_decode?`).
-/

namespace Chip8

/-! ### The nibbles of a word -/

namespace Word

theorem toNat_byte (w : Word) : w.byte.toNat = 16 * w.y.val + w.n.val := by
  have hy : w.y.val = w.toNat / 16 % 16 := rfl
  have hn : w.n.val = w.toNat % 16 := rfl
  have hb : w.byte.toNat = w.toNat % 256 := by simp [byte]
  omega

theorem toNat_eq (w : Word) :
    w.toNat = 4096 * w.op.val + 256 * w.x.val + 16 * w.y.val + w.n.val := by
  have := w.toNat_lt
  simp only [op, x, y, n, Fin.ofNat]
  omega

/-- A word is known by its four nibbles. -/
theorem eq_iff (w w' : Word) :
    w = w' ↔ w.op.val = w'.op.val ∧ w.x.val = w'.x.val ∧ w.y.val = w'.y.val ∧ w.n.val = w'.n.val := by
  constructor
  · rintro rfl
    exact ⟨rfl, rfl, rfl, rfl⟩
  · rintro ⟨hop, hx, hy, hn⟩
    rw [← UInt16.toNat_inj, w.toNat_eq, w'.toNat_eq, hop, hx, hy, hn]

/-- The low byte is known by its two nibbles. -/
theorem byte_eq_iff (w : Word) (a b : Fin 16) :
    w.byte = UInt8.ofNat (16 * a.val + b.val) ↔ w.y = a ∧ w.n = b := by
  rw [← UInt8.toNat_inj, toNat_byte, UInt8.toNat_ofNat', Fin.ext_iff, Fin.ext_iff]
  omega

end Word

/-! ### Patterns -/

/-- What a form asks of the nibbles of a word, the leading one first; `none` leaves a nibble free. -/
structure Pattern where
  op : Option (Fin 16)
  x : Option (Fin 16)
  y : Option (Fin 16)
  n : Option (Fin 16)

namespace Pattern

def Fits (asked : Option (Fin 16)) (nibble : Fin 16) : Prop := ∀ a ∈ asked, nibble = a

@[simp] theorem fits_none (nibble : Fin 16) : Fits none nibble := by simp [Fits]

@[simp] theorem fits_some (a nibble : Fin 16) : Fits (some a) nibble ↔ nibble = a := by simp [Fits]

def Matches (p : Pattern) (w : Word) : Prop :=
  Fits p.op w.op ∧ Fits p.x w.x ∧ Fits p.y w.y ∧ Fits p.n w.n

/-- The patterns of the thirty-five forms. -/
def forms : List Pattern := [
  ⟨some 0x0, some 0x0, some 0xE, some 0x0⟩,
  ⟨some 0x0, some 0x0, some 0xE, some 0xE⟩,
  ⟨some 0x0, none, none, none⟩,
  ⟨some 0x1, none, none, none⟩,
  ⟨some 0x2, none, none, none⟩,
  ⟨some 0x3, none, none, none⟩,
  ⟨some 0x4, none, none, none⟩,
  ⟨some 0x5, none, none, some 0x0⟩,
  ⟨some 0x9, none, none, some 0x0⟩,
  ⟨some 0x6, none, none, none⟩,
  ⟨some 0x7, none, none, none⟩,
  ⟨some 0x8, none, none, some 0x0⟩,
  ⟨some 0x8, none, none, some 0x1⟩,
  ⟨some 0x8, none, none, some 0x2⟩,
  ⟨some 0x8, none, none, some 0x3⟩,
  ⟨some 0x8, none, none, some 0x4⟩,
  ⟨some 0x8, none, none, some 0x5⟩,
  ⟨some 0x8, none, none, some 0x6⟩,
  ⟨some 0x8, none, none, some 0x7⟩,
  ⟨some 0x8, none, none, some 0xE⟩,
  ⟨some 0xA, none, none, none⟩,
  ⟨some 0xB, none, none, none⟩,
  ⟨some 0xC, none, none, none⟩,
  ⟨some 0xD, none, none, none⟩,
  ⟨some 0xE, none, some 0x9, some 0xE⟩,
  ⟨some 0xE, none, some 0xA, some 0x1⟩,
  ⟨some 0xF, none, some 0x0, some 0x7⟩,
  ⟨some 0xF, none, some 0x0, some 0xA⟩,
  ⟨some 0xF, none, some 0x1, some 0x5⟩,
  ⟨some 0xF, none, some 0x1, some 0x8⟩,
  ⟨some 0xF, none, some 0x1, some 0xE⟩,
  ⟨some 0xF, none, some 0x2, some 0x9⟩,
  ⟨some 0xF, none, some 0x3, some 0x3⟩,
  ⟨some 0xF, none, some 0x5, some 0x5⟩,
  ⟨some 0xF, none, some 0x6, some 0x5⟩]

end Pattern

/-! ### Decoding and patterns -/

namespace Instr

theorem decode?_eq_decodeArithmetic? {w : Word} (hop : w.op = 0x8) : decode? w = decodeArithmetic? w.x w.y w.n := by
  unfold decode?
  rw [hop]
  rfl

theorem decode?_eq_decodeTransfer? {w : Word} (hop : w.op = 0xF) : decode? w = decodeTransfer? w.x w.byte := by
  unfold decode?
  rw [hop]
  rfl

theorem isSome_decodeArithmetic? (x y : Reg) (n : Fin 16) :
    (decodeArithmetic? x y n).isSome ↔ n ∈ [0x0, 0x1, 0x2, 0x3, 0x4, 0x5, 0x6, 0x7, 0xE] := by
  fin_cases n <;> simp [decodeArithmetic?]

theorem isSome_decodeTransfer? (w : Word) :
    (decodeTransfer? w.x w.byte).isSome ↔ (w.y, w.n) ∈ [(0x0, 0x7), (0x0, 0xA), (0x1, 0x5),
      (0x1, 0x8), (0x1, 0xE), (0x2, 0x9), (0x3, 0x3), (0x5, 0x5), (0x6, 0x5)] := by
  have hb : (decodeTransfer? w.x w.byte).isSome ↔
      w.byte.toNat ∈ [0x07, 0x0A, 0x15, 0x18, 0x1E, 0x29, 0x33, 0x55, 0x65] := by
    unfold decodeTransfer?
    split <;> simp_all
  rw [hb, Word.toNat_byte]
  generalize w.y = y
  generalize w.n = n
  clear hb
  decide +revert

/-- **A word spells an instruction exactly if one of the patterns fits it.** -/
theorem isSome_decode?_iff (w : Word) : (decode? w).isSome ↔ ∃ p ∈ Pattern.forms, p.Matches w := by
  have h8 := isSome_decodeArithmetic? w.x w.y w.n
  have hF := isSome_decodeTransfer? w
  have h9E : w.byte = 0x9E ↔ w.y = 0x9 ∧ w.n = 0xE := w.byte_eq_iff 0x9 0xE
  have hA1 : w.byte = 0xA1 ↔ w.y = 0xA ∧ w.n = 0x1 := w.byte_eq_iff 0xA 0x1
  simp only [Pattern.forms, Pattern.Matches, List.exists_mem_cons_iff, Pattern.fits_some,
    Pattern.fits_none, true_and, and_true]
  obtain ⟨o, ho⟩ : ∃ o, o = w.op := ⟨_, rfl⟩
  rw [decode?, ← ho]
  -- in the classes 8, E and F the other nibbles decide
  fin_cases o <;> simp
  case «8» => simpa using h8
  case «14» =>
    rw [← h9E, ← hA1]
    split_ifs <;> simp_all
  case «15» => simpa using hF

theorem decode?_eq_none_iff (w : Word) : decode? w = none ↔ ∀ p ∈ Pattern.forms, ¬ p.Matches w := by
  have h := not_congr (isSome_decode?_iff w)
  rwa [Option.not_isSome_iff_eq_none, not_exists, forall_congr' fun _ => not_and] at h

/-- Only `00EE` spells a return. -/
theorem decode?_eq_ret_iff (w : Word) : decode? w = some .ret ↔ w = 0x00EE := by
  have h8 : ∀ x y n, decodeArithmetic? x y n ≠ some .ret := by
    intro x y n
    unfold decodeArithmetic?
    split <;> simp
  have hF : ∀ x b, decodeTransfer? x b ≠ some .ret := by
    intro x b
    unfold decodeTransfer?
    split <;> simp
  constructor
  · intro h
    unfold decode? at h
    split at h <;> try split_ifs at h
    all_goals simp_all
  · rintro rfl
    rfl

theorem decodeTransfer?_eq_waitKey_iff (x x' : Reg) (b : UInt8) :
    decodeTransfer? x b = some (.waitKey x') ↔ b.toNat = 0x0A ∧ x = x' := by
  unfold decodeTransfer?
  split <;> simp_all

/-- `Fx0A` spells a key wait, and no other word does. -/
theorem decode?_eq_waitKey_iff (w : Word) (x : Reg) :
    decode? w = some (.waitKey x) ↔ w.toNat = 0xF00A + 0x100 * x.val := by
  have h8 : ∀ a b n, decodeArithmetic? a b n ≠ some (.waitKey x) := by
    intro a b n
    unfold decodeArithmetic?
    split <;> simp
  have hop : decode? w = some (.waitKey x) ↔ w.op.val = 0xF ∧ w.byte.toNat = 0x0A ∧ w.x = x := by
    rw [← decodeTransfer?_eq_waitKey_iff]
    unfold decode?
    split <;> try split_ifs
    all_goals simp_all
    all_goals omega
  rw [hop, w.toNat_byte, w.toNat_eq, Fin.ext_iff]
  omega

/-! ### The word of an instruction -/

/-- Whether an instruction is spelled by sixteen words, of which the third nibble does not count. -/
def isShift : Instr → Bool
  | .shiftRight _ | .shiftLeft _ => true
  | _ => false

/-- The word for an instruction, a zero standing for a nibble that does not count. -/
def code : Instr → Nat
  | .clear => 0x00E0
  | .ret => 0x00EE
  | .sys a => a.val
  | .jump a => 0x1000 + a.val
  | .call a => 0x2000 + a.val
  | .skipEqByte x b => 0x3000 + 0x100 * x.val + b.toNat
  | .skipNeByte x b => 0x4000 + 0x100 * x.val + b.toNat
  | .skipEq x y => 0x5000 + 0x100 * x.val + 0x10 * y.val
  | .setByte x b => 0x6000 + 0x100 * x.val + b.toNat
  | .addByte x b => 0x7000 + 0x100 * x.val + b.toNat
  | .copy x y => 0x8000 + 0x100 * x.val + 0x10 * y.val
  | .or x y => 0x8001 + 0x100 * x.val + 0x10 * y.val
  | .and x y => 0x8002 + 0x100 * x.val + 0x10 * y.val
  | .xor x y => 0x8003 + 0x100 * x.val + 0x10 * y.val
  | .add x y => 0x8004 + 0x100 * x.val + 0x10 * y.val
  | .sub x y => 0x8005 + 0x100 * x.val + 0x10 * y.val
  | .shiftRight x => 0x8006 + 0x100 * x.val
  | .subFrom x y => 0x8007 + 0x100 * x.val + 0x10 * y.val
  | .shiftLeft x => 0x800E + 0x100 * x.val
  | .skipNe x y => 0x9000 + 0x100 * x.val + 0x10 * y.val
  | .setIndex a => 0xA000 + a.val
  | .jumpOffset a => 0xB000 + a.val
  | .random x b => 0xC000 + 0x100 * x.val + b.toNat
  | .draw x y n => 0xD000 + 0x100 * x.val + 0x10 * y.val + n.val
  | .skipKey x => 0xE09E + 0x100 * x.val
  | .skipNoKey x => 0xE0A1 + 0x100 * x.val
  | .getDelay x => 0xF007 + 0x100 * x.val
  | .waitKey x => 0xF00A + 0x100 * x.val
  | .setDelay x => 0xF015 + 0x100 * x.val
  | .setSound x => 0xF018 + 0x100 * x.val
  | .addIndex x => 0xF01E + 0x100 * x.val
  | .glyph x => 0xF029 + 0x100 * x.val
  | .decimal x => 0xF033 + 0x100 * x.val
  | .save x => 0xF055 + 0x100 * x.val
  | .restore x => 0xF065 + 0x100 * x.val

theorem code_of_decodeArithmetic? {x y : Reg} {n : Fin 16} {i : Instr} (h : decodeArithmetic? x y n = some i) :
    0x8000 + 0x100 * x.val + 0x10 * y.val + n.val = i.code + if i.isShift then 0x10 * y.val else 0 := by
  unfold decodeArithmetic? at h
  split at h
  case h_10 => exact nomatch h
  all_goals
    obtain rfl := Option.some.inj h
    simp only [code, isShift, if_true, Bool.false_eq_true, if_false]
    omega

theorem code_of_decodeTransfer? {x : Reg} {b : UInt8} {i : Instr} (h : decodeTransfer? x b = some i) :
    0xF000 + 0x100 * x.val + b.toNat = i.code ∧ i.isShift = false := by
  unfold decodeTransfer? at h
  split at h
  case h_10 => exact nomatch h
  all_goals
    obtain rfl := Option.some.inj h
    refine ⟨?_, rfl⟩
    simp only [code]
    omega

/-- A word is known by its instruction, but for the third nibble of a shift. -/
theorem toNat_of_decode? {w : Word} {i : Instr} (h : decode? w = some i) :
    w.toNat = i.code + if i.isShift then 0x10 * w.y.val else 0 := by
  have hword : w.toNat = 0x1000 * w.op.val + 0x100 * w.x.val + 0x10 * w.y.val + w.n.val := w.toNat_eq
  have hbyte : w.byte.toNat = 0x10 * w.y.val + w.n.val := w.toNat_byte
  have haddress : w.address.val = 0x100 * w.x.val + 0x10 * w.y.val + w.n.val := by
    have hmod : w.address.val = w.toNat % 0x1000 := rfl
    omega
  unfold decode? at h
  split at h <;> try split_ifs at h
  -- the classes 8 and F have tables of their own
  case h_9 =>
    have hcode := code_of_decodeArithmetic? h
    omega
  case h_16 =>
    obtain ⟨hcode, hshift⟩ := code_of_decodeTransfer? h
    rw [hshift]
    simp only [imp_false, Bool.false_eq_true, if_false] at *
    omega
  all_goals
    obtain rfl := Option.some.inj h
    simp_all [code, isShift]
    try omega

end Instr

end Chip8
