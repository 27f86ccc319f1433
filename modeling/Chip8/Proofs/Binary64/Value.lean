import Mathlib
import Chip8.Binary64
import Chip8.Proofs.Binary64

/-!
# The numbers that floats stand for

A finite float stands for its fraction with its sign (`number?`).  Arithmetic takes a float apart first, into a sign, a
significand and an exponent, and puts the result together again.  Here both ways are followed through the fields of the 64
bits: what is taken apart is what the fields say (`kind`), and a significand that has its 53 bits, or the least exponent, is
put together without loss unless its exponent is too large (`Canonical.unpack_pack`).

Floats are ordered as their numbers are (`le_iff_of_number`).
-/

namespace Chip8.Binary64

open Float.Model Float.Model.UnpackedFloat

/-- The number that a finite float stands for. -/
def number? (x : Float) : Option ℚ :=
  if isFinite x then
    let size : ℚ := (fraction x).1 / (fraction x).2
    some (if isNegative x then -size else size)
  else none

/-- A number of the given size and sign. -/
def signed : Sign → ℚ → ℚ
  | .positive, y => y
  | .negative, y => -y

/-- The number that a float stands for which has been taken apart. -/
def value? : UnpackedFloat → Option ℚ
  | .zero _ => some 0
  | .finite s m e _ => some (signed s (m * 2 ^ e))
  | .infinity _ | .notANumber => none

/-! ### The parts of a float -/

section Parts

variable (x : Float)

theorem exponentField_eq :
    exponentField x = (@unpackExponent Format.binary64 x.toBits.toBitVec).toNat := by
  rw [unpackExponent_def, BitVec.extractLsb'_toNat]
  rfl

theorem fractionField_eq :
    fractionField x = (@unpackMantissa Format.binary64 x.toBits.toBitVec).toNat := by
  rw [unpackMantissa_def, BitVec.extractLsb'_toNat]
  rfl

theorem isNegative_eq :
    isNegative x = decide (@unpackSign Format.binary64 x.toBits.toBitVec ≠ 0#1) := by
  rw [unpackSign_def, isNegative]
  have hlt := x.toBits.toBitVec.isLt
  have hbits : x.toBits.toNat = x.toBits.toBitVec.toNat := rfl
  rw [decide_eq_decide, Ne, ← BitVec.toNat_inj, BitVec.extractLsb'_toNat, hbits, Nat.shiftRight_eq_div_pow]
  simp
  omega

def sign (x : Float) : Sign := if isNegative x then .negative else .positive

theorem ofBitVec_unpackSign :
    Sign.ofBitVec (@unpackSign Format.binary64 x.toBits.toBitVec) = sign x := by
  rw [sign, isNegative_eq, Sign.ofBitVec]
  split <;> simp_all

theorem fractionField_lt : fractionField x < 2 ^ 52 := Nat.mod_lt _ (by decide)

theorem exponentField_lt : exponentField x < 2048 := Nat.mod_lt _ (by decide)

end Parts

/-- A significand and an exponent as a float has them: of the significand all 53 bits are kept, or fewer at the least
exponent. -/
structure Canonical (m : ℕ) (e : ℤ) : Prop where
  lt : m < 2 ^ 53
  least : -1074 ≤ e
  full : 2 ^ 52 ≤ m ∨ e = -1074

/-- The kinds of floats, by the parts that they are made of. -/
inductive Kind (x : Float) : UnpackedFloat → Prop
  | infinity (hexponent : exponentField x = 2047) (hfraction : fractionField x = 0) : Kind x (.infinity (sign x))
  | notANumber (hexponent : exponentField x = 2047) (hfraction : fractionField x ≠ 0) : Kind x .notANumber
  | zero (hexponent : exponentField x = 0) (hfraction : fractionField x = 0) : Kind x (.zero (sign x))
  | finite {m : ℕ} {e : ℤ} (hm : 0 < m) (hexponent : exponentField x ≠ 2047) (hcanonical : Canonical m e) (hle : e ≤ 971)
      (hfraction : ((fraction x).1 : ℚ) / (fraction x).2 = m * 2 ^ e) : Kind x (.finite (sign x) m e hm)

theorem append_implicit (b : BitVec 52) : (1#1 ++ b).toNat = 2 ^ 52 + b.toNat := by
  rw [BitVec.toNat_append, ← Nat.shiftLeft_add_eq_or_of_lt b.isLt]
  rfl

theorem fraction_of_subnormal {x : Float} (h : exponentField x = 0) :
    ((fraction x).1 : ℚ) / (fraction x).2 = fractionField x * 2 ^ (-1074 : ℤ) := by
  rw [fraction, h]
  simp only [Nat.one_shiftLeft, Nat.cast_pow, Nat.cast_ofNat, zpow_neg, div_eq_mul_inv]
  norm_cast

theorem fraction_of_normal {x : Float} (h : exponentField x ≠ 0) :
    ((fraction x).1 : ℚ) / (fraction x).2 =
      (2 ^ 52 + fractionField x : ℕ) * 2 ^ ((exponentField x : ℤ) - 1075) := by
  obtain ⟨e, he⟩ := Nat.exists_eq_succ_of_ne_zero h
  rw [fraction, he]
  simp only [Nat.one_shiftLeft]
  by_cases hle : 1074 ≤ e
  · obtain ⟨k, rfl⟩ := Nat.exists_eq_add_of_le hle
    have hexponent : ((1074 + k + 1 : ℕ) : ℤ) - 1075 = (k : ℤ) := by omega
    rw [if_pos hle, Nat.add_sub_cancel_left, Nat.shiftLeft_eq, hexponent, zpow_natCast]
    push_cast
    ring
  · obtain ⟨k, hk⟩ := Nat.exists_eq_add_of_le (Nat.le_of_not_le hle)
    have hexponent : ((e + 1 : ℕ) : ℤ) - 1075 = -(k : ℤ) := by omega
    rw [if_neg hle, hexponent, show 1074 - e = k by omega, zpow_neg, zpow_natCast, div_eq_mul_inv]
    push_cast
    ring

theorem kind (x : Float) : Kind x x.toModel.unpack := by
  have hexponent := exponentField_eq x
  have hfraction := fractionField_eq x
  have hsign := ofBitVec_unpackSign x
  have hfractionlt := fractionField_lt x
  have hexponentlt := exponentField_lt x
  have hunpack : x.toModel.unpack = UnpackedFloat.unpack Format.binary64 x.toBits.toBitVec := rfl
  rw [hunpack, UnpackedFloat.unpack]
  simp only [hsign]
  split
  next hall =>
    have hfield : exponentField x = 2047 := by rw [hexponent, hall]; rfl
    split
    next hnone => exact .infinity hfield (by rw [hfraction, hnone]; rfl)
    next hsome =>
      refine .notANumber hfield ?_
      rw [hfraction]
      exact fun hzero => hsome (BitVec.eq_of_toNat_eq hzero)
  next hall =>
    have hfield : exponentField x ≠ 2047 := by
      rw [hexponent]
      exact fun h => hall (BitVec.eq_of_toNat_eq h)
    split
    next hnone =>
      have hzero : exponentField x = 0 := by rw [hexponent, hnone]; rfl
      split
      next hnone => exact .zero hzero (by rw [hfraction, hnone]; rfl)
      next hsome =>
        have hleast : ((@unpackExponent Format.binary64 x.toBits.toBitVec).toNat : ℤ) -
            (Format.binary64.exponentBias + Format.binary64.mantissaBitsWithoutImplicit) + 1 = -1074 := by
          rw [← hexponent, hzero]
          rfl
        refine .finite _ hfield ?_ ?_ ?_
        · rw [hleast, ← hfraction]
          exact ⟨by omega, by omega, .inr rfl⟩
        · omega
        · rw [hleast, ← hfraction]
          exact fraction_of_subnormal hzero
    next hsome =>
      have hzero : exponentField x ≠ 0 := by
        rw [hexponent]
        exact fun h => hsome (BitVec.eq_of_toNat_eq h)
      have hbias : (Format.binary64.exponentBias + Format.binary64.mantissaBitsWithoutImplicit : ℤ) = 1075 := rfl
      have hfull : (1#1 ++ @unpackMantissa Format.binary64 x.toBits.toBitVec).toNat =
          2 ^ 52 + fractionField x := by
        rw [hfraction]
        exact append_implicit _
      refine .finite _ hfield ?_ ?_ ?_
      · rw [hbias, hfull, ← hexponent]
        exact ⟨by omega, by omega, .inl (by omega)⟩
      · rw [hbias, ← hexponent]
        omega
      · rw [hbias, hfull, ← hexponent]
        exact fraction_of_normal hzero

theorem number?_eq (x : Float) : number? x = value? x.toModel.unpack := by
  have hkind := kind x
  generalize x.toModel.unpack = u at hkind
  unfold number? isFinite
  cases hkind with
  | infinity hexponent => simp [hexponent, value?]
  | notANumber hexponent => simp [hexponent, value?]
  | zero hexponent hfraction =>
    have hfinite : exponentField x ≠ 2047 := by omega
    simp [hfinite, value?, fraction_of_subnormal hexponent, hfraction]
  | finite hm hexponent hcanonical hle hfraction =>
    unfold sign
    cases hnegative : isNegative x <;> simp [hexponent, value?, hfraction, signed]

/-! ### Putting a float together -/

theorem unpack_pack_zero (s : Sign) : (Float.Model.pack (.zero s)).unpack = .zero s := unpack_packedZero

theorem unpack_pack_notANumber : (Float.Model.pack .notANumber).unpack = .notANumber := unpack_packedNaN

theorem unpack_packedInfinity (s : Sign) :
    UnpackedFloat.unpack Format.binary64 (packedInfinity Format.binary64 s) = .infinity s := by
  simp [UnpackedFloat.unpack, packedInfinity]

theorem unpack_pack_infinity (s : Sign) : (Float.Model.pack (.infinity s)).unpack = .infinity s :=
  unpack_packedInfinity s

theorem unpack_normal (s : Sign) {exponent : BitVec 11} {mantissa : BitVec 52} (hfinite : exponent.toNat ≠ 2047)
    (hnormal : exponent.toNat ≠ 0) :
    UnpackedFloat.unpack Format.binary64 (packComponents Format.binary64 s exponent mantissa) =
      .finite s (2 ^ 52 + mantissa.toNat) ((exponent.toNat : ℤ) - 1075) (by omega) := by
  have hall : exponent ≠ -1#11 := by
    rintro rfl
    exact hfinite rfl
  have hnone : exponent ≠ 0#11 := by
    rintro rfl
    exact hnormal rfl
  have hbias : (Format.binary64.exponentBias + Format.binary64.mantissaBitsWithoutImplicit : ℤ) = 1075 := rfl
  simp only [UnpackedFloat.unpack, unpackMantissa_packComponents, unpackExponent_packComponents,
    unpackSign_packComponents, Sign.ofBitVec_toBitVec, hall, hnone, if_false, append_implicit, hbias]

theorem unpack_subnormal (s : Sign) {mantissa : BitVec 52} (hm : 0 < mantissa.toNat) :
    UnpackedFloat.unpack Format.binary64 (packComponents Format.binary64 s 0#11 mantissa) =
      .finite s mantissa.toNat (-1074) hm := by
  have hall : 0#11 ≠ -1#11 := by decide
  have hsome : mantissa ≠ 0#52 := by
    rintro rfl
    exact absurd hm (by decide)
  simp only [UnpackedFloat.unpack, unpackMantissa_packComponents, unpackExponent_packComponents,
    unpackSign_packComponents, Sign.ofBitVec_toBitVec, hall, hsome, if_false, if_true, dite_false]
  rfl

/-- An exponent that is too large makes a float infinite, and else nothing is lost. -/
theorem Canonical.unpack_pack {m : ℕ} {e : ℤ} (h : Canonical m e) (s : Sign) (hm : 0 < m) :
    (Float.Model.pack (.finite s m e hm)).unpack = if e ≤ 971 then .finite s m e hm else .infinity s := by
  obtain ⟨hlt, hleast, hfull⟩ := h
  have hpack : (Float.Model.pack (.finite s m e hm)).unpack =
      UnpackedFloat.unpack Format.binary64 (UnpackedFloat.pack Format.binary64 (.finite s m e hm)) := rfl
  have hbias : (e + Format.binary64.exponentBias + Format.binary64.mantissaBitsWithoutImplicit).toNat =
      (e + 1075).toNat := by
    have h1023 : (Format.binary64.exponentBias : ℤ) = 1023 := rfl
    rw [h1023]
    exact congrArg Int.toNat (add_assoc e 1023 52)
  have hbits : Format.binary64.mantissaBits = 53 := rfl
  rw [hpack, UnpackedFloat.pack]
  simp only [hbias, hbits]
  by_cases hle : e ≤ 971
  · rw [if_pos hle, if_neg (show ¬ 2 ^ 11 ≤ (e + 1075).toNat + 1 by omega)]
    by_cases hnormal : 2 ^ 52 ≤ m
    · have hlog : m.log2 = 52 := (Nat.log2_eq_iff hm.ne').mpr ⟨hnormal, hlt⟩
      have hexponent : (BitVec.ofNat 11 (e + 1075).toNat).toNat = (e + 1075).toNat := by
        rw [BitVec.toNat_ofNat]
        omega
      have hmantissa : (BitVec.ofNat 52 m).toNat = m - 2 ^ 52 := by
        rw [BitVec.toNat_ofNat]
        omega
      rw [hlog, if_pos rfl, unpack_normal s (by omega) (by omega)]
      congr 1 <;> omega
    · have hlog : m.log2 ≠ 52 := fun h => hnormal ((Nat.log2_eq_iff hm.ne').mp h).1
      have hmantissa : (BitVec.ofNat 52 m).toNat = m := by
        rw [BitVec.toNat_ofNat]
        omega
      rw [if_neg (by omega), unpack_subnormal s (by omega)]
      congr 1
      omega
  · rw [if_neg hle, if_pos (show 2 ^ 11 ≤ (e + 1075).toNat + 1 by omega)]
    exact unpack_packedInfinity s

/-- The finite floats and what they stand for. -/
inductive Stands : UnpackedFloat → ℚ → Prop
  | zero (s : Sign) : Stands (.zero s) 0
  | finite (s : Sign) {m : ℕ} {e : ℤ} (hm : 0 < m) (hcanonical : Canonical m e) (hle : e ≤ 971) :
    Stands (.finite s m e hm) (signed s (m * 2 ^ e))

theorem stands {x : Float} {v : ℚ} (h : number? x = some v) : Stands x.toModel.unpack v := by
  have hkind := kind x
  rw [number?_eq] at h
  generalize x.toModel.unpack = u at hkind h
  cases hkind with
  | infinity => exact nomatch h
  | notANumber => exact nomatch h
  | zero =>
    obtain rfl := Option.some.inj h
    exact .zero _
  | finite hm _ hcanonical hle =>
    obtain rfl := Option.some.inj h
    exact .finite _ hm hcanonical hle

theorem number?_of_unpack {x : Float} {u : UnpackedFloat} {v : ℚ} (hu : x.toModel.unpack = u) (h : Stands u v) :
    number? x = some v := by
  rw [number?_eq, hu]
  cases h <;> rfl

/-! ### Comparing floats as numbers -/

theorem Canonical.lt_of_exponent_lt {m m' : ℕ} {e e' : ℤ} (h : Canonical m e) (h' : Canonical m' e') (he : e < e') :
    (m : ℚ) * 2 ^ e < m' * 2 ^ e' := by
  have hm : (m : ℚ) < 2 ^ 53 := by exact_mod_cast h.lt
  have hfull : (2 : ℚ) ^ 52 ≤ m' := by
    have hleast := h.least
    exact_mod_cast h'.full.resolve_right (by omega)
  calc (m : ℚ) * 2 ^ e < 2 ^ 53 * 2 ^ e := by gcongr
    _ = 2 ^ 52 * 2 ^ (e + 1) := by
      rw [zpow_add_one₀ two_ne_zero]
      ring
    _ ≤ m' * 2 ^ e' := by
      gcongr
      · norm_num
      · omega

theorem Canonical.le_iff {m m' : ℕ} {e e' : ℤ} (h : Canonical m e) (h' : Canonical m' e') :
    (m : ℚ) * 2 ^ e ≤ m' * 2 ^ e' ↔ e < e' ∨ e = e' ∧ m ≤ m' := by
  rcases lt_trichotomy e e' with hlt | rfl | hgt
  · simp [hlt, (h.lt_of_exponent_lt h' hlt).le]
  · have hpos : (0 : ℚ) < 2 ^ e := by positivity
    simp [mul_le_mul_iff_left₀ hpos]
  · have hnot := (h'.lt_of_exponent_lt h hgt).not_ge
    simp only [hnot, false_iff]
    omega

/-- Where the float of a number stands among all floats. -/
inductive Placed : ℚ → ℤ ×ₗ ℤ ×ₗ ℤ → Prop
  | zero : Placed 0 (toLex (0, toLex (0, 0)))
  | positive {m : ℕ} {e : ℤ} (h : Canonical m e) (hm : 0 < m) : Placed (m * 2 ^ e) (toLex (1, toLex (e, m)))
  | negative {m : ℕ} {e : ℤ} (h : Canonical m e) (hm : 0 < m) : Placed (-(m * 2 ^ e)) (toLex (-1, toLex (-e, -m)))

theorem Stands.placed {u : UnpackedFloat} {v : ℚ} (h : Stands u v) : ∃ p, place u = some p ∧ Placed v p := by
  cases h with
  | zero s => exact ⟨_, rfl, .zero⟩
  | finite s hm hcanonical =>
    cases s with
    | positive => exact ⟨_, rfl, .positive hcanonical hm⟩
    | negative => exact ⟨_, rfl, .negative hcanonical hm⟩

theorem Placed.le_iff {v w : ℚ} {p q : ℤ ×ₗ ℤ ×ₗ ℤ} (hv : Placed v p) (hw : Placed w q) : p ≤ q ↔ v ≤ w := by
  have hsize : ∀ {m : ℕ} {e : ℤ}, 0 < m → (0 : ℚ) < m * 2 ^ e := by
    intro m e hm
    positivity
  cases hv with
  | zero =>
    cases hw with
    | zero => simp
    | positive h hm => simp [Prod.Lex.le_iff, (hsize hm).le]
    | negative h hm => simp [Prod.Lex.le_iff, hsize hm]
  | @positive m e h hm =>
    cases hw with
    | zero => simp [Prod.Lex.le_iff, hsize hm]
    | positive h' hm' => simp [Prod.Lex.le_iff, h.le_iff h']
    | @negative m' e' h' hm' =>
      have hlt : -((m' : ℚ) * 2 ^ e') < m * 2 ^ e := by linarith [hsize (e := e) hm, hsize (e := e') hm']
      simp [Prod.Lex.le_iff, hlt]
  | @negative m e h hm =>
    cases hw with
    | zero => simp [Prod.Lex.le_iff, (hsize hm).le]
    | @positive m' e' h' hm' =>
      have hlt : -((m : ℚ) * 2 ^ e) < m' * 2 ^ e' := by linarith [hsize (e := e) hm, hsize (e := e') hm']
      simp [Prod.Lex.le_iff, hlt.le]
    | negative h' hm' => simp [Prod.Lex.le_iff, h'.le_iff h, eq_comm]

theorem le_iff_of_number {x y : Float} {v w : ℚ} (hx : number? x = some v) (hy : number? y = some w) :
    x ≤ y ↔ v ≤ w := by
  obtain ⟨p, hp, hv⟩ := (stands hx).placed
  obtain ⟨q, hq, hw⟩ := (stands hy).placed
  rw [Binary64.le_iff, ← hv.le_iff hw, hp, hq]
  simp

theorem Placed.between {v : ℚ} {p : ℤ ×ₗ ℤ ×ₗ ℤ} (h : Placed v p) :
    toLex (-2, toLex (0, 0)) < p ∧ p < toLex (2, toLex (0, 0)) := by
  cases h <;> simp [Prod.Lex.lt_iff]

/-- A float that is not finite is above no finite one, unless it is infinite. -/
theorem eq_of_not_le {x y : Float} {w : ℚ} (hx : number? x = none) (hy : number? y = some w) (hnot : ¬ x ≤ y) :
    x.toModel.unpack = .infinity .positive ∨ x.toModel.unpack = .notANumber := by
  obtain ⟨q, hq, hw⟩ := (stands hy).placed
  rw [Binary64.le_iff, hq] at hnot
  rw [number?_eq] at hx
  generalize x.toModel.unpack = u at hx hnot ⊢
  cases u with
  | infinity s =>
    cases s with
    | positive => exact .inl rfl
    | negative => exact absurd ⟨_, q, rfl, rfl, hw.between.1.le⟩ hnot
  | notANumber => exact .inr rfl
  | zero => exact nomatch hx
  | finite => exact nomatch hx

/-- Between finite floats there are only finite ones. -/
theorem exists_number_of_between {x lo hi : Float} {a b : ℚ} (ha : number? lo = some a) (hb : number? hi = some b)
    (hlo : lo ≤ x) (hhi : x ≤ hi) : ∃ v, number? x = some v ∧ a ≤ v ∧ v ≤ b := by
  cases hx : number? x with
  | some v => exact ⟨v, rfl, (le_iff_of_number ha hx).mp hlo, (le_iff_of_number hx hb).mp hhi⟩
  | none =>
    obtain ⟨p, hp, hplaced⟩ := (stands ha).placed
    obtain ⟨q, hq, hplaced'⟩ := (stands hb).placed
    obtain ⟨p', r, hp', hr, hle⟩ := Binary64.le_iff.mp hlo
    obtain ⟨r', q', hr', hq', hle'⟩ := Binary64.le_iff.mp hhi
    obtain rfl := Option.some.inj (hp.symm.trans hp')
    obtain rfl := Option.some.inj (hq.symm.trans hq')
    obtain rfl := Option.some.inj (hr.symm.trans hr')
    have hlower := hplaced.between.1.trans_le hle
    have hupper := hle'.trans_lt hplaced'.between.2
    rw [number?_eq] at hx
    generalize x.toModel.unpack = u at hx hr
    cases u with
    | infinity s =>
      cases s with
      | positive => exact absurd (Option.some.inj hr) hupper.ne'
      | negative => exact absurd (Option.some.inj hr) hlower.ne
    | notANumber => exact nomatch hr
    | zero => exact nomatch hx
    | finite => exact nomatch hx

theorem number?_zero : number? 0.0 = some 0 := number?_of_unpack rfl (.zero .positive)

theorem beq_zero_iff {x : Float} : (x == 0.0) = true ↔ number? x = some 0 := by
  have hbeq : (x == 0.0) = x.toModel.unpack.beq (.zero .positive) := rfl
  rw [hbeq, number?_eq]
  cases x.toModel.unpack with
  | infinity s => cases s <;> simp [UnpackedFloat.beq, UnpackedFloat.compare, value?]
  | notANumber => simp [UnpackedFloat.beq, UnpackedFloat.compare, value?]
  | zero => simp [UnpackedFloat.beq, UnpackedFloat.compare, value?]
  | finite s m e hm =>
    have hsize : (m : ℚ) * 2 ^ e ≠ 0 := by positivity
    cases s <;> simp [UnpackedFloat.beq, UnpackedFloat.compare, value?, signed, hsize]

end Chip8.Binary64
