import Mathlib
import Chip8.Proofs.Binary64.Arithmetic

/-!
# Whole numbers and floats

A float has a whole part exactly if it is finite (`exists_truncate_iff`), and a whole number has a float exactly if it is
below `overflow` (`ofInt?_eq_some_iff`).
-/

namespace Chip8.Binary64

open Float.Model Float.Model.UnpackedFloat

/-! ### From a float to a whole number -/

section Truncate

variable {x : Float}

theorem isFinite_iff : isFinite x = true ↔ ∃ v, number? x = some v := by
  unfold number?
  split <;> simp_all

theorem isFinite_of_unpack {u : UnpackedFloat} (hu : x.toModel.unpack = u) (hvalue : value? u = none) :
    isFinite x = false := by
  rw [← Bool.not_eq_true, isFinite_iff, number?_eq, hu, hvalue]
  simp

theorem exists_truncate_iff : (∃ n, truncate x = .ok n) ↔ ∃ v, number? x = some v := by
  rw [← isFinite_iff]
  unfold truncate
  split
  next h => simp [h]
  next h => split <;> simp [h]

theorem truncate_of_notANumber (h : x.toModel.unpack = .notANumber) : truncate x = .error .notANumber := by
  have hkind := kind x
  rw [h] at hkind
  cases hkind with
  | notANumber hexponent hfraction =>
    rw [truncate, isFinite_of_unpack h rfl, if_neg Bool.false_ne_true, if_neg hfraction]

end Truncate

/-! ### From a whole number to a float -/

theorem nearestNat_scaledNearest (num : ℕ) {den : ℕ} (hden : 0 < den) (e : ℤ) :
    NearestNat (num / (den * 2 ^ e)) (scaledNearest num den e) := by
  unfold scaledNearest
  split
  next hpos =>
    obtain ⟨k, rfl⟩ := Int.eq_ofNat_of_zero_le hpos
    have hden' : 0 < den * 2 ^ k := by positivity
    have hnearest := nearestNat_divNearest num hden'
    rw [zpow_natCast, Int.toNat_natCast, Nat.shiftLeft_eq]
    exact_mod_cast hnearest
  next hneg =>
    obtain ⟨k, rfl⟩ : ∃ k : ℕ, e = -(k : ℤ) := ⟨(-e).toNat, by omega⟩
    have hnearest := nearestNat_divNearest (num <<< k) hden
    rw [neg_neg, Int.toNat_natCast]
    rw [Nat.shiftLeft_eq] at hnearest ⊢
    have hvalue : (num : ℚ) / (den * 2 ^ (-(k : ℤ))) = ((num * 2 ^ k : ℕ) : ℚ) / den := by
      rw [zpow_neg, zpow_natCast]
      push_cast
      field_simp
    rwa [hvalue]

/-- The unit of a whole number counts its first 53 bits. -/
theorem unit_one {num : ℕ} (hnum : 0 < num) : unit num 1 = (num.log2 : ℤ) - 52 := by
  obtain ⟨e, he⟩ : ∃ e : ℤ, e = (num.log2 : ℤ) - Nat.log2 1 - 53 := ⟨_, rfl⟩
  have he' : e = (num.log2 : ℤ) - 53 := by
    rw [he, show Nat.log2 1 = 0 from rfl]
    omega
  have hle := Nat.log2_self_le hnum.ne'
  have hnot : ¬ (if 0 ≤ e then num < 1 <<< (e.toNat + 53) else num <<< (-e).toNat < 1 <<< 53) := by
    split
    next hpos =>
      rw [Nat.one_shiftLeft, show e.toNat + 53 = num.log2 by omega]
      exact hle.not_gt
    next hneg =>
      rw [Nat.one_shiftLeft, Nat.shiftLeft_eq, not_lt, show 53 = num.log2 + (-e).toNat by omega, pow_add]
      exact Nat.mul_le_mul_right _ hle
  unfold unit
  dsimp only
  rw [← he, if_neg hnot]
  omega

theorem roundsTo_scaledNearest {num : ℕ} (hnum : 0 < num) :
    RoundsTo num (scaledNearest num 1 (unit num 1)) (unit num 1) := by
  have hpos : (0 : ℚ) < 2 ^ ((num.log2 : ℤ) - 52) := zpow_pos two_pos _
  have hlog : (2 : ℚ) ^ 52 * 2 ^ ((num.log2 : ℤ) - 52) = 2 ^ num.log2 := by
    rw [← zpow_natCast, ← zpow_natCast, ← zpow_add₀ two_ne_zero]
    congr 1
    omega
  have hlower : (2 : ℚ) ^ num.log2 ≤ num := by exact_mod_cast Nat.log2_self_le hnum.ne'
  have hupper : (num : ℚ) < 2 ^ num.log2 * 2 := by exact_mod_cast Nat.lt_log2_self (n := num)
  have hnearest := nearestNat_scaledNearest num one_pos (unit num 1)
  rw [Nat.cast_one, one_mul] at hnearest
  rw [unit_one hnum] at hnearest ⊢
  refine ⟨?_, by omega, .inl ?_, hnearest⟩
  · rw [div_lt_iff₀ hpos]
    linarith
  · rwa [le_div_iff₀ hpos, hlog]

/-! ### Bits -/

/-- A float made of bits has these bits, unless they say that it is not a number. -/
theorem toBits_ofBits {b : UInt64} (h : ¬ @isNaNBits Format.binary64 b.toBitVec) :
    (Float.ofBits b).toBits = b := by
  have hbits : (Float.ofBits b).toBits =
      UInt64.ofBitVec (UnpackedFloat.pack Format.binary64 (UnpackedFloat.unpack Format.binary64 b.toBitVec)) := rfl
  rw [hbits, pack_unpack, if_neg h]

/-- The number of a float that is made of bits, with its sign apart. -/
theorem number?_ofBits {n : ℕ} (hnormal : 2 ^ 52 ≤ n) (hlt : n < 2047 * 2 ^ 52) (negative : Prop) [Decidable negative] :
    number? (Float.ofBits (UInt64.ofNat (if negative then n + 1 <<< 63 else n))) =
      some (signed (if negative then .negative else .positive)
        ((2 ^ 52 + n % 2 ^ 52 : ℕ) * 2 ^ (((n / 2 ^ 52 : ℕ) : ℤ) - 1075))) := by
  obtain ⟨b, hb⟩ : ∃ b, b = if negative then n + 1 <<< 63 else n := ⟨_, rfl⟩
  have hfields : b < 2 ^ 64 ∧ b / 2 ^ 52 % 2 ^ 11 = n / 2 ^ 52 ∧ b % 2 ^ 52 = n % 2 ^ 52 ∧
      (2 ^ 63 ≤ b ↔ negative) := by
    rw [Nat.one_shiftLeft] at hb
    by_cases h : negative
    · rw [if_pos h] at hb
      exact ⟨by omega, by omega, by omega, iff_of_true (by omega) h⟩
    · rw [if_neg h] at hb
      exact ⟨by omega, by omega, by omega, iff_of_false (by omega) h⟩
  obtain ⟨hb64, hexponent, hfraction, hnegative⟩ := hfields
  have hnat : (UInt64.ofNat b).toBitVec.toNat = b := by
    rw [UInt64.toBitVec_ofNat', BitVec.toNat_ofNat]
    exact Nat.mod_eq_of_lt hb64
  obtain ⟨x, hx⟩ : ∃ x, x = Float.ofBits (UInt64.ofNat b) := ⟨_, rfl⟩
  have hbits : x.toBits.toNat = b := by
    rw [hx, toBits_ofBits]
    · exact hnat
    · rw [isNaNBits, decide_eq_true_eq, not_and_or]
      refine .inl fun hall => ?_
      have hfield : b / 2 ^ 52 % 2 ^ 11 = 2047 := by
        rw [← hnat, ← Nat.shiftRight_eq_div_pow, ← BitVec.extractLsb'_toNat]
        exact congrArg BitVec.toNat ((unpackExponent_def _).symm.trans hall)
      omega
  have hexponent' : exponentField x = n / 2 ^ 52 := by
    rw [exponentField, hbits, Nat.shiftRight_eq_div_pow]
    exact hexponent
  have hfraction' : fractionField x = n % 2 ^ 52 := by
    rw [fractionField, hbits, Nat.one_shiftLeft]
    exact hfraction
  have hnegative' : isNegative x = decide negative := by
    rw [isNegative, hbits, Nat.one_shiftLeft]
    exact decide_eq_decide.mpr hnegative
  have hfinite : isFinite x = true := by
    rw [isFinite, hexponent', bne_iff_ne]
    omega
  rw [← hb, ← hx, number?, if_pos hfinite, fraction_of_normal (by omega), hexponent', hfraction', hnegative']
  by_cases h : negative <;> simp [h, signed]

/-- The bits of a significand that is not too large, behind its exponent. -/
theorem number?_ofBits_carried {r : ℕ} {t : ℤ} (hfull : 2 ^ 52 ≤ r) (hle : r ≤ 2 ^ 53) (ht : -1074 ≤ t) (hfits : Fits r t)
    (negative : Prop) [Decidable negative] :
    number? (Float.ofBits (UInt64.ofNat
        (if negative then ((t + 1074).toNat <<< 52 + r) + 1 <<< 63 else (t + 1074).toNat <<< 52 + r))) =
      some (signed (if negative then .negative else .positive) (r * 2 ^ t)) := by
  have hlt : (t + 1074).toNat <<< 52 + r < 2047 * 2 ^ 52 := by
    rw [Nat.shiftLeft_eq]
    rcases hfits with h | ⟨rfl, h⟩ <;> omega
  have hnormal : 2 ^ 52 ≤ (t + 1074).toNat <<< 52 + r := by omega
  rw [number?_ofBits hnormal hlt, Nat.shiftLeft_eq]
  congr 2
  rcases hle.lt_or_eq with hless | rfl
  · have hexponent : (((t + 1074).toNat * 2 ^ 52 + r) / 2 ^ 52 : ℕ) = (t + 1075 : ℤ) := by omega
    have hfraction : 2 ^ 52 + ((t + 1074).toNat * 2 ^ 52 + r) % 2 ^ 52 = r := by omega
    rw [hexponent, hfraction, add_sub_cancel_right]
  · have hexponent : (((t + 1074).toNat * 2 ^ 52 + 2 ^ 53) / 2 ^ 52 : ℕ) = (t + 1 + 1075 : ℤ) := by omega
    have hfraction : 2 ^ 52 + ((t + 1074).toNat * 2 ^ 52 + 2 ^ 53) % 2 ^ 52 = 2 ^ 52 := by omega
    rw [hexponent, hfraction, add_sub_cancel_right, zpow_add_one₀ two_ne_zero]
    push_cast
    ring

theorem rounded_ofRatio_one (n : ℤ) : Rounded n (ofRatio n 1) := by
  rcases eq_or_ne n 0 with rfl | hne
  · exact_mod_cast rounded_of_number (number?_of_unpack (x := ofRatio 0 1) (u := .zero .positive) rfl (.zero _))
  · have hpos : 0 < n.natAbs := Int.natAbs_pos.mpr hne
    have hrounds := roundsTo_scaledNearest hpos
    have hsize : (n : ℚ) = signed (if n < 0 then .negative else .positive) n.natAbs := by
      rw [Nat.cast_natAbs]
      split
      next hneg =>
        rw [abs_of_neg hneg]
        simp [signed]
      next hnonneg =>
        rw [abs_of_nonneg (by omega)]
        rfl
    have hfull : 2 ^ 52 ≤ scaledNearest n.natAbs 1 (unit n.natAbs 1) := by
      refine hrounds.full'.resolve_right ?_
      rw [unit_one hpos]
      omega
    have hbits : nearestBits n.natAbs 1 = min ((unit n.natAbs 1 + 1074).toNat <<< 52 +
        scaledNearest n.natAbs 1 (unit n.natAbs 1)) (2047 <<< 52) := if_neg hpos.ne'
    rw [hsize]
    refine hrounds.rounded (by positivity) _ (fun hfits => ?_) fun hfits => ?_
    · have hmin : nearestBits n.natAbs 1 = (unit n.natAbs 1 + 1074).toNat <<< 52 +
          scaledNearest n.natAbs 1 (unit n.natAbs 1) := by
        rw [hbits, min_eq_left]
        have hle := hrounds.le
        rw [Nat.shiftLeft_eq, Nat.shiftLeft_eq]
        rcases hfits with h | ⟨h, h'⟩ <;> omega
      rw [ofRatio, hmin]
      exact number?_ofBits_carried hfull hrounds.le hrounds.least hfits _
    · have hmin : nearestBits n.natAbs 1 = 2047 <<< 52 := by
        rw [hbits, min_eq_right]
        have hle := hrounds.le
        unfold Fits at hfits
        rw [Nat.shiftLeft_eq, Nat.shiftLeft_eq]
        omega
      rw [ofRatio, hmin]
      split
      · exact ⟨.negative, rfl⟩
      · exact ⟨.positive, rfl⟩

theorem ofInt?_eq_some_iff {n : ℤ} {x : Float} : ofInt? n = some x ↔ x = ofRatio n 1 ∧ |(n : ℚ)| < overflow := by
  have hrounded := rounded_ofRatio_one n
  have hfinite : isFinite (ofRatio n 1) = true ↔ |(n : ℚ)| < overflow := by
    constructor
    · intro h
      obtain ⟨v, hv⟩ := isFinite_iff.mp h
      exact hrounded.lt_overflow hv
    · intro hlt
      obtain ⟨v, hv, -⟩ := hrounded.finite hlt
      exact isFinite_iff.mpr ⟨v, hv⟩
  rw [← hfinite, ofInt?]
  split
  next h => simp [h, eq_comm]
  next h => simp [h]

end Chip8.Binary64
