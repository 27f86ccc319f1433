import Mathlib
import Chip8.Proofs.Binary64.Value

/-!
# Rounding to floats

A number that is not a float is rounded to one with 53 bits, or fewer at the least exponent: to the nearest, and of two
equally near ones to the even one (`RoundsTo`).  To find it, bits are shifted out of a longer significand; of these it is
enough to keep the first one and whether there is another (`Represents`).  Rounding up can make a significand one bit too
long, and then the last bit, a zero, is shifted out as well (`carried`).

Rounding keeps a number on its side of a power of two (`RoundsTo.le_two_pow`, `RoundsTo.two_pow_le`), and the result is
finite exactly below `overflow`.
-/

namespace Chip8.Binary64

open Float.Model Float.Model.UnpackedFloat

/-! ### The nearest whole number -/

/-- `r` is the whole number nearest to `z`, and of two equally near the even one. -/
structure NearestNat (z : ℚ) (r : ℕ) : Prop where
  near : |z - r| ≤ 1 / 2
  even : ¬ Even r → |z - r| < 1 / 2

namespace NearestNat

variable {z : ℚ} {r : ℕ}

theorem le_of_le (h : NearestNat z r) {n : ℕ} (hz : z ≤ n) : r ≤ n := by
  by_contra hlt
  have hr : (n : ℚ) + 1 ≤ r := by exact_mod_cast Nat.lt_of_not_le hlt
  have hnear := abs_le.mp h.near
  linarith

theorem ge_of_ge (h : NearestNat z r) {n : ℕ} (hz : n ≤ z) : n ≤ r := by
  by_contra hlt
  have hr : (r : ℚ) + 1 ≤ n := by exact_mod_cast Nat.lt_of_not_le hlt
  have hnear := abs_le.mp h.near
  linarith

/-- Below the half the whole part is nearest, and above it the next number. -/
theorem of_floor {m : ℕ} (hz : m ≤ z) (hlt : z < m + 1 / 2 ∨ z = m + 1 / 2 ∧ Even m) : NearestNat z m := by
  refine ⟨abs_le.mpr ?_, fun hodd => abs_lt.mpr ?_⟩
  · rcases hlt with hlt | ⟨rfl, -⟩ <;> constructor <;> linarith
  · rcases hlt with hlt | ⟨-, heven⟩
    · constructor <;> linarith
    · exact absurd heven hodd

theorem of_ceil {m : ℕ} (hz : z < m + 1) (hgt : m + 1 / 2 < z ∨ z = m + 1 / 2 ∧ ¬ Even m) :
    NearestNat z (m + 1) := by
  refine ⟨abs_le.mpr ?_, fun hodd => abs_lt.mpr ?_⟩
  · push_cast
    rcases hgt with hgt | ⟨rfl, -⟩ <;> constructor <;> linarith
  · push_cast
    rcases hgt with hgt | ⟨-, hm⟩
    · constructor <;> linarith
    · exact absurd (Nat.not_even_iff_odd.mp hm).add_one hodd

end NearestNat

/-- A quotient is its whole part and the part of the divisor that remains. -/
theorem div_eq_add_mod_div (n : ℕ) {d : ℕ} (hd : 0 < d) : (n : ℚ) / d = (n / d : ℕ) + ((n % d : ℕ) : ℚ) / d := by
  have hd' : (d : ℚ) ≠ 0 := by exact_mod_cast hd.ne'
  have hn : (n : ℚ) = d * (n / d : ℕ) + (n % d : ℕ) := by exact_mod_cast (Nat.div_add_mod n d).symm
  rw [div_eq_iff hd', add_mul, div_mul_cancel₀ _ hd']
  linarith

theorem nearestNat_divNearest (num : ℕ) {den : ℕ} (hden : 0 < den) :
    NearestNat (num / den) (divNearest num den) := by
  have hrest : num % den < den := Nat.mod_lt _ hden
  have hden' : (0 : ℚ) < den := by exact_mod_cast hden
  rw [div_eq_add_mod_div num hden]
  unfold divNearest
  dsimp only
  split
  next hup =>
    refine .of_ceil ?_ ?_
    · rw [add_lt_add_iff_left, div_lt_one hden']
      exact_mod_cast hrest
    · rw [add_lt_add_iff_left, add_right_inj, lt_div_iff₀ hden', div_eq_iff hden'.ne', Nat.even_iff]
      rcases hup with hlt | ⟨heq, hodd⟩
      · have hlt' : (den : ℚ) < 2 * (num % den : ℕ) := by exact_mod_cast hlt
        exact .inl (by linarith)
      · have heq' : 2 * ((num % den : ℕ) : ℚ) = den := by exact_mod_cast heq
        exact .inr ⟨by linarith, by omega⟩
  next hdown =>
    refine .of_floor (le_add_of_nonneg_right (by positivity)) ?_
    rw [add_lt_add_iff_left, add_right_inj, div_lt_iff₀ hden', div_eq_iff hden'.ne', Nat.even_iff]
    rcases Nat.lt_or_ge (2 * (num % den)) den with hlt | hge
    · have hlt' : 2 * ((num % den : ℕ) : ℚ) < den := by exact_mod_cast hlt
      exact .inl (by linarith)
    · have heq : 2 * ((num % den : ℕ) : ℚ) = den := by exact_mod_cast (by omega : 2 * (num % den) = den)
      exact .inr ⟨by linarith, by omega⟩

/-! ### Shifting to the right -/

/-- The number that a significand and the bits cut off behind it say: the first of these bits, and whether there is
any other. -/
def Represents (em : ExtendedMantissa) (z : ℚ) : Prop :=
  match em.roundBit, em.stickyBit with
  | false, false => z = em.mantissa
  | false, true => em.mantissa < z ∧ z < em.mantissa + 1 / 2
  | true, false => z = em.mantissa + 1 / 2
  | true, true => em.mantissa + 1 / 2 < z ∧ z < em.mantissa + 1

namespace Represents

variable {em : ExtendedMantissa} {z : ℚ}

theorem nearestNat (h : Represents em z) : NearestNat z em.roundedMantissa := by
  obtain ⟨m, roundBit, stickyBit⟩ := em
  cases roundBit <;> cases stickyBit
  · obtain rfl : z = m := h
    have hround : ExtendedMantissa.roundedMantissa ⟨m, false, false⟩ = m := rfl
    rw [hround]
    exact .of_floor le_rfl (.inl (by linarith))
  · obtain ⟨hlt, hhalf⟩ : m < z ∧ z < m + 1 / 2 := h
    exact .of_floor hlt.le (.inl hhalf)
  · obtain rfl : z = m + 1 / 2 := h
    have hround : ExtendedMantissa.roundedMantissa ⟨m, true, false⟩ = m + m % 2 := rfl
    rw [hround]
    rcases Nat.even_or_odd m with heven | hodd
    · rw [Nat.even_iff.mp heven, Nat.add_zero]
      exact .of_floor (by linarith) (.inr ⟨rfl, heven⟩)
    · rw [Nat.odd_iff.mp hodd]
      exact .of_ceil (by linarith) (.inr ⟨rfl, Nat.not_even_iff_odd.mpr hodd⟩)
  · obtain ⟨hhalf, hlt⟩ : m + 1 / 2 < z ∧ z < m + 1 := h
    exact .of_ceil hlt (.inl hhalf)

theorem bounds (h : Represents em z) : em.mantissa ≤ z ∧ z < em.mantissa + 1 := by
  obtain ⟨m, roundBit, stickyBit⟩ := em
  cases roundBit <;> cases stickyBit
  · obtain rfl : z = m := h
    constructor <;> linarith
  · obtain ⟨hlt, hhalf⟩ : m < z ∧ z < m + 1 / 2 := h
    constructor <;> dsimp only <;> linarith
  · obtain rfl : z = m + 1 / 2 := h
    constructor <;> linarith
  · obtain ⟨hhalf, hlt⟩ : m + 1 / 2 < z ∧ z < m + 1 := h
    constructor <;> dsimp only <;> linarith

theorem shiftRightOne (h : Represents em z) : Represents em.shiftRightOne (z / 2) := by
  obtain ⟨m, roundBit, stickyBit⟩ := em
  have hm : (m : ℚ) = 2 * (m / 2 : ℕ) + (m % 2 : ℕ) := by exact_mod_cast (Nat.div_add_mod m 2).symm
  rcases Nat.mod_two_eq_zero_or_one m with hbit | hbit <;> rw [hbit] at hm <;> cases roundBit <;> cases stickyBit <;>
    simp [Represents, ExtendedMantissa.shiftRightOne, hbit, hm] at h ⊢ <;> grind

theorem shiftRight (h : Represents em z) (n : ℕ) : Represents (em >>> n) (z / 2 ^ n) := by
  change Represents (n.repeat ExtendedMantissa.shiftRightOne em) _
  induction n with
  | zero => simpa [Nat.repeat] using h
  | succ n ih =>
    have hnext := ih.shiftRightOne
    rwa [div_div, ← pow_succ] at hnext

end Represents

/-! ### Rounding a significand -/

/-- The number `y`, which is not negative, rounds to `r` units of `2 ^ t`.  In these units it has 53 bits before the
point, or fewer if the exponent is the least one. -/
structure RoundsTo (y : ℚ) (r : ℕ) (t : ℤ) : Prop where
  lt : y / 2 ^ t < 2 ^ 53
  least : -1074 ≤ t
  full : 2 ^ 52 ≤ y / 2 ^ t ∨ t = -1074
  nearest : NearestNat (y / 2 ^ t) r

namespace RoundsTo

variable {y : ℚ} {r : ℕ} {t : ℤ}

theorem le (h : RoundsTo y r t) : r ≤ 2 ^ 53 := h.nearest.le_of_le (by exact_mod_cast h.lt.le)

theorem full' (h : RoundsTo y r t) : 2 ^ 52 ≤ r ∨ t = -1074 :=
  h.full.imp_left fun hfull => h.nearest.ge_of_ge (by exact_mod_cast hfull)

end RoundsTo

theorem targetExponent_eq (m : ℕ) (e : ℤ) :
    Format.binary64.targetExponent (totalExponent m e) = max ((m.log2 : ℤ) + e - 52) (-1074) := by
  simp only [Format.targetExponent, totalExponent, Format.mantissaBits, Format.minExponent]
  norm_num
  omega

/-- A significand that has the right number of bits stays as it is. -/
theorem shiftToTargetExponent_of_lt {r : ℕ} {t : ℤ} (hr : r < 2 ^ 53) (ht : -1074 ≤ t) :
    shiftToTargetExponent Format.binary64 r t .exact = (⟨r, false, false⟩, t) := by
  have hlog : r.log2 ≤ 52 := by
    by_cases hzero : r = 0
    · simp [hzero]
    · exact Nat.le_of_lt_succ ((Nat.log2_lt hzero).mpr hr)
  have hshift : (Format.binary64.targetExponent (totalExponent r t) - t).toNat = 0 := by
    rw [targetExponent_eq]
    omega
  rw [shiftToTargetExponent, shiftToExponent, hshift]
  exact Prod.ext rfl (add_zero t)

/-- One that has become too large by rounding loses a bit, which is zero. -/
theorem shiftToTargetExponent_two_pow {t : ℤ} (ht : -1074 ≤ t) :
    shiftToTargetExponent Format.binary64 (2 ^ 53) t .exact = (⟨2 ^ 52, false, false⟩, t + 1) := by
  have hshift : (Format.binary64.targetExponent (totalExponent (2 ^ 53) t) - t).toNat = 1 := by
    rw [targetExponent_eq, Nat.log2_two_pow]
    omega
  rw [shiftToTargetExponent, shiftToExponent, hshift]
  rfl

/-- The float of a rounded significand. -/
def carried (s : Sign) (r : ℕ) (t : ℤ) : UnpackedFloat :=
  if h : r = 0 then .zero s
  else if r < 2 ^ 53 then .finite s r t (Nat.pos_of_ne_zero h)
  else .finite s (2 ^ 52) (t + 1) (Nat.two_pow_pos 52)

/-- A significand with 53 bits or more, or any at the least exponent, is rounded to the nearest. -/
theorem exists_roundsTo {m : ℕ} {e : ℤ} {acc : Accuracy} {z : ℚ}
    (hz : Represents (.ofMantissaAndAccuracy m acc) z) (hm : 52 ≤ m.log2 ∨ e ≤ -1074) (s : Sign) :
    ∃ r t, RoundsTo (z * 2 ^ e) r t ∧ roundWithAccuracy Format.binary64 s m e acc = carried s r t := by
  obtain ⟨t, ht⟩ : ∃ t : ℤ, t = max ((m.log2 : ℤ) + e - 52) (-1074) := ⟨_, rfl⟩
  obtain ⟨k, hk⟩ : ∃ k : ℕ, t = e + k := ⟨(t - e).toNat, by omega⟩
  have hshift : shiftToTargetExponent Format.binary64 m e acc =
      (ExtendedMantissa.ofMantissaAndAccuracy m acc >>> k, t) := by
    unfold shiftToTargetExponent shiftToExponent
    dsimp only
    rw [targetExponent_eq, ← ht, show (t - e).toNat = k by omega, hk]
  have hmantissa : (ExtendedMantissa.ofMantissaAndAccuracy m acc).mantissa = m := by
    cases acc with
    | exact => rfl
    | inexact side => cases side <;> rfl
  obtain ⟨hlower, hupper⟩ := hz.bounds
  rw [hmantissa] at hlower hupper
  have hunits : z * 2 ^ e / 2 ^ t = z / 2 ^ k := by
    rw [hk, zpow_add₀ two_ne_zero, zpow_natCast]
    field_simp
  have hrounds : RoundsTo (z * 2 ^ e) (ExtendedMantissa.ofMantissaAndAccuracy m acc >>> k).roundedMantissa t := by
    refine ⟨?_, by omega, ?_, ?_⟩
    · rw [hunits, div_lt_iff₀ (by positivity), ← pow_add]
      have hlog : m + 1 ≤ 2 ^ (53 + k) :=
        Nat.lt_log2_self.trans_le (Nat.pow_le_pow_right two_pos (by omega))
      exact hupper.trans_le (by exact_mod_cast hlog)
    · by_cases hleast : t = -1074
      · exact .inr hleast
      · have hlog : 2 ^ (52 + k) ≤ m := by
          rw [show 52 + k = m.log2 by omega]
          exact Nat.log2_self_le fun hzero => by simp [hzero] at *; omega
        refine .inl ?_
        rw [hunits, le_div_iff₀ (by positivity), ← pow_add]
        exact hlower.trans' (by exact_mod_cast hlog)
    · rw [hunits]
      exact (hz.shiftRight k).nearestNat
  refine ⟨_, t, hrounds, ?_⟩
  rw [roundWithAccuracy, hshift]
  dsimp only
  generalize (ExtendedMantissa.ofMantissaAndAccuracy m acc >>> k).roundedMantissa = r at hrounds ⊢
  -- rounding up can carry into one bit more, which a second shift takes off again
  rcases hrounds.le.lt_or_eq with hlt | rfl
  · rw [shiftToTargetExponent_of_lt hlt hrounds.least, carried]
    simp only [hlt, if_true]
  · rw [shiftToTargetExponent_two_pow hrounds.least, carried]
    rfl

/-! ### What rounding keeps -/

/-- From here on numbers are too large for a finite float: half a unit above the largest one. -/
def overflow : ℚ := (2 ^ 54 - 1) * 2 ^ 970

theorem overflow_eq : overflow = (2 ^ 53 - 1 / 2) * 2 ^ (971 : ℤ) := by
  rw [overflow, show (971 : ℤ) = (970 : ℕ) + 1 from rfl, zpow_add_one₀ two_ne_zero, zpow_natCast]
  generalize (2 : ℚ) ^ 970 = unit
  ring

theorem overflow_between : 2 ^ (1023 : ℤ) < overflow ∧ overflow < 2 ^ (1024 : ℤ) := by
  have hpos : (0 : ℚ) < 2 ^ (971 : ℤ) := zpow_pos two_pos _
  have hpow : ∀ k : ℕ, (2 : ℚ) ^ ((k : ℤ) + 971) = 2 ^ k * 2 ^ (971 : ℤ) := by
    intro k
    rw [zpow_add₀ two_ne_zero, zpow_natCast]
  have hlower : (2 : ℚ) ^ (1023 : ℤ) = 2 ^ 52 * 2 ^ (971 : ℤ) := hpow 52
  have hupper : (2 : ℚ) ^ (1024 : ℤ) = 2 ^ 53 * 2 ^ (971 : ℤ) := hpow 53
  rw [overflow_eq, hlower, hupper]
  constructor <;> gcongr <;> norm_num

/-- A rounded significand and an exponent of a finite float. -/
def Fits (r : ℕ) (t : ℤ) : Prop := t ≤ 970 ∨ t = 971 ∧ r < 2 ^ 53

namespace RoundsTo

variable {y : ℚ} {r : ℕ} {t : ℤ}

theorem fits_iff (h : RoundsTo y r t) : Fits r t ↔ y < overflow := by
  have hlt := h.lt
  have hfull := h.full
  have hpos : (0 : ℚ) < 2 ^ (971 : ℤ) := zpow_pos two_pos _
  rw [overflow_eq]
  rcases lt_trichotomy t 971 with ht | rfl | ht
  · have hfits : Fits r t := .inl (by omega)
    have hle : (2 : ℚ) ^ (t + 1) ≤ 2 ^ (971 : ℤ) := zpow_le_zpow_right₀ one_le_two (by omega)
    rw [zpow_add_one₀ two_ne_zero] at hle
    rw [div_lt_iff₀ (by positivity)] at hlt
    refine iff_of_true hfits (hlt.trans_le ?_)
    generalize (2 : ℚ) ^ (971 : ℤ) = unit at hpos hle ⊢
    linarith
  · have hnear := abs_le.mp h.nearest.near
    rw [← div_lt_iff₀ (by positivity)]
    constructor
    · rintro (ht | ⟨-, hr⟩)
      · omega
      · have hr' : (r : ℚ) + 1 ≤ 2 ^ 53 := by exact_mod_cast hr
        by_cases heven : Even r
        · have hr' : (r : ℚ) + 2 ≤ 2 ^ 53 := by
            obtain ⟨j, rfl⟩ := heven
            exact_mod_cast (by omega : j + j + 2 ≤ 2 ^ 53)
          linarith
        · have hnear := abs_lt.mp (h.nearest.even heven)
          linarith
    · intro hy
      refine .inr ⟨rfl, ?_⟩
      by_contra hr
      have hr' : (2 : ℚ) ^ 53 ≤ r := by exact_mod_cast Nat.le_of_not_lt hr
      linarith
  · have hfits : ¬ Fits r t := by
      rintro (h | ⟨h, -⟩) <;> omega
    have hle : (2 : ℚ) ^ (972 : ℤ) ≤ 2 ^ t := zpow_le_zpow_right₀ one_le_two (by omega)
    rw [show (972 : ℤ) = 971 + 1 from rfl, zpow_add_one₀ two_ne_zero] at hle
    have hy := hfull.resolve_right (by omega)
    rw [le_div_iff₀ (by positivity)] at hy
    refine iff_of_false hfits (not_lt.mpr (le_trans ?_ hy))
    generalize (2 : ℚ) ^ (971 : ℤ) = unit at hpos hle ⊢
    linarith

/-- Powers of two are floats, so that rounding does not go beyond one, … -/
theorem le_two_pow (h : RoundsTo y r t) {k : ℤ} (hk : -1074 ≤ k) (hy : y ≤ 2 ^ k) : (r : ℚ) * 2 ^ t ≤ 2 ^ k := by
  have hpos : (0 : ℚ) < 2 ^ t := zpow_pos two_pos t
  rcases le_or_gt t k with hle | hlt
  · obtain ⟨n, rfl⟩ := Int.le.dest hle
    rw [zpow_add₀ two_ne_zero, zpow_natCast, mul_comm] at hy ⊢
    have hr : r ≤ 2 ^ n := by
      refine h.nearest.le_of_le ?_
      rw [div_le_iff₀ hpos]
      exact_mod_cast hy
    exact mul_le_mul_of_nonneg_left (by exact_mod_cast hr) hpos.le
  · have hfull := h.full.resolve_right (by omega)
    rw [le_div_iff₀ hpos] at hfull
    have hless : (2 : ℚ) ^ k < 2 ^ t := zpow_lt_zpow_right₀ one_lt_two hlt
    linarith

/-- … from above or from below. -/
theorem two_pow_le (h : RoundsTo y r t) {k : ℤ} (hk : -1074 ≤ k) (hy : 2 ^ k ≤ y) : (2 : ℚ) ^ k ≤ r * 2 ^ t := by
  have hpos : (0 : ℚ) < 2 ^ t := zpow_pos two_pos t
  rcases le_or_gt t k with hle | hlt
  · obtain ⟨n, rfl⟩ := Int.le.dest hle
    rw [zpow_add₀ two_ne_zero, zpow_natCast, mul_comm] at hy ⊢
    have hr : 2 ^ n ≤ r := by
      refine h.nearest.ge_of_ge ?_
      rw [le_div_iff₀ hpos]
      exact_mod_cast hy
    exact mul_le_mul_of_nonneg_right (by exact_mod_cast hr) hpos.le
  · have hfull := h.full'.resolve_right (by omega)
    have hr : (1 : ℚ) ≤ r := by exact_mod_cast Nat.one_le_two_pow.trans hfull
    calc (2 : ℚ) ^ k ≤ 2 ^ t := zpow_le_zpow_right₀ one_le_two hlt.le
      _ ≤ r * 2 ^ t := le_mul_of_one_le_left hpos.le hr

theorem carried_eq (h : RoundsTo y r t) (hr : r ≠ 0) (s : Sign) :
    ∃ m e, ∃ hm : 0 < m, carried s r t = .finite s m e hm ∧ Canonical m e ∧ (e ≤ 971 ↔ Fits r t) ∧
      (m : ℚ) * 2 ^ e = r * 2 ^ t := by
  unfold Fits
  rcases h.le.lt_or_eq with hlt | rfl
  · refine ⟨r, t, Nat.pos_of_ne_zero hr, ?_, ⟨hlt, h.least, h.full'⟩, by omega, rfl⟩
    rw [carried, dif_neg hr, if_pos hlt]
  · refine ⟨2 ^ 52, t + 1, Nat.two_pow_pos 52, rfl, ⟨by decide, ?_, .inl le_rfl⟩, by omega, ?_⟩
    · have hleast := h.least
      omega
    · rw [zpow_add_one₀ two_ne_zero]
      push_cast
      ring

/-- What becomes of a rounded significand: a finite float if it fits, … -/
theorem value_pack (h : RoundsTo y r t) (s : Sign) (hfits : Fits r t) :
    value? (Float.Model.pack (carried s r t)).unpack = some (signed s (r * 2 ^ t)) := by
  by_cases hr : r = 0
  · have hzero : carried s r t = .zero s := dif_pos hr
    rw [hzero, unpack_pack_zero, hr]
    cases s <;> simp [value?, signed]
  · obtain ⟨m, e, hm, hcarried, hcanonical, hiff, hvalue⟩ := h.carried_eq hr s
    rw [hcarried, hcanonical.unpack_pack, if_pos (hiff.mpr hfits)]
    rw [value?, hvalue]

/-- … and else an infinite one. -/
theorem unpack_pack (h : RoundsTo y r t) (s : Sign) (hfits : ¬ Fits r t) :
    (Float.Model.pack (carried s r t)).unpack = .infinity s := by
  have hr : r ≠ 0 := by
    rintro rfl
    rcases h.full' with hfull | hleast
    · exact absurd hfull (by decide)
    · exact hfits (.inl (by omega))
  obtain ⟨m, e, hm, hcarried, hcanonical, hiff, -⟩ := h.carried_eq hr s
  rw [hcarried, hcanonical.unpack_pack, if_neg (mt hiff.mp hfits)]

end RoundsTo

end Chip8.Binary64
