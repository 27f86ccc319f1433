import Mathlib
import Chip8.Proofs.Binary64.Rounding

/-!
# Arithmetic on floats

The difference, the sum and the quotient of two finite floats are the exact ones, rounded (`rounded_sub`, `rounded_add`,
`rounded_div`).  Of a rounded number this says whether it is finite, and if so what rounding keeps of the number (`Near`).

Whatever is added to a float that is not finite, or divides it, the result is not finite either.
-/

namespace Chip8.Binary64

open Float.Model Float.Model.UnpackedFloat

/-! ### Signs -/

section Signs

variable (s : Sign) {y z : ℚ}

theorem abs_signed (hy : 0 ≤ y) : |signed s y| = y := by
  cases s <;> simp [signed, hy]

theorem signed_neg (y : ℚ) : signed (-s) y = -signed s y := by
  cases s with
  | positive => rfl
  | negative => exact (neg_neg y).symm

theorem signed_div (s' : Sign) (y z : ℚ) : signed (s / s') (y / z) = signed s y / signed s' z := by
  cases s <;> cases s' <;> simp [signed, neg_div, div_neg] <;> rfl

theorem cast_apply (n : ℕ) : ((s.apply n : ℤ) : ℚ) = signed s n := by
  cases s <;> simp [signed, Sign.apply]

theorem signed_mul (y z : ℚ) : signed s (y * z) = signed s y * z := by
  cases s <;> simp [signed]

end Signs

/-! ### Rounding a number -/

/-- What rounding keeps of a number: its sign, and on which side of a power of two it is. -/
structure Near (q v : ℚ) : Prop where
  nonneg : 0 ≤ q → 0 ≤ v
  le : ∀ k : ℤ, -1074 ≤ k → |q| ≤ 2 ^ k → |v| ≤ 2 ^ k
  ge : ∀ k : ℤ, -1074 ≤ k → 2 ^ k ≤ |q| → 2 ^ k ≤ |v|

theorem Near.refl (q : ℚ) : Near q q := ⟨id, fun _ _ => id, fun _ _ => id⟩

/-- A number rounded to a float, which is infinite if the number is too large. -/
structure Rounded (q : ℚ) (x : Float) : Prop where
  finite : |q| < overflow → ∃ v, number? x = some v ∧ Near q v
  infinite : overflow ≤ |q| → ∃ s, x.toModel.unpack = .infinity s

theorem Rounded.lt_overflow {q v : ℚ} {x : Float} (h : Rounded q x) (hx : number? x = some v) : |q| < overflow := by
  by_contra hlarge
  obtain ⟨s, hs⟩ := h.infinite (not_lt.mp hlarge)
  rw [number?_eq, hs] at hx
  exact nomatch hx

theorem Rounded.near {q v : ℚ} {x : Float} (h : Rounded q x) (hx : number? x = some v) : Near q v := by
  obtain ⟨v', hx', hnear⟩ := h.finite (h.lt_overflow hx)
  rwa [Option.some.inj (hx.symm.trans hx')]

/-- No finite float is larger than the largest one. -/
theorem Stands.abs_le {u : UnpackedFloat} {v : ℚ} (h : Stands u v) : |v| ≤ (2 ^ 53 - 1) * 2 ^ (971 : ℤ) := by
  cases h with
  | zero =>
    rw [abs_zero]
    positivity
  | finite s hm hcanonical hle =>
    have hm' := hcanonical.lt
    rw [abs_signed s (by positivity)]
    gcongr
    · rw [le_sub_iff_add_le]
      exact_mod_cast hm'
    · exact one_le_two

theorem abs_lt_overflow {x : Float} {v : ℚ} (h : number? x = some v) : |v| < overflow := by
  refine (stands h).abs_le.trans_lt ?_
  rw [overflow_eq]
  gcongr
  norm_num

theorem rounded_of_number {x : Float} {v : ℚ} (h : number? x = some v) : Rounded v x where
  finite _ := ⟨v, h, .refl v⟩
  infinite hlarge := absurd (abs_lt_overflow h) hlarge.not_gt

theorem RoundsTo.rounded {y : ℚ} {r : ℕ} {t : ℤ} (h : RoundsTo y r t) (hy : 0 ≤ y) (s : Sign) {x : Float}
    (hfinite : Fits r t → number? x = some (signed s (r * 2 ^ t)))
    (hinfinite : ¬ Fits r t → ∃ s, x.toModel.unpack = .infinity s) : Rounded (signed s y) x := by
  have hr : (0 : ℚ) ≤ r * 2 ^ t := by positivity
  refine ⟨fun hlt => ?_, fun hge => ?_⟩
  · rw [abs_signed s hy, ← h.fits_iff] at hlt
    refine ⟨_, hfinite hlt, ?_, ?_, ?_⟩
    · intro hq
      cases s with
      | positive => exact hr
      | negative =>
        have hzero : y / 2 ^ t ≤ (0 : ℕ) := by
          have hy' : y ≤ 0 := by simpa [signed] using hq
          simpa using div_nonpos_of_nonpos_of_nonneg hy' (by positivity)
        have hr : r = 0 := Nat.le_zero.mp (h.nearest.le_of_le hzero)
        simp [signed, hr]
    · intro k hk
      rw [abs_signed s hy, abs_signed s hr]
      exact h.le_two_pow hk
    · intro k hk
      rw [abs_signed s hy, abs_signed s hr]
      exact h.two_pow_le hk
  · rw [abs_signed s hy, ← not_lt, ← h.fits_iff] at hge
    exact hinfinite hge

theorem RoundsTo.rounded_pack {y : ℚ} {r : ℕ} {t : ℤ} (h : RoundsTo y r t) (hy : 0 ≤ y) (s : Sign) :
    Rounded (signed s y) ⟨Float.Model.pack (carried s r t)⟩ :=
  h.rounded hy s (fun hfits => (number?_eq _).trans (h.value_pack s hfits)) fun hfits => ⟨s, h.unpack_pack s hfits⟩

theorem log2_shiftLeft {m : ℕ} (hm : 0 < m) (k : ℕ) : (m <<< k).log2 = m.log2 + k := by
  rw [Nat.shiftLeft_eq, Nat.log2_eq_iff (by positivity), Nat.add_right_comm, pow_add, pow_add]
  exact ⟨Nat.mul_le_mul_right _ (Nat.log2_self_le hm.ne'), Nat.mul_lt_mul_of_pos_right Nat.lt_log2_self (by positivity)⟩

theorem rounded_round {m : ℕ} (hm : 0 < m) (e : ℤ) (s : Sign) :
    Rounded (signed s (m * 2 ^ e)) ⟨Float.Model.pack (UnpackedFloat.round Format.binary64 s m e)⟩ := by
  obtain ⟨t, ht⟩ : ∃ t : ℤ, t = max ((m.log2 : ℤ) + e - 52) (-1074) := ⟨_, rfl⟩
  obtain ⟨k, hk⟩ : ∃ k : ℕ, k = (e - t).toNat := ⟨_, rfl⟩
  have hround : UnpackedFloat.round Format.binary64 s m e =
      roundWithAccuracy Format.binary64 s (m <<< k) (e - k) .exact := by
    unfold UnpackedFloat.round decreaseExponent
    dsimp only
    rw [targetExponent_eq, ← ht, ← hk]
  have hlog := log2_shiftLeft hm k
  have hvalue : ((m <<< k : ℕ) : ℚ) * 2 ^ (e - k) = m * 2 ^ e := by
    rw [Nat.shiftLeft_eq, zpow_sub₀ two_ne_zero, zpow_natCast]
    push_cast
    field_simp
  have hexact : Represents (.ofMantissaAndAccuracy (m <<< k) .exact) (m <<< k : ℕ) := rfl
  have hbits : 52 ≤ (m <<< k).log2 ∨ e - k ≤ -1074 := by omega
  obtain ⟨r, t', hrounds, hcarried⟩ := exists_roundsTo hexact hbits s
  rw [hround, hcarried, ← hvalue]
  exact hrounds.rounded_pack (by positivity) s

theorem rounded_zero (s : Sign) : Rounded 0 ⟨Float.Model.pack (.zero s)⟩ :=
  rounded_of_number (number?_of_unpack (unpack_pack_zero s) (.zero s))

theorem rounded_finite {m : ℕ} {e : ℤ} (hcanonical : Canonical m e) (hle : e ≤ 971) (s : Sign) (hm : 0 < m) :
    Rounded (signed s (m * 2 ^ e)) ⟨Float.Model.pack (.finite s m e hm)⟩ :=
  rounded_of_number (number?_of_unpack ((hcanonical.unpack_pack s hm).trans (if_pos hle)) (.finite s hm hcanonical hle))

theorem rounded_normalize (n : ℤ) (e : ℤ) (s : Sign) :
    Rounded (n * 2 ^ e) ⟨Float.Model.pack (UnpackedFloat.normalize Format.binary64 n e s)⟩ := by
  unfold UnpackedFloat.normalize
  rcases lt_trichotomy n 0 with hlt | rfl | hgt
  · obtain ⟨m, hm, rfl⟩ : ∃ m : ℕ, 0 < m ∧ n = -(m : ℤ) := ⟨n.natAbs, by omega, by omega⟩
    rw [Int.compare_eq_lt.mpr hlt]
    have hrounded := rounded_round hm e .negative
    simpa [signed] using hrounded
  · simpa using rounded_zero s
  · obtain ⟨m, hm, rfl⟩ : ∃ m : ℕ, 0 < m ∧ n = (m : ℤ) := ⟨n.natAbs, by omega, by omega⟩
    rw [Int.compare_eq_gt.mpr hgt]
    have hrounded := rounded_round hm e .positive
    simpa [signed] using hrounded

/-! ### Sum and difference -/

/-- Written with a smaller exponent, a number is the same. -/
theorem signed_decreaseExponent (s : Sign) (m : ℕ) {e t : ℤ} (ht : t ≤ e) :
    ((s.apply (decreaseExponent m e t).1 : ℤ) : ℚ) * 2 ^ t = signed s (m * 2 ^ e) := by
  obtain ⟨k, rfl⟩ := Int.le.dest ht
  have hshift : (decreaseExponent m (t + k) t).1 = m <<< k := by
    unfold decreaseExponent
    dsimp only
    rw [add_sub_cancel_left, Int.toNat_natCast]
  rw [hshift, cast_apply, ← signed_mul, Nat.shiftLeft_eq, zpow_add₀ two_ne_zero, zpow_natCast]
  push_cast
  ring_nf

section Unpacked

variable {a b : UnpackedFloat} {v w : ℚ}

theorem Stands.sub (hv : Stands a v) (hw : Stands b w) :
    Rounded (v - w) ⟨Float.Model.pack (UnpackedFloat.sub Format.binary64 a b)⟩ := by
  cases hv with
  | zero s =>
    cases hw with
    | zero s' =>
      have hzero : ∃ s₀, UnpackedFloat.sub Format.binary64 (.zero s) (.zero s') = .zero s₀ := by
        cases s <;> cases s' <;> exact ⟨_, rfl⟩
      obtain ⟨s₀, hzero⟩ := hzero
      rw [hzero, sub_zero]
      exact rounded_zero s₀
    | @finite s' m' e' hm' hcanonical' hle' =>
      have hneg : UnpackedFloat.sub Format.binary64 (.zero s) (.finite s' m' e' hm') = .finite (-s') m' e' hm' := rfl
      rw [hneg, zero_sub, ← signed_neg]
      exact rounded_finite hcanonical' hle' _ hm'
  | @finite s m e hm hcanonical hle =>
    cases hw with
    | zero s' =>
      have hsame : UnpackedFloat.sub Format.binary64 (.finite s m e hm) (.zero s') = .finite s m e hm := rfl
      rw [hsame, sub_zero]
      exact rounded_finite hcanonical hle s hm
    | @finite s' m' e' hm' hcanonical' hle' =>
      have hexact : UnpackedFloat.sub Format.binary64 (.finite s m e hm) (.finite s' m' e' hm') =
          UnpackedFloat.normalize Format.binary64 (s.apply (decreaseExponent m e (min e e')).1 -
            s'.apply (decreaseExponent m' e' (min e e')).1) (min e e') .positive := rfl
      have hrounded := rounded_normalize (s.apply (decreaseExponent m e (min e e')).1 -
        s'.apply (decreaseExponent m' e' (min e e')).1) (min e e') .positive
      rwa [Int.cast_sub, sub_mul, signed_decreaseExponent s m (min_le_left e e'),
        signed_decreaseExponent s' m' (min_le_right e e'), ← hexact] at hrounded

theorem Stands.neg (hw : Stands b w) : Stands b.neg (-w) := by
  cases hw with
  | zero s =>
    rw [neg_zero]
    exact .zero (-s)
  | finite s hm hcanonical hle =>
    rw [← signed_neg]
    exact .finite (-s) hm hcanonical hle

/-- A sum is the difference with the opposite. -/
theorem Stands.add_eq (hv : Stands a v) (hw : Stands b w) :
    UnpackedFloat.add Format.binary64 a b = UnpackedFloat.sub Format.binary64 a b.neg := by
  cases hv with
  | zero s =>
    cases hw with
    | zero s' => cases s <;> cases s' <;> rfl
    | finite s' => cases s' <;> rfl
  | finite s =>
    cases hw with
    | zero s' => rfl
    | finite s' =>
      have hopposite : ∀ n : ℕ, s'.apply n = -(-s').apply n := by
        intro n
        cases s'
        · rfl
        · exact (neg_neg (n : ℤ)).symm
      unfold UnpackedFloat.add UnpackedFloat.sub UnpackedFloat.neg
      simp only [hopposite, sub_eq_add_neg]

theorem Stands.add (hv : Stands a v) (hw : Stands b w) :
    Rounded (v + w) ⟨Float.Model.pack (UnpackedFloat.add Format.binary64 a b)⟩ := by
  have hrounded := hv.sub hw.neg
  rwa [← hv.add_eq hw, sub_neg_eq_add] at hrounded

/-! ### Quotient -/

/-- A whole quotient and its remainder say the exact quotient. -/
theorem represents_quotient (n : ℕ) {d : ℕ} (hd : 0 < d) :
    Represents (.ofMantissaAndAccuracy (n / d) (accuracyOfFraction (n % d) d)) ((n : ℚ) / d) := by
  have hd' : (0 : ℚ) < d := by exact_mod_cast hd
  have hrest : ((n % d : ℕ) : ℚ) < d := by exact_mod_cast Nat.mod_lt n hd
  rw [div_eq_add_mod_div n hd]
  generalize n / d = q
  generalize n % d = rest at hrest
  unfold accuracyOfFraction
  by_cases hzero : rest = 0
  · rw [if_pos hzero, hzero]
    simp [Represents, ExtendedMantissa.ofMantissaAndAccuracy]
  · have hpos : (0 : ℚ) < rest := by exact_mod_cast Nat.pos_of_ne_zero hzero
    rw [if_neg hzero]
    rcases lt_trichotomy (2 * rest) d with hlt | heq | hgt
    · have hlt' : 2 * (rest : ℚ) < d := by exact_mod_cast hlt
      rw [compare_lt_iff_lt.mpr hlt]
      refine ⟨lt_add_of_pos_right _ (by positivity), ?_⟩
      dsimp only [ExtendedMantissa.ofMantissaAndAccuracy]
      rw [add_lt_add_iff_left, div_lt_iff₀ hd']
      linarith
    · have heq' : 2 * (rest : ℚ) = d := by exact_mod_cast heq
      rw [compare_eq_iff_eq.mpr heq]
      have hhalf : (rest : ℚ) / d = 1 / 2 := by
        rw [div_eq_iff hd'.ne']
        linarith
      exact congrArg _ hhalf
    · have hgt' : (d : ℚ) < 2 * rest := by exact_mod_cast hgt
      rw [compare_gt_iff_gt.mpr hgt]
      constructor
      · dsimp only [ExtendedMantissa.ofMantissaAndAccuracy]
        rw [add_lt_add_iff_left, lt_div_iff₀ hd']
        linarith
      · dsimp only [ExtendedMantissa.ofMantissaAndAccuracy]
        rw [add_lt_add_iff_left, div_lt_one hd']
        exact hrest

/-- The dividend is written with so many bits that the quotient has enough of them. -/
theorem exists_divCore {m m' : ℕ} (hm : 0 < m) (hm' : 0 < m') (e e' : ℤ) :
    ∃ k : ℕ, divCore Format.binary64 m e m' e' =
        ((m <<< k) / m', e - e' - k, accuracyOfFraction ((m <<< k) % m') m') ∧
      (52 ≤ ((m <<< k) / m').log2 ∨ e - e' - k ≤ -1074) := by
  obtain ⟨t, ht⟩ : ∃ t : ℤ, t = max ((m.log2 : ℤ) + e - (m'.log2 + e') - 53) (-1074) := ⟨_, rfl⟩
  obtain ⟨k, hk⟩ : ∃ k : ℕ, e - e' - k = min (e - e') t := ⟨(e - e' - min (e - e') t).toNat, by omega⟩
  have htarget : Format.binary64.targetExponent (totalExponent m e - totalExponent m' e') = t := by
    rw [ht]
    simp only [Format.targetExponent, totalExponent, Format.mantissaBits, Format.minExponent]
    norm_num
    omega
  refine ⟨k, ?_, ?_⟩
  · unfold divCore
    dsimp only
    rw [htarget, ← hk, sub_sub_cancel, Int.toNat_natCast]
  · by_cases hleast : e - e' - k ≤ -1074
    · exact .inr hleast
    · have hbits : m'.log2 + 53 ≤ m.log2 + k := by omega
      have hpow : 2 ^ 52 * m' ≤ m <<< k := by
        calc 2 ^ 52 * m' ≤ 2 ^ 52 * 2 ^ (m'.log2 + 1) := Nat.mul_le_mul_left _ Nat.lt_log2_self.le
          _ = 2 ^ (m'.log2 + 53) := by
            rw [← pow_add]
            congr 1
            omega
          _ ≤ 2 ^ (m.log2 + k) := Nat.pow_le_pow_right two_pos hbits
          _ ≤ m <<< k := by
            rw [pow_add, Nat.shiftLeft_eq]
            exact Nat.mul_le_mul_right _ (Nat.log2_self_le hm.ne')
      have hquotient : 2 ^ 52 ≤ (m <<< k) / m' := (Nat.le_div_iff_mul_le hm').mpr hpow
      exact .inl ((Nat.le_log2 (by omega)).mpr hquotient)

theorem rounded_quotient {m m' : ℕ} (hm : 0 < m) (hm' : 0 < m') (e e' : ℤ) (s s' : Sign) :
    Rounded (signed s (m * 2 ^ e) / signed s' (m' * 2 ^ e'))
      ⟨Float.Model.pack (UnpackedFloat.div Format.binary64 (.finite s m e hm) (.finite s' m' e' hm'))⟩ := by
  obtain ⟨k, hcore, hbits⟩ := exists_divCore hm hm' e e'
  have hdiv : UnpackedFloat.div Format.binary64 (.finite s m e hm) (.finite s' m' e' hm') =
      roundWithAccuracy Format.binary64 (s / s') ((m <<< k) / m') (e - e' - k)
        (accuracyOfFraction ((m <<< k) % m') m') := by
    unfold UnpackedFloat.div
    dsimp only
    rw [hcore]
  have hvalue : ((m <<< k : ℕ) : ℚ) / m' * 2 ^ (e - e' - k) = m * 2 ^ e / (m' * 2 ^ e') := by
    have hne : (m' : ℚ) ≠ 0 := by exact_mod_cast hm'.ne'
    rw [Nat.shiftLeft_eq, zpow_sub₀ two_ne_zero, zpow_sub₀ two_ne_zero, zpow_natCast]
    push_cast
    field_simp
  obtain ⟨r, t, hrounds, hcarried⟩ := exists_roundsTo (represents_quotient (m <<< k) hm') hbits (s / s')
  rw [hdiv, hcarried, ← signed_div, ← hvalue]
  exact hrounds.rounded_pack (by positivity) _

theorem Stands.div (hv : Stands a v) (hw : Stands b w) (hne : w ≠ 0) :
    Rounded (v / w) ⟨Float.Model.pack (UnpackedFloat.div Format.binary64 a b)⟩ := by
  cases hw with
  | zero s' => exact absurd rfl hne
  | @finite s' m' e' hm' hcanonical' hle' =>
    cases hv with
    | zero s =>
      have hzero : UnpackedFloat.div Format.binary64 (.zero s) (.finite s' m' e' hm') = .zero (s / s') := rfl
      rw [hzero, zero_div]
      exact rounded_zero (s / s')
    | finite s hm => exact rounded_quotient hm hm' _ _ s s'

end Unpacked

/-! ### Floats that are rounded -/

section Floats

variable {x y : Float} {v w : ℚ}

theorem rounded_sub (hx : number? x = some v) (hy : number? y = some w) : Rounded (v - w) (x - y) :=
  (stands hx).sub (stands hy)

theorem rounded_add (hx : number? x = some v) (hy : number? y = some w) : Rounded (v + w) (x + y) :=
  (stands hx).add (stands hy)

theorem rounded_div (hx : number? x = some v) (hy : number? y = some w) (hne : w ≠ 0) : Rounded (v / w) (x / y) :=
  (stands hx).div (stands hy) hne

end Floats

/-! ### What is not finite -/

section NotFinite

variable {x y : Float} {v w : ℚ}

theorem unpack_div (x y : Float) : (x / y).toModel.unpack =
    (Float.Model.pack (UnpackedFloat.div Format.binary64 x.toModel.unpack y.toModel.unpack)).unpack := rfl

theorem unpack_add (x y : Float) : (x + y).toModel.unpack =
    (Float.Model.pack (UnpackedFloat.add Format.binary64 x.toModel.unpack y.toModel.unpack)).unpack := rfl

theorem number?_div_of_none (hx : number? x = none) : number? (x / y) = none := by
  rw [number?_eq] at hx ⊢
  rw [unpack_div]
  generalize x.toModel.unpack = a at hx
  generalize y.toModel.unpack = b
  cases a with
  | notANumber => exact congrArg value? unpack_pack_notANumber
  | infinity s =>
    cases b with
    | notANumber => exact congrArg value? unpack_pack_notANumber
    | infinity => exact congrArg value? unpack_pack_notANumber
    | zero => exact congrArg value? (unpack_pack_infinity _)
    | finite => exact congrArg value? (unpack_pack_infinity _)
  | zero => exact nomatch hx
  | finite => exact nomatch hx

theorem number?_add_of_none (hx : number? x = none) : number? (x + y) = none := by
  rw [number?_eq] at hx ⊢
  rw [unpack_add]
  generalize x.toModel.unpack = a at hx
  generalize y.toModel.unpack = b
  cases a with
  | notANumber => exact congrArg value? unpack_pack_notANumber
  | infinity s =>
    cases b with
    | notANumber => exact congrArg value? unpack_pack_notANumber
    | infinity s' =>
      unfold UnpackedFloat.add
      dsimp only
      split
      · exact congrArg value? (unpack_pack_infinity s)
      · exact congrArg value? unpack_pack_notANumber
    | zero => exact congrArg value? (unpack_pack_infinity s)
    | finite => exact congrArg value? (unpack_pack_infinity s)
  | zero => exact nomatch hx
  | finite => exact nomatch hx

/-- By what is infinite a number is divided to nothing. -/
theorem number?_div_of_infinity (hx : number? x = some v) (hy : ∃ s, y.toModel.unpack = .infinity s) :
    number? (x / y) = some 0 := by
  obtain ⟨s, hs⟩ := hy
  have hstands := stands hx
  rw [number?_eq, unpack_div, hs]
  generalize x.toModel.unpack = a at hstands
  cases hstands with
  | zero => exact congrArg value? (unpack_pack_zero _)
  | finite => exact congrArg value? (unpack_pack_zero _)

theorem div_notANumber (hy : y.toModel.unpack = .notANumber) : (x / y).toModel.unpack = .notANumber := by
  have hdiv : UnpackedFloat.div Format.binary64 x.toModel.unpack .notANumber = .notANumber := by
    cases x.toModel.unpack <;> rfl
  rw [unpack_div, hy, hdiv, unpack_pack_notANumber]

theorem notANumber_add (hx : x.toModel.unpack = .notANumber) : (x + y).toModel.unpack = .notANumber := by
  rw [unpack_add, hx]
  exact unpack_pack_notANumber

/-- Up to one can be added to any finite float: it is less than half a unit of the largest. -/
theorem exists_number_add (hx : number? x = some v) (hy : number? y = some w) (hw : 0 ≤ w) (hw' : w ≤ 1) :
    ∃ u, number? (x + y) = some u := by
  have hle := (stands hx).abs_le
  have hlt : |v + w| < overflow := by
    have habs := abs_add_le v w
    rw [abs_of_nonneg hw] at habs
    have hunit : (2 : ℚ) < 2 ^ (971 : ℤ) := by
      have hpow : (2 : ℚ) ^ (1 : ℤ) < 2 ^ (971 : ℤ) := zpow_lt_zpow_right₀ one_lt_two (by norm_num)
      rwa [zpow_one] at hpow
    rw [overflow_eq]
    generalize (2 : ℚ) ^ (971 : ℤ) = unit at hle hunit ⊢
    linarith
  obtain ⟨u, hu, -⟩ := (rounded_add hx hy).finite hlt
  exact ⟨u, hu⟩

end NotFinite

end Chip8.Binary64
