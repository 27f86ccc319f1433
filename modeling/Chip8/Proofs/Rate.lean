import Mathlib
import Chip8.Scheduler
import Chip8.Proofs.Binary64.Whole

/-!
# Rates as numbers

A rate stands for a number if there is a finite float for it; a whole number may be too large for one, and a float may be
infinite or not a number.  A positive number has a period, which may be infinite but not zero
(`Rate.exists_period_lasts`).  By such a period a scheduler can count from one reading of its clock to another, unless they
are so far apart that their difference or the quotient is too large for a float (`Scheduler.exists_poll_iff_spans`).
-/

namespace Chip8

open Binary64

namespace Rate

/-- The number that a rate stands for, if there is a finite float for it. -/
def number? : Rate → Option ℚ
  | .whole n => if |(n : ℚ)| < overflow then some (n : ℚ) else none
  | .real x => Binary64.number? x

/-- A whole number that is too large for a finite float. -/
def TooLarge : Rate → Prop
  | .whole n => overflow ≤ |(n : ℚ)|
  | .real _ => False

variable {r : Rate} {q : ℚ} {n : ℤ}

theorem number?_whole_eq_some_iff : (whole n).number? = some q ↔ |(n : ℚ)| < overflow ∧ n = q := by
  simp [number?]

theorem number?_whole_eq_none_iff : (whole n).number? = none ↔ (whole n).TooLarge := by
  simp [number?, TooLarge]

/-! ### Rates as floats -/

theorem toFloat_of_tooLarge (h : r.TooLarge) : r.toFloat = .error .tooLarge := by
  cases r with
  | real x => exact h.elim
  | whole n =>
    cases hx : ofInt? n with
    | none => simp only [toFloat, hx]
    | some x => exact absurd (ofInt?_eq_some_iff.mp hx).2 (not_lt.mpr h)

theorem exists_toFloat (h : ¬ r.TooLarge) : ∃ x, r.toFloat = .ok x := by
  cases r with
  | real x => exact ⟨x, rfl⟩
  | whole n =>
    have hx := ofInt?_eq_some_iff.mpr ⟨rfl, not_le.mp h⟩
    exact ⟨ofRatio n 1, by simp only [toFloat, hx]⟩

/-- The float of a rate stands for nearly the same number, and for a positive one if the rate is positive. -/
theorem toFloat_of_number (h : r.number? = some q) :
    ∃ x v, r.toFloat = .ok x ∧ Binary64.number? x = some v ∧ Near q v ∧ (0 < q → 0 < v) := by
  cases r with
  | real x => exact ⟨x, q, rfl, h, .refl q, id⟩
  | whole n =>
    obtain ⟨hlt, rfl⟩ := number?_whole_eq_some_iff.mp h
    obtain ⟨v, hv, hnear⟩ := (rounded_ofRatio_one n).finite hlt
    have hx := ofInt?_eq_some_iff.mpr ⟨rfl, hlt⟩
    refine ⟨ofRatio n 1, v, by simp only [toFloat, hx], hv, hnear, fun hpos => ?_⟩
    have hone : (2 : ℚ) ^ (0 : ℤ) ≤ |(n : ℚ)| := by
      rw [zpow_zero, abs_of_pos hpos]
      exact_mod_cast hpos
    have habs := hnear.ge 0 (by norm_num) hone
    rw [zpow_zero, abs_of_nonneg (hnear.nonneg hpos.le)] at habs
    exact one_pos.trans_le habs

theorem not_tooLarge_of_number (h : r.number? = some q) : ¬ r.TooLarge := by
  intro hlarge
  obtain ⟨x, -, hx, -⟩ := toFloat_of_number h
  rw [toFloat_of_tooLarge hlarge] at hx
  exact nomatch hx

/-! ### What the checks let through -/

theorem isClock_iff : r.isClock ↔ ∃ q, r.number? = some q ∧ 1 ≤ q ∧ q ≤ 2000 := by
  have hsmall : (2000 : ℚ) < overflow := by
    have hpow : (2 : ℚ) ^ (11 : ℤ) < 2 ^ (1023 : ℤ) := zpow_lt_zpow_right₀ one_lt_two (by norm_num)
    refine lt_trans ?_ (hpow.trans overflow_between.1)
    norm_num
  cases r with
  | whole n =>
    have hbounds : (1 ≤ (n : ℚ) ∧ (n : ℚ) ≤ 2000) ↔ (1 ≤ n ∧ n ≤ 2000) := by norm_cast
    rw [isClock, Bool.and_eq_true, decide_eq_true_eq, decide_eq_true_eq]
    constructor
    · intro h
      have hq := hbounds.mpr h
      refine ⟨n, number?_whole_eq_some_iff.mpr ⟨?_, rfl⟩, hq⟩
      rw [abs_of_nonneg (zero_le_one.trans hq.1)]
      exact hq.2.trans_lt hsmall
    · rintro ⟨q, hq, h⟩
      obtain ⟨-, rfl⟩ := number?_whole_eq_some_iff.mp hq
      exact hbounds.mp h
  | real x =>
    have hleast : Binary64.number? 1.0 = some 1 := by decide +kernel
    have hlargest : Binary64.number? 2000.0 = some 2000 := by decide +kernel
    rw [isClock, Bool.and_eq_true, decide_eq_true_eq, decide_eq_true_eq]
    constructor
    · rintro ⟨hlo, hhi⟩
      exact exists_number_of_between hleast hlargest hlo hhi
    · rintro ⟨q, hq, hlo, hhi⟩
      exact ⟨(le_iff_of_number hleast hq).mpr hlo, (le_iff_of_number hq hlargest).mpr hhi⟩

theorem isNotPositive_iff (h : r.number? = some q) : r.isNotPositive ↔ q ≤ 0 := by
  cases r with
  | whole n =>
    obtain ⟨-, rfl⟩ := number?_whole_eq_some_iff.mp h
    rw [isNotPositive, decide_eq_true_eq]
    norm_cast
  | real x =>
    rw [isNotPositive, decide_eq_true_eq]
    exact le_iff_of_number h number?_zero

theorem not_isClock_of_tooLarge (h : r.TooLarge) : ¬ r.isClock := by
  intro hclock
  obtain ⟨q, hq, -⟩ := isClock_iff.mp hclock
  exact not_tooLarge_of_number hq h

/-- To name a rate that is refused, a float is made of it. -/
theorem exists_refusal (r : Rate) {refusal : Float → RateError} (hrefusal : ∀ x, refusal x ≠ .tooLarge) :
    ∃ err, (match r.toFloat with
      | .ok x => .error (refusal x)
      | .error e => .error e : Except RateError Unit) = .error err ∧ (err = .tooLarge ↔ r.TooLarge) := by
  by_cases hlarge : r.TooLarge
  · rw [toFloat_of_tooLarge hlarge]
    exact ⟨_, rfl, iff_of_true rfl hlarge⟩
  · obtain ⟨x, hx⟩ := exists_toFloat hlarge
    rw [hx]
    exact ⟨_, rfl, iff_of_false (hrefusal x) hlarge⟩

theorem checkClock_of_isClock (h : r.isClock) : r.checkClock = .ok () := if_pos h

theorem checkClock_of_not_isClock (h : ¬ r.isClock) :
    ∃ err, r.checkClock = .error err ∧ (err = .tooLarge ↔ r.TooLarge) := by
  rw [checkClock, if_neg h]
  exact r.exists_refusal nofun

theorem checkTimer_of_positive (h : ¬ r.isNotPositive) : r.checkTimer = .ok () := if_neg h

theorem checkTimer_of_isNotPositive (h : r.isNotPositive) :
    ∃ err, r.checkTimer = .error err ∧ (err = .tooLarge ↔ r.TooLarge) := by
  rw [checkTimer, if_pos h]
  exact r.exists_refusal nofun

/-! ### Periods -/

theorem lt_two_pow_of_number (h : r.number? = some q) : q < 2 ^ (1024 : ℤ) := by
  have hlt : |q| < overflow := by
    cases r with
    | whole n =>
      obtain ⟨hlt, rfl⟩ := number?_whole_eq_some_iff.mp h
      exact hlt
    | real x => exact abs_lt_overflow h
  exact (le_abs_self q).trans_lt (hlt.trans overflow_between.2)

/-- The period of a rate is one divided by its float. -/
theorem exists_period (h : r.number? = some q) (hpos : 0 < q) :
    ∃ p v, r.period = .ok p ∧ Near q v ∧ 0 < v ∧ Rounded (1 / v) p := by
  obtain ⟨x, v, hx, hv, hnear, hv0⟩ := toFloat_of_number h
  refine ⟨1.0 / x, v, by simp only [period, hx], hnear, hv0 hpos, ?_⟩
  exact rounded_div (by decide +kernel) hv (hv0 hpos).ne'

/-- A rate that is not above a power of two has a period that is not below the inverse power. -/
theorem le_period (h : r.number? = some q) (hpos : 0 < q) {p : Float} {w : ℚ} (hp : r.period = .ok p)
    (hw : Binary64.number? p = some w) {k : ℤ} (hk : -1074 ≤ k ∧ k ≤ 1074) (hq : q ≤ 2 ^ k) : 2 ^ (-k) ≤ w := by
  obtain ⟨p', v, hp', hnear, hvpos, hrounded⟩ := exists_period h hpos
  obtain rfl : p' = p := Except.ok.inj (hp'.symm.trans hp)
  have hnear' : Near (1 / v) w := hrounded.near hw
  have hv : |v| ≤ 2 ^ k := by
    refine hnear.le k hk.1 ?_
    rwa [abs_of_pos hpos]
  have hsize : (2 : ℚ) ^ (-k) ≤ |1 / v| := by
    rw [abs_of_pos (by positivity), zpow_neg, ← one_div]
    exact one_div_le_one_div_of_le hvpos ((le_abs_self v).trans hv)
  have habs := hnear'.ge (-k) (by omega) hsize
  rwa [abs_of_nonneg (hnear'.nonneg (by positivity))] at habs

/-- A length of time that can be counted: more than nothing, and possibly infinite. -/
def Lasts (period : Float) : Prop :=
  (∃ w, Binary64.number? period = some w ∧ 0 < w) ∨ ∃ sign, period.toModel.unpack = .infinity sign

theorem exists_period_lasts (h : r.number? = some q) (hpos : 0 < q) : ∃ p, r.period = .ok p ∧ Lasts p := by
  obtain ⟨p, v, hp, -, -, hrounded⟩ := exists_period h hpos
  refine ⟨p, hp, ?_⟩
  by_cases hlt : |1 / v| < overflow
  · obtain ⟨w, hw, -⟩ := hrounded.finite hlt
    have hle := le_period h hpos hp hw (k := 1024) (by norm_num) (lt_two_pow_of_number h).le
    exact .inl ⟨w, hw, (zpow_pos two_pos _).trans_le hle⟩
  · exact .inr (hrounded.infinite (not_lt.mp hlt))

/-- An instruction rate has a finite period. -/
theorem exists_clock_period (h : r.isClock) : ∃ p w, r.period = .ok p ∧ Binary64.number? p = some w ∧ 0 < w := by
  obtain ⟨q, hq, hone, hle⟩ := isClock_iff.mp h
  have hpos : 0 < q := one_pos.trans_le hone
  obtain ⟨p, v, hp, hnear, hvpos, hrounded⟩ := exists_period hq hpos
  have hv : (2 : ℚ) ^ (0 : ℤ) ≤ |v| := by
    refine hnear.ge 0 (by norm_num) ?_
    rwa [zpow_zero, abs_of_pos hpos]
  have hlt : |1 / v| < overflow := by
    rw [zpow_zero, abs_of_pos hvpos] at hv
    rw [abs_of_pos (by positivity)]
    refine ((div_le_one hvpos).mpr hv).trans_lt ?_
    exact (one_lt_zpow₀ one_lt_two (by norm_num)).trans overflow_between.1
  obtain ⟨w, hw, -⟩ := hrounded.finite hlt
  have hk : q ≤ 2 ^ (11 : ℤ) := hle.trans (by norm_num)
  exact ⟨p, w, hp, hw, (zpow_pos two_pos _).trans_le (le_period hq hpos hp hw (by norm_num) hk)⟩

theorem period_of_tooLarge (h : r.TooLarge) : r.period = .error .tooLarge := by
  simp only [period, toFloat_of_tooLarge h]

theorem period_of_infinity {x : Float} {sign : Float.Model.UnpackedFloat.Sign} (h : x.toModel.unpack = .infinity sign) :
    ∃ p, (real x).period = .ok p ∧ Binary64.number? p = some 0 :=
  ⟨1.0 / x, rfl, number?_div_of_infinity (v := 1) (by decide +kernel) ⟨sign, h⟩⟩

theorem period_of_notANumber {x : Float} (h : x.toModel.unpack = .notANumber) :
    ∃ p, (real x).period = .ok p ∧ p.toModel.unpack = .notANumber :=
  ⟨1.0 / x, rfl, div_notANumber h⟩

/-- A reading of a clock that is not too far away: no more than `2 ^ 1020` seconds from zero, and no more than `2 ^ 1020`
periods. -/
def Reaches (r : Rate) (now : Float) : Prop :=
  ∃ t, Binary64.number? now = some t ∧ |t| ≤ 2 ^ (1020 : ℤ) ∧ ∀ q, r.number? = some q → |t| * q ≤ 2 ^ (1020 : ℤ)

end Rate

namespace Scheduler

variable {s : Scheduler} {now : Float}

theorem exists_passed_iff (hperiod : Binary64.number? s.period ≠ some 0) :
    (∃ n, s.passed now = .ok n) ↔ ∃ v, Binary64.number? (s.elapsed now / s.period) = some v := by
  have htruncate : (∃ n, s.passed now = .ok n) ↔ ∃ n, truncate (s.elapsed now / s.period + 1e-9) = .ok n := by
    unfold passed
    rw [if_neg (mt beq_zero_iff.mp hperiod)]
    cases truncate (s.elapsed now / s.period + 1e-9) with
    | ok n => simp
    | error err => cases err <;> simp
  rw [htruncate, exists_truncate_iff]
  constructor
  · rintro ⟨u, hu⟩
    cases hv : Binary64.number? (s.elapsed now / s.period) with
    | some v => exact ⟨v, rfl⟩
    | none =>
      rw [number?_add_of_none hv] at hu
      exact nomatch hu
  · rintro ⟨v, hv⟩
    obtain ⟨w, hw⟩ : ∃ w, Binary64.number? 1e-9 = some w ∧ 0 ≤ w ∧ w ≤ 1 :=
      ⟨(Binary64.number? 1e-9).getD 0, by decide +kernel, by decide +kernel, by decide +kernel⟩
    exact exists_number_add hv hw.1 hw.2.1 hw.2.2

theorem exists_poll_iff : (∃ r, s.poll now = .ok r) ↔ ∃ n, s.passed now = .ok n := by
  unfold poll
  cases s.passed now <;> simp

/-- The seconds since the start are not too many for a float, and neither are the periods in them. -/
def Spans (s : Scheduler) (now : Float) : Prop :=
  ∃ d, Binary64.number? (s.elapsed now) = some d ∧ ∀ p, Binary64.number? s.period = some p → |d| < overflow * p

/-- **The law of polls.**  By a period that lasts, a scheduler can count up to a reading exactly if it spans it. -/
theorem exists_poll_iff_spans (hlasts : Rate.Lasts s.period) : (∃ r, s.poll now = .ok r) ↔ s.Spans now := by
  have hnonzero : Binary64.number? s.period ≠ some 0 := by
    rcases hlasts with ⟨p, hp, hpos⟩ | ⟨sign, hsign⟩
    · rw [hp]
      exact fun h => hpos.ne' (Option.some.inj h)
    · rw [number?_eq, hsign]
      exact nofun
  rw [exists_poll_iff, exists_passed_iff hnonzero]
  unfold Spans
  cases hd : Binary64.number? (s.elapsed now) with
  | none =>
    rw [number?_div_of_none hd]
    simp
  | some d =>
    rcases hlasts with ⟨p, hp, hpos⟩ | hinfinite
    · have hquotient := rounded_div hd hp hpos.ne'
      have habs : |d / p| < overflow ↔ |d| < overflow * p := by
        rw [abs_div, abs_of_pos hpos, div_lt_iff₀ hpos]
      constructor
      · rintro ⟨v, hv⟩
        refine ⟨d, rfl, fun p' hp' => ?_⟩
        obtain rfl := Option.some.inj (hp.symm.trans hp')
        exact habs.mp (hquotient.lt_overflow hv)
      · rintro ⟨d', hd', hsmall⟩
        obtain rfl := Option.some.inj hd'
        obtain ⟨v, hv, -⟩ := hquotient.finite (habs.mpr (hsmall p hp))
        exact ⟨v, hv⟩
    · refine iff_of_true ⟨0, number?_div_of_infinity hd hinfinite⟩ ⟨d, rfl, fun p hp => ?_⟩
      obtain ⟨sign, hsign⟩ := hinfinite
      rw [number?_eq, hsign] at hp
      exact nomatch hp

/-- A scheduler spans all readings that are not too far away, if neither is its start. -/
theorem spans_of_reaches {r : Rate} {q : ℚ} (hq : r.number? = some q) (hpos : 0 < q)
    (hperiod : r.period = .ok s.period) (hstart : r.Reaches s.started) (hnow : r.Reaches now) : s.Spans now := by
  obtain ⟨a, ha, ha1, haq⟩ := hstart
  obtain ⟨b, hb, hb1, hbq⟩ := hnow
  -- with the power of two next to the rate, no rounding passes a power of two
  obtain ⟨j, hj, hj'⟩ : ∃ j : ℤ, max 1 q ∈ Set.Ioc ((2 : ℚ) ^ j) (2 ^ (j + 1)) :=
    exists_mem_Ioc_zpow (by positivity) one_lt_two
  have hjlow : -1 ≤ j := by
    by_contra hlow
    have hpow : (2 : ℚ) ^ (j + 1) < 2 ^ (0 : ℤ) := zpow_lt_zpow_right₀ one_lt_two (by omega)
    rw [zpow_zero] at hpow
    exact absurd ((le_max_left 1 q).trans hj') hpow.not_ge
  have hjhigh : j < 1024 := by
    have hone : (1 : ℚ) < 2 ^ (1024 : ℤ) := one_lt_zpow₀ one_lt_two (by norm_num)
    exact (zpow_lt_zpow_iff_right₀ one_lt_two).mp (hj.trans (max_lt hone (Rate.lt_two_pow_of_number hq)))
  have hdiff : |b - a| ≤ 2 ^ (1021 - j) := by
    rw [zpow_sub₀ two_ne_zero, le_div_iff₀ (zpow_pos two_pos j)]
    calc |b - a| * 2 ^ j ≤ (|b| + |a|) * max 1 q := by
          gcongr
          exact abs_sub b a
      _ = |b| * max 1 q + |a| * max 1 q := add_mul _ _ _
      _ ≤ 2 ^ (1020 : ℤ) + 2 ^ (1020 : ℤ) := by
          rw [mul_max_of_nonneg _ _ (abs_nonneg b), mul_max_of_nonneg _ _ (abs_nonneg a), mul_one, mul_one]
          exact add_le_add (max_le hb1 (hbq q hq)) (max_le ha1 (haq q hq))
      _ = 2 ^ (1021 : ℤ) := by rw [← two_mul, ← zpow_one_add₀ two_ne_zero, show (1 + 1020 : ℤ) = 1021 from rfl]
  have hlt : |b - a| < overflow := by
    have hpow : (2 : ℚ) ^ (1021 - j) ≤ 2 ^ (1023 : ℤ) := zpow_le_zpow_right₀ one_le_two (by omega)
    exact (hdiff.trans hpow).trans_lt overflow_between.1
  have helapsed : Rounded (b - a) (s.elapsed now) := rounded_sub hb ha
  obtain ⟨d, hd, hnear⟩ := helapsed.finite hlt
  refine ⟨d, hd, fun w hw => ?_⟩
  have hw' : (2 : ℚ) ^ (-(j + 1)) ≤ w :=
    Rate.le_period hq hpos hperiod hw ⟨by omega, by omega⟩ ((le_max_right 1 q).trans hj')
  calc |d| ≤ 2 ^ (1021 - j) := hnear.le _ (by omega) hdiff
    _ < 2 ^ (1023 : ℤ) * 2 ^ (-(j + 1)) := by
        rw [← zpow_add₀ two_ne_zero]
        exact zpow_lt_zpow_right₀ one_lt_two (by omega)
    _ ≤ overflow * w :=
        mul_le_mul overflow_between.1.le hw' (zpow_pos two_pos _).le
          ((zpow_pos two_pos _).trans overflow_between.1).le

/-! ### Periods that cannot be counted -/

theorem poll_of_notANumber (h : s.period.toModel.unpack = .notANumber) (now : Float) :
    s.poll now = .error .notANumber := by
  have hpassed : s.passed now = .error .notANumber := by
    have hzero : ¬ (s.period == 0.0) = true := by
      rw [beq_zero_iff, number?_eq, h]
      exact nofun
    unfold passed
    rw [if_neg hzero, truncate_of_notANumber (notANumber_add (div_notANumber h))]
  unfold poll
  rw [hpassed]

theorem poll_of_zero (h : Binary64.number? s.period = some 0) (now : Float) : s.poll now = .error .zeroPeriod := by
  have hpassed : s.passed now = .error .zeroPeriod := by
    unfold passed
    rw [if_pos (beq_zero_iff.mpr h)]
  unfold poll
  rw [hpassed]

end Scheduler

end Chip8
