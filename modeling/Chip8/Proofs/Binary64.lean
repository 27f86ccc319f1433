import Mathlib

/-!
# The order of floats

Floats are compared by what they stand for: first by their sign and by whether they are zero or infinite, then by their
exponents, then by their significands.  `place` puts these three into one lexicographic order, in which what is not a number
has no place; so the comparison is transitive (`le_trans`).
-/

namespace Chip8.Binary64

open Float.Model

/-- Where a float stands among all floats. -/
def place : UnpackedFloat → Option (ℤ ×ₗ ℤ ×ₗ ℤ)
  | .notANumber => none
  | .infinity .negative => some (toLex (-2, toLex (0, 0)))
  | .finite .negative m e _ => some (toLex (-1, toLex (-e, -m)))
  | .zero _ => some (toLex (0, toLex (0, 0)))
  | .finite .positive m e _ => some (toLex (1, toLex (e, m)))
  | .infinity .positive => some (toLex (2, toLex (0, 0)))

theorem isLE_compare_then (e e' : Int) (m m' : Nat) :
    ((compare e e').then (compare m m')).isLE ↔ e < e' ∨ e = e' ∧ m ≤ m' := by
  rw [Ordering.isLE_then_iff_or]
  simp [compare_lt_iff_lt, Nat.isLE_compare]

theorem isGE_compare_then (e e' : Int) (m m' : Nat) :
    ((compare e e').then (compare m m')).isGE ↔ e' < e ∨ e = e' ∧ m' ≤ m := by
  rw [← Ordering.isLE_swap, Ordering.swap_then, ← Std.OrientedOrd.eq_swap, ← Std.OrientedOrd.eq_swap,
    isLE_compare_then, eq_comm]

theorem unpacked_le_iff (x y : UnpackedFloat) :
    x.le y ↔ ∃ p q, place x = some p ∧ place y = some q ∧ p ≤ q := by
  unfold UnpackedFloat.le
  -- the floats by kind and sign; only two finite ones of the same sign are compared by more than that
  rcases x with (_ | _) | _ | _ | ⟨_ | _, m, e, _⟩ <;> rcases y with (_ | _) | _ | _ | ⟨_ | _, m', e', _⟩ <;>
    simp [place, UnpackedFloat.compare, Prod.Lex.le_iff, isLE_compare_then, isGE_compare_then] <;> decide

theorem le_iff {a b : Float} :
    a ≤ b ↔ ∃ p q, place a.toModel.unpack = some p ∧ place b.toModel.unpack = some q ∧ p ≤ q := by
  rw [← unpacked_le_iff, show (a ≤ b) = (Float.le a b = true) from rfl, Float.le, decide_eq_true_eq]
  rfl

protected theorem le_trans {a b c : Float} (hab : a ≤ b) (hbc : b ≤ c) : a ≤ c := by
  obtain ⟨p, q, hp, hq, hpq⟩ := le_iff.mp hab
  obtain ⟨q', r, hq', hr, hqr⟩ := le_iff.mp hbc
  obtain rfl : q = q' := Option.some.inj (hq.symm.trans hq')
  exact le_iff.mpr ⟨p, r, hp, hr, hpq.trans hqr⟩

end Chip8.Binary64
