import Mathlib
import Chip8.Keypad

/-!
# The search for a held key

The search goes once around the pad, so wherever it starts it comes by every key: it finds none only if none is held
(`KeyVector.firstDown?_eq_none_iff`), and else the held key that is nearest to the start, going up and round
(`KeyVector.firstDown?_eq_some_iff`).  So it is only for the choice among several keys that the start matters
(`KeyVector.firstDown?_eq_of_unique`).

What a vector says about each key is all there is to it (`KeyVector.eq_of_isDown`), whether it is the low bits of a number
(`KeyVector.isDown_ofInt`) or made from a list of keys (`KeyVector.isDown_ofKeys`).
-/

namespace Chip8

namespace Key

theorem ofInt_eq_iff {i : Int} {k : Key} : ofInt i = k ↔ i % 16 = k.val := by
  rw [Fin.ext_iff]
  simp only [ofInt]
  omega

/-- In less than a round, a key is reached at its distance from the start and nowhere else. -/
theorem ofInt_add_eq_iff {start : Int} {offset : Nat} {k : Key} (h : offset < 16) :
    ofInt (start + offset) = k ↔ (k.val - start) % 16 = offset := by
  rw [ofInt_eq_iff]
  omega

/-- From any start, every key is reached in less than a round. -/
theorem exists_ofInt_add (start : Int) (k : Key) : ∃ offset < 16, ofInt (start + (offset : Nat)) = k :=
  ⟨((k.val - start) % 16).toNat, by omega, (ofInt_add_eq_iff (by omega)).mpr (by omega)⟩

end Key

namespace KeyVector

variable {v : KeyVector} {start : Int}

@[simp] theorem isDown_zero (k : Key) : isDown 0#16 k = false := by simp [isDown]

@[simp] theorem isDown_or (v v' : KeyVector) (k : Key) : (v ||| v').isDown k = (v.isDown k || v'.isDown k) := by
  simp [isDown]

@[simp] theorem isDown_bit (k k' : Key) : k.bit.isDown k' = decide (k = k') := by
  revert k k'
  decide

/-- A vector is known by its keys. -/
theorem eq_of_isDown {v' : KeyVector} (h : ∀ k, v.isDown k = v'.isDown k) : v = v' :=
  BitVec.eq_of_getLsbD_eq fun i hi => h ⟨i, hi⟩

theorem eq_zero_iff (v : KeyVector) : v = 0 ↔ ∀ k, v.isDown k = false := by
  constructor
  · rintro rfl k
    exact isDown_zero k
  · intro h
    exact eq_of_isDown fun k => (h k).trans (isDown_zero k).symm

/-- Wherever it starts, the search fails exactly if no key is held. -/
theorem firstDown?_eq_none_iff : v.firstDown? start = none ↔ v = 0 := by
  rw [firstDown?, List.find?_eq_none, eq_zero_iff]
  constructor
  · intro h k
    obtain ⟨offset, hlt, rfl⟩ := Key.exists_ofInt_add start k
    simpa using h _ (List.mem_map.mpr ⟨offset, List.mem_range.mpr hlt, rfl⟩)
  · intro h k _
    simp [h k]

/-- The search finds the held key that is nearest to the start, going up and round. -/
theorem firstDown?_eq_some_iff {k : Key} :
    v.firstDown? start = some k ↔
      v.isDown k ∧ ∀ k' : Key, v.isDown k' → ((k.val : Int) - start) % 16 ≤ (k'.val - start) % 16 := by
  rw [firstDown?, List.find?_eq_some_iff_getElem]
  refine and_congr_right fun hdown => ?_
  simp only [List.length_map, List.length_range, List.getElem_map, List.getElem_range, Bool.not_eq_true']
  constructor
  · rintro ⟨i, hi, hk, hbefore⟩ k' hdown'
    obtain ⟨j, hj, rfl⟩ := Key.exists_ofInt_add start k'
    -- were the other key nearer, the search would have come by it before
    have hij : i ≤ j := by
      by_contra hlt
      exact Bool.false_ne_true ((hbefore j (by omega)).symm.trans hdown')
    rw [(Key.ofInt_add_eq_iff hi).mp hk, (Key.ofInt_add_eq_iff hj).mp rfl]
    omega
  · intro hnearest
    obtain ⟨i, hi, rfl⟩ := Key.exists_ofInt_add start k
    refine ⟨i, hi, rfl, fun j hj => ?_⟩
    by_contra hdown'
    have hle := hnearest _ (by simpa using hdown')
    rw [(Key.ofInt_add_eq_iff hi).mp rfl, (Key.ofInt_add_eq_iff (hj.trans hi)).mp rfl] at hle
    omega

theorem isDown_of_firstDown? {k : Key} (h : v.firstDown? start = some k) : v.isDown k :=
  List.find?_some h

/-- A search that starts at a held key finds it. -/
theorem firstDown?_self {k : Key} (h : v.isDown k) : v.firstDown? k.val = some k := by
  refine firstDown?_eq_some_iff.mpr ⟨h, fun k' _ => ?_⟩
  rw [sub_self]
  exact Int.emod_nonneg _ (by decide)

/-- While at most one key is held, it does not matter where the search starts. -/
theorem firstDown?_eq_of_unique (hone : ∀ k k', v.isDown k → v.isDown k' → k = k') (start' : Int) :
    v.firstDown? start = v.firstDown? start' := by
  cases h : v.firstDown? start with
  | none => exact (firstDown?_eq_none_iff.mpr (firstDown?_eq_none_iff.mp h)).symm
  | some k =>
    cases h' : v.firstDown? start' with
    | none =>
      rw [firstDown?_eq_none_iff.mpr (firstDown?_eq_none_iff.mp h')] at h
      exact nomatch h
    | some k' => rw [hone k k' (isDown_of_firstDown? h) (isDown_of_firstDown? h')]

/-! ### Where vectors come from -/

/-- Of a number, the low sixteen bits count. -/
theorem isDown_ofInt (state : Int) (k : Key) : (ofInt state).isDown k ↔ state / 2 ^ k.val % 2 = 1 := by
  rw [isDown, ofInt, BitVec.getLsbD, BitVec.toNat_ofInt, Nat.testBit_eq_decide_div_mod_eq, decide_eq_true_eq]
  fin_cases k <;> simp <;> omega

theorem isDown_foldl_or (keys : List Int) (v : KeyVector) (k : Key) :
    (keys.foldl (fun v i => v ||| (Key.ofInt i).bit) v).isDown k ↔ v.isDown k ∨ ∃ i ∈ keys, i % 16 = k.val := by
  induction keys generalizing v with
  | nil => simp
  | cons i keys ih => simp [ih, Key.ofInt_eq_iff, or_assoc]

theorem isDown_ofKeys (keys : List Int) (k : Key) : (ofKeys keys).isDown k ↔ ∃ i ∈ keys, i % 16 = k.val := by
  rw [ofKeys, isDown_foldl_or]
  simp [isDown]

end KeyVector

end Chip8
