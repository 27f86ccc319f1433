import Mathlib
import Chip8.Proofs.Terminal.Keys
import Chip8.Text.Integer

/-!
# Reading spelled numbers

A number is spelled to a base by its digits, with any zeros in front of them and its letters in either case
(`Base.Spells`).  Whoever reads such a spelling gets the number back: digit by digit (`Base.Spells.digits?_eq`), and as a
whole number to base ten or sixteen (`Base.Spells.integer?_ten`, `Base.Spells.integer?_sixteen`), to base sixteen also
behind `0x` (`Base.Spells.integer?_marked`).
-/

namespace Chip8.Text

/-! ### Blanks around a text -/

theorem stripBy_append {p : Char → Bool} {before cs after : List Char} (hbefore : ∀ c ∈ before, p c)
    (hcs : ∀ c ∈ cs, ¬ p c) (hne : cs ≠ []) (hafter : ∀ c ∈ after, p c) :
    stripBy p (before ++ cs ++ after) = cs := by
  have hkept : ∀ {ds : List Char} (rest : List Char), ds ≠ [] → (∀ c ∈ ds, ¬ p c) →
      (ds ++ rest).dropWhile p = ds ++ rest := by
    intro ds rest hds h
    obtain ⟨d, ds, rfl⟩ := List.exists_cons_of_ne_nil hds
    exact List.dropWhile_cons_of_neg (h d (List.mem_cons_self ..))
  have hfront : (before ++ cs ++ after).dropWhile p = cs ++ after := by
    rw [List.append_assoc, List.dropWhile_append_of_pos hbefore, hkept after hne hcs]
  have hback : (cs ++ after).reverse.dropWhile p = cs.reverse := by
    rw [List.reverse_append, List.dropWhile_append_of_pos (by simpa using hafter)]
    simpa using hkept [] (List.reverse_ne_nil_iff.mpr hne) (by simpa using hcs)
  rw [stripBy, hfront, hback, List.reverse_reverse]

theorem stripBy_eq_self {p : Char → Bool} {cs : List Char} (hcs : ∀ c ∈ cs, ¬ p c) (hne : cs ≠ []) :
    stripBy p cs = cs := by
  have hnone : ∀ c ∈ ([] : List Char), p c := by simp
  simpa using stripBy_append hnone hcs hne hnone

theorem not_isNumberBlank {c : Char} (hc : ¬ isBlank c) : ¬ isNumberBlank c := by
  simp [isNumberBlank, hc]

/-! ### Digits -/

/-- All the characters that digits are spelled with. -/
def figures : List Char := "0123456789abcdefABCDEF".toList

/-- No figure is a sign, a blank, a mark or an underscore. -/
theorem plain_of_mem_figures {c : Char} (hc : c ∈ figures) :
    c ≠ '-' ∧ c ≠ '+' ∧ c ≠ 'x' ∧ c ≠ 'X' ∧ c ≠ '_' ∧ c ≠ '$' ∧ ¬ isBlank c := by
  have hfigures : figures.all fun c => c ∉ ['-', '+', 'x', 'X', '_', '$'] && !isBlank c := by decide
  simpa [and_assoc] using List.all_eq_true.mp hfigures c hc

theorem Base.one_lt_size (b : Base) : 1 < b.size := by cases b <;> decide

/-- A digit has its value to every base that has it, whatever the case of its letter. -/
theorem Base.digit?_of_toLower {b : Base} {c : Char} {d : Nat} (hd : d < b.size) (hc : c.toLower = Nat.digitChar d) :
    c ∈ figures ∧ b.digit? c = some d := by
  have hlower : ∀ d < 16, (Nat.digitChar d).toLower = Nat.digitChar d := by decide
  have hvalue : ∀ d < 16, Nat.digitChar d ∈ figures ∧ Base.sixteen.digit? (Nat.digitChar d) = some d ∧
      (Nat.digitChar d).toUpper ∈ figures ∧ Base.sixteen.digit? (Nat.digitChar d).toUpper = some d := by decide
  have hvalue' : ∀ d < 10, Base.ten.digit? (Nat.digitChar d) = some d ∧
      Base.ten.digit? (Nat.digitChar d).toUpper = some d := by decide
  have hsixteen : d < 16 := hd.trans_le (by cases b <;> decide)
  obtain ⟨hmem, hdigit, hmem', hdigit'⟩ := hvalue d hsixteen
  rcases (Terminal.toLower_eq_iff (hlower d hsixteen)).mp hc with rfl | rfl
  · cases b with
    | ten => exact ⟨hmem, (hvalue' d hd).1⟩
    | sixteen => exact ⟨hmem, hdigit⟩
  · cases b with
    | ten => exact ⟨hmem', (hvalue' d hd).2⟩
    | sixteen => exact ⟨hmem', hdigit'⟩

namespace Base

/-- The number that digits stand for, the most significant first. -/
def number (b : Base) (ds : List Nat) : Nat := ds.foldl (fun n d => n * b.size + d) 0

theorem number_concat (b : Base) (ds : List Nat) (d : Nat) : b.number (ds ++ [d]) = b.number ds * b.size + d :=
  List.foldl_concat ..

theorem number_zeros (b : Base) (zeros : Nat) : b.number (List.replicate zeros 0) = 0 := by
  induction zeros with
  | zero => rfl
  | succ zeros ih => rw [List.replicate_succ', number_concat, ih, Nat.zero_mul]

/-- The text of a number, zeros in front of it included, is the text of digits that stand for it. -/
theorem exists_digits (b : Base) (zeros n : Nat) : ∃ ds : List Nat, (∀ d ∈ ds, d < b.size) ∧ b.number ds = n ∧
    List.replicate zeros '0' ++ Nat.toDigits b.size n = ds.map Nat.digitChar := by
  induction n using Nat.strongRecOn with
  | ind n ih =>
    rw [Nat.toDigits_eq_if b.one_lt_size]
    by_cases hn : n < b.size
    · refine ⟨List.replicate zeros 0 ++ [n], ?_, ?_, by simp [hn]⟩
      · intro d hd
        rcases List.mem_append.mp hd with hzero | hlast
        · rw [List.eq_of_mem_replicate hzero]
          exact Nat.zero_lt_of_lt hn
        · rwa [List.mem_singleton.mp hlast]
      · rw [number_concat, number_zeros, Nat.zero_mul, Nat.zero_add]
    · have hsize := b.one_lt_size
      obtain ⟨ds, hds, hnumber, htext⟩ := ih (n / b.size) (Nat.div_lt_self (by omega) hsize)
      refine ⟨ds ++ [n % b.size], ?_, ?_, ?_⟩
      · intro d hd
        rcases List.mem_append.mp hd with hfront | hlast
        · exact hds d hfront
        · rw [List.mem_singleton.mp hlast]
          exact Nat.mod_lt n (by omega)
      · rw [number_concat, hnumber]
        exact Nat.div_add_mod' n b.size
      · rw [if_neg hn, ← List.append_assoc, htext]
        simp

variable {b : Base} {cs : List Char} {ds : List Nat} {n : Nat}

theorem mem_figures (hds : ∀ d ∈ ds, d < b.size) (hcs : cs.map Char.toLower = ds.map Nat.digitChar) :
    ∀ c ∈ cs, c ∈ figures := by
  intro c hc
  have hlower : c.toLower ∈ ds.map Nat.digitChar := hcs ▸ List.mem_map_of_mem hc
  obtain ⟨d, hd, heq⟩ := List.mem_map.mp hlower
  exact (digit?_of_toLower (hds d hd) heq.symm).1

/-- Digits are read one after another; there has to be one if one has to come next. -/
theorem digits?_eq_foldl (hds : ∀ d ∈ ds, d < b.size) (hcs : cs.map Char.toLower = ds.map Nat.digitChar)
    {pending : Bool} (hpending : pending → cs ≠ []) (value : Nat) :
    b.digits? pending value cs = some (ds.foldl (fun n d => n * b.size + d) value) := by
  induction ds generalizing cs pending value with
  | nil =>
    obtain rfl : cs = [] := by simpa using hcs
    have hdone : pending = false := by simpa using hpending
    rw [digits?, hdone]
    rfl
  | cons d ds ih =>
    obtain ⟨c, cs, rfl, hc, hcs⟩ := List.map_eq_cons_iff.mp hcs
    obtain ⟨hd, hds⟩ := List.forall_mem_cons.mp hds
    obtain ⟨hfigure, hdigit⟩ := digit?_of_toLower hd hc
    have hscore : c ≠ '_' := fun hc => absurd (hc ▸ hfigure) (by decide)
    rw [digits?, if_neg hscore, hdigit]
    exact ih hds hcs (by simp) (value * b.size + d)

/-! ### Numbers -/

/-- These characters spell a number: its digits behind any zeros, with letters in either case. -/
def Spells (b : Base) (n : Nat) (cs : List Char) : Prop :=
  ∃ zeros, cs.map Char.toLower = List.replicate zeros '0' ++ Nat.toDigits b.size n

namespace Spells

variable (h : b.Spells n cs)
include h

theorem ne_nil : cs ≠ [] := by
  rintro rfl
  obtain ⟨zeros, hzeros⟩ := h
  simp at hzeros

theorem mem_figures : ∀ c ∈ cs, c ∈ figures := by
  obtain ⟨zeros, hzeros⟩ := h
  obtain ⟨ds, hds, -, htext⟩ := b.exists_digits zeros n
  exact Base.mem_figures hds (hzeros.trans htext)

theorem digits?_eq : b.digits? true 0 cs = some n := by
  have hne := h.ne_nil
  obtain ⟨zeros, hzeros⟩ := h
  obtain ⟨ds, hds, hnumber, htext⟩ := b.exists_digits zeros n
  rw [digits?_eq_foldl hds (hzeros.trans htext) fun _ => hne]
  exact congrArg some hnumber

end Spells

/-- Without a sign and blanks, a number is read from all of its characters. -/
theorem integer?_eq_natural? (hsigns : ∀ c ∈ cs, c ≠ '-' ∧ c ≠ '+') (hblanks : ∀ c ∈ cs, ¬ isBlank c) (hne : cs ≠ []) :
    b.integer? cs = (b.natural? cs).map Int.ofNat := by
  rw [integer?, stripBy_eq_self (fun c hc => not_isNumberBlank (hblanks c hc)) hne]
  split
  · exact absurd rfl (hsigns '-' (by simp)).1
  · exact absurd rfl (hsigns '+' (by simp)).2
  · rfl

theorem withoutMark_eq_self (hx : 'x' ∉ cs) (hX : 'X' ∉ cs) : withoutMark cs = cs := by
  unfold withoutMark
  split
  · rename_i zero x rest
    have hmark : ¬ (x = 'x' ∨ x = 'X') := by
      rintro (rfl | rfl)
      · exact hx (by simp)
      · exact hX (by simp)
    rw [if_neg fun h => hmark h.2]
  · rfl

theorem withoutMark_marked {x : Char} (hx : x = 'x' ∨ x = 'X') (hscore : '_' ∉ cs) :
    withoutMark ('0' :: x :: cs) = cs := by
  have hzero : digitValue? '0' = some 0 := by decide
  simp only [withoutMark, hzero, true_and, if_pos hx]
  split
  · exact absurd (by simp) hscore
  · rfl

namespace Spells

theorem integer?_ten (h : ten.Spells n cs) (hlength : cs.length ≤ maxDigits) : ten.integer? cs = some (n : Int) := by
  have hplain := fun c hc => plain_of_mem_figures (h.mem_figures c hc)
  have hcount : cs.countP (· ≠ '_') ≤ maxDigits := List.countP_le_length.trans hlength
  rw [integer?_eq_natural? (by grind) (by grind) h.ne_nil, natural?, if_neg (by omega), h.digits?_eq]
  rfl

theorem integer?_sixteen (h : sixteen.Spells n cs) : sixteen.integer? cs = some (n : Int) := by
  have hplain := fun c hc => plain_of_mem_figures (h.mem_figures c hc)
  rw [integer?_eq_natural? (by grind) (by grind) h.ne_nil, natural?,
    withoutMark_eq_self (by grind) (by grind), h.digits?_eq]
  rfl

theorem integer?_marked (h : sixteen.Spells n cs) {x : Char} (hx : x = 'x' ∨ x = 'X') :
    sixteen.integer? ('0' :: x :: cs) = some (n : Int) := by
  have hplain := fun c hc => plain_of_mem_figures (h.mem_figures c hc)
  have hmark : ∀ c ∈ '0' :: x :: cs, (c ≠ '-' ∧ c ≠ '+') ∧ ¬ isBlank c := by
    intro c hc
    rcases List.mem_cons.mp hc with rfl | hc
    · decide +kernel
    rcases List.mem_cons.mp hc with rfl | hc
    · rcases hx with rfl | rfl <;> decide +kernel
    · grind
  rw [integer?_eq_natural? (fun c hc => (hmark c hc).1) (fun c hc => (hmark c hc).2) (by simp), natural?,
    withoutMark_marked hx (by grind), h.digits?_eq]
  rfl

end Spells

end Base

end Chip8.Text
