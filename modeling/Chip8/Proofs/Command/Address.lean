import Mathlib
import Chip8.Command.Address
import Chip8.Proofs.Text.Integer

/-!
# Addresses as they are spelled

An address can be spelled to base ten, or to base sixteen behind `0x`, `0X` or `$`, with blanks around all of it
(`Spelling`).  The three are told apart by their first characters: to base ten no figure is an `x`, so leading zeros are
no mark, and `$` is no figure at all (`addressValue?_spelling`).  Whatever is spelled like this is read as the number that
it spells, and refused exactly if that lies outside the memory (`parseAddress_reads_spellings`).
-/

namespace Chip8.Command

open Text

/-- The spellings of a number as an address. -/
inductive Spelling (n : Nat) : List Char → Prop
  /-- To base ten, with at most so many digits, … -/
  | decimal {cs : List Char} (h : Base.ten.Spells n cs) (hlength : cs.length ≤ maxDigits) : Spelling n cs
  /-- … or to base sixteen behind a mark. -/
  | hexadecimal {mark : String} {cs : List Char} (hmark : mark ∈ ["0x", "0X", "$"]) (h : Base.sixteen.Spells n cs) :
    Spelling n (mark.toList ++ cs)

section Spelling

variable {n : Nat} {cs : List Char}

theorem addressValue?_of_plain (hdollar : '$' ∉ cs) (hx : 'x' ∉ cs) (hX : 'X' ∉ cs) :
    addressValue? cs = Base.ten.integer? cs := by
  unfold addressValue?
  split <;> simp_all

theorem Spelling.ne_nil (h : Spelling n cs) : cs ≠ [] := by
  cases h with
  | decimal h => exact h.ne_nil
  | hexadecimal _ h => simp [h.ne_nil]

theorem Spelling.not_isBlank (h : Spelling n cs) : ∀ c ∈ cs, ¬ isBlank c := by
  have hfigures : ∀ {b : Base} {cs : List Char}, b.Spells n cs → ∀ c ∈ cs, ¬ isBlank c :=
    fun h c hc => (plain_of_mem_figures (h.mem_figures c hc)).2.2.2.2.2.2
  cases h with
  | decimal h => exact hfigures h
  | @hexadecimal mark cs hmark h =>
    intro c hc
    rcases List.mem_append.mp hc with hfront | hback
    · have hmarks : ["0x", "0X", "$"].all fun mark => mark.toList.all fun c => !isBlank c := by decide
      simpa using List.all_eq_true.mp (List.all_eq_true.mp hmarks mark hmark) c hfront
    · exact hfigures h c hback

/-- What is spelled is the number, however it is marked. -/
theorem addressValue?_spelling (h : Spelling n cs) : addressValue? cs = some (n : Int) := by
  cases h with
  | decimal h hlength =>
    have hplain := fun c hc => plain_of_mem_figures (h.mem_figures c hc)
    rw [addressValue?_of_plain (by grind) (by grind) (by grind), h.integer?_ten hlength]
  | @hexadecimal mark cs hmark h =>
    simp only [List.mem_cons, List.not_mem_nil, or_false] at hmark
    rcases hmark with rfl | rfl | rfl
    · exact h.integer?_marked (.inl rfl)
    · exact h.integer?_marked (.inr rfl)
    · exact h.integer?_sixteen

theorem parseAddress_of_addressValue? {text : String} {value : Int}
    (h : addressValue? (strip text).toList = some value) :
    parseAddress text =
      if 0 ≤ value ∧ value ≤ 0xFFF then .ok value.toNat else .error (.outOfRange (strip text)) := by
  simp only [parseAddress, h]

end Spelling

/-- **Every spelling is read, and nothing outside the memory.**  Whatever the text, what is answered is an address in
memory, that the text is no number, or that its number lies outside the memory.  And a number in any of its spellings,
with any blanks around it, is answered if it is an address, and else it is what lies outside. -/
theorem parseAddress_reads_spellings :
    (∀ text, (∃ n ≤ 0xFFF, parseAddress text = .ok n) ∨ parseAddress text = .error .notANumber ∨
      ∃ spelling, parseAddress text = .error (.outOfRange spelling)) ∧
    ∀ n before cs after, Spelling n cs → (∀ c ∈ before, isBlank c) → (∀ c ∈ after, isBlank c) →
      parseAddress (String.ofList (before ++ cs ++ after)) =
        if n ≤ 0xFFF then .ok n else .error (.outOfRange (String.ofList cs)) := by
  refine ⟨fun text => ?_, fun n before cs after h hbefore hafter => ?_⟩
  · cases hvalue : addressValue? (strip text).toList with
    | none => exact .inr (.inl (by simp only [parseAddress, hvalue]))
    | some value =>
      rw [parseAddress_of_addressValue? hvalue]
      split
      · exact .inl ⟨_, by omega, rfl⟩
      · exact .inr (.inr ⟨_, rfl⟩)
  · have hstrip : strip (String.ofList (before ++ cs ++ after)) = String.ofList cs := by
      rw [strip, String.toList_ofList, stripBy_append hbefore h.not_isBlank h.ne_nil hafter]
    have hvalue : addressValue? (String.ofList cs).toList = some (n : Int) := by
      rw [String.toList_ofList, addressValue?_spelling h]
    rw [← hstrip] at hvalue
    rw [parseAddress_of_addressValue? hvalue, hstrip]
    by_cases hn : n ≤ 0xFFF
    · rw [if_pos hn, if_pos (by omega), Int.toNat_natCast]
    · rw [if_neg hn, if_neg (by omega)]

/-- The last address with a letter in either case, behind a zero, a blank and a tab; and the number next to it. -/
theorem parseAddress_reads_spellings_last :
    parseAddress " \t0X0fFf\n" = .ok 4095 ∧ parseAddress "04096 " = .error (.outOfRange "04096") := by
  have hread := parseAddress_reads_spellings.2
  have hlast : Spelling 4095 ("0X".toList ++ "0fFf".toList) := .hexadecimal (by decide) ⟨1, by decide⟩
  have hnext : Spelling 4096 "04096".toList := .decimal ⟨1, by decide⟩ (by decide)
  have hlast' := hread 4095 " \t".toList _ "\n".toList hlast (by simp [isBlank, blanks]) (by simp [isBlank, blanks])
  have hnext' := hread 4096 [] _ " ".toList hnext (by simp) (by simp [isBlank, blanks])
  rw [if_pos (by decide)] at hlast'
  rw [if_neg (by decide)] at hnext'
  exact ⟨hlast', hnext'⟩

end Chip8.Command
