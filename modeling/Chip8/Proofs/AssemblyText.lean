import Mathlib
import Chip8.Proofs.Assembly

/-!
# Reading assembly text

The text of a listed word can be read back.  Name and operands are cut apart at the first blank, the operands at
their commas, and each operand is known by its first characters and its digits (`Operand.read?_text`).  So the text
tells the instruction (`Line.text_ofWord_inj`), and the instruction tells the word, but for the nibble that a shift
ignores.  What a machine does with a word is then settled by the text of the word (`Machine.text_determines_exec`).
-/

namespace Chip8

/-! ### Hexadecimal digits -/

namespace Hex

/-- What a digit stands for. -/
def digitValue (c : Char) : Nat := if c ≤ '9' then c.toNat - 48 else c.toNat - 55

theorem digitValue_digit (n : Nat) : digitValue (digit n) = n % 16 := by
  have hn : n % 16 < 16 := Nat.mod_lt _ (by omega)
  unfold digit
  generalize n % 16 = k at hn
  interval_cases k <;> rfl

/-- The number that digits spell, the most significant first. -/
def read (cs : List Char) : Nat := cs.foldl (fun n c => 16 * n + digitValue c) 0

theorem read_concat (cs : List Char) (c : Char) : read (cs ++ [c]) = 16 * read cs + digitValue c := by
  simp [read]

theorem read_digits (n : Nat) : read (digits n) = n := by
  induction n using digits.induct with
  | case1 n hn =>
    rw [digits, if_pos hn]
    have hread := read_concat [] (digit n)
    rw [digitValue_digit, Nat.mod_eq_of_lt hn] at hread
    simpa [read] using hread
  | case2 n hn ih =>
    rw [digits, if_neg hn, read_concat, ih, digitValue_digit]
    omega

theorem read_pad (width : Nat) (cs : List Char) : read (pad width cs) = read cs := by
  unfold pad
  induction width - cs.length with
  | zero => rfl
  | succ k ih => exact ih

theorem ofNat_injective (width : Nat) : Function.Injective (ofNat width) := by
  intro a b h
  have hread : ∀ n, read (ofNat width n).toList = n := by
    intro n
    rw [ofNat, String.toList_ofList, read_pad, read_digits]
  rw [← hread a, h, hread b]

theorem eq_digit_of_mem_digits {n : Nat} {c : Char} (h : c ∈ digits n) : ∃ k, c = digit k := by
  induction n using digits.induct with
  | case1 n hn =>
    rw [digits, if_pos hn, List.mem_singleton] at h
    exact ⟨n, h⟩
  | case2 n hn ih =>
    rw [digits, if_neg hn, List.mem_append, List.mem_singleton] at h
    rcases h with h | h
    · exact ih h
    · exact ⟨n, h⟩

theorem eq_digit_of_mem_ofNat {width n : Nat} {c : Char} (h : c ∈ (ofNat width n).toList) : ∃ k, c = digit k := by
  rw [ofNat, String.toList_ofList, pad, List.mem_append] at h
  rcases h with h | h
  · exact ⟨0, List.eq_of_mem_replicate h⟩
  · exact eq_digit_of_mem_digits h

theorem isAlphanum_digit (n : Nat) : (digit n).isAlphanum := by
  have hn : n % 16 < 16 := Nat.mod_lt _ (by omega)
  unfold digit
  generalize n % 16 = k at hn
  interval_cases k <;> rfl

theorem isAlphanum_of_mem_ofNat {width n : Nat} {c : Char} (h : c ∈ (ofNat width n).toList) : c.isAlphanum := by
  obtain ⟨k, rfl⟩ := eq_digit_of_mem_ofNat h
  exact isAlphanum_digit k

end Hex

/-! ### Operands -/

namespace Operand

/-- The operand that a text stands for, if the text is that of an operand. -/
def read? : List Char → Option Operand
  | 'V' :: cs => some (.reg (Fin.ofNat 16 (Hex.read cs)))
  | '#' :: '$' :: cs => some (.byte (UInt8.ofNat (Hex.read cs)))
  | '$' :: cs => some (.addr (Fin.ofNat 4096 (Hex.read cs)))
  | ['I'] => some .index
  | ['[', 'I', ']'] => some .atIndex
  | ['D', 'T'] => some .delay
  | ['S', 'T'] => some .sound
  | ['K'] => some .key
  | ['F'] => some .glyph
  | ['B'] => some .decimal
  | cs => some (.rows (Fin.ofNat 16 (Nat.ofDigitChars 10 cs 0)))

theorem read?_text (o : Operand) : read? o.text.toList = some o := by
  cases o with
  | reg x => simp [text, read?, Hex.ofNat, Hex.read_pad, Hex.read_digits]
  | byte b => simp [text, read?, Hex.ofByte, Hex.ofNat, Hex.read_pad, Hex.read_digits]
  | addr a => simp [text, read?, Hex.ofNat, Hex.read_pad, Hex.read_digits]
  | rows n => fin_cases n <;> rfl
  | _ => rfl

theorem toList_text_injective : Function.Injective fun o : Operand => o.text.toList := by
  intro o o' h
  have hread : some o = some o' := by rw [← read?_text o, ← read?_text o']; exact congrArg read? h
  exact Option.some.inj hread

/-- An operand is written in letters, digits, and four signs. -/
theorem mem_text {o : Operand} {c : Char} (h : c ∈ o.text.toList) : c.isAlphanum ∨ c ∈ ['#', '$', '[', ']'] := by
  cases o with
  | reg x =>
    simp only [text, String.toList_append, List.mem_append] at h
    refine .inl (h.elim (fun hV => ?_) Hex.isAlphanum_of_mem_ofNat)
    obtain rfl : c = 'V' := by simpa using hV
    rfl
  | byte b =>
    simp only [text, String.toList_append, List.mem_append] at h
    refine h.elim (fun hsigns => .inr ?_) fun hb => .inl (Hex.isAlphanum_of_mem_ofNat hb)
    have hsigns : c = '#' ∨ c = '$' := by simpa using hsigns
    rcases hsigns with rfl | rfl <;> simp
  | addr a =>
    simp only [text, String.toList_append, List.mem_append] at h
    refine h.elim (fun hsign => .inr ?_) fun ha => .inl (Hex.isAlphanum_of_mem_ofNat ha)
    obtain rfl : c = '$' := by simpa using hsign
    simp
  | rows n =>
    have hrows : c ∈ Nat.toDigits 10 n.val := by simpa [text] using h
    have hdigit : c.isDigit := Nat.isDigit_of_mem_toDigits (by decide) (by decide) hrows
    exact .inl (by simp [Char.isAlphanum, hdigit])
  | _ => revert c; simp [text]

theorem comma_not_mem_text (o : Operand) : ',' ∉ o.text.toList := fun h => absurd (mem_text h) (by decide)

theorem toList_text_ne_nil (o : Operand) : o.text.toList ≠ [] := by
  cases o with
  | rows n => revert n; decide
  | _ => simp [text]

end Operand

/-! ### Cutting a text -/

/-- If what stands behind `x` and behind `y` begins with a character that is in neither, a text is cut in one way
only. -/
theorem cut_unique {c : Char} {x y s t : List Char} (hx : c ∉ x) (hy : c ∉ y) (hs : ∀ d ∈ s.head?, d = c)
    (ht : ∀ d ∈ t.head?, d = c) (h : x ++ s = y ++ t) : x = y ∧ s = t := by
  induction x generalizing y with
  | nil =>
    cases y with
    | nil => exact ⟨rfl, h⟩
    | cons b y =>
      rw [List.nil_append, List.cons_append] at h
      have hb : b = c := hs b (by simp [h])
      exact absurd (by simp [hb]) hy
  | cons a x ih =>
    cases y with
    | nil =>
      rw [List.nil_append, List.cons_append] at h
      have ha : a = c := ht a (by simp [← h])
      exact absurd (by simp [ha]) hx
    | cons b y =>
      obtain ⟨rfl, htail⟩ := List.cons.inj h
      obtain ⟨rfl, hst⟩ := ih (List.not_mem_of_not_mem_cons hx) (List.not_mem_of_not_mem_cons hy) htail
      exact ⟨rfl, hst⟩

theorem intercalate_cons (s x : List Char) (xs : List (List Char)) :
    s.intercalate (x :: xs) = x ++ xs.flatMap (s ++ ·) := by
  induction xs generalizing x with
  | nil => simp
  | cons y xs ih => simp [ih]

namespace Assembly

/-- Operands as they stand behind another one. -/
def furtherText (os : List Operand) : List Char := os.flatMap fun o => [',', ' '] ++ o.text.toList

theorem head?_furtherText (os : List Operand) : ∀ d ∈ (furtherText os).head?, d = ',' := by
  intro d hd
  cases os with
  | nil => simp [furtherText] at hd
  | cons o os => simpa [furtherText, eq_comm] using hd

theorem cons_inj_of_text {o o' : Operand} {os os' : List Operand}
    (h : o.text.toList ++ furtherText os = o'.text.toList ++ furtherText os') :
    o = o' ∧ furtherText os = furtherText os' := by
  obtain ⟨hfirst, hrest⟩ := cut_unique o.comma_not_mem_text o'.comma_not_mem_text (head?_furtherText os)
    (head?_furtherText os') h
  exact ⟨Operand.toList_text_injective hfirst, hrest⟩

theorem furtherText_injective : Function.Injective furtherText := by
  intro os
  induction os with
  | nil =>
    intro os' h
    cases os' with
    | nil => rfl
    | cons o' os' => simp [furtherText] at h
  | cons o os ih =>
    intro os' h
    cases os' with
    | nil => simp [furtherText] at h
    | cons o' os' =>
      have htail : o.text.toList ++ furtherText os = o'.text.toList ++ furtherText os' := by
        simpa [furtherText] using h
      obtain ⟨rfl, hrest⟩ := cons_inj_of_text htail
      rw [ih hrest]

theorem toList_operandText_cons (mnemonic : String) (o : Operand) (os : List Operand) :
    (operandText ⟨mnemonic, o :: os⟩).toList = o.text.toList ++ furtherText os := by
  simp only [operandText, String.toList_intercalate, List.map_cons, intercalate_cons, List.map_map,
    List.flatMap_map]
  rfl

/-- Operands are known by their text. -/
theorem operands_eq_of_operandText {a b : Assembly} (h : a.operandText = b.operandText) :
    a.operands = b.operands := by
  have hnone : ∀ mnemonic o os, operandText ⟨mnemonic, o :: os⟩ ≠ "" := by
    intro mnemonic o os hempty
    have htext := congrArg String.toList hempty
    rw [toList_operandText_cons] at htext
    exact o.toList_text_ne_nil (List.append_eq_nil_iff.mp htext).1
  obtain ⟨name, _ | ⟨o, os⟩⟩ := a <;> obtain ⟨name', _ | ⟨o', os'⟩⟩ := b
  · rfl
  · exact absurd h.symm (hnone name' o' os')
  · exact absurd h (hnone name o os)
  · have htext := congrArg String.toList h
    rw [toList_operandText_cons, toList_operandText_cons] at htext
    obtain ⟨rfl, hrest⟩ := cons_inj_of_text htext
    rw [furtherText_injective hrest]

end Assembly

/-! ### Instructions -/

namespace Instr

/-- No name of an operation has a blank in it. -/
theorem blank_not_mem_mnemonic (i : Instr) : ' ' ∉ i.mnemonic.toList := by
  cases i <;> simp [mnemonic]

theorem assembly_injective : Function.Injective assembly := by
  intro i j h
  obtain ⟨hname, hoperands⟩ := Assembly.mk.inj h
  cases i <;> cases j <;> simp_all [mnemonic, operands]

end Instr

/-! ### The words of an instruction -/

/-- Both words are `8xy6`, or both are `8xyE`, with the same `x`. -/
def Word.ShiftAlike (w w' : Word) : Prop :=
  w.op = 0x8 ∧ w'.op = 0x8 ∧ w.x = w'.x ∧ (w.n = 0x6 ∧ w'.n = 0x6 ∨ w.n = 0xE ∧ w'.n = 0xE)

/-- Two words for one instruction differ at most in the nibble that a shift ignores. -/
theorem Instr.eq_or_shiftAlike {w w' : Word} {i : Instr} (h : decode? w = some i) (h' : decode? w' = some i) :
    w = w' ∨ w.ShiftAlike w' := by
  have hcode := toNat_of_decode? h
  have hcode' := toNat_of_decode? h'
  have hw := w.toNat_eq
  have hw' := w'.toNat_eq
  cases hshift : i.isShift with
  | false =>
    left
    rw [← UInt16.toNat_inj, hcode, hcode', hshift]
    rfl
  | true =>
    right
    simp only [Word.ShiftAlike, Fin.ext_iff]
    rw [hshift] at hcode hcode'
    cases i with
    | shiftRight x => simp only [code, if_true] at hcode hcode'; simp; omega
    | shiftLeft x => simp only [code, if_true] at hcode hcode'; simp; omega
    | _ => cases hshift

theorem Instr.exists_decode?_of_shiftAlike {w w' : Word} (h : w.ShiftAlike w') :
    ∃ i, decode? w = some i ∧ decode? w' = some i := by
  obtain ⟨hop, hop', hx, ⟨hn, hn'⟩ | ⟨hn, hn'⟩⟩ := h
  · exact ⟨.shiftRight w'.x, by simp [decode?, decodeArithmetic?, *]⟩
  · exact ⟨.shiftLeft w'.x, by simp [decode?, decodeArithmetic?, *]⟩

/-! ### Lines -/

namespace Line

theorem toList_text (l : Line) :
    l.text.toList = l.mnemonic.toList ++ if l.operands = "" then [] else ' ' :: l.operands.toList := by
  unfold text
  by_cases h : l.operands = ""
  · simp [h]
  · simp [h, String.isEmpty_iff]

/-- Name and operands are known by the text of a line, if the name has no blank in it. -/
theorem text_inj {l l' : Line} (hl : ' ' ∉ l.mnemonic.toList) (hl' : ' ' ∉ l'.mnemonic.toList)
    (h : l.text = l'.text) : l.mnemonic = l'.mnemonic ∧ l.operands = l'.operands := by
  have htext := congrArg String.toList h
  rw [toList_text, toList_text] at htext
  obtain ⟨hname, hoperands⟩ := cut_unique hl hl' (by split <;> simp) (by split <;> simp) htext
  refine ⟨String.toList_inj.mp hname, ?_⟩
  split_ifs at hoperands with hempty hempty'
  · rw [hempty, hempty']
  · exact String.toList_inj.mp (List.cons.inj hoperands).2

theorem blank_not_mem_mnemonic (address : Int) (w : Word) : ' ' ∉ (ofWord address w).mnemonic.toList := by
  cases h : Instr.decode? w with
  | none => simp [ofWord_of_none h, mnemonic]
  | some i =>
    rw [ofWord_of_some h]
    exact i.blank_not_mem_mnemonic

/-- Two words have one text only if they spell one instruction, or are one word. -/
theorem text_ofWord_inj {address address' : Int} {w w' : Word}
    (h : (ofWord address w).text = (ofWord address' w').text) :
    w = w' ∨ ∃ i, Instr.decode? w = some i ∧ Instr.decode? w' = some i := by
  obtain ⟨hname, hoperands⟩ := text_inj (blank_not_mem_mnemonic _ _) (blank_not_mem_mnemonic _ _) h
  cases hw : Instr.decode? w with
  | none =>
    cases hw' : Instr.decode? w' with
    | none =>
      left
      rw [ofWord_of_none hw, ofWord_of_none hw'] at hoperands
      have hhex : Hex.ofNat 4 w.toNat = Hex.ofNat 4 w'.toNat := by simpa [operands] using hoperands
      exact UInt16.toNat_inj.mp (Hex.ofNat_injective 4 hhex)
    | some j =>
      rw [ofWord_of_none hw] at hname
      exact absurd hname.symm (mnemonic_ofWord_ne hw' address')
  | some i =>
    cases hw' : Instr.decode? w' with
    | none =>
      rw [ofWord_of_none hw'] at hname
      exact absurd hname (mnemonic_ofWord_ne hw address)
    | some j =>
      right
      rw [ofWord_of_some hw, ofWord_of_some hw'] at hname hoperands
      have hlist : i.assembly.operands = j.assembly.operands := Assembly.operands_eq_of_operandText hoperands
      have hassembly : i.assembly = j.assembly := by
        rw [Instr.assembly, Instr.assembly, Assembly.mk.injEq]
        exact ⟨hname, hlist⟩
      exact ⟨i, rfl, by rw [Instr.assembly_injective hassembly]⟩

theorem text_ofWord_of_shiftAlike {w w' : Word} (h : w.ShiftAlike w') (address address' : Int) :
    (ofWord address w).text = (ofWord address' w').text := by
  obtain ⟨i, hi, hi'⟩ := Instr.exists_decode?_of_shiftAlike h
  rw [ofWord_of_some hi, ofWord_of_some hi']
  rfl

end Line

namespace Machine

/-- **The text of a word settles what it does.**  Two words are listed with one text only if they are one word, or
differ in the nibble that a shift ignores.  Then both do the same to every machine: they leave the same machine with
the same effect, or fail with the same fault. -/
theorem text_determines_exec (address address' : Int) (w w' : Word) :
    ((Line.ofWord address w).text = (Line.ofWord address' w').text ↔ w = w' ∨ w.ShiftAlike w') ∧
    ((Line.ofWord address w).text = (Line.ofWord address' w').text → ∀ m : Machine, m.exec w = m.exec w') := by
  refine ⟨⟨fun h => ?_, ?_⟩, fun h m => ?_⟩
  · obtain rfl | ⟨i, hi, hi'⟩ := Line.text_ofWord_inj h
    · exact .inl rfl
    · exact Instr.eq_or_shiftAlike hi hi'
  · rintro (rfl | halike)
    · rfl
    · exact Line.text_ofWord_of_shiftAlike halike address address'
  · obtain rfl | ⟨i, hi, hi'⟩ := Line.text_ofWord_inj h
    · rfl
    · rw [exec_of_some hi, exec_of_some hi']

/-- `8126` and `8136` are both listed as `SHR V1`, and do the same. -/
theorem text_determines_exec_shr :
    (Line.ofWord 0x200 0x8126).text = (Line.ofWord 0x202 0x8136).text ∧
      ∀ m : Machine, m.exec 0x8126 = m.exec 0x8136 := by
  have htext : (Line.ofWord 0x200 0x8126).text = (Line.ofWord 0x202 0x8136).text := by decide +kernel
  exact ⟨htext, (text_determines_exec 0x200 0x202 0x8126 0x8136).2 htext⟩

end Machine

end Chip8
