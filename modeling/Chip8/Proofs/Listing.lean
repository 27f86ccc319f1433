import Mathlib
import Chip8.Listing

/-!
# Listings cover their buffer

A listing takes a buffer apart into lines and leaves nothing out (`lines_partition_buffer`).  Line `i` stands for the
bytes at places `2 * i` and `2 * i + 1`, or for the last byte alone, and is the very line that is listed for that place
by itself.  A count cuts the listing short, and behind an even number of bytes a listing can be taken up again.

A listing goes through its buffer two bytes at a time, and so do the inductions here.
-/

namespace Chip8

/-! ### Words and their bytes -/

namespace Word

theorem toNat_ofBytes (high low : UInt8) : (ofBytes high low).toNat = 0x100 * high.toNat + low.toNat := by
  have hhigh := high.toNat_lt
  have hlow := low.toNat_lt
  have hor : high.toNat <<< 8 ||| low.toNat = high.toNat <<< 8 + low.toNat :=
    (Nat.shiftLeft_add_eq_or_of_lt hlow _).symm
  have hshift : high.toNat <<< 8 % 2 ^ 16 = high.toNat <<< 8 := Nat.mod_eq_of_lt (by rw [Nat.shiftLeft_eq]; omega)
  rw [ofBytes, UInt16.toNat_or, UInt16.toNat_shiftLeft]
  simp only [UInt8.toNat_toUInt16, UInt16.reduceToNat, Nat.reduceMod, hshift, hor]
  rw [Nat.shiftLeft_eq, Nat.mul_comm]

theorem high_ofBytes (high low : UInt8) : (ofBytes high low).high = high := by
  have hlow := low.toNat_lt
  have hhigh := high.toNat_lt
  rw [← UInt8.toNat_inj, Word.high, UInt16.toNat_toUInt8, UInt16.toNat_shiftRight, toNat_ofBytes]
  simp only [UInt16.reduceToNat, Nat.reduceMod, Nat.shiftRight_eq_div_pow]
  omega

theorem low_ofBytes (high low : UInt8) : (ofBytes high low).low = low := by
  have hlow := low.toNat_lt
  rw [← UInt8.toNat_inj, Word.low, UInt16.toNat_toUInt8, toNat_ofBytes]
  omega

theorem ofBytes_high_low (w : Word) : ofBytes w.high w.low = w := by
  have hw := w.toNat_lt
  rw [← UInt16.toNat_inj, toNat_ofBytes, Word.high, Word.low, UInt16.toNat_toUInt8, UInt16.toNat_toUInt8,
    UInt16.toNat_shiftRight]
  simp only [UInt16.reduceToNat, Nat.reduceMod, Nat.shiftRight_eq_div_pow]
  omega

end Word

theorem Line.bytes_ofWord (address : Int) (w : Word) : (Line.ofWord address w).bytes = [w.high, w.low] := by
  unfold Line.ofWord Line.bytes
  cases Assembly.ofWord? w <;> rfl

namespace Listing

variable {data : List UInt8} {address start : Int}

/-! ### The loop -/

/-- Without a count it does not matter how many lines there are already. -/
theorem linesAfter_none (listed : Nat) : linesAfter none listed address data = firstLines data address none := by
  unfold firstLines
  generalize hfirst : 0 = first
  clear hfirst
  induction data using List.twoStepInduction generalizing listed first address with
  | nil => rfl
  | singleton b => rfl
  | cons_cons high low rest ih _ =>
    simp only [linesAfter, isFull, Option.any_none, Bool.false_eq_true, if_false]
    rw [ih (listed + 1) (first + 1)]

@[simp] theorem firstLines_nil : firstLines [] address none = [] := rfl

@[simp] theorem firstLines_singleton (b : UInt8) : firstLines [b] address none = [⟨address, .byte b⟩] := rfl

@[simp] theorem firstLines_cons_cons (high low : UInt8) (rest : List UInt8) :
    firstLines (high :: low :: rest) address none =
      Line.ofWord address (Word.ofBytes high low) :: firstLines rest (address + 2) none := by
  have hrest : linesAfter none 1 (address + 2) rest = firstLines rest (address + 2) none := linesAfter_none 1
  rw [← hrest]
  rfl

/-- With a count, the loop stops where it is reached. -/
theorem linesAfter_some (count : Int) (listed : Nat) :
    linesAfter (some count) listed address data = (firstLines data address none).take (count - listed).toNat := by
  induction data using List.twoStepInduction generalizing listed address with
  | nil => simp [linesAfter]
  | singleton b =>
    by_cases hfull : count ≤ listed
    · simp [linesAfter, isFull, hfull]
    · obtain ⟨more, hmore⟩ : ∃ more, (count - listed).toNat = more + 1 := ⟨(count - listed).toNat - 1, by omega⟩
      simp [linesAfter, isFull, hfull, hmore]
  | cons_cons high low rest ih _ =>
    by_cases hfull : count ≤ listed
    · simp [linesAfter, isFull, hfull]
    · have hmore : (count - listed).toNat = (count - (listed + 1 : Nat)).toNat + 1 := by omega
      simp [linesAfter, isFull, hfull, hmore, ih]

theorem firstLines_some (count : Int) :
    firstLines data address (some count) = (firstLines data address none).take (max count 0).toNat := by
  have hcount : (count - (0 : Nat)).toNat = (max count 0).toNat := by omega
  rw [firstLines, linesAfter_some, hcount]

theorem length_firstLines : (firstLines data address none).length = (data.length + 1) / 2 := by
  induction data using List.twoStepInduction generalizing address with
  | nil => simp
  | singleton b => simp
  | cons_cons high low rest ih _ =>
    rw [firstLines_cons_cons, List.length_cons, ih, List.length_cons, List.length_cons]
    omega

/-- Nothing is left out, and nothing comes twice. -/
theorem flatMap_bytes_firstLines : (firstLines data address none).flatMap Line.bytes = data := by
  induction data using List.twoStepInduction generalizing address with
  | nil => rfl
  | singleton b => rfl
  | cons_cons high low rest ih _ =>
    rw [firstLines_cons_cons, List.flatMap_cons, ih, Line.bytes_ofWord, Word.high_ofBytes, Word.low_ofBytes]
    rfl

/-- Behind whole words a listing can be taken up again. -/
theorem firstLines_append (hdata : 2 ∣ data.length) (more : List UInt8) :
    firstLines (data ++ more) address none =
      firstLines data address none ++ firstLines more (address + data.length) none := by
  induction data using List.twoStepInduction generalizing address with
  | nil => simp
  | singleton b => simp at hdata
  | cons_cons high low rest ih _ =>
    simp only [List.length_cons] at hdata ⊢
    have hplace : address + 2 + rest.length = address + (rest.length + 1 + 1 : Nat) := by omega
    simp only [List.cons_append, firstLines_cons_cons]
    rw [ih (by omega), hplace]

/-! ### Single lines -/

/-- The line for the bytes in front of a buffer, if there are any. -/
def front? (address : Int) : List UInt8 → Option Line
  | [] => none
  | [b] => some ⟨address, .byte b⟩
  | high :: low :: _ => some (Line.ofWord address (Word.ofBytes high low))

/-- What is listed at a place are the bytes behind it. -/
theorem lineAt_toOption (offset : Nat) : (lineAt data address offset).toOption = front? address (data.drop offset) := by
  have hindex : ¬ (offset : Int) < leastIndex := by
    unfold leastIndex
    omega
  unfold lineAt byteAt?
  rcases Nat.lt_or_ge offset data.length with hlt | hge
  · rw [if_neg (by omega), if_neg hindex, if_pos (by omega), List.drop_eq_getElem_cons hlt]
    simp only [Int.toNat_natCast, List.getElem?_eq_getElem hlt]
    rcases Nat.lt_or_ge (offset + 1) data.length with hlt' | hge'
    · have hnext : ((offset : Int) + 1).toNat = offset + 1 := by omega
      rw [if_neg (by omega), if_pos (by omega), List.drop_eq_getElem_cons hlt', hnext]
      simp only [List.getElem?_eq_getElem hlt']
      rfl
    · rw [if_pos (by omega), List.drop_of_length_le hge']
      rfl
  · rw [if_pos (by omega), List.drop_of_length_le hge]
    rfl

theorem getElem?_firstLines (i : Nat) :
    (firstLines data start none)[i]? = front? (start + 2 * i) (data.drop (2 * i)) := by
  induction data using List.twoStepInduction generalizing start i with
  | nil => simp [front?]
  | singleton b =>
    cases i with
    | zero => simp [front?]
    | succ i => simp [front?, Nat.mul_add]
  | cons_cons high low rest ih _ =>
    cases i with
    | zero => simp [front?]
    | succ i =>
      have hplace : start + 2 + 2 * (i : Int) = start + 2 * (i + 1 : Nat) := by omega
      rw [firstLines_cons_cons, List.getElem?_cons_succ, ih, hplace]
      rfl

/-- What line `i` of a buffer is. -/
structure LineFor (data : List UInt8) (start : Int) (i : Nat) (l : Line) : Prop where
  address : l.address = start + 2 * i
  inside : 2 * i < data.length
  /-- Two bytes are a word, the high byte first. -/
  word : ∀ h : 2 * i + 1 < data.length, l.bytes.length = 2 ∧
    ∃ w : Word, l = Line.ofWord (start + 2 * i) w ∧ w.toNat = 0x100 * data[2 * i].toNat + data[2 * i + 1].toNat
  /-- An odd byte at the end stands for itself. -/
  byte : data.length = 2 * i + 1 → l.bytes.length = 1 ∧ l.mnemonic = ".BYTE" ∧
    l = ⟨start + 2 * i, .byte data[2 * i]⟩

theorem lineFor_of_front? {i : Nat} {l : Line} (h : front? (start + 2 * i) (data.drop (2 * i)) = some l) :
    LineFor data start i l := by
  have hinside : 2 * i < data.length := by
    by_contra hout
    rw [List.drop_of_length_le (by omega)] at h
    exact nomatch h
  rw [List.drop_eq_getElem_cons hinside] at h
  rcases Nat.lt_or_ge (2 * i + 1) data.length with hlt | hge
  · rw [List.drop_eq_getElem_cons hlt] at h
    obtain rfl := Option.some.inj h
    refine ⟨rfl, hinside, fun _ => ⟨?_, _, rfl, Word.toNat_ofBytes _ _⟩, fun hend => by omega⟩
    rw [Line.bytes_ofWord]
    rfl
  · rw [List.drop_of_length_le hge] at h
    obtain rfl := Option.some.inj h
    exact ⟨rfl, hinside, fun hlt => by omega, fun _ => ⟨rfl, rfl, rfl⟩⟩

/-! ### The partition -/

/-- **A listing takes a buffer apart, and leaves nothing out.**  It has a line for every two bytes, and one for an odd byte
at the end; put one behind the other, the bytes of the lines are the buffer.  Line `i` is for the word at place `2 * i`,
or for the last byte, and is the line that is listed for this place by itself.  A count takes lines from the front, none
if it is negative.  And if a buffer has an even number of bytes, the listing of what follows comes behind its own. -/
theorem lines_partition_buffer (data : List UInt8) (start : Int) :
    (firstLines data start none).length = (data.length + 1) / 2 ∧
    (firstLines data start none).flatMap Line.bytes = data ∧
    (∀ i l, (firstLines data start none)[i]? = some l → LineFor data start i l) ∧
    (∀ i : Nat, (firstLines data start none)[i]? = (lineAt data (start + 2 * i) (2 * i : Nat)).toOption) ∧
    (∀ count, firstLines data start (some count) = (firstLines data start none).take (max count 0).toNat) ∧
    ∀ more, 2 ∣ data.length →
      firstLines (data ++ more) start none =
        firstLines data start none ++ firstLines more (start + data.length) none := by
  refine ⟨length_firstLines, flatMap_bytes_firstLines, fun i l hl => ?_, fun i => ?_, firstLines_some,
    fun more hdata => firstLines_append hdata more⟩
  · rw [getElem?_firstLines] at hl
    exact lineFor_of_front? hl
  · rw [getElem?_firstLines, lineAt_toOption]

/-- Two words and an odd byte, listed at once and cut behind the first word. -/
theorem lines_partition_buffer_odd :
    2 ∣ [0x60, 0x05].length ∧
      firstLines ([0x60, 0x05] ++ [0xFF, 0xFF, 0x12]) 0x200 none =
        firstLines [0x60, 0x05] 0x200 none ++ firstLines [0xFF, 0xFF, 0x12] (0x200 + [0x60, 0x05].length) none ∧
      (firstLines [0x60, 0x05, 0xFF, 0xFF, 0x12] 0x200 none)[2]? = some ⟨0x204, .byte 0x12⟩ ∧
      LineFor [0x60, 0x05, 0xFF, 0xFF, 0x12] 0x200 2 ⟨0x204, .byte 0x12⟩ := by
  have heven : 2 ∣ [0x60, 0x05].length := ⟨1, rfl⟩
  have hlast : (firstLines [0x60, 0x05, 0xFF, 0xFF, 0x12] 0x200 none)[2]? = some ⟨0x204, .byte 0x12⟩ := rfl
  obtain ⟨-, -, -, -, -, hcut⟩ := lines_partition_buffer [0x60, 0x05] 0x200
  obtain ⟨-, -, hline, -⟩ := lines_partition_buffer [0x60, 0x05, 0xFF, 0xFF, 0x12] 0x200
  exact ⟨heven, hcut [0xFF, 0xFF, 0x12] heven, hlast, hline 2 _ hlast⟩

end Listing

end Chip8
