import Mathlib
import Chip8.Proofs.AssemblyText
import Chip8.Proofs.Listing

/-!
# Reading a listing back

The text of a listing tells what was listed.  It is cut at the ends of its lines; on each line the address stands between
the dollar sign and the first colon, and the bytes in five columns behind it (`Line.read?`).  That this works rests on the
characters that do not occur: no digit is a colon or a blank, and nothing on a line ends the line (`newline_not_mem`).  So
buffer and address can be read off the text (`render_read_back`).
-/

namespace Chip8

/-! ### Numbers -/

namespace Hex

def isDigit (c : Char) : Bool := c.isDigit || ('A' ≤ c && c ≤ 'F')

/-- The number that a text of digits spells. -/
def read? (cs : List Char) : Option Nat := if cs ≠ [] ∧ cs.all isDigit then some (read cs) else none

theorem isDigit_digit (n : Nat) : isDigit (digit n) := by
  have hn : n % 16 < 16 := Nat.mod_lt _ (by omega)
  unfold digit
  generalize n % 16 = k at hn
  interval_cases k <;> rfl

theorem isDigit_of_mem_ofNat {width n : Nat} {c : Char} (h : c ∈ (ofNat width n).toList) : isDigit c := by
  obtain ⟨k, rfl⟩ := eq_digit_of_mem_ofNat h
  exact isDigit_digit k

theorem toList_ofNat_ne_nil (width n : Nat) : (ofNat width n).toList ≠ [] := by
  have hdigits : digits n ≠ [] := by
    rw [digits]
    split <;> simp
  rw [ofNat, String.toList_ofList, pad]
  exact List.append_ne_nil_of_right_ne_nil _ hdigits

theorem read?_ofNat (width n : Nat) : read? (ofNat width n).toList = some n := by
  have hall : (ofNat width n).toList.all isDigit := List.all_eq_true.mpr fun c => isDigit_of_mem_ofNat
  rw [read?, if_pos ⟨toList_ofNat_ne_nil width n, hall⟩, ofNat, String.toList_ofList, read_pad, read_digits]

/-- A byte has two digits. -/
theorem toList_ofByte (b : UInt8) : (ofByte b).toList = [digit (b.toNat / 16), digit b.toNat] := by
  have hb := b.toNat_lt
  rw [ofByte, ofNat, String.toList_ofList, digits]
  split
  case isTrue hsmall =>
    have hzero : b.toNat / 16 = 0 := by omega
    rw [hzero]
    rfl
  case isFalse hlarge =>
    rw [digits, if_pos (by omega)]
    rfl

end Hex

/-! ### Lines -/

namespace Line

/-- The bytes that pairs of digits spell, with blanks between them and behind. -/
def readPairs? : List Char → Option (List UInt8)
  | [] => some []
  | ' ' :: cs => readPairs? cs
  | [_] => none
  | high :: low :: cs =>
    match Hex.read? [high, low], readPairs? cs with
    | some n, some bs => some (UInt8.ofNat n :: bs)
    | _, _ => none

/-- The address and the bytes of a line, if it has any: a dollar sign, digits up to the first colon, a blank, and five
columns of pairs.  What stands behind them is not looked at. -/
def read? : List Char → Option (Nat × List UInt8)
  | '$' :: cs =>
    let columns := ((cs.dropWhile (· ≠ ':')).drop 2).take 5
    match Hex.read? (cs.takeWhile (· ≠ ':')), readPairs? columns with
    | some address, some bytes => some (address, bytes)
    | _, _ => none
  | _ => none

/-- A line that can stand in the listing of a buffer. -/
inductive Listed : Line → Prop
  | word (address : Nat) (w : Word) : Listed (ofWord address w)
  | byte (address : Nat) (b : UInt8) : Listed ⟨address, .byte b⟩

theorem Listed.exists_address {l : Line} (h : l.Listed) : ∃ address : Nat, l.address = address := by
  cases h with
  | word address w => exact ⟨address, rfl⟩
  | byte address b => exact ⟨address, rfl⟩

/-! ### The columns -/

theorem readPairs?_ofByte (b : UInt8) (cs : List Char) :
    readPairs? ((Hex.ofByte b).toList ++ cs) = (readPairs? cs).map (b :: ·) := by
  have hblank : ∀ n, Hex.digit n ≠ ' ' := by
    intro n hn
    have hdigit := Hex.isDigit_digit n
    rw [hn] at hdigit
    exact absurd hdigit (by decide)
  have hread : Hex.read? [Hex.digit (b.toNat / 16), Hex.digit b.toNat] = some b.toNat := by
    rw [← Hex.toList_ofByte, Hex.ofByte, Hex.read?_ofNat]
  rw [Hex.toList_ofByte, List.cons_append, List.cons_append, List.nil_append, readPairs?]
  · rw [hread]
    cases readPairs? cs <;> simp
  · exact fun h => hblank _ h

theorem toList_column (width : Nat) (s : String) :
    (column width s).toList = s.toList ++ List.replicate (width - s.toList.length) ' ' := by
  rw [column, String.toList_ofList, List.rightpad]

/-- The column of the bytes is five characters wide, and the bytes can be read off it. -/
theorem Listed.byteColumn {l : Line} (h : l.Listed) :
    l.byteColumn.toList.length = 5 ∧ readPairs? l.byteColumn.toList = some l.bytes := by
  have hlength : ∀ b, (Hex.ofByte b).toList.length = 2 := by
    intro b
    rw [Hex.toList_ofByte]
    rfl
  cases h with
  | word address w =>
    have htext : (String.intercalate " " ((ofWord address w).bytes.map Hex.ofByte)).toList =
        (Hex.ofByte w.high).toList ++ ' ' :: (Hex.ofByte w.low).toList := by
      rw [bytes_ofWord]
      simp
    have hread : readPairs? (Hex.ofByte w.low).toList = some [w.low] := by
      have hpair := readPairs?_ofByte w.low []
      rwa [List.append_nil] at hpair
    rw [Line.byteColumn, toList_column, htext, bytes_ofWord]
    simp [hlength, readPairs?_ofByte, readPairs?, hread]
  | byte address b =>
    have htext : (String.intercalate " " ((Line.mk address (.byte b)).bytes.map Hex.ofByte)).toList =
        (Hex.ofByte b).toList := by
      simp [bytes]
    have hblanks : readPairs? [' ', ' ', ' '] = some [] := rfl
    rw [Line.byteColumn, toList_column, htext]
    simp [hlength, readPairs?_ofByte, hblanks, List.replicate, bytes]

/-! ### Whole lines -/

/-- What stands behind the bytes of a line. -/
def remainder (l : Line) : List Char :=
  ' ' :: ' ' :: if l.comment.isEmpty then l.text.toList
    else (column 16 l.text).toList ++ " ; ".toList ++ l.comment.toList

theorem toList_render (l : Line) :
    l.render.toList = l.label.toList ++ ' ' :: (l.byteColumn.toList ++ l.remainder) := by
  unfold render remainder
  by_cases h : l.comment.isEmpty <;> simp [h]

theorem toList_label {l : Line} {address : Nat} (h : l.address = address) :
    l.label.toList = '$' :: ((Hex.ofNat 4 address).toList ++ [':']) := by
  rw [label, h]
  simp [Hex.ofInt]

/-- Address and bytes can be read off a line. -/
theorem Listed.read?_render {l : Line} (h : l.Listed) : read? l.render.toList = some (l.address.toNat, l.bytes) := by
  obtain ⟨address, haddress⟩ := h.exists_address
  have hcolon : ∀ c ∈ (Hex.ofNat 4 address).toList, (decide (c ≠ ':')) = true := by
    intro c hc
    rw [decide_eq_true_iff]
    rintro rfl
    exact absurd (Hex.isDigit_of_mem_ofNat hc) (by decide)
  obtain ⟨hwidth, hpairs⟩ := h.byteColumn
  rw [toList_render, toList_label haddress, haddress]
  simp only [read?, List.cons_append, List.append_assoc, List.nil_append,
    List.takeWhile_append_of_pos hcolon, List.dropWhile_append_of_pos hcolon]
  simp [Hex.read?_ofNat, ← hwidth, hpairs]

/-! ### The ends of lines -/

theorem newline_not_mem_ofNat (width n : Nat) : '\n' ∉ (Hex.ofNat width n).toList := fun h =>
  absurd (Hex.isDigit_of_mem_ofNat h) (by decide)

theorem newline_not_mem_operandText (a : Assembly) : '\n' ∉ a.operandText.toList := by
  have hoperand : ∀ o : Operand, '\n' ∉ o.text.toList := fun o h => absurd (Operand.mem_text h) (by decide)
  obtain ⟨name, _ | ⟨o, os⟩⟩ := a
  · simp [Assembly.operandText]
  · rw [Assembly.toList_operandText_cons, Assembly.furtherText]
    simp [hoperand]

theorem newline_not_mem_mnemonic (i : Instr) : '\n' ∉ i.mnemonic.toList := by
  cases i <;> simp [Instr.mnemonic]

/-- Name and operands are on one line. -/
theorem Listed.newline_not_mem_text {l : Line} (h : l.Listed) : '\n' ∉ l.text.toList := by
  suffices hparts : '\n' ∉ l.mnemonic.toList ∧ '\n' ∉ l.operands.toList by
    rw [toList_text]
    split <;> simp [hparts]
  cases h with
  | byte address b => simp [mnemonic, operands, Hex.ofByte, newline_not_mem_ofNat]
  | word address w =>
    cases hw : Instr.decode? w with
    | none =>
      rw [ofWord_of_none hw]
      simp [mnemonic, operands, newline_not_mem_ofNat]
    | some i =>
      rw [ofWord_of_some hw]
      exact ⟨newline_not_mem_mnemonic i, newline_not_mem_operandText i.assembly⟩

theorem newline_not_mem_comment (l : Line) : '\n' ∉ l.comment.toList := by
  unfold comment
  split <;> simp

/-- **Nothing on a line ends it.** -/
theorem Listed.newline_not_mem {l : Line} (h : l.Listed) : '\n' ∉ l.render.toList := by
  have htext := h.newline_not_mem_text
  have hcomment := newline_not_mem_comment l
  have hremainder : '\n' ∉ l.remainder := by
    unfold remainder
    split <;> simp [toList_column, htext, hcomment]
  have hbytes : '\n' ∉ l.byteColumn.toList := by
    simp only [Line.byteColumn, toList_column, String.toList_intercalate]
    cases h with
    | word address w => simp [bytes_ofWord, Hex.ofByte, newline_not_mem_ofNat]
    | byte address b => simp [bytes, Hex.ofByte, newline_not_mem_ofNat]
  have hlabel : '\n' ∉ l.label.toList := by
    obtain ⟨address, haddress⟩ := h.exists_address
    simp [toList_label haddress, newline_not_mem_ofNat]
  rw [toList_render]
  simp [hlabel, hbytes, hremainder]

end Line

/-! ### Listings -/

namespace Listing

variable {data : List UInt8} {start : Nat}

/-- What can be read off a text, line by line. -/
def readLines (text : String) : List (Option (Nat × List UInt8)) := (text.toList.splitOn '\n').map Line.read?

theorem listed_of_mem {l : Line} (h : l ∈ firstLines data start none) : l.Listed := by
  obtain ⟨i, hi⟩ := List.mem_iff_getElem?.mp h
  rw [getElem?_firstLines] at hi
  have hplace : (start : Int) + 2 * i = (start + 2 * i : Nat) := by omega
  rw [hplace] at hi
  generalize data.drop (2 * i) = behind at hi
  match behind, hi with
  | [b], hi =>
    obtain rfl := Option.some.inj hi
    exact .byte _ b
  | high :: low :: rest, hi =>
    obtain rfl := Option.some.inj hi
    exact .word _ _

/-- Addresses and bytes of the lines of a buffer. -/
def entries (data : List UInt8) (start : Nat) : List (Nat × List UInt8) :=
  (firstLines data start none).map fun l => (l.address.toNat, l.bytes)

theorem addresses_entries (data : List UInt8) (start : Nat) :
    (entries data start).map Prod.fst = (List.range ((data.length + 1) / 2)).map (start + 2 * ·) := by
  rw [entries, List.map_map]
  refine List.ext_getElem (by simp [length_firstLines]) fun i hi hi' => ?_
  have hlt : i < (firstLines data start none).length := by rwa [List.length_map] at hi
  have hline : LineFor data start i (firstLines data start none)[i] :=
    lineFor_of_front? ((getElem?_firstLines i).symm.trans (List.getElem?_eq_getElem hlt))
  rw [List.getElem_map, List.getElem_map, List.getElem_range, Function.comp_apply, hline.address]
  omega

theorem bytes_entries (data : List UInt8) (start : Nat) : (entries data start).flatMap Prod.snd = data := by
  rw [entries, List.flatMap_map]
  exact flatMap_bytes_firstLines

/-- Entries tell what they are the entries of. -/
theorem eq_of_entries_eq {data' : List UInt8} {start' : Nat} (hdata : data ≠ [])
    (h : entries data' start' = entries data start) : data' = data ∧ start' = start := by
  have hbytes : data' = data := by
    calc data' = (entries data' start').flatMap Prod.snd := (bytes_entries data' start').symm
      _ = (entries data start).flatMap Prod.snd := by rw [h]
      _ = data := bytes_entries data start
  subst hbytes
  have haddresses := addresses_entries data' start'
  rw [h, addresses_entries] at haddresses
  have hlength := List.length_pos_iff.mpr hdata
  obtain ⟨k, hk⟩ : ∃ k, (data'.length + 1) / 2 = k + 1 := ⟨(data'.length + 1) / 2 - 1, by omega⟩
  rw [hk, List.range_succ_eq_map, List.map_cons, List.map_cons] at haddresses
  have hfirst := (List.cons.inj haddresses).1
  exact ⟨rfl, by omega⟩

theorem readLines_render (start : Nat) (hdata : data ≠ []) :
    readLines (render data start none) = (entries data start).map some := by
  have hsome : (firstLines data start none).map (fun l => l.render.toList) ≠ [] := by
    rw [Ne, List.map_eq_nil_iff, ← List.length_eq_zero_iff, length_firstLines]
    have hlength := List.length_pos_iff.mpr hdata
    omega
  have hplain : ∀ cs ∈ (firstLines data start none).map fun l => l.render.toList, '\n' ∉ cs := by
    intro cs hcs
    obtain ⟨l, hl, rfl⟩ := List.mem_map.mp hcs
    exact (listed_of_mem hl).newline_not_mem
  have hlines : (render data start none).toList =
      ['\n'].intercalate ((firstLines data start none).map fun l => l.render.toList) := by
    rw [render, String.toList_intercalate, List.map_map]
    rfl
  rw [readLines, hlines, List.splitOn_intercalate _ hplain hsome, List.map_map, entries, List.map_map]
  exact List.map_congr_left fun l hl => (listed_of_mem hl).read?_render

/-- The empty text is one line, and nothing can be read on it. -/
theorem readLines_render_nil : readLines (render [] start none) = [none] := by
  simp [readLines, render, Line.read?]

/-- **A listing can be read back.**  From the text of a listing, whatever was listed and wherever it began, every line
can be read; the addresses go up from the first one by two, and the bytes, put one behind the other, are the buffer.  So
no two listings have one text. -/
theorem render_read_back (data : List UInt8) (start : Nat) (hdata : data ≠ []) :
    (∃ lines : List (Nat × List UInt8), readLines (render data start none) = lines.map some ∧
      lines.map Prod.fst = (List.range ((data.length + 1) / 2)).map (start + 2 * ·) ∧
      lines.flatMap Prod.snd = data) ∧
    ∀ (data' : List UInt8) (start' : Nat), render data' start' none = render data start none →
      data' = data ∧ start' = start := by
  have hread := readLines_render start hdata
  refine ⟨⟨entries data start, hread, addresses_entries data start, bytes_entries data start⟩, ?_⟩
  intro data' start' hsame
  -- An empty buffer has a line on which nothing can be read, and so is not the other one.
  have hdata' : data' ≠ [] := by
    rintro rfl
    have hnone : none ∈ readLines (render data start none) := by
      rw [← hsame, readLines_render_nil]
      exact List.mem_singleton_self _
    rw [hread] at hnone
    simp at hnone
  have hread' := readLines_render start' hdata'
  rw [hsame, hread] at hread'
  exact eq_of_entries_eq hdata (List.map_injective_iff.mpr (Option.some_injective _) hread'.symm)

/-- A listing that grows a fifth digit in its addresses, with a remark and an odd byte. -/
theorem render_read_back_long :
    ([0x00, 0xE0, 0xFF, 0xFF, 0x12] : List UInt8) ≠ [] ∧
    (∃ lines : List (Nat × List UInt8),
      readLines (render [0x00, 0xE0, 0xFF, 0xFF, 0x12] (0xFFFE : Nat) none) = lines.map some ∧
      lines.map Prod.fst = [0xFFFE, 0x10000, 0x10002] ∧
      lines.flatMap Prod.snd = [0x00, 0xE0, 0xFF, 0xFF, 0x12]) := by
  have hdata : ([0x00, 0xE0, 0xFF, 0xFF, 0x12] : List UInt8) ≠ [] := List.cons_ne_nil _ _
  exact ⟨hdata, (render_read_back [0x00, 0xE0, 0xFF, 0xFF, 0x12] 0xFFFE hdata).1⟩

end Listing

end Chip8
