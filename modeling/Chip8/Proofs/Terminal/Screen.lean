import Mathlib
import Chip8.Terminal.Directive

/-!
# A screen that reads directives

What there is to see on a terminal: a grid of cells without an end, which reads one character after another.  A control
sequence begins with an escape and a bracket and ends with the first character from `@` to `~`; four of them do
something, all others nothing, and neither does a bell.  Every other character goes into the cell at the cursor.

`read_textOf` says that the text of directives does to a screen what the directives say (`obey`).
-/

namespace Chip8

/-- If a directive names a place, the place is on the grid. -/
def Directive.OnGrid (d : Directive) : Prop := ∀ column row, d = .goto column row → 0 ≤ column ∧ 0 ≤ row

/-- Where a screen is in its text: at a character, behind an escape, or in a control sequence with some characters
behind its bracket. -/
inductive Reading
  | character
  | escape
  | control (arguments : List Char)
  deriving DecidableEq

/-- A grid of cells.  Each holds a character, in white or in black, or is blank. -/
structure Screen where
  cell : Nat → Nat → Option (Char × Bool)
  /-- The column of the cursor, counted from one like its row. -/
  column : Nat
  row : Nat
  /-- Whether characters are painted in white, and not in black. -/
  white : Bool
  reading : Reading := .character

namespace Screen

def blank (column row : Nat) (white : Bool) : Screen := { cell := fun _ _ => none, column, row, white }

/-! ### Characters -/

def put (s : Screen) (c : Char) : Screen :=
  { s with
    cell := fun column row => if column = s.column ∧ row = s.row then some (c, s.white) else s.cell column row
    column := s.column + 1 }

/-- The number that digits spell. -/
def number? (cs : List Char) : Option Nat :=
  if cs ≠ [] ∧ cs.all Char.isDigit then some (Nat.ofDigitChars 10 cs 0) else none

/-- A control sequence, by what stands between its bracket and its final character. -/
def sequence (s : Screen) (arguments : List Char) (final : Char) : Screen :=
  match final with
  | 'H' =>
    match number? (arguments.takeWhile (· ≠ ';')), number? ((arguments.dropWhile (· ≠ ';')).drop 1) with
    | some row, some column => { s with column, row }
    | _, _ => s
  | 'J' => if arguments = ['2'] then { s with cell := fun _ _ => none } else s
  | 'm' =>
    if arguments = ['3', '7'] then { s with white := true }
    else if arguments = ['3', '0'] then { s with white := false }
    else s
  | _ => s

/-- Whether a character ends a control sequence. -/
def isFinal (c : Char) : Bool := 0x40 ≤ c.toNat && c.toNat ≤ 0x7E

def next (s : Screen) (c : Char) : Screen :=
  match s.reading with
  | .character =>
    if c = '\x1b' then { s with reading := .escape }
    else if c = '\x07' then s
    else s.put c
  | .escape => { s with reading := if c = '[' then .control [] else .character }
  | .control arguments =>
    if isFinal c then { s with reading := .character }.sequence arguments c
    else { s with reading := .control (arguments ++ [c]) }

def read (s : Screen) (text : String) : Screen := text.toList.foldl next s

/-! ### Directives -/

def obey (s : Screen) : Directive → Screen
  | .clear => { s with cell := fun _ _ => none }
  | .white => { s with white := true }
  | .black => { s with white := false }
  | .goto column row => { s with column := column.toNat, row := row.toNat }
  | .block => s.put '█'
  | _ => s

variable {s : Screen}

@[simp] theorem reading_obey (s : Screen) (d : Directive) : (s.obey d).reading = s.reading := by
  cases d <;> rfl

theorem foldl_next_arguments {arguments : List Char} (h : ∀ c ∈ arguments, isFinal c = false) (before : List Char) :
    arguments.foldl next { s with reading := .control before } =
      { s with reading := .control (before ++ arguments) } := by
  induction arguments generalizing before with
  | nil => rw [List.append_nil, List.foldl_nil]
  | cons c cs ih =>
    have hgoes : next { s with reading := .control before } c = { s with reading := .control (before ++ [c]) } := by
      simp [next, h c (List.mem_cons_self ..)]
    rw [List.foldl_cons, hgoes, ih fun c' hc' => h c' (List.mem_cons_of_mem _ hc'), List.append_assoc]
    rfl

/-- A text that is a control sequence. -/
theorem read_sequence (hs : s.reading = .character) {text : String} {arguments : List Char} {final : Char}
    (htext : text.toList = '\x1b' :: '[' :: (arguments ++ [final])) (h : ∀ c ∈ arguments, isFinal c = false)
    (hfinal : isFinal final) : s.read text = s.sequence arguments final := by
  have hescape : next s '\x1b' = { s with reading := .escape } := by simp [next, hs]
  have hbracket : next { s with reading := .escape } '[' = { s with reading := .control [] } := rfl
  have hclose : { s with reading := .character } = s := by rw [← hs]
  rw [read, htext, List.foldl_cons, hescape, List.foldl_cons, hbracket, List.foldl_append, foldl_next_arguments h]
  simp [next, hfinal, hclose]

theorem isDigit_of_mem {n : Nat} {c : Char} (h : c ∈ Nat.toDigits 10 n) : c.isDigit :=
  Nat.isDigit_of_mem_toDigits (by decide) (by decide) h

theorem isFinal_of_isDigit {c : Char} (h : c.isDigit) : isFinal c = false := by
  rw [Char.isDigit_iff_toNat] at h
  unfold isFinal
  simp only [Bool.and_eq_false_iff, decide_eq_false_iff_not]
  have hnine : '9'.toNat = 0x39 := rfl
  omega

theorem number?_toDigits (n : Nat) : number? (Nat.toDigits 10 n) = some n := by
  have hdigits : (Nat.toDigits 10 n).all Char.isDigit := List.all_eq_true.mpr fun c => isDigit_of_mem
  rw [number?, if_pos ⟨Nat.toDigits_ne_nil, hdigits⟩, Nat.ofDigitChars_toDigits (by decide) (by decide)]

theorem text_goto (column row : Nat) :
    (Directive.text (.goto column row)).toList =
      '\x1b' :: '[' :: (Nat.toDigits 10 row ++ ';' :: Nat.toDigits 10 column ++ ['H']) := by
  have hrow : toString (row : Int) = row.repr := rfl
  have hcolumn : toString (column : Int) = column.repr := rfl
  simp [Directive.text, Directive.control, hrow, hcolumn]

theorem read_goto (hs : s.reading = .character) (column row : Nat) :
    s.read (Directive.text (.goto column row)) = { s with column, row } := by
  have hdigits : ∀ n, ∀ c ∈ Nat.toDigits 10 n, (decide (c ≠ ';')) = true := by
    intro n c hc
    rw [decide_eq_true_iff]
    rintro rfl
    exact absurd (isDigit_of_mem hc) (by decide)
  have harguments : ∀ c ∈ Nat.toDigits 10 row ++ ';' :: Nat.toDigits 10 column, isFinal c = false := by
    intro c hc
    rw [List.mem_append, List.mem_cons] at hc
    rcases hc with hc | rfl | hc
    · exact isFinal_of_isDigit (isDigit_of_mem hc)
    · rfl
    · exact isFinal_of_isDigit (isDigit_of_mem hc)
  rw [read_sequence hs (text_goto column row) harguments rfl]
  simp only [sequence, List.takeWhile_append_of_pos (hdigits row), List.dropWhile_append_of_pos (hdigits row)]
  simp [number?_toDigits]

/-- A directive does what it says. -/
theorem read_text (hs : s.reading = .character) {d : Directive} (hd : d.OnGrid) : s.read d.text = s.obey d := by
  cases d with
  | goto column row =>
    obtain ⟨hcolumn, hrow⟩ := hd column row rfl
    obtain ⟨column, rfl⟩ := Int.eq_ofNat_of_zero_le hcolumn
    obtain ⟨row, rfl⟩ := Int.eq_ofNat_of_zero_le hrow
    exact read_goto hs column row
  | _ =>
    obtain ⟨cell, column, row, white, reading⟩ := s
    obtain rfl : reading = .character := hs
    rfl

theorem read_append (s : Screen) (text text' : String) : s.read (text ++ text') = (s.read text).read text' := by
  simp only [read, String.toList_append, List.foldl_append]

/-- **The text of directives does what they say**, one after another. -/
theorem read_textOf (hs : s.reading = .character) {ds : List Directive} (hds : ∀ d ∈ ds, d.OnGrid) :
    s.read (Directive.textOf ds) = ds.foldl obey s := by
  induction ds generalizing s with
  | nil => rfl
  | cons d ds ih =>
    rw [Directive.textOf, List.map_cons, String.join_cons, read_append, read_text hs (hds d (List.mem_cons_self ..))]
    exact ih (by rw [reading_obey, hs]) fun d' hd' => hds d' (List.mem_cons_of_mem _ hd')

example : ((blank 1 1 false).read "\x1b[5;9H\x1b[37m█").cell 9 5 = some ('█', true) := by
  decide +kernel

end Screen

end Chip8
