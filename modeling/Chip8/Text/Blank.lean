/-!
# Blanks

White space of any script, and texts without it at their ends.
-/

namespace Chip8.Text

/-- The code points that separate without being seen. -/
def blanks : List Nat := [
  0x9, 0xA, 0xB, 0xC, 0xD, 0x1C, 0x1D, 0x1E, 0x1F, 0x20, 0x85, 0xA0, 0x1680, 0x2000, 0x2001,
  0x2002, 0x2003, 0x2004, 0x2005, 0x2006, 0x2007, 0x2008, 0x2009, 0x200A, 0x2028, 0x2029, 0x202F,
  0x205F, 0x3000]

def isBlank (c : Char) : Bool := blanks.contains c.toNat

/-- Whether a character is a blank that may stand around a number: the four separators of files, groups,
records and units may not. -/
def isNumberBlank (c : Char) : Bool := isBlank c && !(0x1C ≤ c.toNat && c.toNat ≤ 0x1F)

/-- The characters between the first and the last that a test does not hold of. -/
def stripBy (p : Char → Bool) (cs : List Char) : List Char :=
  ((cs.dropWhile p).reverse.dropWhile p).reverse

def strip (s : String) : String := String.ofList (stripBy isBlank s.toList)

end Chip8.Text
