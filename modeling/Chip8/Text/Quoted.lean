import Chip8.Hex
import Chip8.Text.Printable

/-!
# Quoted text

Text in quotes, as messages show it.  The quotes are single ones, unless the text has single quotes and
no double ones.  A backslash marks the quote itself, a backslash, and what does not show.
-/

namespace Chip8.Text

/-- The code point of a character in lower-case hexadecimal. -/
def codeText (width : Nat) (c : Char) : List Char := (Hex.ofNat width c.toNat).toLower.toList

def quotedChar (quote c : Char) : List Char :=
  if c = quote || c = '\\' then ['\\', c]
  else if c = '\t' then ['\\', 't']
  else if c = '\n' then ['\\', 'n']
  else if c = '\r' then ['\\', 'r']
  else if isPrintable c then [c]
  else if c.toNat < 0x100 then '\\' :: 'x' :: codeText 2 c
  else if c.toNat < 0x10000 then '\\' :: 'u' :: codeText 4 c
  else '\\' :: 'U' :: codeText 8 c

def quoted (s : String) : String :=
  let cs := s.toList
  let quote := if cs.contains '\'' && !cs.contains '"' then '"' else '\''
  String.ofList (quote :: cs.flatMap (quotedChar quote) ++ [quote])

end Chip8.Text
