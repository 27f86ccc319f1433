import Chip8.Text.Integer

/-!
# Addresses on the command line

An address is a decimal number, or a hexadecimal one behind `0x` or `$`, and it has to lie in memory.
-/

namespace Chip8.Command

inductive AddressError
  /-- The text is no number. -/
  | notANumber
  /-- The number, spelled like this, does not lie in memory. -/
  | outOfRange (spelling : String)
  deriving DecidableEq, Repr

def AddressError.text : AddressError → String
  | .notANumber => "not a number"
  | .outOfRange spelling => "Address must be 0-4095 (0x000-0xFFF), got " ++ spelling

/-- The number that an address without blanks around it spells. -/
def addressValue? : List Char → Option Int
  | '$' :: cs => Text.Base.sixteen.integer? cs
  | '0' :: 'x' :: cs => Text.Base.sixteen.integer? ('0' :: 'x' :: cs)
  | '0' :: 'X' :: cs => Text.Base.sixteen.integer? ('0' :: 'X' :: cs)
  | cs => Text.Base.ten.integer? cs

def parseAddress (text : String) : Except AddressError Nat :=
  let stripped := Text.strip text
  match addressValue? stripped.toList with
  | none => .error .notANumber
  | some value => if 0 ≤ value ∧ value ≤ 0xFFF then .ok value.toNat else .error (.outOfRange stripped)

end Chip8.Command
