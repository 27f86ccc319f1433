/-!
# Hexadecimal text

Upper-case digits, most significant first, padded with zeros to a least width.  A negative number is
written as its sign followed by the digits of its size, and the sign counts towards the width.
-/

namespace Chip8.Hex

/-- The digit of a value below sixteen; larger values wrap. -/
def digit (n : Nat) : Char :=
  match n % 16 with
  | 0 => '0' | 1 => '1' | 2 => '2' | 3 => '3' | 4 => '4' | 5 => '5' | 6 => '6' | 7 => '7'
  | 8 => '8' | 9 => '9' | 10 => 'A' | 11 => 'B' | 12 => 'C' | 13 => 'D' | 14 => 'E' | _ => 'F'

/-- All the digits of `n`, without leading zeros (`0` itself has one digit). -/
def digits (n : Nat) : List Char :=
  if n < 16 then [digit n] else digits (n / 16) ++ [digit n]
  termination_by n
  decreasing_by omega

/-- Puts zeros in front of `cs` up to `width` characters. -/
def pad (width : Nat) (cs : List Char) : List Char :=
  List.replicate (width - cs.length) '0' ++ cs

/-- `n` in at least `width` digits. -/
def ofNat (width n : Nat) : String :=
  String.ofList (pad width (digits n))

/-- `z` in at least `width` characters, zeros standing between the sign and the digits. -/
def ofInt (width : Nat) : Int → String
  | .ofNat n => ofNat width n
  | .negSucc n => String.ofList ('-' :: pad (width - 1) (digits (n + 1)))

def ofByte (b : UInt8) : String := ofNat 2 b.toNat

end Chip8.Hex
