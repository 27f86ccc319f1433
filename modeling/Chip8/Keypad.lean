import Chip8.Word

/-!
# Keypad

Sixteen keys, numbered `0` to `F`, and their state in one vector: bit `k` is set while key `k` is held.

    1 2 3 C        1 2 3 4
    4 5 6 D   <-   Q W E R
    7 8 9 E        A S D F
    A 0 B F        Z X C V

Key numbers are taken modulo sixteen, and of a vector only the low sixteen bits count.
-/

namespace Chip8

/-- A number of one of the sixteen keys. -/
abbrev Key := Fin 16

/-- Which keys are held: bit `k` stands for key `k`. -/
abbrev KeyVector := BitVec 16

namespace Key

/-- The key that a number selects. -/
def ofInt (k : Int) : Key := ⟨(k % 16).toNat, by omega⟩

/-- The characters of the host's keyboard that stand for keys, with their keys. -/
def layout : List (Char × Key) := [
  ('1', 0x1), ('2', 0x2), ('3', 0x3), ('4', 0xC),
  ('q', 0x4), ('w', 0x5), ('e', 0x6), ('r', 0xD),
  ('a', 0x7), ('s', 0x8), ('d', 0x9), ('f', 0xE),
  ('z', 0xA), ('x', 0x0), ('c', 0xB), ('v', 0xF)]

/-- The key of a lower-case character, if it has one. -/
def ofChar? (c : Char) : Option Key := layout.lookup c

/-- The vector in which just this key is held. -/
def bit (k : Key) : KeyVector := 1#16 <<< k.val

end Key

namespace KeyVector

/-- The low sixteen bits of a number. -/
def ofInt (state : Int) : KeyVector := BitVec.ofInt 16 state

/-- The vector in which the listed keys are held, and no others. -/
def ofKeys (keys : List Int) : KeyVector :=
  keys.foldl (fun v k => v ||| (Key.ofInt k).bit) 0

def isDown (v : KeyVector) (k : Key) : Bool := v.getLsbD k.val

/-- The first held key in the cyclic order `start`, `start + 1`, …, `start + 15`. -/
def firstDown? (v : KeyVector) (start : Int) : Option Key :=
  ((List.range 16).map fun (offset : Nat) => Key.ofInt (start + offset)).find? v.isDown

end KeyVector

end Chip8
