/-!
# Framebuffer

A picture of 64 by 32 pixels, row by row from the top left.  Sprites are eight pixels wide and any
number of rows high, one row a byte whose top bit is leftmost.  Drawing a sprite toggles the pixels
under its set bits; both coordinates wrap at the edges.  A set bit that finds its pixel lit is a
collision.
-/

namespace Chip8

/-- A frame as it is handed to a display: the pixels row by row, `true` for lit. -/
abbrev Frame := List Bool

/-- The picture that sprites are drawn on. -/
structure Framebuffer where
  pixels : Vector Bool 2048
  deriving DecidableEq

namespace Framebuffer

def width : Nat := 64

def height : Nat := 32

def blank : Framebuffer := ⟨Vector.replicate 2048 false⟩

instance : Inhabited Framebuffer := ⟨blank⟩

/-- The index of the pixel at a column and a row, each taken round the edges. -/
def index (x y : Int) : Fin 2048 :=
  ⟨(y % 32).toNat * 64 + (x % 64).toNat, by omega⟩

def lit (f : Framebuffer) (x y : Int) : Bool := f.pixels[(index x y).val]

/-- The columns of the set bits of a sprite row, from the left. -/
def setBits (row : UInt8) : List Nat :=
  (List.range 8).filter fun dx => row.toNat.testBit (7 - dx)

/-- The pixels under the set bits of a sprite at a place, row by row. -/
def hits (x y : Int) : List UInt8 → List (Fin 2048)
  | [] => []
  | row :: rows => (setBits row).map (fun (dx : Nat) => index (x + dx) y) ++ hits x (y + 1) rows

/-- Toggles the pixels one after another; also tells whether one of them was lit when its turn came, or
whether `collided` says so from the start. -/
def toggleAll (f : Framebuffer) (collided : Bool) : List (Fin 2048) → Framebuffer × Bool
  | [] => (f, collided)
  | p :: ps =>
    let wasLit := f.pixels[p.val]
    toggleAll ⟨f.pixels.set p.val (!wasLit)⟩ (collided || wasLit) ps

/-- Draws a sprite with its top left corner at a column and a row; also tells whether it collided. -/
def draw (f : Framebuffer) (x y : Int) (sprite : List UInt8) : Framebuffer × Bool :=
  f.toggleAll false (hits x y sprite)

def frame (f : Framebuffer) : Frame := f.pixels.toList

def litCount (f : Framebuffer) : Nat := f.pixels.toList.count true

/-- The rows as text, one string for each lit and each dark pixel. -/
def render (f : Framebuffer) (on off : String) : List String :=
  (List.range height).map fun (row : Nat) =>
    String.join ((List.range width).map fun (column : Nat) => if f.lit column row then on else off)

def summary (f : Framebuffer) : String :=
  "Display(" ++ toString width ++ "x" ++ toString height ++ ", lit=" ++ toString f.litCount ++ ")"

end Framebuffer

end Chip8
