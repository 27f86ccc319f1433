import Chip8.Framebuffer
import Chip8.Keypad
import Chip8.Machine.Basic
import Chip8.Terminal.Directive

/-!
# A terminal as keypad, display and bell

Keys come as bytes, and a terminal never tells that a key was let go.  So all held keys are let go
together, a tenth of a second after the last time that happened.  Frames become a picture of blocks in
the middle of the terminal.
-/

namespace Chip8

structure Terminal where
  /-- The settings to go back to, while the terminal is in raw mode. -/
  saved : Option String := none
  /-- The keys that count as held. -/
  held : KeyVector := 0
  /-- When keys were let go last. -/
  released : Float
  /-- Columns and lines, as last seen. -/
  size : Nat × Nat
  /-- The last frame, as directives. -/
  picture : List Directive := []
  /-- The tone received last. -/
  tone : Bool := false

namespace Terminal

/-! ### Keys -/

/-- How many seconds pass until held keys are let go. -/
def holdTime : Float := 0.1

/-- Whether a byte asks to leave: Ctrl-C or Esc. -/
def isExit (b : UInt8) : Bool := b == 0x03 || b == 0x1B

/-- The key of a byte, upper-case letters counting as lower-case ones. -/
def keyOf? (b : UInt8) : Option Key := Key.ofChar? (Char.ofNat b.toNat).toLower

/-- Lets all keys go if it is time to. -/
def expire (t : Terminal) (now : Float) : Terminal :=
  if now - t.released ≥ holdTime then { t with held := 0, released := now } else t

/-- Holds the keys of some bytes, up to one that asks to leave; tells whether there was one. -/
def press (t : Terminal) : List UInt8 → Terminal × Bool
  | [] => (t, false)
  | b :: bs =>
    if isExit b then (t, true)
    else match keyOf? b with
      | some k => { t with held := t.held ||| k.bit }.press bs
      | none => t.press bs

/-- One poll, with the bytes that have come. -/
def poll (t : Terminal) (now : Float) (bytes : List UInt8) : Terminal × Signals :=
  let (after, leaves) := (t.expire now).press bytes
  if leaves then (after, .programExit)
  else if after.held ≠ t.held then (after, .newInputs)
  else (after, 0)

/-! ### Frames -/

/-- The directives for pixels from an index on, where `white` is the colour chosen last.  A row begins
with its place, and a colour is chosen only where it changes. -/
def paint (left top : Nat) : Nat → Option Bool → Frame → List Directive
  | _, _, [] => []
  | i, white, lit :: rest =>
    let place := if i % Framebuffer.width = 0 then
        [Directive.goto (left + 1 : Nat) (top + 1 + i / Framebuffer.width : Nat)] else []
    let colour := if white = some lit then [] else [if lit then .white else .black]
    place ++ colour ++ .block :: paint left top (i + 1) (some lit) rest

/-- Takes a frame for a terminal of a size.  If the size has changed the screen is blanked first. -/
def receive (t : Terminal) (size : Nat × Nat) (frame : Frame) : Terminal :=
  let left := (size.1 - Framebuffer.width) / 2
  let top := (size.2 - Framebuffer.height) / 2
  let blanking := if size ≠ t.size then [Directive.clear] else []
  { t with size, picture := blanking ++ paint left top 0 none frame }

/-! ### Beginning and end -/

def opening : List Directive := [.alternateOn, .hideCursor, .clear]

def closing : List Directive := [.plain, .showCursor, .alternateOff]

end Terminal

end Chip8
