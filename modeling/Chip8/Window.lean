import Chip8.Environment
import Chip8.Keypad

/-!
# A window as keypad and display

A window tells at each poll which keys are held and whether it was closed.  Frames become images in two
colours, which are scaled up to the window.
-/

namespace Chip8

/-- A colour with its opacity. -/
structure Colour where
  red : UInt8
  green : UInt8
  blue : UInt8
  alpha : UInt8
  deriving DecidableEq, Repr

/-- An image.  A negative pitch says that the rows go from the top down. -/
structure Image where
  width : Int
  height : Int
  /-- Bytes from one row to the next. -/
  pitch : Int
  pixels : List Colour
  deriving DecidableEq, Repr

/-- What a graphics library is asked to do. -/
inductive GraphicsCall
  | openWindow (width height : Int) (caption : String) (resizable : Bool)
  | image (i : Image)
  /-- Draw into the window from here on. -/
  | switchTo
  | clear
  /-- Make the image the present texture. -/
  | bind
  /-- Enlarge pixels to squares, without smoothing. -/
  | sharpen
  /-- Draw the texture with its corner at a point, in a size. -/
  | blit (x y width height : Int)
  /-- Show what was drawn. -/
  | flip
  | closeWindow
  | queueSine (duration : Float) (frequency : Rate) (amplitude : Float)
  /-- Play what was prepared, over and over if asked to. -/
  | playTone (looped : Bool)
  | pauseTone

structure Graphics (m : Type → Type) where
  /-- Whether there is a graphics library at all. -/
  isAvailable : m Bool
  /-- Lets the window take notice of what the user did. -/
  dispatch : m Unit
  /-- Whether the user closed the window. -/
  hasExit : m Bool
  /-- Whether the key of a character is held. -/
  isHeld : Char → m Bool
  size : m (Int × Int)
  call : GraphicsCall → m Unit

structure Window where
  /-- The keys that were held at the last poll. -/
  held : KeyVector := 0
  /-- Whether there is an image to show. -/
  hasImage : Bool := false
  deriving DecidableEq, Repr, Inhabited

namespace Window

def darkColour : Colour := ⟨0x1E, 0x1C, 0x2D, 0xFF⟩

def litColour : Colour := ⟨0xE0, 0xDE, 0xF4, 0xFF⟩

/-- Window pixels a pixel, unless said otherwise. -/
def defaultScale : Int := 16

def imageOf (frame : Frame) : Image where
  width := Framebuffer.width
  height := Framebuffer.height
  pitch := -(Framebuffer.width * 4 : Nat)
  pixels := frame.map fun lit => if lit then litColour else darkColour

variable {m : Type → Type} [Monad m]

def start (env : Environment m) (graphics : Graphics m) (title : String) (scale : Int) : m Window := do
  let caption := "CHIP-8: " ++ title
  graphics.call (.openWindow (Framebuffer.width * scale) (Framebuffer.height * scale) caption true)
  let (width, height) ← graphics.size
  env.note (.windowOpened width height)
  return {}

def close (graphics : Graphics m) : m Unit := graphics.call .closeWindow

def heldKeys (graphics : Graphics m) : List (Char × Key) → m KeyVector
  | [] => return 0
  | (c, k) :: rest => do
    let held ← graphics.isHeld c
    let others ← heldKeys graphics rest
    return if held then k.bit ||| others else others

/-- Polls the window.  After it was closed the keys stay as they were. -/
def poll (graphics : Graphics m) : StateT Window m Signals := do
  StateT.lift graphics.dispatch
  if ← StateT.lift graphics.hasExit then
    return .programExit
  let w ← get
  let held ← StateT.lift (heldKeys graphics Key.layout)
  set { w with held }
  return if held ≠ w.held then .newInputs else 0

/-- Shows the image taken last, unless there is none or the window was closed. -/
def drive (graphics : Graphics m) (w : Window) : m Unit := do
  if w.hasImage then
    if !(← graphics.hasExit) then
      graphics.call .switchTo
      graphics.call .clear
      graphics.call .bind
      graphics.call .sharpen
      let (width, height) ← graphics.size
      graphics.call (.blit 0 0 width height)
      graphics.call .flip

/-- Carries out a request for the display; sound is left to an audio device. -/
def perform (env : Environment m) (graphics : Graphics m) : Request → StateT Window m Unit
  | .frame f => do
    modify fun w => { w with hasImage := true }
    StateT.lift (graphics.call (.image (imageOf f)))
  | .drive => do
    StateT.lift (drive graphics (← get))
  | .tone _ | .play => return ()
  | .pause p => StateT.lift (env.pause p)
  | .note n => StateT.lift (env.note n)

/-- The window as input device and display. -/
def peripherals (env : Environment m) (graphics : Graphics m) : Peripherals (StateT Window m) where
  poll := poll graphics
  keys := return some (← get).held.toNat
  now := StateT.lift env.now
  perform := perform env graphics

end Window

end Chip8
