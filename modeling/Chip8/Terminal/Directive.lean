/-!
# Terminal directives

The few things that a terminal is told here, and the control sequences that say them.  Columns and rows
are counted from one.
-/

namespace Chip8

/-- Something to tell a terminal. -/
inductive Directive
  /-- Keep the present screen aside and show an empty one. -/
  | alternateOn
  /-- Show the screen that was kept aside. -/
  | alternateOff
  | hideCursor
  | showCursor
  /-- Blank every cell. -/
  | clear
  /-- Paint in white from here on. -/
  | white
  /-- Paint in black from here on. -/
  | black
  /-- Paint as before any colour was chosen. -/
  | plain
  /-- Put the cursor at a cell. -/
  | goto (column row : Int)
  /-- Fill a cell with the present colour and go on to the next one. -/
  | block
  /-- Ring. -/
  | bell
  deriving DecidableEq, Repr

namespace Directive

def control (rest : String) : String := "\x1b[" ++ rest

def text : Directive → String
  | .alternateOn => control "?1049h"
  | .alternateOff => control "?1049l"
  | .hideCursor => control "?25l"
  | .showCursor => control "?25h"
  | .clear => control "2J"
  | .white => control "37m"
  | .black => control "30m"
  | .plain => control "0m"
  | .goto column row => control (toString row ++ ";" ++ toString column ++ "H")
  | .block => "█"
  | .bell => "\x07"

def textOf (ds : List Directive) : String := String.join (ds.map text)

end Directive

end Chip8
