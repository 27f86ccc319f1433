/-!
# Paths

A path is a text with parts between slashes.  Empty parts and the part `.` say nothing, and its plain
text is without them.  Systems refuse a path or a part of it that is too long, and one with a zero
character in it.
-/

namespace Chip8.Path

/-- The most bytes of a path. -/
def maxSize : Nat := 4095

def maxPartSize : Nat := 255

/-- The parts of a path, the ones that say nothing included. -/
def parts (path : String) : List String := path.splitOn "/"

/-- The parts that lead somewhere. -/
def steps (path : String) : List String := (parts path).filter fun s => s ≠ "" && s ≠ "."

/-- The slashes that a path keeps in front: one, and two if there are exactly two. -/
def root (path : String) : String :=
  let slashes := (path.toList.takeWhile (· == '/')).length
  if slashes = 0 then "" else if slashes = 2 then "//" else "/"

/-- The text without the parts that say nothing; nowhere else is `.`. -/
def plain (path : String) : String :=
  let text := root path ++ String.intercalate "/" (steps path)
  if text.isEmpty then "." else text

/-- The last part, empty if the path leads nowhere else. -/
def name (path : String) : String := (steps path).getLast?.getD ""

end Chip8.Path
