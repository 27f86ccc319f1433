/-!
# Places

Where a path leads, seen from the directory that work is done in: down from that directory, down from a
directory above it, or down from the root of everything.
-/

namespace Chip8

/-- Where a way down begins. -/
inductive Origin
  /-- So many directories above the one that work is done in. -/
  | above (levels : Nat)
  /-- The root of everything. -/
  | root
  deriving DecidableEq, Repr

/-- A place: an origin and the names on the way down. -/
structure Place where
  origin : Origin
  names : List String
  deriving DecidableEq, Repr

namespace Place

/-- The directory that work is done in. -/
def here : Place := ⟨.above 0, []⟩

def root : Place := ⟨.root, []⟩

def down (p : Place) (name : String) : Place := { p with names := p.names ++ [name] }

/-- The place above.  Nothing is above the root. -/
def up (p : Place) : Place :=
  match p.origin, p.names with
  | .above levels, [] => ⟨.above (levels + 1), []⟩
  | .root, [] => p
  | origin, names => ⟨origin, names.dropLast⟩

/-- Whether a way down from the same origin passes the place. -/
def leadsTo (p other : Place) : Bool := p.origin == other.origin && p.names.isPrefixOf other.names

end Place

end Chip8
