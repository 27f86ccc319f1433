import Chip8.Files.Path
import Chip8.Files.Place

/-!
# Files

What can go wrong with a file, access to files, and a tree of files held in memory.  The tree knows files
only: a directory is there because a file is in it, or because work is done in it or below it.
-/

namespace Chip8

/-- Why a path cannot be read or written. -/
inductive FileError
  /-- Nothing is there. -/
  | notFound
  /-- A part of the path that should be a directory is a file. -/
  | notDirectory
  /-- A directory is there. -/
  | isDirectory
  /-- The path or a part of it has too many bytes. -/
  | nameTooLong
  /-- The permission is lacking. -/
  | denied
  /-- Any other trouble, by the system's number and wording. -/
  | other (number : Nat) (wording : String)
  deriving DecidableEq, Repr

def FileError.number : FileError → Nat
  | .notFound => 2
  | .denied => 13
  | .notDirectory => 20
  | .isDirectory => 21
  | .nameTooLong => 36
  | .other number _ => number

def FileError.wording : FileError → String
  | .notFound => "No such file or directory"
  | .denied => "Permission denied"
  | .notDirectory => "Not a directory"
  | .isDirectory => "Is a directory"
  | .nameTooLong => "File name too long"
  | .other _ wording => wording

inductive FileKind
  | file
  | directory
  deriving DecidableEq, Repr

structure FileSystem (m : Type → Type) where
  kind : String → m (Except FileError FileKind)
  read : String → m (Except FileError (List UInt8))
  /-- Replaces the contents of a file or makes a new one. -/
  write : String → List UInt8 → m (Except FileError Unit)

/-- Files by their places. -/
abbrev FileTree := List (Place × List UInt8)

namespace FileTree

/-- The tree with a file for each name. -/
def ofFiles (files : List (String × List UInt8)) : FileTree :=
  files.map fun (name, bytes) => (⟨.above 0, Path.steps name⟩, bytes)

def kindAt? (t : FileTree) (place : Place) : Option FileKind :=
  if place.names = [] then some .directory
  else if (t.lookup place).isSome then some .file
  else if t.any fun (other, _) => place.leadsTo other then some .directory
  else none

/-- Follows the parts of a path from a place.  All but the last part must lead to directories. -/
def follow (t : FileTree) (place : Place) : List String → Except FileError Place
  | [] => .ok place
  | part :: rest =>
    match t.kindAt? place with
    | some .directory =>
      if part = "" ∨ part = "." then t.follow place rest
      else if part = ".." then t.follow place.up rest
      else if Path.maxPartSize < part.utf8ByteSize then .error .nameTooLong
      else t.follow (place.down part) rest
    | some .file => .error .notDirectory
    | none => .error .notFound

def place (t : FileTree) (path : String) : Except FileError Place :=
  if path = "" ∨ path.toList.contains '\x00' then .error .notFound
  else if Path.maxSize < path.utf8ByteSize then .error .nameTooLong
  else t.follow (if path.startsWith "/" then .root else .here) (Path.parts path)

def kind (t : FileTree) (path : String) : Except FileError FileKind :=
  match t.place path with
  | .error e => .error e
  | .ok place =>
    match t.kindAt? place with
    | some kind => .ok kind
    | none => .error .notFound

def read (t : FileTree) (path : String) : Except FileError (List UInt8) :=
  match t.place path with
  | .error e => .error e
  | .ok place =>
    match t.kindAt? place, t.lookup place with
    | some .file, some bytes => .ok bytes
    | some .directory, _ => .error .isDirectory
    | _, _ => .error .notFound

/-- The tree in which a file has other contents.  Its directory must be there already. -/
def write (t : FileTree) (path : String) (bytes : List UInt8) : Except FileError FileTree :=
  match t.place path with
  | .error e => .error e
  | .ok place =>
    match t.kindAt? place with
    | some .directory => .error .isDirectory
    | some .file => .ok (t.map fun (other, old) => (other, if other = place then bytes else old))
    | none => .ok (t ++ [(place, bytes)])

end FileTree

end Chip8
