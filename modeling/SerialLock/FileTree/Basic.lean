import SerialLock.Path
import SerialLock.Fault.Basic

/-!
# A tree of files

Directories, files, symbolic links and pipes, each at its place below the root.  A place is the list
of names that leads to it, so every directory has exactly one place, while a file may stand at
several: the entry holds a number, and the contents are kept under that number (two entries with one
number are hard links).  Taking an entry away touches neither contents nor other entries.
-/

set_option autoImplicit false

namespace SerialLock

/-- The name of an entry in its directory. -/
abbrev Name := Bytes

/-- The names from the root down to an entry. -/
abbrev Place := List Name

/-- What stands at a place. -/
inductive Entry where
  | directory
  /-- A regular file, whose contents are kept under the number. -/
  | file (number : Nat)
  /-- A symbolic link. -/
  | link (target : Path)
  | pipe
  /-- A device, which reads as empty. -/
  | device
  /-- A regular file that the kernel provides: it reads as `contents` and cannot be removed. -/
  | kernel (contents : Except Fault Bytes) (refusal : Fault)

/-- The entry is a regular file. -/
def Entry.isFile : Entry → Bool
  | .file _ => true
  | .kernel .. => true
  | _ => false

/-- A tree of files, with the directory that relative paths start from. -/
structure FileTree where
  entries : List (Place × Entry)
  contents : List (Nat × Bytes)
  workingDirectory : Place

namespace FileTree

/-- The entry at a place; the root is a directory. -/
def entry? (tree : FileTree) (place : Place) : Option Entry :=
  if place.isEmpty then some .directory else tree.entries.lookup place

/-- The bytes of the file with a number. -/
def contentsOf (tree : FileTree) (number : Nat) : Bytes :=
  (tree.contents.lookup number).getD []

/-- The number for the next new file. -/
def nextNumber (tree : FileTree) : Nat :=
  tree.contents.foldl (fun next kept => max next (kept.1 + 1)) 0

/-- The tree without the entry at `place`. -/
def erase (tree : FileTree) (place : Place) : FileTree :=
  { tree with entries := tree.entries.filter fun e => e.1 != place }

/-- The tree with `entry` at `place`. -/
def insert (tree : FileTree) (place : Place) (entry : Entry) : FileTree :=
  { tree with entries := (tree.erase place).entries ++ [(place, entry)] }

/-- The tree with other contents for the file with a number. -/
def rewrite (tree : FileTree) (number : Nat) (bytes : Bytes) : FileTree :=
  { tree with contents := (number, bytes) :: tree.contents.filter fun kept => kept.1 != number }

end FileTree

end SerialLock
