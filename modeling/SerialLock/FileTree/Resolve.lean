import SerialLock.FileTree.Basic

/-!
# Following paths

A path is followed name by name from the root or the working directory.  `.` stays, `..` goes up,
and a symbolic link is replaced by its target; whether a link in last position is replaced too is
the caller's choice.  After forty links the search gives up.
-/

set_option autoImplicit false

namespace SerialLock

namespace Path

/-- The names to follow, one after the other.  A path that ends in a separator asks for a
directory, which is what a last `.` asks for. -/
def names (path : Path) : List Name :=
  let segments := (cut slash path).filter fun segment => !segment.isEmpty
  if !segments.isEmpty && path.getLast? == some slash then segments ++ [[dot]] else segments

end Path

namespace FileTree

/-- Where a path leads. -/
inductive Goal where
  /-- To an entry. -/
  | at (place : Place)
  /-- To no entry, in a directory that exists. -/
  | vacant (directory : Place) (name : Name)
  deriving DecidableEq, Repr

/-- How far names can be followed without replacing a link. -/
inductive Leg where
  | done (goal : Goal)
  | failed (fault : Fault)
  /-- A link stands in the way: go on with these names from this directory. -/
  | through (directory : Place) (names : List Name)
  deriving DecidableEq, Repr

/-- Where following `path` starts, from the directory `here`. -/
def start (here : Place) (path : Path) : Place :=
  if path.isAbsolute then [] else here

/-- Follows names from `here` up to the first link to be replaced. -/
def leg (tree : FileTree) (followLast : Bool) (here : Place) : List Name → Leg
  | [] => .done (.at here)
  | name :: rest =>
    match tree.entry? here with
    | some .directory =>
      if name == [Path.dot] then tree.leg followLast here rest
      else if name == [Path.dot, Path.dot] then tree.leg followLast here.dropLast rest
      else if 255 < name.length then .failed .nameTooLong
      else
        let there := here ++ [name]
        match tree.entry? there with
        | none => if rest.isEmpty then .done (.vacant here name) else .failed .missing
        | some (.link target) =>
          if rest.isEmpty && !followLast then .done (.at there)
          else .through (start here target) (target.names ++ rest)
        | some _ => tree.leg followLast there rest
    | _ => .failed .notDirectory

/-- Follows names from `here`, replacing at most `links` links. -/
def walk (tree : FileTree) (followLast : Bool) (links : Nat) (here : Place) (names : List Name) :
    Except Fault Goal :=
  match tree.leg followLast here names with
  | .done goal => .ok goal
  | .failed fault => .error fault
  | .through directory names =>
    match links with
    | 0 => .error .linkLoop
    | links + 1 => tree.walk followLast links directory names

/-- The number of links that one path may lead through. -/
def linkLimit : Nat := 40

/-- The number of bytes that a path may have. -/
def pathLimit : Nat := 4095

/-- Where a path leads. -/
def follow (tree : FileTree) (followLast : Bool) (path : Path) : Except Fault Goal :=
  if path.contains 0 then .error .zeroByte
  else if path.isEmpty then .error .missing
  else if pathLimit < path.length then .error .nameTooLong
  else tree.walk followLast linkLimit (start tree.workingDirectory path) path.names

/-- The entry that a path leads to, with its place. -/
def find (tree : FileTree) (followLast : Bool) (path : Path) : Except Fault (Place × Entry) :=
  match tree.follow followLast path with
  | .error fault => .error fault
  | .ok (.vacant ..) => .error .missing
  | .ok (.at place) =>
    match tree.entry? place with
    | some entry => .ok (place, entry)
    | none => .error .missing

/-- Does the path lead, through links, to a regular file? -/
def isFile (tree : FileTree) (path : Path) : Bool :=
  match tree.find true path with
  | .ok (_, entry) => entry.isFile
  | .error _ => false

/-- What an entry reads as. -/
def readEntry (tree : FileTree) : Entry → Except Fault Bytes
  | .file number => .ok (tree.contentsOf number)
  | .kernel contents _ => contents
  | .directory => .error .isDirectory
  | .pipe | .device | .link _ => .ok []

/-- The bytes of the file that a path leads to, through links. -/
def read (tree : FileTree) (path : Path) : Except Fault Bytes :=
  match tree.find true path with
  | .ok (_, entry) => tree.readEntry entry
  | .error fault => .error fault

end FileTree

end SerialLock
