import SerialLock.FileTree.Resolve

/-!
# Changing a tree

`remove` takes away the entry that a path names: the link itself where that is a link, and never a
directory.  The other changes build trees.
-/

set_option autoImplicit false

namespace SerialLock.FileTree

/-- Takes away the entry that a path names.  A file of the kernel refuses with its own fault, and a
directory always does.  Every other entry goes: directories that do not let go of what they hold are
not part of the tree. -/
def remove (tree : FileTree) (path : Path) : Except Fault FileTree :=
  match tree.find false path with
  | .error fault => .error fault
  | .ok (_, .directory) => .error .isDirectory
  | .ok (_, .kernel _ refusal) => .error refusal
  | .ok (place, _) => .ok (tree.erase place)

/-- Puts an entry where a path leads to no entry yet. -/
def place (tree : FileTree) (path : Path) (entry : Entry) : Except Fault FileTree :=
  match tree.follow false path with
  | .error fault => .error fault
  | .ok (.at _) => .error .occupied
  | .ok (.vacant directory name) => .ok (tree.insert (directory ++ [name]) entry)

/-- Writes a file, through links; a new one where the path leads to none. -/
def write (tree : FileTree) (path : Path) (bytes : Bytes) : Except Fault FileTree :=
  match tree.follow true path with
  | .error fault => .error fault
  | .ok (.vacant directory name) =>
    let number := tree.nextNumber
    .ok ((tree.insert (directory ++ [name]) (.file number)).rewrite number bytes)
  | .ok (.at found) =>
    match tree.entry? found with
    | some (.file number) => .ok (tree.rewrite number bytes)
    | some .directory => .error .isDirectory
    | some (.kernel ..) => .error .denied
    | _ => .ok tree

/-- Makes a symbolic link. -/
def makeLink (tree : FileTree) (path target : Path) : Except Fault FileTree :=
  tree.place path (.link target)

/-- Makes a second entry for what `target` names. -/
def makeHardLink (tree : FileTree) (path target : Path) : Except Fault FileTree :=
  match tree.find false target with
  | .error fault => .error fault
  | .ok (_, .directory) => .error .notPermitted
  | .ok (_, entry) => tree.place path entry

/-- Makes a pipe. -/
def makePipe (tree : FileTree) (path : Path) : Except Fault FileTree :=
  tree.place path .pipe

/-- Makes the directories that `segments` name below `path`, those that are missing. -/
def makeBelow (tree : FileTree) (path : Path) : List Name → Except Fault FileTree
  | [] => .ok tree
  | segment :: rest =>
    let path := path ++ segment
    match tree.follow true path with
    | .error fault => .error fault
    | .ok (.at _) => tree.makeBelow (path ++ [Path.slash]) rest
    | .ok (.vacant directory name) =>
      (tree.insert (directory ++ [name]) .directory).makeBelow (path ++ [Path.slash]) rest

/-- Makes a directory and those on the way to it. -/
def makeDirectory (tree : FileTree) (path : Path) : Except Fault FileTree :=
  let segments := (Path.cut Path.slash path).filter fun segment => !segment.isEmpty
  tree.makeBelow (if path.isAbsolute then [Path.slash] else []) segments

/-- Takes away what a path names, with all that stands below it. -/
def prune (tree : FileTree) (path : Path) : Except Fault FileTree :=
  match tree.find false path with
  | .error fault => .error fault
  | .ok (place, _) => .ok { tree with entries := tree.entries.filter fun e => !place.isPrefixOf e.1 }

/-- Is one string of bytes before another, byte by byte? -/
def bytesBefore : Bytes → Bytes → Bool
  | [], _ => true
  | _ :: _, [] => false
  | a :: as, b :: bs => a < b || (a == b && bytesBefore as bs)

/-- The path of a place from a directory above it. -/
def pathOf (names : List Name) : Path :=
  List.intercalate [Path.slash] names

/-- The entries below the working directory with their paths, in the order of the paths. -/
def listing (tree : FileTree) : List (Path × Entry) :=
  let here := tree.workingDirectory
  let below := tree.entries.filter fun e => here.isPrefixOf e.1 && here != e.1
  (below.map fun e => (pathOf (e.1.drop here.length), e.2)).mergeSort
    fun a b => bytesBefore a.1 b.1

end SerialLock.FileTree
