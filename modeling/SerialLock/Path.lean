import SerialLock.Text.Utf8

/-!
# Paths

A path is a string of bytes (a device name a string of characters) cut into segments at `'/'`.
Empty segments name nothing of their own, and neither does a `.`, except at the start of a path.
What else there is are the components of the path, and the name of a file is the last of them,
unless that is the root, a `.` or `..`.  It is looked for from the end.
-/

set_option autoImplicit false

namespace SerialLock

/-- A path as the system takes it. -/
abbrev Path := Bytes

namespace Path

/-- The pieces of a list between the occurrences of `separator`; one more than there are
occurrences. -/
def cut {α : Type} [BEq α] (separator : α) : List α → List (List α)
  | [] => [[]]
  | a :: rest =>
    if a == separator then [] :: cut separator rest
    else
      match cut separator rest with
      | [] => [[a]]
      | first :: others => (a :: first) :: others

/-- The separator, as a byte. -/
def slash : UInt8 := 0x2F

/-- The full stop, as a byte. -/
def dot : UInt8 := 0x2E

/-- Does the path start at the root? -/
def isAbsolute (path : Path) : Bool :=
  path.head? == some slash

/-- The path of the entry `name` of the directory `directory`: one separator stands between them,
and an absolute `name` stands alone. -/
def join (directory name : Path) : Path :=
  if isAbsolute name then name
  else if directory.isEmpty || directory.getLast? == some slash then directory ++ name
  else directory ++ slash :: name

/-- A component of a path.  A `.` is one at the start of a path only. -/
inductive Component where
  | root
  | here
  | up
  | name (segment : List Char)
  deriving DecidableEq, Repr

/-- The component that a segment behind the start of a path stands for, if any. -/
def Component.ofSegment? (segment : List Char) : Option Component :=
  match segment with
  | [] => none
  | ['.'] => none
  | ['.', '.'] => some .up
  | _ => some (.name segment)

/-- The name that a component is, if it is one. -/
def Component.name? : Component → Option (List Char)
  | .name segment => some segment
  | _ => none

/-- The last component of what remains of a path, which is given from its end.  `segment` is what
has been passed since the last separator. -/
def walkBack (segment : List Char) : List Char → Option Component
  | [] => Component.ofSegment? segment
  | c :: before =>
    if c = '/' then
      match Component.ofSegment? segment with
      | some component => some component
      | none => walkBack [] before
    else walkBack (c :: segment) before

/-- The component at the start of a path that stands for no segment behind it: the root, or a `.`
that is the whole path or stands before a separator. -/
def start? : List Char → Option Component
  | '/' :: _ => some .root
  | ['.'] => some .here
  | '.' :: '/' :: _ => some .here
  | _ => none

/-- The last component of a path, looked for in what follows its start first. -/
def lastComponent? (text : List Char) : Option Component :=
  match start? text with
  | some start => (walkBack [] (text.drop 1).reverse).or (some start)
  | none => walkBack [] text.reverse

/-- The name of what the path leads to: its last component, if that is a name. -/
def fileName? (text : List Char) : Option (List Char) :=
  (lastComponent? text).bind Component.name?

end Path

end SerialLock
