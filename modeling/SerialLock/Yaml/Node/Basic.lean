import SerialLock.Yaml.Token.Basic

/-!
# The nodes of a document

A document is a tree of scalars, sequences and mappings, and of aliases that stand for nodes that
came before.  Anchors are numbered; where several nodes have one number, an alias stands for the
last of them.
-/

set_option autoImplicit false

namespace SerialLock.Yaml

/-- A node, with the place where it starts. -/
inductive Node where
  | scalar (mark : Mark) (anchor : Option Nat) (tag : Option Bytes) (style : Style)
    (text : List Char)
  /-- Stands for the last node with the anchor `number`. -/
  | alias (mark : Mark) (number : Nat)
  | sequence (mark : Mark) (anchor : Option Nat) (items : List Node)
  | mapping (mark : Mark) (anchor : Option Nat) (entries : List (Node × Node))
  deriving Repr, Inhabited

namespace Node

/-- Where the node starts. -/
def mark : Node → Mark
  | .scalar mark .. => mark
  | .alias mark _ => mark
  | .sequence mark .. => mark
  | .mapping mark .. => mark

/-- The number of the node's anchor. -/
def anchor? : Node → Option Nat
  | .scalar _ anchor .. => anchor
  | .alias .. => none
  | .sequence _ anchor _ => anchor
  | .mapping _ anchor _ => anchor

/-- The scalar that stands where nothing is written. -/
def blank (mark : Mark) : Node :=
  .scalar mark none none .plain []

mutual

/-- The last node with the anchor `number`, in the order of the text. -/
def lastWith? (number : Nat) : Node → Option Node
  | .sequence mark anchor items =>
    (lastInItems? number items).or
      (if anchor == some number then some (.sequence mark anchor items) else none)
  | .mapping mark anchor entries =>
    (lastInEntries? number entries).or
      (if anchor == some number then some (.mapping mark anchor entries) else none)
  | node => if node.anchor? == some number then some node else none

/-- The last node with the anchor `number` among the items of a sequence. -/
def lastInItems? (number : Nat) : List Node → Option Node
  | [] => none
  | item :: rest => (lastInItems? number rest).or (lastWith? number item)

/-- The last node with the anchor `number` among the entries of a mapping. -/
def lastInEntries? (number : Nat) : List (Node × Node) → Option Node
  | [] => none
  | (key, value) :: rest =>
    (lastInEntries? number rest).or ((lastWith? number value).or (lastWith? number key))

end

end Node

/-- A document: its root, unless the text holds no document at all. -/
structure Document where
  root? : Option Node

/-- The node that an alias of `number` stands for. -/
def Document.target? (document : Document) (number : Nat) : Option Node :=
  document.root?.bind (Node.lastWith? number)

end SerialLock.Yaml
