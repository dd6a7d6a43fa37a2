import SerialLock.Settings.Basic
import SerialLock.Text.Blank
import SerialLock.Text.Quoted
import SerialLock.Yaml.Node.Read
import SerialLock.Yaml.Value

/-!
# Settings from a document

The document is a mapping with the settings by name; those that it does not mention have their usual
values, and other names are passed over.  A text may be written as any scalar, whatever it would
mean by itself, while a truth value has to be one.
-/

set_option autoImplicit false

namespace SerialLock.Settings

open Yaml

/-- What a document may hold where something else is expected. -/
inductive Found where
  | value (value : Value)
  | sequence
  | mapping
  deriving DecidableEq, Repr

/-- What is expected somewhere in a document. -/
inductive Expected where
  | settings
  | name
  | text
  | boolean
  | integer
  | real
  | null
  deriving DecidableEq, Repr

/-- Why a document does not hold settings. -/
inductive Complaint where
  /-- Something else than what is expected. -/
  | unexpected (found : Found) (expected : Expected)
  /-- A scalar that its own tag does not fit. -/
  | unfitting (text : List Char) (expected : Expected)
  /-- A name that comes twice. -/
  | repeated (name : String)
  deriving DecidableEq, Repr

/-- A complaint, with the setting that it is about and the place in the document. -/
structure Mismatch where
  complaint : Complaint
  setting : Option String
  mark : Mark
  deriving DecidableEq, Repr

/-- A number of at most 128 bits; one that needs more than 64 is marked. -/
def integerText (n : Int) : String :=
  let width :=
    if 0x10000000000000000 ≤ n then " as u128"
    else if n < -0x8000000000000000 then " as i128"
    else ""
  s!"integer `{n}`" ++ width

/-- How a message names what was found. -/
def Found.message : Found → String
  | .sequence => "sequence"
  | .mapping => "map"
  | .value .null => "unit value"
  | .value (.boolean b) => s!"boolean `{b}`"
  | .value (.integer n) => integerText n
  | .value (.real x) => s!"floating point `{String.ofList x.text}`"
  | .value (.infinite true) => "floating point `-inf`"
  | .value (.infinite false) => "floating point `inf`"
  | .value .notANumber => "floating point `NaN`"
  | .value (.text text) => s!"string {String.ofList (Text.quoted text)}"

/-- How a message names what was expected. -/
def Expected.message : Expected → String
  | .settings => "struct Config"
  | .name => "field identifier"
  | .text => "a string"
  | .boolean => "a boolean"
  | .integer => "an integer"
  | .real => "a float"
  | .null => "null"

/-- What a message says about a complaint. -/
def Complaint.message : Complaint → String
  | .unexpected found expected => s!"invalid type: {found.message}, expected {expected.message}"
  | .unfitting text expected =>
    s!"invalid value: string {String.ofList (Text.quoted text)}, expected {expected.message}"
  | .repeated name => s!"duplicate field `{name}`"

/-- What a message says about a mismatch.  The very start of a text is not mentioned as a place. -/
def Mismatch.message (mismatch : Mismatch) : String :=
  let setting := match mismatch.setting with
    | some name => name ++ ": "
    | none => ""
  let mark := mismatch.mark
  let place := if mark.line == 0 && mark.column == 0 then ""
    else s!" at line {mark.line + 1} column {mark.column + 1}"
  setting ++ mismatch.complaint.message ++ place

/-- A tag of the YAML repository. -/
def coreTag (name : String) : Bytes :=
  Utf8.ofString ("tag:yaml.org,2002:" ++ name)

/-- The complaint about a scalar where something else is expected: what it means depends on its tag
and on how it is written. -/
def scalarComplaint (tag : Option Bytes) (style : Style) (text : List Char) (expected : Expected) :
    Complaint :=
  let means (value : Value) : Complaint := .unexpected (.value value) expected
  let meansSome (value? : Option Value) (kind : Expected) : Complaint :=
    (value?.map means).getD (.unfitting text kind)
  let untagged := if style == .plain then means (.ofPlain text) else means (.text text)
  match tag with
  | none => untagged
  | some tag =>
    if tag == coreTag "bool" then meansSome ((boolean? text).map .boolean) .boolean
    else if tag == coreTag "int" then meansSome ((integer? text).map .integer) .integer
    else if tag == coreTag "float" then meansSome (real? text) .real
    else if tag == coreTag "null" then meansSome (if isNull text then some .null else none) .null
    else if tag.head? == some 0x21 then untagged
    else means (.text text)

/-- The complaint about a node where something else is expected. -/
def complaint (node : Node) (expected : Expected) : Complaint :=
  match node with
  | .scalar _ _ tag style text => scalarComplaint tag style text expected
  | .sequence .. => .unexpected .sequence expected
  | .mapping .. => .unexpected .mapping expected
  | .alias .. => .unexpected (.value .null) expected

/-- The node itself, or the one that it stands for. -/
def aliased (document : Document) (node : Node) : Node :=
  match node with
  | .alias _ number => (document.target? number).getD node
  | node => node

/-- The text of a scalar; `expected` tells what it is for. -/
def textOf (document : Document) (setting : Option String) (expected : Expected) (node : Node) :
    Except Mismatch String :=
  match aliased document node with
  | .scalar _ _ _ _ text => .ok (String.ofList text)
  | node => .error ⟨complaint node expected, setting, node.mark⟩

/-- May a scalar with this tag, written like this, be a truth value? -/
def mayBeBoolean (tag : Option Bytes) (style : Style) : Bool :=
  style == .plain || (style == .literal && tag == some (coreTag "bool"))

/-- The truth value of a scalar. -/
def booleanOf (document : Document) (setting : Option String) (node : Node) :
    Except Mismatch Bool :=
  let node := aliased document node
  let refused := .error ⟨complaint node .boolean, setting, node.mark⟩
  match node with
  | .scalar _ _ tag style text =>
    if mayBeBoolean tag style then ((boolean? text).map .ok).getD refused else refused
  | _ => refused

/-- The settings that a document mentions. -/
structure Mentioned where
  lockDirectory : Option String := none
  lockPrefix : Option String := none
  checkLiveness : Option Bool := none
  deriving DecidableEq, Repr

/-- The settings, with the usual values for those not mentioned. -/
def Mentioned.complete (mentioned : Mentioned) : Settings :=
  let usual : Settings := {}
  { lockDirectory := mentioned.lockDirectory.getD usual.lockDirectory
    lockPrefix := mentioned.lockPrefix.getD usual.lockPrefix
    checkLiveness := mentioned.checkLiveness.getD usual.checkLiveness }

/-- The name of a setting in messages: its key, or a question mark where that is an alias. -/
def settingName (key : Node) (name : String) : String :=
  match key with
  | .alias .. => "?"
  | _ => name

/-- The settings mentioned after one more entry of the mapping that starts at `root`. -/
def Mentioned.add (document : Document) (root : Mark) (mentioned : Mentioned) (key value : Node) :
    Except Mismatch Mentioned := do
  let name ← textOf document none .name key
  let setting := some (settingName key name)
  let repeated : Except Mismatch Mentioned := .error ⟨.repeated name, none, root⟩
  if name == "lock_dir" then
    if mentioned.lockDirectory.isSome then repeated
    else return { mentioned with lockDirectory := some (← textOf document setting .text value) }
  else if name == "lock_prefix" then
    if mentioned.lockPrefix.isSome then repeated
    else return { mentioned with lockPrefix := some (← textOf document setting .text value) }
  else if name == "check_liveness" then
    if mentioned.checkLiveness.isSome then repeated
    else return { mentioned with checkLiveness := some (← booleanOf document setting value) }
  else return mentioned

/-- The settings mentioned after more entries. -/
def Mentioned.addAll (document : Document) (root : Mark) (mentioned : Mentioned) :
    List (Node × Node) → Except Mismatch Mentioned
  | [] => .ok mentioned
  | (key, value) :: rest => do
    (← mentioned.add document root key value).addAll document root rest

/-- The settings in a document. -/
def ofDocument (document : Document) : Except Mismatch Settings :=
  match document.root? with
  | none => .ok {}
  | some (.mapping mark _ entries) =>
    (Mentioned.addAll document mark {} entries).map Mentioned.complete
  | some (.scalar _ _ _ .plain []) => .ok {}
  | some root => .error ⟨complaint root .settings, none, root.mark⟩

/-- Why a text does not hold settings. -/
inductive Unreadable where
  /-- It is no document. -/
  | malformed (reason : Malformed)
  /-- It is a document with something else in it. -/
  | mismatched (mismatch : Mismatch)
  deriving DecidableEq, Repr

/-- The settings in a text, which may be blank. -/
def ofText? (text : List Char) : Except Unreadable Settings :=
  if (Text.trim text).isEmpty then .ok {}
  else
    match Document.ofText text with
    | .error reason => .error (.malformed reason)
    | .ok document =>
      match ofDocument document with
      | .error mismatch => .error (.mismatched mismatch)
      | .ok settings => .ok settings

end SerialLock.Settings
