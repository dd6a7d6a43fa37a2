import SerialLock.Log.Basic
import SerialLock.Path
import SerialLock.Text.Blank
import SerialLock.Text.Utf8

/-!
# Which log records are shown

A filter is a list of rules, each for the topics whose names start in one way, or for all topics.
The rule with the longest name decides.  Without any rule only errors are shown.  A filter may also
ask something of the texts of records.

Rules are written `name=level` or `name` or `level`, with commas between them, and a pattern for the
texts behind a slash.  What a pattern means is not settled here (`Patterns`).
-/

set_option autoImplicit false

namespace SerialLock.Log

/-- A rule: what is shown of the topics whose names start with `name`. -/
structure Rule where
  /-- The start of the names; none for all topics. -/
  name : Option (List Char)
  /-- The greatest rank that is shown; zero for nothing. -/
  rank : Nat
  deriving DecidableEq, Repr

/-- The greatest rank of all. -/
def greatestRank : Nat := 5

/-- The text with a capital letter for each small one without an accent. -/
def upper (text : List Char) : List Char :=
  text.map Char.toUpper

/-- The rank that a level's name stands for, in capitals or not. -/
def rank? (text : List Char) : Option Nat :=
  ["OFF", "ERROR", "WARN", "INFO", "DEBUG", "TRACE"].findIdx? fun name =>
    upper text == name.toList

/-- A written rule, or the part of it that cannot be understood. -/
def rule? (text : List Char) : Except (List Char) Rule :=
  match Path.cut '=' text with
  | [name] =>
    match rank? name with
    | some rank => .ok ⟨none, rank⟩
    | none => .ok ⟨some name, greatestRank⟩
  | [name, level] =>
    let level := Text.trim level
    if level.isEmpty then .ok ⟨some name, greatestRank⟩
    else
      match rank? level with
      | some rank => .ok ⟨some name, rank⟩
      | none => .error level
  | _ => .error text

/-- The written rules, each as far as it can be understood. -/
def rulesOf (text : List Char) : List (Except (List Char) Rule) :=
  (((Path.cut ',' text).map Text.trim).filter fun part => !part.isEmpty).map rule?

/-- The rules with one more, which takes the place of an earlier one with its name. -/
def withRule (rules : List Rule) (rule : Rule) : List Rule :=
  if rules.any fun known => known.name == rule.name then
    rules.map fun known => if known.name == rule.name then rule else known
  else rules ++ [rule]

/-- A language of patterns: the texts that a pattern admits, or why it cannot be understood. -/
abbrev Patterns := List Char → Except String (String → Bool)

/-- Does `part` stand somewhere in the text? -/
def standsIn (part : List Char) : List Char → Bool
  | [] => part.isEmpty
  | c :: text => part.isPrefixOf (c :: text) || standsIn part text

/-- The language in which every pattern stands for itself: it admits the texts that it stands in. -/
def Patterns.verbatim : Patterns := fun pattern =>
  .ok fun text => standsIn pattern text.toList

/-- What is shown of the log. -/
structure Filter where
  /-- The rules, those with shorter names first. -/
  rules : List Rule
  /-- The texts of the records that may be shown. -/
  admits : String → Bool := fun _ => true

namespace Filter

/-- The length of a rule's name in bytes. -/
def weight (rule : Rule) : Nat :=
  (rule.name.map fun name => (Utf8.encode name).length).getD 0

/-- The filter with these rules. -/
def ofRules (rules : List Rule) : Filter :=
  let rules := rules.foldl withRule []
  if rules.isEmpty then { rules := [⟨none, Level.error.rank⟩] }
  else { rules := rules.mergeSort fun a b => weight a ≤ weight b }

/-- Does the rule say something about the topic? -/
def appliesTo (topic : Topic) (rule : Rule) : Bool :=
  rule.name.all fun name => name.isPrefixOf topic.name.toList

/-- Do the rules show the record's level for its topic? -/
def ranks (filter : Filter) (record : Record) : Bool :=
  match filter.rules.reverse.find? (appliesTo record.topic) with
  | some rule => record.level.rank ≤ rule.rank
  | none => false

/-- Is the record shown? -/
def shows (filter : Filter) (record : Record) : Bool :=
  filter.ranks record && filter.admits record.text

/-- The line about a part of a written filter that cannot be understood. -/
def warning (flaw : String) : String :=
  s!"warning: {flaw}, ignoring it\n"

/-- The flaw of a part of a written filter. -/
def flawOf (text : List Char) : String :=
  s!"invalid logging spec '{String.ofList text}'"

/-- The filter with these rules, or as far as they can be understood, with what has to be said about
the others. -/
def ofResults (results : List (Except (List Char) Rule)) : Filter × List String :=
  let rules := results.filterMap fun result => result.toOption
  let notes := results.filterMap fun result => match result with
    | .error part => some (warning (flawOf part))
    | .ok _ => none
  (ofRules rules, notes)

/-- The filter with a pattern that restricts it.  A pattern that cannot be understood does not. -/
def restrict (patterns : Patterns) (pattern : List Char) :
    Filter × List String → Filter × List String
  | (filter, notes) =>
    match patterns pattern with
    | .ok admits => ({ filter with admits }, notes)
    | .error reason => (filter, notes ++ [warning s!"invalid regex filter - {reason}"])

/-- The filter that a text asks for, with what has to be said about the text.  What follows a slash
restricts the records to those whose text it admits. -/
def ofText (patterns : Patterns) (text : List Char) : Filter × List String :=
  match Path.cut '/' text with
  | [rules] => ofResults (rulesOf rules)
  | [rules, pattern] => restrict patterns pattern (ofResults (rulesOf rules))
  | _ => (ofRules [], [warning (flawOf text ++ " (too many '/'s)")])

/-- The filter for a count of `-v`: warnings, then news, then everything. -/
def ofVerbosity (verbosity : Nat) : Filter :=
  ofRules [⟨none, match verbosity with
    | 0 => Level.warn.rank
    | 1 => Level.info.rank
    | _ => Level.debug.rank⟩]

/-- The filter of a run: that of the variable, if it holds a text, and that for the count of `-v`
otherwise. -/
def chosen (patterns : Patterns) (setting : Option Bytes) (verbosity : Nat) :
    Filter × List String :=
  match setting.bind Utf8.decode? with
  | some text => ofText patterns text
  | none => (ofVerbosity verbosity, [])

end Filter

end SerialLock.Log
