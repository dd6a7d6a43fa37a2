import SerialLock.Json
import SerialLock.Yaml.Scalar

/-!
# The grammar of JSON

A relation between values and the texts that spell them, rule by rule: words, numbers with their
fraction and power of ten, texts in quotes with all their escapes, arrays and objects, with white
space wherever the grammar lets it stand.  It says nothing of how JSON is written or read here, so
that a text which it relates to one value only leaves no reader a choice.
-/

set_option autoImplicit false

namespace SerialLock.Json

/-- A value that a JSON text spells. -/
inductive Value where
  | null
  | truth (value : Bool)
  /-- The mantissa times ten to the exponent. -/
  | number (mantissa exponent : Int)
  | text (value : List Char)
  | array (items : List Value)
  | object (entries : List (List Char × Value))
  deriving Repr, Inhabited

/-- White space. -/
def isSpace (c : Char) : Bool :=
  c == ' ' || c == '\t' || c == '\n' || c == '\r'

/-- The text is white space. -/
def Spaces (text : List Char) : Prop :=
  ∀ c ∈ text, isSpace c = true

/-! ## Numbers -/

/-- Decimal digits, one at least. -/
structure Digits (digits : List Char) : Prop where
  nonempty : digits ≠ []
  decimal : ∀ c ∈ digits, c.isDigit = true

/-- The number that decimal digits spell. -/
def magnitude (digits : List Char) : Nat :=
  Nat.ofDigitChars 10 digits 0

/-- The whole part of a number: no zero stands in front of other digits. -/
inductive Whole : List Char → Prop where
  | zero : Whole ['0']
  | other {c : Char} {digits : List Char} (hdigits : Digits (c :: digits)) (hc : c ≠ '0') :
      Whole (c :: digits)

/-- The digits of a fraction, which may be missing, and how they are spelled. -/
inductive Fraction : List Char → List Char → Prop where
  | none : Fraction [] []
  | point {digits : List Char} (hdigits : Digits digits) : Fraction digits ('.' :: digits)

/-- The letters before a power of ten. -/
def isPowerMark (c : Char) : Bool :=
  c == 'e' || c == 'E'

/-- A power of ten, which may be missing, and how it is spelled. -/
inductive Power : Int → List Char → Prop where
  | none : Power 0 []
  | plain {mark : Char} {digits : List Char} (hmark : isPowerMark mark = true)
      (hdigits : Digits digits) : Power (magnitude digits) (mark :: digits)
  | plus {mark : Char} {digits : List Char} (hmark : isPowerMark mark = true)
      (hdigits : Digits digits) : Power (magnitude digits) (mark :: '+' :: digits)
  | minus {mark : Char} {digits : List Char} (hmark : isPowerMark mark = true)
      (hdigits : Digits digits) : Power (-magnitude digits) (mark :: '-' :: digits)

/-- The mantissa and the exponent of a number without a sign, and how they are spelled. -/
inductive Unsigned : Nat → Int → List Char → Prop where
  | parts {whole fraction point mark : List Char} {power : Int} (hwhole : Whole whole)
      (hfraction : Fraction fraction point) (hpower : Power power mark) :
      Unsigned (magnitude (whole ++ fraction)) (power - fraction.length) (whole ++ point ++ mark)

/-! ## Texts in quotes -/

/-- The number that four hexadecimal digits spell. -/
def codeUnit? : List Char → Option Nat
  | [a, b, c, d] => do
    return (← Yaml.hexDigit? a) * 4096 + (← Yaml.hexDigit? b) * 256 + (← Yaml.hexDigit? c) * 16
      + (← Yaml.hexDigit? d)
  | _ => none

/-- Is the number the first half of a character beyond four hexadecimal digits? -/
def isFirstHalf (n : Nat) : Bool :=
  decide (0xD800 ≤ n) && decide (n ≤ 0xDBFF)

/-- Is the number the second half of such a character? -/
def isSecondHalf (n : Nat) : Bool :=
  decide (0xDC00 ≤ n) && decide (n ≤ 0xDFFF)

/-- The character that two halves make. -/
def joined (first second : Nat) : Char :=
  Char.ofNat (0x10000 + (first - 0xD800) * 0x400 + (second - 0xDC00))

/-- What a letter after a backslash stands for. -/
def shortForm? : Char → Option Char
  | '"' => some '"'
  | '\\' => some '\\'
  | '/' => some '/'
  | 'b' => some '\x08'
  | 'f' => some '\x0c'
  | 'n' => some '\n'
  | 'r' => some '\r'
  | 't' => some '\t'
  | _ => none

/-- A character between quotes, and how it is spelled. -/
inductive Letter : Char → List Char → Prop where
  | plain {c : Char} (hcontrol : 0x20 ≤ c.toNat) (hquote : c ≠ '"') (hbackslash : c ≠ '\\') :
      Letter c [c]
  | short {mark c : Char} (hmark : shortForm? mark = some c) : Letter c ['\\', mark]
  | unit {digits : List Char} {n : Nat} (hn : codeUnit? digits = some n)
      (hfirst : isFirstHalf n = false) (hsecond : isSecondHalf n = false) :
      Letter (Char.ofNat n) ('\\' :: 'u' :: digits)
  | halves {digits digits' : List Char} {first second : Nat}
      (hn : codeUnit? digits = some first) (hn' : codeUnit? digits' = some second)
      (hfirst : isFirstHalf first = true) (hsecond : isSecondHalf second = true) :
      Letter (joined first second) ('\\' :: 'u' :: digits ++ '\\' :: 'u' :: digits')

/-- The characters between quotes, and how they are spelled. -/
inductive Letters : List Char → List Char → Prop where
  | nil : Letters [] []
  | cons {c : Char} {text spelled more : List Char} (hfirst : Letter c spelled)
      (hrest : Letters text more) : Letters (c :: text) (spelled ++ more)

/-! ## Values -/

/-- What a rule of the grammar is about. -/
inductive Part where
  | value (value : Value)
  /-- What stands between the brackets of an array. -/
  | items (items : List Value)
  /-- A name with its value. -/
  | entry (name : List Char) (value : Value)
  /-- What stands between the braces of an object. -/
  | entries (entries : List (List Char × Value))

/-- The grammar: which text spells which part. -/
inductive Spells : Part → List Char → Prop where
  | null : Spells (.value .null) ['n', 'u', 'l', 'l']
  | yes : Spells (.value (.truth true)) ['t', 'r', 'u', 'e']
  | no : Spells (.value (.truth false)) ['f', 'a', 'l', 's', 'e']
  | number {mantissa : Nat} {exponent : Int} {text : List Char}
      (hnumber : Unsigned mantissa exponent text) : Spells (.value (.number mantissa exponent)) text
  | negative {mantissa : Nat} {exponent : Int} {text : List Char}
      (hnumber : Unsigned mantissa exponent text) :
      Spells (.value (.number (-mantissa) exponent)) ('-' :: text)
  | text {value text : List Char} (hletters : Letters value text) :
      Spells (.value (.text value)) ('"' :: text ++ ['"'])
  | array {items : List Value} {text : List Char} (hitems : Spells (.items items) text) :
      Spells (.value (.array items)) ('[' :: text ++ [']'])
  | object {entries : List (List Char × Value)} {text : List Char}
      (hentries : Spells (.entries entries) text) :
      Spells (.value (.object entries)) ('\x7b' :: text ++ ['\x7d'])
  | noItem {gap : List Char} (hgap : Spaces gap) : Spells (.items []) gap
  | lastItem {item : Value} {before text after : List Char} (hbefore : Spaces before)
      (hitem : Spells (.value item) text) (hafter : Spaces after) :
      Spells (.items [item]) (before ++ text ++ after)
  | item {item next : Value} {items : List Value} {before text after more : List Char}
      (hbefore : Spaces before) (hitem : Spells (.value item) text) (hafter : Spaces after)
      (hmore : Spells (.items (next :: items)) more) :
      Spells (.items (item :: next :: items)) (before ++ text ++ after ++ ',' :: more)
  | entry {name spelled left right text : List Char} {value : Value}
      (hname : Letters name spelled) (hleft : Spaces left) (hright : Spaces right)
      (hvalue : Spells (.value value) text) :
      Spells (.entry name value) ('"' :: spelled ++ '"' :: left ++ ':' :: right ++ text)
  | noEntry {gap : List Char} (hgap : Spaces gap) : Spells (.entries []) gap
  | lastEntry {name : List Char} {value : Value} {before text after : List Char}
      (hbefore : Spaces before) (hentry : Spells (.entry name value) text)
      (hafter : Spaces after) :
      Spells (.entries [(name, value)]) (before ++ text ++ after)
  | anotherEntry {name : List Char} {value : Value} {next : List Char × Value}
      {entries : List (List Char × Value)} {before text after more : List Char}
      (hbefore : Spaces before) (hentry : Spells (.entry name value) text)
      (hafter : Spaces after) (hmore : Spells (.entries (next :: entries)) more) :
      Spells (.entries ((name, value) :: next :: entries)) (before ++ text ++ after ++ ',' :: more)

/-- The text is a JSON document: one value, with white space around it. -/
inductive Document : Value → List Char → Prop where
  | value {value : Value} {before text after : List Char} (hbefore : Spaces before)
      (hvalue : Spells (.value value) text) (hafter : Spaces after) :
      Document value (before ++ text ++ after)

end SerialLock.Json
