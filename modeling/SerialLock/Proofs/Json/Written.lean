import SerialLock.Proofs.Json.Grammar
import SerialLock.Proofs.Pid.Contents

/-!
# What is written is JSON

Both written forms of a value, the one in one line and the one over several lines, are derived by
the grammar (`document_compact`, `document_spread`).  The induction goes over the value; what
changes from one form to the other is the white space, which the grammar lets stand around each
item and each entry.
-/

set_option autoImplicit false

namespace SerialLock.Json

mutual

/-- The value as the grammar knows it. -/
def value : Json → Value
  | .null => .null
  | .number n => .number n 0
  | .text characters => .text characters
  | .array items => .array (values items)
  | .object entries => .object (entryValues entries)

/-- The values of several items. -/
def values : List Json → List Value
  | [] => []
  | item :: rest => item.value :: values rest

/-- The values of several entries. -/
def entryValues : List (List Char × Json) → List (List Char × Value)
  | [] => []
  | (name, item) :: rest => (name, item.value) :: entryValues rest

end

/-- The values of items are those of each of them. -/
theorem values_eq_map (items : List Json) : values items = items.map value := by
  induction items with
  | nil => rfl
  | cons item rest ih => rw [values, ih, List.map_cons]

/-! ## Texts -/

/-- A control character is spelled by its number. -/
theorem letter_control {c : Char} (hcontrol : c.toNat < 0x20) :
    Letter c
      ['\\', 'u', '0', '0', Text.hexDigit (c.toNat / 16), Text.hexDigit (c.toNat % 16)] := by
  have hdigit {d : Nat} (hd : d < 16) : Yaml.hexDigit? (Text.hexDigit d) = some d := by
    have hall : ∀ d : Fin 16, Yaml.hexDigit? (Text.hexDigit d.val) = some d.val := by decide
    exact hall ⟨d, hd⟩
  have hzero : Yaml.hexDigit? '0' = some 0 := by decide
  have hcode : codeUnit? ['0', '0', Text.hexDigit (c.toNat / 16), Text.hexDigit (c.toNat % 16)] =
      some c.toNat := by
    simp only [codeUnit?, hzero, hdigit (show c.toNat / 16 < 16 by omega),
      hdigit (show c.toNat % 16 < 16 by omega)]
    simp
    omega
  have hfirst : isFirstHalf c.toNat = false := by
    simp only [isFirstHalf, Bool.and_eq_false_iff, decide_eq_false_iff_not]
    omega
  have hsecond : isSecondHalf c.toNat = false := by
    simp only [isSecondHalf, Bool.and_eq_false_iff, decide_eq_false_iff_not]
    omega
  have hletter := Letter.unit hcode hfirst hsecond
  rwa [Char.ofNat_toNat] at hletter

/-- Every character is spelled by what is written for it. -/
theorem letter_escapedChar (c : Char) : Letter c (escapedChar c) := by
  unfold escapedChar
  split
  · exact .short rfl
  · exact .short rfl
  · exact .short rfl
  · exact .short rfl
  · exact .short rfl
  · exact .short rfl
  · exact .short rfl
  · rename_i hquote hbackslash _ _ _ _ _
    split
    · rename_i hcontrol
      exact letter_control hcontrol
    · rename_i hcontrol
      exact .plain (by omega) hquote hbackslash

/-- Every text is spelled by what is written for its characters. -/
theorem letters_flatMap (text : List Char) : Letters text (text.flatMap escapedChar) := by
  induction text with
  | nil => exact .nil
  | cons c text ih => exact .cons (letter_escapedChar c) ih

/-- A text in quotes spells that text. -/
theorem spells_quotedText (text : List Char) : Spells (.value (.text text)) (quotedText text) :=
  .text (letters_flatMap text)

/-! ## Numbers -/

/-- The digits of a number are digits, one at least. -/
theorem digits_toDigits (n : Nat) : Digits (Nat.toDigits 10 n) :=
  ⟨List.ne_nil_of_length_pos Nat.length_toDigits_pos,
    fun _ hc => Nat.isDigit_of_mem_toDigits (by decide) (by decide) hc⟩

/-- No zero stands in front of the digits of a number. -/
theorem exists_toDigits_eq {n : Nat} (hn : 0 < n) :
    ∃ c digits, Nat.toDigits 10 n = c :: digits ∧ c ≠ '0' := by
  induction n using Nat.strongRecOn with
  | ind n ih =>
      by_cases hsmall : n < 10
      · rw [Nat.toDigits_of_lt_base hsmall]
        have hall : ∀ d : Fin 10, 0 < d.val → Nat.digitChar d.val ≠ '0' := by decide
        exact ⟨_, [], rfl, hall ⟨n, hsmall⟩ hn⟩
      · obtain ⟨c, digits, hdigits, hc⟩ := ih (n / 10) (by omega) (by omega)
        rw [Nat.toDigits_of_base_le (by decide) (by omega), hdigits]
        exact ⟨c, _, rfl, hc⟩

/-- The digits of a number may stand as its whole part. -/
theorem whole_toDigits (n : Nat) : Whole (Nat.toDigits 10 n) := by
  cases n with
  | zero => exact .zero
  | succ n =>
      obtain ⟨c, digits, hdigits, hc⟩ := exists_toDigits_eq (Nat.succ_pos n)
      have hall := digits_toDigits (n + 1)
      rw [hdigits] at hall ⊢
      exact .other hall hc

/-- The digits of a number spell it without a fraction and without a power. -/
theorem unsigned_toDigits (n : Nat) : Unsigned n 0 (Nat.toDigits 10 n) := by
  have hparts := Unsigned.parts (whole_toDigits n) .none .none
  have hmagnitude : magnitude (Nat.toDigits 10 n) = n := Nat.ofDigitChars_ten_toDigits
  simpa [hmagnitude] using hparts

/-- A whole number, with its sign, is spelled by what is written for it. -/
theorem spells_numberText (n : Int) : Spells (.value (.number n 0)) (numberText n) := by
  unfold numberText
  rw [Int.toString_eq_repr, Int.repr_eq_if]
  split
  · rename_i hnonnegative
    have hspells := Spells.number (unsigned_toDigits n.toNat)
    have hvalue : ((n.toNat : Nat) : Int) = n := by omega
    rw [hvalue] at hspells
    simpa [Nat.toList_repr] using hspells
  · rename_i hnegative
    have hspells := Spells.negative (unsigned_toDigits (-n).toNat)
    have hvalue : -(((-n).toNat : Nat) : Int) = n := by omega
    rw [hvalue] at hspells
    simpa [String.toList_append, Nat.toList_repr] using hspells

/-- White space that is nothing. -/
theorem spaces_nil : Spaces [] := by
  intro c hc
  cases hc

/-- A blank is white space. -/
theorem spaces_blank : Spaces [' '] := by
  simp [Spaces, isSpace]

/-- A line break with its indentation is white space. -/
theorem spaces_newLine (level : Nat) : Spaces (newLine level) := by
  intro c hc
  rcases List.mem_cons.mp hc with rfl | hc
  · decide
  · rw [List.eq_of_mem_replicate hc]
    decide

/-! ## One line -/

mutual

/-- A value is spelled by what is written for it on one line. -/
theorem spells_compact : (json : Json) → Spells (.value json.value) json.compact
  | .null => .null
  | .number n => spells_numberText n
  | .text characters => spells_quotedText characters
  | .array items => by
      rw [value, compact]
      exact .array (spells_compactItems items)
  | .object entries => by
      rw [value, compact]
      exact .object (spells_compactEntries entries)

/-- The items of an array are spelled by what is written for them on one line. -/
theorem spells_compactItems :
    (items : List Json) → Spells (.items (values items)) (compactItems true items)
  | [] => .noItem spaces_nil
  | [item] => by
      simpa [values, compactItems] using Spells.lastItem spaces_nil (spells_compact item) spaces_nil
  | item :: next :: rest => by
      have hmore := spells_compactItems (next :: rest)
      simpa [values, compactItems] using
        Spells.item spaces_nil (spells_compact item) spaces_nil hmore

/-- The entries of an object are spelled by what is written for them on one line. -/
theorem spells_compactEntries :
    (entries : List (List Char × Json)) →
      Spells (.entries (entryValues entries)) (compactEntries true entries)
  | [] => .noEntry spaces_nil
  | [(name, item)] => by
      have hentry := Spells.entry (letters_flatMap name) spaces_nil spaces_nil (spells_compact item)
      simpa [entryValues, compactEntries, quotedText] using
        Spells.lastEntry spaces_nil hentry spaces_nil
  | (name, item) :: next :: rest => by
      have hentry := Spells.entry (letters_flatMap name) spaces_nil spaces_nil (spells_compact item)
      have hmore := spells_compactEntries (next :: rest)
      simpa [entryValues, compactEntries, quotedText] using
        Spells.anotherEntry spaces_nil hentry spaces_nil hmore

end

/-! ## Several lines -/

mutual

/-- A value is spelled by what is written for it over several lines, at any level. -/
theorem spells_spread :
    (level : Nat) → (json : Json) → Spells (.value json.value) (json.spread level)
  | _, .null => .null
  | _, .number n => spells_numberText n
  | _, .text characters => spells_quotedText characters
  | _, .array [] => .array (.noItem spaces_nil)
  | level, .array (item :: rest) => by
      have hitems := spells_spreadItems (level + 1) (item :: rest) (List.cons_ne_nil _ _)
        (spaces_newLine level)
      simpa [value, spread] using Spells.array hitems
  | _, .object [] => .object (.noEntry spaces_nil)
  | level, .object (entry :: rest) => by
      have hentries := spells_spreadEntries (level + 1) (entry :: rest) (List.cons_ne_nil _ _)
        (spaces_newLine level)
      simpa [value, spread] using Spells.object hentries

/-- The items of an array that has some are spelled by what is written for them over several
lines. -/
theorem spells_spreadItems : (level : Nat) → (items : List Json) → items ≠ [] →
    {gap : List Char} → Spaces gap →
      Spells (.items (values items)) (spreadItems level true items ++ gap)
  | _, [], hne, _, _ => absurd rfl hne
  | level, [item], _, _, hgap => by
      have hitem := spells_spread level item
      simpa [values, spreadItems] using Spells.lastItem (spaces_newLine level) hitem hgap
  | level, item :: next :: rest, _, _, hgap => by
      have hitem := spells_spread level item
      have hmore := spells_spreadItems level (next :: rest) (List.cons_ne_nil _ _) hgap
      simpa [values, spreadItems] using
        Spells.item (spaces_newLine level) hitem spaces_nil hmore

/-- The entries of an object that has some are spelled by what is written for them over several
lines. -/
theorem spells_spreadEntries : (level : Nat) → (entries : List (List Char × Json)) →
    entries ≠ [] → {gap : List Char} → Spaces gap →
      Spells (.entries (entryValues entries)) (spreadEntries level true entries ++ gap)
  | _, [], hne, _, _ => absurd rfl hne
  | level, [(name, item)], _, _, hgap => by
      have hentry := Spells.entry (letters_flatMap name) spaces_nil spaces_blank
        (spells_spread level item)
      simpa [entryValues, spreadEntries, quotedText] using
        Spells.lastEntry (spaces_newLine level) hentry hgap
  | level, (name, item) :: next :: rest, _, _, hgap => by
      have hentry := Spells.entry (letters_flatMap name) spaces_nil spaces_blank
        (spells_spread level item)
      have hmore := spells_spreadEntries level (next :: rest) (List.cons_ne_nil _ _) hgap
      simpa [entryValues, spreadEntries, quotedText] using
        Spells.anotherEntry (spaces_newLine level) hentry spaces_nil hmore

end

/-! ## Documents -/

/-- The line that a value is written in is a document. -/
theorem document_compact (json : Json) : Document json.value json.compact := by
  simpa using Document.value spaces_nil (spells_compact json) spaces_nil

/-- The lines that a value is written over are a document, also with a line end behind them. -/
theorem document_spread (json : Json) : Document json.value (json.spread 0 ++ ['\n']) := by
  have hend : Spaces ['\n'] := by simp [Spaces, isSpace]
  simpa using Document.value spaces_nil (spells_spread 0 json) hend

end SerialLock.Json
