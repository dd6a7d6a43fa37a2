import SerialLock.Pid

/-!
# Which texts name a process

A numeral is an optional sign and at least one decimal digit; its value is an integer of any size.
A lock file is read as the value of a numeral, kept within 64 bits.  Reading stops where the value
leaves that range, so that a text is accepted if it is a numeral, or if it starts with one whose
value is out of range, whatever follows (`ofText?_eq_some_iff`).

Reading upwards and reading downwards are one recursion with two bounds (`readWithin`).
-/

set_option autoImplicit false

namespace SerialLock.Pid

/-- The sign of a numeral. -/
inductive Sign where
  | none
  | plus
  | minus
  deriving DecidableEq, Repr

/-- The characters of a sign. -/
def Sign.text : Sign → List Char
  | .none => []
  | .plus => ['+']
  | .minus => ['-']

/-- A decimal numeral; zeros may stand in front. -/
structure Numeral where
  sign : Sign
  digits : List Char
  nonempty : digits ≠ []
  decimal : ∀ c ∈ digits, c.isDigit = true

namespace Numeral

/-- The characters of a numeral. -/
def text (numeral : Numeral) : List Char :=
  numeral.sign.text ++ numeral.digits

/-- The number that the digits spell. -/
def magnitude (numeral : Numeral) : Nat :=
  Nat.ofDigitChars 10 numeral.digits 0

/-- The number that the numeral spells. -/
def value (numeral : Numeral) : Int :=
  match numeral.sign with
  | .minus => -(numeral.magnitude : Int)
  | _ => numeral.magnitude

end Numeral

/-- The number of 64 bits nearest to a number. -/
def clamp (z : Int) : Int :=
  max least (min greatest z)

/-- A number that does not fit in 64 bits. -/
def Exceeds (z : Int) : Prop :=
  z < least ∨ greatest < z

/-- The nearest number of 64 bits is not below the least one. -/
theorem least_le_clamp (z : Int) : least ≤ clamp z := by
  unfold clamp
  omega

/-- The nearest number of 64 bits is not above the greatest one. -/
theorem clamp_le_greatest (z : Int) : clamp z ≤ greatest := by
  unfold clamp least greatest
  omega

/-- The nearest number of 64 bits is the number itself where that fits. -/
theorem clamp_of_mem {z : Int} (hleast : least ≤ z) (hgreatest : z ≤ greatest) : clamp z = z := by
  unfold clamp
  omega

/-! ## Reading digits -/

/-- A digit has its distance from zero, and no other character has any. -/
theorem digit?_eq (c : Char) :
    digit? c = if c.isDigit then some (c.toNat - '0'.toNat) else none := rfl

/-- Reads digits after those that amount to `value`, up to a bound. -/
def readWithin (bound value : Nat) : List Char → Option Nat
  | [] => some value
  | c :: rest =>
    match digit? c with
    | none => none
    | some d =>
      if bound < value * 10 + d then some bound else readWithin bound (value * 10 + d) rest

/-- Reading upwards is reading within the greatest number of 64 bits. -/
theorem readUp_eq (value : Nat) (text : List Char) :
    readUp value text = (readWithin greatest.toNat value text).map fun n : Nat => (n : Int) := by
  induction text generalizing value with
  | nil => rfl
  | cons c text ih =>
      simp only [readUp, readWithin]
      cases digit? c with
      | none => rfl
      | some d =>
          have hnext : (value : Int) * 10 + d = ((value * 10 + d : Nat) : Int) := by omega
          simp only [hnext]
          by_cases hover : greatest.toNat < value * 10 + d
          · have hgreatest : ((value * 10 + d : Nat) : Int) > greatest := by
              unfold greatest at hover ⊢
              omega
            rw [if_pos hgreatest, if_pos hover]
            rfl
          · have hgreatest : ¬((value * 10 + d : Nat) : Int) > greatest := by
              unfold greatest at hover ⊢
              omega
            rw [if_neg hgreatest, if_neg hover, ih]

/-- Reading downwards is reading within the magnitude of the least number of 64 bits. -/
theorem readDown_eq (value : Nat) (text : List Char) :
    readDown (-(value : Int)) text =
      (readWithin least.natAbs value text).map fun n : Nat => -(n : Int) := by
  induction text generalizing value with
  | nil => rfl
  | cons c text ih =>
      simp only [readDown, readWithin]
      cases digit? c with
      | none => rfl
      | some d =>
          have hnext : -(value : Int) * 10 - d = -((value * 10 + d : Nat) : Int) := by omega
          simp only [hnext]
          by_cases hover : least.natAbs < value * 10 + d
          · have hleast : -((value * 10 + d : Nat) : Int) < least := by
              unfold least at hover ⊢
              omega
            rw [if_pos hleast, if_pos hover]
            rfl
          · have hleast : ¬-((value * 10 + d : Nat) : Int) < least := by
              unfold least at hover ⊢
              omega
            rw [if_neg hleast, if_neg hover, ih]

/-- More digits do not make a number smaller. -/
theorem le_ofDigitChars (digits : List Char) (value : Nat) :
    value ≤ Nat.ofDigitChars 10 digits value := by
  induction digits generalizing value with
  | nil => simp
  | cons c digits ih =>
      rw [Nat.ofDigitChars_cons]
      have hrest := ih (10 * value + (c.toNat - '0'.toNat))
      omega

/-- Reading yields the value of the digits, or the bound once they exceed it. -/
theorem readWithin_digits {bound value : Nat} {digits : List Char} (rest : List Char)
    (hvalue : value ≤ bound) (hdecimal : ∀ c ∈ digits, c.isDigit = true)
    (hrest : rest = [] ∨ bound < Nat.ofDigitChars 10 digits value) :
    readWithin bound value (digits ++ rest) =
      some (min bound (Nat.ofDigitChars 10 digits value)) := by
  induction digits generalizing value with
  | nil =>
      rw [Nat.ofDigitChars_nil] at hrest ⊢
      obtain rfl : rest = [] := hrest.resolve_right (by omega)
      rw [Nat.min_eq_right hvalue]
      rfl
  | cons c digits ih =>
      have hdigit : digit? c = some (c.toNat - '0'.toNat) := by
        rw [digit?_eq, if_pos (hdecimal c (by simp))]
      have hnext : 10 * value + (c.toNat - '0'.toNat) = value * 10 + (c.toNat - '0'.toNat) := by
        omega
      rw [Nat.ofDigitChars_cons, hnext] at hrest ⊢
      rw [List.cons_append, readWithin, hdigit]
      simp only
      by_cases hover : bound < value * 10 + (c.toNat - '0'.toNat)
      · have hmore := le_ofDigitChars digits (value * 10 + (c.toNat - '0'.toNat))
        rw [if_pos hover, Nat.min_eq_left (by omega)]
      · rw [if_neg hover]
        exact ih (by omega) (fun c' hc' => hdecimal c' (by simp [hc'])) hrest

/-- What can be read consists of digits, up to where they exceed the bound. -/
theorem exists_digits_of_readWithin {bound value n : Nat} {text : List Char}
    (hvalue : value ≤ bound) (hread : readWithin bound value text = some n) :
    ∃ digits rest, text = digits ++ rest ∧ (∀ c ∈ digits, c.isDigit = true) ∧
      n = min bound (Nat.ofDigitChars 10 digits value) ∧
      (rest = [] ∨ bound < Nat.ofDigitChars 10 digits value) := by
  induction text generalizing value with
  | nil =>
      obtain rfl : value = n := by simpa [readWithin] using hread
      refine ⟨[], [], rfl, by simp, ?_, .inl rfl⟩
      rw [Nat.ofDigitChars_nil]
      omega
  | cons c text ih =>
      rw [readWithin, digit?_eq] at hread
      by_cases hdigit : c.isDigit = true
      · rw [if_pos hdigit] at hread
        simp only at hread
        have hnext : 10 * value + (c.toNat - '0'.toNat) = value * 10 + (c.toNat - '0'.toNat) := by
          omega
        -- the digit that exceeds the bound ends the reading, whatever comes behind it
        by_cases hover : bound < value * 10 + (c.toNat - '0'.toNat)
        · rw [if_pos hover] at hread
          cases hread
          refine ⟨[c], text, rfl, by simpa using hdigit, ?_, .inr ?_⟩
          · rw [Nat.ofDigitChars_cons, Nat.ofDigitChars_nil]
            omega
          · rw [Nat.ofDigitChars_cons, Nat.ofDigitChars_nil]
            omega
        · rw [if_neg hover] at hread
          obtain ⟨digits, rest, rfl, hdecimal, hn, hrest⟩ := ih (by omega) hread
          refine ⟨c :: digits, rest, rfl, ?_, ?_, ?_⟩
          · intro c' hc'
            rcases List.mem_cons.mp hc' with rfl | hmem
            · exact hdigit
            · exact hdecimal c' hmem
          · rw [Nat.ofDigitChars_cons, hnext]
            exact hn
          · rw [Nat.ofDigitChars_cons, hnext]
            exact hrest
      · rw [if_neg hdigit] at hread
        cases hread

/-! ## Reading numerals -/

/-- Behind a plus sign digits are read upwards. -/
theorem ofText?_plus {digits : List Char} (hdigits : digits ≠ []) :
    ofText? ('+' :: digits) = readUp 0 digits := by
  cases digits with
  | nil => exact absurd rfl hdigits
  | cons c digits => rfl

/-- Behind a minus sign digits are read downwards. -/
theorem ofText?_minus {digits : List Char} (hdigits : digits ≠ []) :
    ofText? ('-' :: digits) = readDown 0 digits := by
  cases digits with
  | nil => exact absurd rfl hdigits
  | cons c digits => rfl

/-- A text without a sign is read upwards. -/
theorem ofText?_unsigned {c : Char} (hplus : c ≠ '+') (hminus : c ≠ '-') (text : List Char) :
    ofText? (c :: text) = readUp 0 (c :: text) := by
  simp [ofText?, hplus, hminus]

/-- Reading from nothing takes at least one digit. -/
theorem readWithin_zero_eq_some_iff {bound n : Nat} {text : List Char} (htext : text ≠ []) :
    readWithin bound 0 text = some n ↔
      ∃ digits rest, text = digits ++ rest ∧ digits ≠ [] ∧ (∀ c ∈ digits, c.isDigit = true) ∧
        n = min bound (Nat.ofDigitChars 10 digits 0) ∧
        (rest = [] ∨ bound < Nat.ofDigitChars 10 digits 0) := by
  constructor
  · intro hread
    obtain ⟨digits, rest, rfl, hdecimal, hn, hrest⟩ :=
      exists_digits_of_readWithin (Nat.zero_le _) hread
    refine ⟨digits, rest, rfl, ?_, hdecimal, hn, hrest⟩
    rintro rfl
    rcases hrest with rfl | hover
    · exact htext rfl
    · rw [Nat.ofDigitChars_nil] at hover
      omega
  · rintro ⟨digits, rest, rfl, -, hdecimal, rfl, hrest⟩
    exact readWithin_digits rest (Nat.zero_le _) hdecimal hrest

/-- Reading upwards from nothing yields the number that the digits spell, within 64 bits. -/
theorem readUp_zero_eq_some_iff {text : List Char} {n : Int} (htext : text ≠ []) :
    readUp 0 text = some n ↔
      ∃ digits rest, text = digits ++ rest ∧ digits ≠ [] ∧ (∀ c ∈ digits, c.isDigit = true) ∧
        n = clamp (Nat.ofDigitChars 10 digits 0) ∧
        (rest = [] ∨ Exceeds (Nat.ofDigitChars 10 digits 0)) := by
  have hzero : readUp 0 text = (readWithin greatest.toNat 0 text).map fun n : Nat => (n : Int) :=
    readUp_eq 0 text
  rw [hzero, Option.map_eq_some_iff]
  unfold Exceeds clamp least greatest
  simp only [readWithin_zero_eq_some_iff htext]
  constructor
  · rintro ⟨m, ⟨digits, rest, hsplit, hdigits, hdecimal, hm, hrest⟩, rfl⟩
    exact ⟨digits, rest, hsplit, hdigits, hdecimal, by omega, hrest.imp_right fun _ => by omega⟩
  · rintro ⟨digits, rest, hsplit, hdigits, hdecimal, rfl, hrest⟩
    exact ⟨_, ⟨digits, rest, hsplit, hdigits, hdecimal, rfl, hrest.imp_right fun _ => by omega⟩,
      by omega⟩

/-- Reading downwards from nothing yields the negative of it. -/
theorem readDown_zero_eq_some_iff {text : List Char} {n : Int} (htext : text ≠ []) :
    readDown 0 text = some n ↔
      ∃ digits rest, text = digits ++ rest ∧ digits ≠ [] ∧ (∀ c ∈ digits, c.isDigit = true) ∧
        n = clamp (-(Nat.ofDigitChars 10 digits 0 : Nat)) ∧
        (rest = [] ∨ Exceeds (-(Nat.ofDigitChars 10 digits 0 : Nat))) := by
  have hzero : readDown 0 text = (readWithin least.natAbs 0 text).map fun n : Nat => -(n : Int) :=
    readDown_eq 0 text
  rw [hzero, Option.map_eq_some_iff]
  unfold Exceeds clamp least greatest
  simp only [readWithin_zero_eq_some_iff htext]
  constructor
  · rintro ⟨m, ⟨digits, rest, hsplit, hdigits, hdecimal, hm, hrest⟩, rfl⟩
    exact ⟨digits, rest, hsplit, hdigits, hdecimal, by omega, hrest.imp_right fun _ => by omega⟩
  · rintro ⟨digits, rest, hsplit, hdigits, hdecimal, rfl, hrest⟩
    exact ⟨_, ⟨digits, rest, hsplit, hdigits, hdecimal, rfl, hrest.imp_right fun _ => by omega⟩,
      by omega⟩

/-- A digit is no sign. -/
theorem ne_sign_of_isDigit {c : Char} (hdigit : c.isDigit = true) : c ≠ '+' ∧ c ≠ '-' := by
  constructor
  · rintro rfl
    cases hdigit
  · rintro rfl
    cases hdigit

/-- A text names a process if it is a numeral, or starts with one that exceeds 64 bits. -/
theorem ofText?_eq_some_iff {text : List Char} {n : Int} :
    ofText? text = some n ↔
      ∃ (numeral : Numeral) (rest : List Char), text = numeral.text ++ rest ∧
        n = clamp numeral.value ∧ (rest = [] ∨ Exceeds numeral.value) := by
  constructor
  -- the sign alone decides whether the digits are read upwards or downwards
  · intro hread
    cases text with
    | nil => cases hread
    | cons c text =>
        by_cases hplus : c = '+'
        · subst hplus
          have htext : text ≠ [] := by
            rintro rfl
            cases hread
          rw [ofText?_plus htext, readUp_zero_eq_some_iff htext] at hread
          obtain ⟨digits, rest, rfl, hdigits, hdecimal, hn, hrest⟩ := hread
          exact ⟨⟨.plus, digits, hdigits, hdecimal⟩, rest, rfl, hn, hrest⟩
        by_cases hminus : c = '-'
        · subst hminus
          have htext : text ≠ [] := by
            rintro rfl
            cases hread
          rw [ofText?_minus htext, readDown_zero_eq_some_iff htext] at hread
          obtain ⟨digits, rest, rfl, hdigits, hdecimal, hn, hrest⟩ := hread
          exact ⟨⟨.minus, digits, hdigits, hdecimal⟩, rest, rfl, hn, hrest⟩
        rw [ofText?_unsigned hplus hminus, readUp_zero_eq_some_iff (by simp)] at hread
        obtain ⟨digits, rest, htext, hdigits, hdecimal, hn, hrest⟩ := hread
        exact ⟨⟨.none, digits, hdigits, hdecimal⟩, rest, htext, hn, hrest⟩
  · rintro ⟨⟨sign, digits, hdigits, hdecimal⟩, rest, rfl, hn, hrest⟩
    have happend : digits ++ rest ≠ [] := by simp [hdigits]
    cases sign with
    | plus =>
        show ofText? ('+' :: (digits ++ rest)) = some n
        rw [ofText?_plus happend, readUp_zero_eq_some_iff happend]
        exact ⟨digits, rest, rfl, hdigits, hdecimal, hn, hrest⟩
    | minus =>
        show ofText? ('-' :: (digits ++ rest)) = some n
        rw [ofText?_minus happend, readDown_zero_eq_some_iff happend]
        exact ⟨digits, rest, rfl, hdigits, hdecimal, hn, hrest⟩
    | none =>
        show ofText? (digits ++ rest) = some n
        cases digits with
        | nil => exact absurd rfl hdigits
        | cons c digits =>
            obtain ⟨hplus, hminus⟩ := ne_sign_of_isDigit (hdecimal c (by simp))
            rw [List.cons_append, ofText?_unsigned hplus hminus,
              readUp_zero_eq_some_iff (by simp)]
            exact ⟨c :: digits, rest, rfl, hdigits, hdecimal, hn, hrest⟩

end SerialLock.Pid
