import SerialLock.Proofs.Yaml.Placed
import SerialLock.Yaml.Scalar

/-!
# Scalars in double quotes read back

Every character that could not be written as it is has an escape that stands for it: a letter of its
own, or its number in two, four or eight hexadecimal digits (`standsFor_escaped`).  Such a text has
no line breaks, so that all its spaces count (`readDoubleQuoted_flatMap`).
-/

set_option autoImplicit false

namespace SerialLock.Yaml

variable {c d : Char} {gap : Gap} {text rest seen before : List Char} {mark : Mark}

/-! ## Numbers of characters -/

/-- The capital digit of a number below 16. -/
def capitalDigit (n : Nat) : Char :=
  (Text.hexDigit n).toUpper

/-- The numbers of at most `width` digits are those below this one. -/
def hexLimit : Nat → Nat
  | 0 => 1
  | width + 1 => 16 * hexLimit width

/-- One digit more makes room for sixteen times as many numbers. -/
theorem hexLimit_succ (width : Nat) : hexLimit (width + 1) = 16 * hexLimit width := rfl

/-- The last digit is the remainder by sixteen, and those before it are the digits of the
quotient. -/
theorem fixedHex_succ (width n : Nat) :
    fixedHex (width + 1) n = fixedHex width (n / 16) ++ [capitalDigit (n % 16)] := rfl

/-- A digit is read back, and can be written in a line as it is. -/
theorem capitalDigit_reads {n : Nat} (hn : n < 16) :
    hexDigit? (capitalDigit n) = some n ∧ isPrintable (capitalDigit n) = true ∧
      isBreak (capitalDigit n) = false := by
  have hall : ∀ n : Fin 16, hexDigit? (capitalDigit n) = some n.val ∧
      isPrintable (capitalDigit n) = true ∧ isBreak (capitalDigit n) = false := by
    decide
  exact hall ⟨n, hn⟩

/-- A digit that is not the last one adds to the number. -/
theorem readDoubleQuoted_digit {n more number : Nat} (hn : n < 16) (hmore : 1 < more) :
    readDoubleQuoted before gap (some (more, number)) (placed mark (capitalDigit n :: rest)) =
      readDoubleQuoted before gap (some (more - 1, number * 16 + n))
        (placed (mark.after (capitalDigit n)) rest) := by
  obtain ⟨hvalue, hprintable, -⟩ := capitalDigit_reads hn
  rw [placed_cons mark hprintable, readDoubleQuoted]
  simp [hvalue, hmore]

/-- All digits but the last add up to the number that they spell. -/
theorem readDoubleQuoted_digits {more : Nat} (width n number : Nat) (hmore : 0 < more)
    (hcolumn : 0 < mark.column) :
    ∃ mark', 0 < mark'.column ∧
      readDoubleQuoted before gap (some (width + more, number))
        (placed mark (fixedHex width n ++ rest)) =
      readDoubleQuoted before gap (some (more, number * hexLimit width + n % hexLimit width))
        (placed mark' rest) := by
  -- the digits before the last one are those of `n / 16`
  induction width generalizing n more rest with
  | zero => exact ⟨mark, hcolumn, by simp [fixedHex, hexLimit, Nat.mod_one]⟩
  | succ width ih =>
      have hdigit : n % 16 < 16 := Nat.mod_lt _ (by omega)
      obtain ⟨_, _, hbreak⟩ := capitalDigit_reads hdigit
      obtain ⟨middle, hmiddle, hread⟩ := @ih (capitalDigit (n % 16) :: rest) (more + 1) (n / 16)
        (by omega)
      refine ⟨middle.after (capitalDigit (n % 16)), Mark.column_after_pos _ hbreak, ?_⟩
      rw [fixedHex_succ, List.append_assoc, List.singleton_append,
        show width + 1 + more = width + (more + 1) by omega, hread,
        readDoubleQuoted_digit hdigit (by omega)]
      have hnumber : (number * hexLimit width + n / 16 % hexLimit width) * 16 + n % 16 =
          number * hexLimit (width + 1) + n % hexLimit (width + 1) := by
        rw [hexLimit_succ, Nat.mod_mul, Nat.mul_left_comm]
        omega
      rw [hnumber]
      rfl

/-- The digits of a character's number stand for the character. -/
theorem readDoubleQuoted_number {width : Nat} (hc : c.toNat < hexLimit (width + 1))
    (hcolumn : 0 < mark.column) :
    ∃ mark', 0 < mark'.column ∧
      readDoubleQuoted before gap (some (width + 1, 0))
        (placed mark (fixedHex (width + 1) c.toNat ++ rest)) =
      readDoubleQuoted (c :: before) gap none (placed mark' rest) := by
  have hdigit : c.toNat % 16 < 16 := Nat.mod_lt _ (by omega)
  obtain ⟨hvalue, hprintable, hbreak⟩ := capitalDigit_reads hdigit
  obtain ⟨middle, hmiddle, hread⟩ := @readDoubleQuoted_digits gap
    (capitalDigit (c.toNat % 16) :: rest) before mark 1 width (c.toNat / 16) 0 (by omega) hcolumn
  refine ⟨middle.after (capitalDigit (c.toNat % 16)), Mark.column_after_pos _ hbreak, ?_⟩
  have hnumber :
      (0 * hexLimit width + c.toNat / 16 % hexLimit width) * 16 + c.toNat % 16 = c.toNat := by
    rw [Nat.mod_eq_of_lt (Nat.div_lt_of_lt_mul hc)]
    omega
  have hchar : charOf? c.toNat = some c := by
    unfold charOf?
    rw [if_pos (show c.toNat.isValidChar from c.valid), Char.ofNat_toNat]
  rw [fixedHex_succ, List.append_assoc, List.singleton_append, hread, placed_cons middle hprintable,
    readDoubleQuoted]
  simp only [hvalue, hnumber, hchar]
  simp

/-! ## Escapes -/

/-- A backslash makes of the next character a character of its own, or the start of a number, or
neither. -/
theorem readDoubleQuoted_backslash (hcolumn : 0 < mark.column) (hd : isPrintable d = true)
    (hbreak : isBreak d = false) :
    readDoubleQuoted before gap none (placed mark ('\\' :: d :: rest)) =
      match escape? d with
      | some (.char c) =>
        readDoubleQuoted (c :: (gap.folded ++ before)) .none none
          (placed ((mark.after '\\').after d) rest)
      | some (.code digits) =>
        readDoubleQuoted (gap.folded ++ before) .none (some (digits, 0))
          (placed ((mark.after '\\').after d) rest)
      | none => .error .badEscape := by
  have hmarker := Source.atDocumentMarker_of_column '\\' hcolumn
    (placed (mark.after '\\') (d :: rest))
  have hbackslash : isGap '\\' = false ∧ isBreak '\\' = false := by decide
  rw [placed_cons mark (by decide), readDoubleQuoted]
  simp only [hmarker, hbackslash.1, hbackslash.2]
  rw [placed_cons _ hd]
  simp only [hbreak]
  cases escape? d with
  | none => simp
  | some escape => cases escape <;> simp

/-- A character that is written as it is. -/
theorem readDoubleQuoted_char (hc : isPrintable c = true) (hspace : isSpace c = false)
    (hbreak : isBreak c = false) (hquote : c ≠ '"') (hbackslash : c ≠ '\\')
    (hcolumn : 0 < mark.column) :
    readDoubleQuoted before gap none (placed mark (c :: rest)) =
      readDoubleQuoted (c :: (gap.folded ++ before)) .none none (placed (mark.after c) rest) := by
  have hmarker := Source.atDocumentMarker_of_column c hcolumn (placed (mark.after c) rest)
  rw [placed_cons mark hc, readDoubleQuoted]
  simp [isGap_eq_isSpace hc, hspace, hbreak, hmarker, hquote, hbackslash]

/-- A space goes to the gap. -/
theorem readDoubleQuoted_space :
    readDoubleQuoted before (.blanks seen) none (placed mark (' ' :: rest)) =
      readDoubleQuoted before (.blanks (' ' :: seen)) none (placed (mark.after ' ') rest) := by
  rw [placed_cons mark (by decide), readDoubleQuoted]
  rfl

/-- The closing quote ends the scalar, with the gap in front of it. -/
theorem readDoubleQuoted_close (hcolumn : 0 < mark.column) :
    readDoubleQuoted before gap none (placed mark ('"' :: rest)) =
      .ok ((gap.folded ++ before).reverse, placed (mark.after '"') rest) := by
  have hmarker := Source.atDocumentMarker_of_column '"' hcolumn (placed (mark.after '"') rest)
  have hplain : isGap '"' = false ∧ isBreak '"' = false := by decide
  rw [placed_cons mark (by decide), readDoubleQuoted]
  simp [hmarker, hplain]

/-- In double quotes these characters are read as the character `c`: a space goes to the gap, and
anything else ends it. -/
def StandsFor (piece : List Char) (c : Char) : Prop :=
  ∀ (seen before rest : List Char) (mark : Mark), 0 < mark.column →
    ∃ mark' seen' before', 0 < mark'.column ∧ seen' ++ before' = c :: (seen ++ before) ∧
      readDoubleQuoted before (.blanks seen) none (placed mark (piece ++ rest)) =
        readDoubleQuoted before' (.blanks seen') none (placed mark' rest)

/-- A space stands for itself. -/
theorem standsFor_space : StandsFor [' '] ' ' := by
  intro seen before rest mark _
  exact ⟨mark.after ' ', ' ' :: seen, before, Mark.column_after_pos _ (by decide), rfl,
    readDoubleQuoted_space⟩

/-- A printable character stands for itself, unless it is the quote, a backslash or a break. -/
theorem standsFor_self (hc : isPrintable c = true) (hspace : isSpace c = false)
    (hbreak : isBreak c = false) (hquote : c ≠ '"') (hbackslash : c ≠ '\\') :
    StandsFor [c] c := by
  intro seen before rest mark hcolumn
  refine ⟨mark.after c, [], c :: (seen ++ before), Mark.column_after_pos _ hbreak, rfl, ?_⟩
  exact readDoubleQuoted_char hc hspace hbreak hquote hbackslash hcolumn

/-- An escape by a letter of its own. -/
theorem standsFor_named (hd : isPrintable d = true ∧ isBreak d = false)
    (hescape : escape? d = some (.char c)) : StandsFor ['\\', d] c := by
  intro seen before rest mark hcolumn
  have hafter : 0 < ((mark.after '\\').after d).column := Mark.column_after_pos _ hd.2
  refine ⟨(mark.after '\\').after d, [], c :: (seen ++ before), hafter, rfl, ?_⟩
  rw [List.cons_append, List.cons_append, List.nil_append,
    readDoubleQuoted_backslash hcolumn hd.1 hd.2, hescape]
  rfl

/-- An escape by the number of the character. -/
theorem standsFor_numbered {width : Nat} (hd : isPrintable d = true ∧ isBreak d = false)
    (hescape : escape? d = some (.code (width + 1))) (hc : c.toNat < hexLimit (width + 1)) :
    StandsFor (['\\', d] ++ fixedHex (width + 1) c.toNat) c := by
  intro seen before rest mark hcolumn
  have hafter : 0 < ((mark.after '\\').after d).column := Mark.column_after_pos _ hd.2
  obtain ⟨mark', hcolumn', hread⟩ :=
    @readDoubleQuoted_number c .none rest (seen ++ before) _ width hc hafter
  refine ⟨mark', [], c :: (seen ++ before), hcolumn', rfl, ?_⟩
  rw [List.append_assoc, List.cons_append, List.cons_append, List.nil_append,
    readDoubleQuoted_backslash hcolumn hd.1 hd.2, hescape]
  exact hread

/-- What is written for a character stands for it. -/
theorem standsFor_escaped (c : Char) : StandsFor (escaped c) c := by
  unfold escaped
  split
  case h_15 =>
    -- none of the characters with a letter of their own
    simp only
    split
    · rename_i hc
      cases hspace : isSpace c with
      | true =>
          obtain rfl : c = ' ' := by simpa [isSpace] using hspace
          exact standsFor_space
      | false =>
          have hbreak : isBreak c = false := by
            unfold isBreak
            simp only [Bool.or_eq_false_iff, beq_eq_false_iff_ne]
            exact ⟨⟨by assumption, by assumption⟩, by assumption⟩
          exact standsFor_self hc hspace hbreak (by assumption) (by assumption)
    · split
      · exact standsFor_numbered (by decide) rfl (Nat.lt_succ_of_le (by assumption))
      · split
        · exact standsFor_numbered (by decide) rfl (Nat.lt_succ_of_le (by assumption))
        · have hvalid : c.toNat < 0xD800 ∨ (0xDFFF < c.toNat ∧ c.toNat < 0x110000) := c.valid
          have hlimit : c.toNat < 0x100000000 := by omega
          exact standsFor_numbered (by decide) rfl hlimit
  all_goals exact standsFor_named (by decide) rfl

/-- A text in double quotes reads back. -/
theorem readDoubleQuoted_flatMap (text : List Char) (hcolumn : 0 < mark.column) :
    ∃ mark', readDoubleQuoted before (.blanks seen) none
        (placed mark (text.flatMap escaped ++ '"' :: rest)) =
      .ok ((text.reverse ++ (seen ++ before)).reverse, placed mark' rest) := by
  induction text generalizing seen before mark with
  | nil => exact ⟨mark.after '"', readDoubleQuoted_close hcolumn⟩
  | cons c text ih =>
      obtain ⟨middle, seen', before', hmiddle, hseen, hescaped⟩ :=
        standsFor_escaped c seen before (text.flatMap escaped ++ '"' :: rest) mark hcolumn
      obtain ⟨mark', hread⟩ := @ih seen' before' middle hmiddle
      refine ⟨mark', ?_⟩
      rw [List.flatMap_cons, List.append_assoc, hescaped, hread, hseen]
      simp

/-! ## What an escape is made of -/

/-- The digits of a number are printable. -/
theorem isPrintable_of_mem_fixedHex {width n : Nat} (hmem : c ∈ fixedHex width n) :
    isPrintable c = true := by
  induction width generalizing n with
  | zero => cases hmem
  | succ width ih =>
      rw [fixedHex_succ, List.mem_append, List.mem_singleton] at hmem
      rcases hmem with hmem | rfl
      · exact ih hmem
      · exact (capitalDigit_reads (Nat.mod_lt n (by omega))).2.1

/-- What is written for a character is printable. -/
theorem isPrintable_of_mem_escaped (hmem : d ∈ escaped c) : isPrintable d = true := by
  have hescape {letter : Char} (hletter : isPrintable letter = true)
      (hmem : d ∈ ['\\', letter]) : isPrintable d = true := by
    simp only [List.mem_cons, List.not_mem_nil, or_false] at hmem
    rcases hmem with rfl | rfl
    · decide
    · exact hletter
  have hnumber {letter : Char} {width : Nat} (hletter : isPrintable letter = true)
      (hmem : d ∈ ['\\', letter] ++ fixedHex width c.toNat) : isPrintable d = true := by
    rcases List.mem_append.mp hmem with hmem | hmem
    · exact hescape hletter hmem
    · exact isPrintable_of_mem_fixedHex hmem
  unfold escaped at hmem
  split at hmem
  case h_15 =>
    simp only at hmem
    split at hmem
    · rename_i hc
      rw [List.mem_singleton] at hmem
      exact hmem ▸ hc
    · split at hmem
      · exact hnumber (by decide) hmem
      · split at hmem
        · exact hnumber (by decide) hmem
        · exact hnumber (by decide) hmem
  all_goals exact hescape (by decide) hmem

end SerialLock.Yaml
