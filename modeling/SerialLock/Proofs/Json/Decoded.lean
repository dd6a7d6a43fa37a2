import SerialLock.Proofs.Json.Decoder

/-!
# Documents are decoded

Every document of the grammar is decoded as the value that it spells (`decode?_document`), so no
text spells two values (`Document.unique`).  The induction goes over the rules of the grammar: what
a rule derives is read back with any rest behind it that closes it.

A number is the only value whose end is not marked, which is why what follows a value must be able
to close it (`Closes`).
-/

set_option autoImplicit false

namespace SerialLock.Json

/-! ## What follows a value -/

/-- What follows a value cannot go on with it: white space, a comma or a closing character stands
there, or nothing. -/
def Closes (rest : List Char) : Prop :=
  ∀ c ∈ rest.head?, isSpace c = true ∨ c = ',' ∨ c = ']' ∨ c = '\x7d'

/-- No digit stands at the start. -/
def NoDigit (rest : List Char) : Prop :=
  ∀ c ∈ rest.head?, c.isDigit = false

/-- What closes a number goes on with no digit, no point and no mark of a power. -/
theorem Closes.ne_of_head {rest : List Char} {c : Char} (hcloses : Closes rest)
    (hc : c ∈ rest.head?) : c.isDigit = false ∧ c ≠ '.' ∧ isPowerMark c = false := by
  rcases hcloses c hc with hspace | rfl | rfl | rfl
  · unfold isSpace at hspace
    simp only [Bool.or_eq_true, beq_iff_eq] at hspace
    rcases hspace with ((rfl | rfl) | rfl) | rfl <;> decide
  · decide
  · decide
  · decide

/-- What closes a number starts with no digit. -/
theorem Closes.noDigit {rest : List Char} (hcloses : Closes rest) : NoDigit rest :=
  fun _ hc => (hcloses.ne_of_head hc).1

/-- White space in front of what closes a value closes it, too. -/
theorem closes_spaces {gap rest : List Char} (hgap : Spaces gap) (hrest : Closes rest) :
    Closes (gap ++ rest) := by
  cases gap with
  | nil => exact hrest
  | cons c gap =>
      intro d hd
      obtain rfl : c = d := by simpa using hd
      exact .inl (hgap c (by simp))

/-- White space is skipped up to a character that is none. -/
theorem skip_append {gap : List Char} {c : Char} (hgap : Spaces gap) (hc : isSpace c = false)
    (rest : List Char) : skip (gap ++ c :: rest) = c :: rest := by
  unfold skip
  rw [List.dropWhile_append_of_pos hgap, List.dropWhile_cons_of_neg (by simp [hc])]

/-- A text of white space is skipped as a whole. -/
theorem skip_spaces {gap : List Char} (hgap : Spaces gap) : skip gap = [] := by
  have hall : (gap ++ []).dropWhile isSpace = [].dropWhile isSpace :=
    List.dropWhile_append_of_pos hgap
  simpa [skip] using hall

/-! ## Numbers -/

/-- A digit is not a character that is none. -/
theorem ne_of_isDigit {c d : Char} (hc : c.isDigit = true) (hd : d.isDigit = false) : c ≠ d := by
  rintro rfl
  rw [hd] at hc
  cases hc

/-- Digits are read up to the first character that is none. -/
theorem readDigits_append {digits rest : List Char} (hdigits : Digits digits)
    (hrest : NoDigit rest) : readDigits (digits ++ rest) = some (digits, rest) := by
  have hnone : rest.takeWhile Char.isDigit = [] ∧ rest.dropWhile Char.isDigit = rest := by
    cases rest with
    | nil => exact ⟨rfl, rfl⟩
    | cons c rest =>
        have hc : c.isDigit = false := hrest c rfl
        constructor
        · simp [hc]
        · simp [hc]
  unfold readDigits
  rw [List.takeWhile_append_of_pos hdigits.decimal, List.dropWhile_append_of_pos hdigits.decimal,
    hnone.1, hnone.2, List.append_nil]
  simp [hdigits.nonempty]

/-- The whole part of a number is read back. -/
theorem readWhole_append {whole rest : List Char} (hwhole : Whole whole) (hrest : NoDigit rest) :
    readWhole (whole ++ rest) = some (whole, rest) := by
  cases hwhole with
  | zero => rfl
  | @other c digits hdigits hc =>
      rw [List.cons_append, readWhole]
      · exact readDigits_append hdigits hrest
      · simpa using hc

/-- The fraction of a number is read back, and none where no point stands. -/
theorem readFraction_append {fraction spelled rest : List Char}
    (hfraction : Fraction fraction spelled) (hrest : NoDigit rest) (hpoint : '.' ∉ rest.head?) :
    readFraction (spelled ++ rest) = some (fraction, rest) := by
  cases hfraction with
  | none =>
      rw [List.nil_append, readFraction]
      intro more hmore
      simp [hmore] at hpoint
  | point hdigits => exact readDigits_append hdigits hrest

/-- A power is read with its sign. -/
theorem readSigned_append {digits rest : List Char} (hdigits : Digits digits)
    (hrest : NoDigit rest) :
    readSigned (digits ++ rest) = some ((magnitude digits : Int), rest) := by
  have hread := readDigits_append hdigits hrest
  cases digits with
  | nil => exact absurd rfl hdigits.nonempty
  | cons d digits =>
      have hd : d.isDigit = true := hdigits.decimal d (by simp)
      have hplus : d ≠ '+' := ne_of_isDigit hd (by decide)
      have hminus : d ≠ '-' := ne_of_isDigit hd (by decide)
      rw [List.cons_append] at hread ⊢
      rw [readSigned, hread]
      · rfl
      · simpa using hplus
      · simpa using hminus

/-- The power of a number is read back, and none where no mark of a power stands. -/
theorem readPower_append {power : Int} {spelled rest : List Char} (hpower : Power power spelled)
    (hrest : Closes rest) : readPower (spelled ++ rest) = some (power, rest) := by
  cases hpower with
  | none =>
      cases rest with
      | nil => rfl
      | cons c rest =>
          have hmark : isPowerMark c = false := (hrest.ne_of_head rfl).2.2
          simp [readPower, hmark]
  | plain hmark hdigits =>
      rw [List.cons_append, readPower, if_pos hmark]
      exact readSigned_append hdigits hrest.noDigit
  | plus hmark hdigits =>
      rw [List.cons_append, readPower, if_pos hmark, List.cons_append, readSigned,
        readDigits_append hdigits hrest.noDigit]
      rfl
  | minus hmark hdigits =>
      rw [List.cons_append, readPower, if_pos hmark, List.cons_append, readSigned,
        readDigits_append hdigits hrest.noDigit]
      rfl

/-- A power of ten does not start with a digit or a point, and neither does what follows it. -/
theorem Power.head {power : Int} {spelled rest : List Char} (hpower : Power power spelled)
    (hrest : Closes rest) : NoDigit (spelled ++ rest) ∧ '.' ∉ (spelled ++ rest).head? := by
  have hmark {mark : Char} (hmark : isPowerMark mark = true) (more : List Char) :
      NoDigit (mark :: more) ∧ '.' ∉ (mark :: more).head? := by
    unfold isPowerMark at hmark
    simp only [Bool.or_eq_true, beq_iff_eq] at hmark
    rcases hmark with rfl | rfl
    · simp [NoDigit]
    · simp [NoDigit]
  cases hpower with
  | none =>
      refine ⟨hrest.noDigit, fun hpoint => ?_⟩
      exact (hrest.ne_of_head hpoint).2.1 rfl
  | plain hletter _ => exact hmark hletter _
  | plus hletter _ => exact hmark hletter _
  | minus hletter _ => exact hmark hletter _

/-- A number without a sign is read back from its three parts. -/
theorem readUnsigned_append {mantissa : Nat} {exponent : Int} {text rest : List Char}
    (hnumber : Unsigned mantissa exponent text) (hrest : Closes rest) :
    readUnsigned (text ++ rest) = some ((mantissa, exponent), rest) := by
  cases hnumber with
  | @parts whole fraction point mark power hwhole hfraction hpower =>
      obtain ⟨hdigit, hpoint⟩ := hpower.head hrest
      have hdigit' : NoDigit (point ++ (mark ++ rest)) := by
        cases hfraction with
        | none => exact hdigit
        | point _ => simp [NoDigit]
      rw [List.append_assoc, List.append_assoc, readUnsigned, readWhole_append hwhole hdigit']
      simp [readFraction_append hfraction hdigit hpoint, readPower_append hpower hrest]

/-- A number without a sign starts with a digit. -/
theorem Unsigned.head {mantissa : Nat} {exponent : Int} {text : List Char}
    (hnumber : Unsigned mantissa exponent text) :
    ∃ d more, text = d :: more ∧ d.isDigit = true := by
  cases hnumber with
  | parts hwhole _ _ =>
      cases hwhole with
      | zero => exact ⟨'0', _, rfl, by decide⟩
      | other hdigits _ => exact ⟨_, _, rfl, hdigits.decimal _ (by simp)⟩

/-- A number without a sign is read as the value that it spells. -/
theorem readNumber_unsigned {mantissa : Nat} {exponent : Int} {text rest : List Char}
    (hnumber : Unsigned mantissa exponent text) (hrest : Closes rest) :
    readNumber (text ++ rest) = some (.number mantissa exponent, rest) := by
  have hread := readUnsigned_append hnumber hrest
  obtain ⟨d, more, rfl, hd⟩ := hnumber.head
  have hminus : d ≠ '-' := ne_of_isDigit hd (by decide)
  rw [List.cons_append] at hread ⊢
  rw [readNumber, hread]
  · rfl
  · simpa using hminus

/-- A number behind a hyphen is read as the negative of the value that it spells. -/
theorem readNumber_negative {mantissa : Nat} {exponent : Int} {text rest : List Char}
    (hnumber : Unsigned mantissa exponent text) (hrest : Closes rest) :
    readNumber ('-' :: text ++ rest) = some (.number (-mantissa) exponent, rest) := by
  rw [List.cons_append, readNumber, readUnsigned_append hnumber hrest]
  rfl

/-! ## Texts in quotes -/

/-- The number of a character is written with four digits. -/
theorem length_of_codeUnit? {digits : List Char} {n : Nat} (hn : codeUnit? digits = some n) :
    digits.length = 4 := by
  unfold codeUnit? at hn
  split at hn
  · rfl
  · cases hn

/-- A spelled character is read back, whatever follows it. -/
theorem readLetter_append {c : Char} {spelled : List Char} (hletter : Letter c spelled)
    (rest : List Char) : readLetter (spelled ++ rest) = some (c, rest) := by
  have hunit {digits : List Char} {n : Nat} (hn : codeUnit? digits = some n) (more : List Char) :
      (digits ++ more).take 4 = digits ∧ (digits ++ more).drop 4 = more := by
    have hlength := length_of_codeUnit? hn
    exact ⟨List.take_left' hlength, List.drop_left' hlength⟩
  cases hletter with
  | plain hcontrol hquote hbackslash =>
      rw [List.singleton_append, readLetter]
      · simp [hquote, hbackslash]
        omega
      · intro more hc
        exact absurd hc hbackslash
      · intro mark more hc
        exact absurd hc hbackslash
  | @short mark c hmark =>
      have hu : mark ≠ 'u' := by
        rintro rfl
        cases hmark
      rw [List.cons_append, List.singleton_append, readLetter, hmark]
      · rfl
      · simpa using hu
  | @unit digits n hn hfirst hsecond =>
      obtain ⟨htake, hdrop⟩ := hunit hn rest
      simp only [List.cons_append, readLetter, htake, hdrop]
      simp [hn, hfirst, hsecond]
  | @halves digits digits' first second hn hn' hfirst hsecond =>
      obtain ⟨htake, hdrop⟩ := hunit hn ('\\' :: 'u' :: (digits' ++ rest))
      obtain ⟨htake', hdrop'⟩ := hunit hn' rest
      have hsecond' : isSecondHalf first = false := by
        simp only [isFirstHalf, Bool.and_eq_true, decide_eq_true_eq] at hfirst
        simp only [isSecondHalf, Bool.and_eq_false_iff, decide_eq_false_iff_not]
        omega
      simp only [List.cons_append, List.append_assoc, readLetter, htake, hdrop]
      simp [hn, hn', hfirst, hsecond, hsecond', htake', hdrop']

/-- A character between quotes is spelled by something, and not by a quote. -/
theorem Letter.head {c : Char} {spelled : List Char} (hletter : Letter c spelled) :
    ∃ d more, spelled = d :: more ∧ d ≠ '"' := by
  cases hletter with
  | plain _ hquote _ => exact ⟨_, _, rfl, hquote⟩
  | short _ => exact ⟨'\\', _, rfl, by decide⟩
  | unit _ _ _ => exact ⟨'\\', _, rfl, by decide⟩
  | halves _ _ _ _ => exact ⟨'\\', _, rfl, by decide⟩

/-- Spelled characters are read back up to the closing quote, on a budget of their number. -/
theorem readLetters_append {text spelled : List Char} (hletters : Letters text spelled)
    {budget : Nat} (hbudget : spelled.length < budget) (rest : List Char) :
    readLetters budget (spelled ++ '"' :: rest) = some (text, rest) := by
  induction hletters generalizing budget with
  | nil =>
      cases budget with
      | zero => omega
      | succ budget => rfl
  | @cons c text spelled more hfirst hrest ih =>
      obtain ⟨d, others, rfl, hd⟩ := hfirst.head
      cases budget with
      | zero => omega
      | succ budget =>
          have hmore : more.length < budget := by
            simp only [List.length_append, List.length_cons] at hbudget
            omega
          have hletter := readLetter_append hfirst (more ++ '"' :: rest)
          rw [List.append_assoc, readLetters, hletter]
          simp [hd, ih hmore]

/-- A spelled text is read back up to its closing quote. -/
theorem readText_append {text spelled : List Char} (hletters : Letters text spelled)
    (rest : List Char) : readText (spelled ++ '"' :: rest) = some (text, rest) := by
  apply readLetters_append hletters
  simp

/-! ## Values -/

/-- The first character of a value, or of a name with its value, is no white space and does not
close anything. -/
def Opens (text : List Char) : Prop :=
  ∃ c rest, text = c :: rest ∧ isSpace c = false ∧ c ≠ ']' ∧ c ≠ '\x7d'

/-- A digit may open a value. -/
theorem opens_of_isDigit {d : Char} (hd : d.isDigit = true) (rest : List Char) :
    Opens (d :: rest) := by
  refine ⟨d, rest, rfl, ?_, ne_of_isDigit hd (by decide), ne_of_isDigit hd (by decide)⟩
  have hspaces : d ≠ ' ' ∧ d ≠ '\t' ∧ d ≠ '\n' ∧ d ≠ '\r' :=
    ⟨ne_of_isDigit hd (by decide), ne_of_isDigit hd (by decide), ne_of_isDigit hd (by decide),
      ne_of_isDigit hd (by decide)⟩
  simp [isSpace, hspaces]

/-- What spells a value starts like one. -/
theorem Spells.opens_value {value : Value} {text : List Char}
    (hspells : Spells (.value value) text) : Opens text := by
  cases hspells with
  | null => exact ⟨_, _, rfl, by decide⟩
  | yes => exact ⟨_, _, rfl, by decide⟩
  | no => exact ⟨_, _, rfl, by decide⟩
  | number hnumber =>
      obtain ⟨d, more, rfl, hd⟩ := hnumber.head
      exact opens_of_isDigit hd more
  | negative hnumber => exact ⟨_, _, rfl, by decide⟩
  | text _ => exact ⟨_, _, rfl, by decide⟩
  | array _ => exact ⟨_, _, rfl, by decide⟩
  | object _ => exact ⟨_, _, rfl, by decide⟩

/-- What spells a name with its value starts like one. -/
theorem Spells.opens_entry {name : List Char} {value : Value} {text : List Char}
    (hspells : Spells (.entry name value) text) : Opens text := by
  cases hspells with
  | entry _ _ _ _ => exact ⟨_, _, rfl, by decide⟩

section Lists

variable {α : Type} {one : Nat → List Char → Option (α × List Char)} {close : Char} {item : α}
  {items : List α} {before text after more : List Char}

/-- Whatever closes it, the text is read as this one. -/
def ReadsOne (one : Nat → List Char → Option (α × List Char)) (item : α) (text : List Char) :
    Prop :=
  ∀ (depth : Nat) (rest : List Char), text.length ≤ depth → Closes rest →
    one depth (text ++ rest) = some (item, rest)

/-- What stands between an opening and a closing character is read as these. -/
def ReadsList (one : Nat → List Char → Option (α × List Char)) (close : Char) (items : List α)
    (text : List Char) : Prop :=
  (items = [] ∧ Spaces text) ∨
    ∃ gap body, text = gap ++ body ∧ Spaces gap ∧ Opens body ∧
      ∀ (depth budget : Nat) (rest : List Char), body.length ≤ depth → body.length < budget →
        readList (one depth) close budget (body ++ close :: rest) = some (items, rest)

/-- The character closes an array or an object. -/
def IsClosing (close : Char) : Prop :=
  close = ']' ∨ close = '\x7d'

/-- A closing character closes a value, and is neither white space nor a comma. -/
theorem IsClosing.closes (hclose : IsClosing close) (rest : List Char) :
    Closes (close :: rest) ∧ isSpace close = false ∧ close ≠ ',' := by
  rcases hclose with rfl | rfl
  · exact ⟨by simp [Closes], by decide, by decide⟩
  · exact ⟨by simp [Closes], by decide, by decide⟩

/-- A list of one item is read where the item is, with white space about it. -/
theorem ReadsList.last (hclose : IsClosing close) (hbefore : Spaces before) (hopens : Opens text)
    (hone : ReadsOne one item text) (hafter : Spaces after) :
    ReadsList one close [item] (before ++ text ++ after) := by
  obtain ⟨c, body, rfl, hopens'⟩ := hopens
  refine .inr ⟨before, c :: body ++ after, List.append_assoc _ _ _, hbefore,
    ⟨c, body ++ after, rfl, hopens'⟩, ?_⟩
  intro depth budget rest hdepth hbudget
  obtain ⟨hcloses, hspace, hcomma⟩ := hclose.closes rest
  simp only [List.length_append] at hdepth
  have hread := hone depth (after ++ close :: rest) (by omega) (closes_spaces hafter hcloses)
  cases budget with
  | zero => omega
  | succ budget =>
      rw [List.append_assoc, readList, hread]
      simp [skip_append hafter hspace, hcomma]

/-- A list is read with one item more in front, and a comma behind that item. -/
theorem ReadsList.another {next : α} (hbefore : Spaces before) (hopens : Opens text)
    (hone : ReadsOne one item text) (hafter : Spaces after)
    (hmore : ReadsList one close (next :: items) more) :
    ReadsList one close (item :: next :: items) (before ++ text ++ after ++ ',' :: more) := by
  obtain ⟨c, body, rfl, hopens'⟩ := hopens
  rcases hmore with ⟨hnil, -⟩ | ⟨gap, others, rfl, hgap, hothers, hlist⟩
  · cases hnil
  refine .inr ⟨before, c :: body ++ after ++ ',' :: (gap ++ others), by simp, hbefore,
    ⟨c, body ++ after ++ ',' :: (gap ++ others), rfl, hopens'⟩, ?_⟩
  intro depth budget rest hdepth hbudget
  have hcomma (rest : List Char) : Closes (',' :: rest) := by simp [Closes]
  obtain ⟨d, others', rfl, hd, -⟩ := hothers
  simp only [List.length_append, List.length_cons] at hdepth hbudget hlist
  have hlength : (c :: body).length ≤ depth := by
    rw [List.length_cons]
    omega
  have hread := hone depth (after ++ ',' :: (gap ++ d :: others' ++ close :: rest)) hlength
    (closes_spaces hafter (hcomma _))
  cases budget with
  | zero => omega
  | succ budget =>
      have hrest := hlist depth budget rest (by omega) (by omega)
      have hskip : skip (gap ++ (d :: others' ++ close :: rest)) = d :: others' ++ close :: rest :=
        skip_append hgap hd _
      simp only [List.append_assoc, List.cons_append] at hread hrest hskip ⊢
      rw [readList, hread]
      simp [skip_append hafter (show isSpace ',' = false by decide), hskip, hrest]

/-- A list is read between its two brackets. -/
theorem readBetween_append (hclose : IsClosing close) {depth : Nat}
    (hlist : ReadsList one close items text) (hdepth : text.length ≤ depth) (rest : List Char) :
    readBetween (one depth) close (text ++ close :: rest) = some (items, rest) := by
  rcases hlist with ⟨rfl, hgap⟩ | ⟨gap, body, rfl, hgap, ⟨c, more, rfl, hc, hne, hne'⟩, hlist⟩
  · obtain ⟨-, hspace, -⟩ := hclose.closes rest
    rw [readBetween, skip_append hgap hspace]
    simp
  · have hother : c ≠ close := by
      rcases hclose with rfl | rfl
      · exact hne
      · exact hne'
    simp only [List.length_append] at hdepth
    have hread := hlist depth (gap ++ c :: more ++ close :: rest).length rest (by omega)
      (by simp only [List.length_append, List.length_cons]; omega)
    rw [readBetween, List.append_assoc, List.cons_append, skip_append hgap hc]
    simpa [hother] using hread

end Lists

/-- The decoder reads what spells a part as that part. -/
def Reads : Part → List Char → Prop
  | .value value => ReadsOne readValue value
  | .entry name value => ReadsOne (fun depth => readEntry (readValue depth)) (name, value)
  | .items items => ReadsList readValue ']' items
  | .entries entries => ReadsList (fun depth => readEntry (readValue depth)) '\x7d' entries

/-- A number is read as a number, as it starts like no other value. -/
theorem readValue_number {text rest : List Char} {depth : Nat}
    (hfirst : ∃ c more, text = c :: more ∧ (c.isDigit = true ∨ c = '-')) :
    readValue (depth + 1) (text ++ rest) = readNumber (text ++ rest) := by
  obtain ⟨c, more, rfl, hc⟩ := hfirst
  have hne {d : Char} (hd : d.isDigit = false) (hminus : d ≠ '-') : c ≠ d := by
    rcases hc with hc | rfl
    · exact ne_of_isDigit hc hd
    · exact hminus.symm
  have hquote : c ≠ '"' := hne (by decide) (by decide)
  have hbracket : c ≠ '[' := hne (by decide) (by decide)
  have hbrace : c ≠ '\x7b' := hne (by decide) (by decide)
  have hn : c ≠ 'n' := hne (by decide) (by decide)
  have ht : c ≠ 't' := hne (by decide) (by decide)
  have hf : c ≠ 'f' := hne (by decide) (by decide)
  rw [List.cons_append, readValue]
  simp [hquote, hbracket, hbrace, hn, ht, hf]

/-- Each rule of the grammar derives what the decoder reads. -/
theorem Spells.reads {part : Part} {text : List Char} (hspells : Spells part text) :
    Reads part text := by
  -- each level of nesting costs a character at least, so the depth allowed lasts for all parts
  induction hspells with
  | null =>
      rintro (_ | depth) rest hdepth -
      · cases hdepth
      · rfl
  | yes =>
      rintro (_ | depth) rest hdepth -
      · cases hdepth
      · rfl
  | no =>
      rintro (_ | depth) rest hdepth -
      · cases hdepth
      · rfl
  | number hnumber =>
      obtain ⟨d, more, htext, hd⟩ := hnumber.head
      rintro (_ | depth) rest hdepth hcloses
      · simp [htext] at hdepth
      · rw [readValue_number ⟨d, more, htext, .inl hd⟩]
        exact readNumber_unsigned hnumber hcloses
  | negative hnumber =>
      rintro (_ | depth) rest hdepth hcloses
      · cases hdepth
      · rw [readValue_number ⟨'-', _, rfl, .inr rfl⟩]
        exact readNumber_negative hnumber hcloses
  | text hletters =>
      rintro (_ | depth) rest hdepth -
      · cases hdepth
      · simp [readValue, readText_append hletters]
  | array hitems ih =>
      rintro (_ | depth) rest hdepth -
      · cases hdepth
      · simp only [List.length_append, List.length_cons, List.length_nil] at hdepth
        have hread := readBetween_append (.inl rfl) ih (show _ ≤ depth by omega) rest
        simp [readValue, hread]
  | object hentries ih =>
      rintro (_ | depth) rest hdepth -
      · cases hdepth
      · simp only [List.length_append, List.length_cons, List.length_nil] at hdepth
        have hread := readBetween_append (.inr rfl) ih (show _ ≤ depth by omega) rest
        simp [readValue, hread]
  | noItem hgap => exact .inl ⟨rfl, hgap⟩
  | lastItem hbefore hitem hafter ih =>
      exact ReadsList.last (.inl rfl) hbefore hitem.opens_value ih hafter
  | item hbefore hitem hafter hmore ih ih' =>
      exact ReadsList.another hbefore hitem.opens_value ih hafter ih'
  | @entry name spelled left right text value hname hleft hright hvalue ih =>
      intro depth rest hdepth hcloses
      simp only [List.length_append, List.length_cons] at hdepth
      have hread := ih depth rest (by omega) hcloses
      obtain ⟨c, more, rfl, hc, -⟩ := hvalue.opens_value
      have hskip : skip (right ++ c :: (more ++ rest)) = c :: (more ++ rest) :=
        skip_append hright hc _
      simp only [List.append_assoc, List.cons_append] at hread ⊢
      simp only [readEntry, readText_append hname]
      simp [skip_append hleft (show isSpace ':' = false by decide), hskip, hread]
  | noEntry hgap => exact .inl ⟨rfl, hgap⟩
  | lastEntry hbefore hentry hafter ih =>
      exact ReadsList.last (.inr rfl) hbefore hentry.opens_entry ih hafter
  | anotherEntry hbefore hentry hafter hmore ih ih' =>
      exact ReadsList.another hbefore hentry.opens_entry ih hafter ih'

/-! ## Documents -/

/-- Every document is read as the value that it spells. -/
theorem decode?_document {value : Value} {text : List Char} (hdocument : Document value text) :
    decode? text = some value := by
  cases hdocument with
  | @value before text after hbefore hvalue hafter =>
      have hcloses : Closes after := by
        simpa using closes_spaces hafter (show Closes [] by simp [Closes])
      have hread : readValue (before ++ text ++ after).length (text ++ after) =
          some (value, after) :=
        hvalue.reads _ after (by simp only [List.length_append]; omega) hcloses
      have hskip : skip (before ++ text ++ after) = text ++ after := by
        obtain ⟨c, more, rfl, hc, -⟩ := hvalue.opens_value
        rw [List.append_assoc, List.cons_append, skip_append hbefore hc]
      unfold decode?
      rw [hskip, hread]
      simp [skip_spaces hafter]

/-- A document spells one value only. -/
theorem Document.unique {value value' : Value} {text : List Char} (hfirst : Document value text)
    (hsecond : Document value' text) : value = value' := by
  have hread := decode?_document hfirst
  rw [decode?_document hsecond] at hread
  exact (Option.some.inj hread).symm

end SerialLock.Json
