import SerialLock.Yaml.Written

/-!
# Printable characters and where they stand

The characters that are written as they are may stand in a text, and of the line breaks that are
made alike they hold the line feed only.  So each of them is one character of what is read
(`placed_cons`), and the next one stands a column further or at the start of the next line
(`Mark.after`).
-/

set_option autoImplicit false

namespace SerialLock.Yaml

variable {c : Char}

/-! ## Printable characters -/

/-- Printable characters are allowed in a text. -/
theorem isAllowed_of_isPrintable (hc : isPrintable c = true) : isAllowed c = true := by
  unfold isPrintable at hc
  unfold isAllowed
  simp only [Bool.or_eq_true, Bool.and_eq_true, decide_eq_true_eq, beq_iff_eq, bne_iff_ne] at hc ⊢
  rcases hc with (((rfl | hc) | hc) | hc) | hc
  · decide
  · omega
  · omega
  · omega
  · omega

/-- A printable character is not one that is not. -/
theorem ne_of_isPrintable {d : Char} (hc : isPrintable c = true) (hd : isPrintable d = false) :
    c ≠ d := by
  rintro rfl
  rw [hc] at hd
  cases hd

/-- Of the blanks, a printable one is the space. -/
theorem isGap_eq_isSpace (hc : isPrintable c = true) : isGap c = isSpace c := by
  have htab : c ≠ '\t' := ne_of_isPrintable hc (by decide)
  unfold isGap isSpace
  simp [htab]

/-- A text that needs no escapes is printable. -/
theorem isPrintable_of_not_needsEscapes {text : List Char} (hescapes : needsEscapes text = false) :
    ∀ c ∈ text, isPrintable c = true := by
  unfold needsEscapes at hescapes
  simp only [Bool.or_eq_false_iff, Bool.not_eq_false', List.all_eq_true] at hescapes
  exact hescapes.1

/-- A break is no gap within a line. -/
theorem isGap_of_isBreak (hbreak : isBreak c = true) : isGap c = false := by
  unfold isBreak at hbreak
  simp only [Bool.or_eq_true, beq_iff_eq] at hbreak
  rcases hbreak with (rfl | rfl) | rfl
  · decide
  · decide
  · decide

/-- Of the characters that count as a line feed, a printable one is the line feed. -/
theorem eq_of_isFeed (hc : isPrintable c = true) (hfeed : isFeed c = true) : c = '\n' := by
  have hreturn : c ≠ '\r' := ne_of_isPrintable hc (by decide)
  have hnext : c ≠ '\x85' := ne_of_isPrintable hc (by decide)
  unfold isFeed at hfeed
  simpa [hreturn, hnext] using hfeed

/-- Is the character one of those that the names of settings are made of? -/
def isNameChar (c : Char) : Bool :=
  c.isLower || c == '_'

/-- A character of a name is not one that is none. -/
theorem ne_of_isNameChar {d : Char} (hc : isNameChar c = true) (hd : isNameChar d = false) :
    c ≠ d := by
  rintro rfl
  rw [hc] at hd
  cases hd

/-- The characters of names are printable. -/
theorem isPrintable_of_isNameChar (hc : isNameChar c = true) : isPrintable c = true := by
  have hrange : 0x20 ≤ c.toNat ∧ c.toNat ≤ 0x7E := by
    unfold isNameChar at hc
    rw [Bool.or_eq_true, beq_iff_eq] at hc
    rcases hc with hlower | rfl
    · have hletter : (decide (97 ≤ c.toNat) && decide (c.toNat ≤ 122)) = true := hlower
      simp only [Bool.and_eq_true, decide_eq_true_eq] at hletter
      omega
    · decide
  unfold isPrintable
  simp [hrange]

/-- The characters of names are no gaps. -/
theorem isGap_of_isNameChar (hc : isNameChar c = true) : isGap c = false := by
  have hspace : c ≠ ' ' := ne_of_isNameChar hc (by decide)
  have htab : c ≠ '\t' := ne_of_isNameChar hc (by decide)
  simp [isGap, hspace, htab]

/-- The characters of names are no breaks. -/
theorem isBreak_of_isNameChar (hc : isNameChar c = true) : isBreak c = false := by
  have hfeed : c ≠ '\n' := ne_of_isNameChar hc (by decide)
  have hline : c ≠ '\u2028' := ne_of_isNameChar hc (by decide)
  have hparagraph : c ≠ '\u2029' := ne_of_isNameChar hc (by decide)
  simp [isBreak, hfeed, hline, hparagraph]

/-- What comes after an entry: nothing, or a line that starts with a name. -/
def StartsName (text : List Char) : Prop :=
  ∀ c, text.head? = some c → isNameChar c = true

/-! ## Marks -/

/-- The position after a printable character. -/
def Mark.after (mark : Mark) (c : Char) : Mark :=
  if isBreak c then mark.nextLine 1 else mark.next

/-- The position after printable characters. -/
def Mark.along (mark : Mark) (text : List Char) : Mark :=
  text.foldl Mark.after mark

/-- A break leads to the start of a line. -/
theorem Mark.after_of_isBreak (mark : Mark) (hc : isBreak c = true) :
    (mark.after c).column = 0 := by
  unfold Mark.after
  rw [if_pos hc]
  rfl

/-- Any character but a break leads one column further. -/
theorem Mark.after_of_not_isBreak (mark : Mark) (hc : isBreak c = false) :
    (mark.after c).column = mark.column + 1 := by
  unfold Mark.after
  rw [if_neg (by simp [hc])]
  rfl

/-- Any character but a break leads away from the start of the line. -/
theorem Mark.column_after_pos (mark : Mark) (hc : isBreak c = false) :
    0 < (mark.after c).column := by
  rw [mark.after_of_not_isBreak hc]
  omega

/-- A text within a line leads as many columns further as it has characters. -/
theorem Mark.along_of_line {text : List Char} (hline : ∀ c ∈ text, isBreak c = false)
    (mark : Mark) :
    mark.along text = ⟨mark.line, mark.column + text.length, mark.index + text.length⟩ := by
  induction text generalizing mark with
  | nil => rfl
  | cons c text ih =>
      obtain ⟨hc, htext⟩ := List.forall_mem_cons.mp hline
      have hnext : mark.after c = mark.next := by
        unfold Mark.after
        rw [if_neg (by simp [hc])]
      have hrest := ih htext mark.next
      unfold Mark.along at hrest ⊢
      rw [List.foldl_cons, hnext, hrest]
      simp only [Mark.next, List.length_cons, Mark.mk.injEq, true_and]
      omega

/-- A character is read as it is, unless it is another one that counts as a line feed. -/
theorem placed_of_feed (mark : Mark) (hc : isFeed c = true → c = '\n') (rest : List Char) :
    placed mark (c :: rest) = ⟨c, mark⟩ :: placed (mark.after c) rest := by
  have hreturn : c ≠ '\r' := by
    rintro rfl
    exact absurd (hc rfl) (by decide)
  rw [placed]
  · cases hfeed : isFeed c with
    | true =>
        obtain rfl := hc hfeed
        rfl
    | false => cases hbreak : isBreak c <;> simp [Mark.after, hbreak]
  · intro rest' hc'
    exact absurd hc' hreturn

/-- A printable character is read as it is. -/
theorem placed_cons (mark : Mark) (hc : isPrintable c = true) (rest : List Char) :
    placed mark (c :: rest) = ⟨c, mark⟩ :: placed (mark.after c) rest :=
  placed_of_feed mark (eq_of_isFeed hc) rest

/-- A text without a byte order mark is left as it is. -/
theorem withoutByteOrderMark_eq {text : List Char} (hmark : byteOrderMark ∉ text) :
    withoutByteOrderMark text = text := by
  cases text with
  | nil => rfl
  | cons c rest =>
      have hc : c ≠ byteOrderMark := (List.ne_of_not_mem_cons hmark).symm
      simp [withoutByteOrderMark, hc]

/-- Within a line there is no document marker. -/
theorem Source.atDocumentMarker_of_column {mark : Mark} (c : Char) (hcolumn : 0 < mark.column)
    (rest : Source) : Source.atDocumentMarker (⟨c, mark⟩ :: rest) = false := by
  have hne : (mark.column == 0) = false := beq_eq_false_iff_ne.mpr (by omega)
  unfold atDocumentMarker atMarker
  simp [hne]

/-! ## Pairs -/

/-- A pair stands at the start of a text or further on. -/
theorem hasPair_cons (first second : Char → Bool) (c : Char) (text : List Char) :
    hasPair first second (c :: text) =
      (first c && text.head?.any second || hasPair first second text) := by
  cases text with
  | nil => simp [hasPair]
  | cons d rest => simp [hasPair]

end SerialLock.Yaml
