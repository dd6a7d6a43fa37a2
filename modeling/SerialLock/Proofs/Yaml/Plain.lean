import SerialLock.Proofs.Yaml.Placed
import SerialLock.Yaml.Scalar

/-!
# Plain scalars read back

A text that fits a plain scalar reads back up to the end of its line (`readPlain_of_fitsPlain`), and
a word of letters reads back as a key up to the colon after it (`readPlain_name`).
-/

set_option autoImplicit false

namespace SerialLock.Yaml

/-- The characters with which no plain scalar starts. -/
def indicators : List Char :=
  "#,[]\x7b\x7d&*!|>'\"%@\x60".toList

/-- No character of a name is an indicator. -/
theorem ne_indicator_of_isNameChar {c : Char} (hc : isNameChar c = true) :
    ∀ d ∈ indicators, c ≠ d := by
  have hall : indicators.all (fun d => !isNameChar d) = true := by decide
  intro d hd
  have hother : isNameChar d = false := by simpa using List.all_eq_true.mp hall d hd
  exact ne_of_isNameChar hc hother

variable {c : Char} {indent : Nat} {text rest next seen before : List Char} {mark : Mark}

/-! ## One character -/

/-- A character of the scalar takes the gap before it along. -/
theorem readPlain_char (hc : isPrintable c = true) (hspace : isSpace c = false)
    (hbreak : isBreak c = false)
    (hgap : seen ≠ [] → 0 < mark.column ∧ indent ≤ mark.column ∧ c ≠ '#')
    (hcolon : c = ':' → Source.atGap (placed (mark.after c) rest) = false) :
    readPlain false indent before (.blanks seen) (placed mark (c :: rest)) =
      readPlain false indent (c :: (seen ++ before)) .none (placed (mark.after c) rest) := by
  have hends : (c == ':' && Source.atGap (placed (mark.after c) rest)) = false := by
    by_cases h : c = ':'
    · simp [hcolon h]
    · simp [h]
  rw [placed_cons mark hc, readPlain]
  cases seen with
  | nil => simp [isGap_eq_isSpace hc, hspace, hbreak, hends, Gap.isNone, Gap.folded]
  | cons d seen =>
      obtain ⟨hcolumn, hindent, hhash⟩ := hgap (by simp)
      have hmarker := Source.atDocumentMarker_of_column c hcolumn (placed (mark.after c) rest)
      simp [isGap_eq_isSpace hc, hspace, hbreak, hends, hhash, hmarker, Nat.not_lt.mpr hindent,
        Gap.folded]

/-- A space makes the gap longer. -/
theorem readPlain_space :
    readPlain false indent before (.blanks seen) (placed mark (' ' :: rest)) =
      readPlain false indent before (.blanks (' ' :: seen)) (placed (mark.after ' ') rest) := by
  rw [placed_cons mark (by decide), readPlain]
  rfl

/-! ## A line -/

/-- The rest of a line that fits a plain scalar, after the gap `seen`. -/
structure InPlain (seen text : List Char) : Prop where
  printable : ∀ c ∈ text, isPrintable c = true ∧ isBreak c = false
  colon : text.getLast? ≠ some ':' ∧ hasPair (· == ':') isSpace text = false
  hash : hasPair isSpace (· == '#') text = false ∧ (seen ≠ [] → text.head? ≠ some '#')
  space : text.getLast? ≠ some ' ' ∧ (text = [] → seen = [])

namespace InPlain

/-- A colon is followed by a character that does not end it. -/
theorem atGap (h : InPlain seen (':' :: text)) (mark : Mark) :
    Source.atGap (placed mark (text ++ '\n' :: next)) = false := by
  obtain ⟨hlast, hpair⟩ := h.colon
  cases text with
  | nil => simp at hlast
  | cons d text =>
      obtain ⟨hd, hbreak⟩ := h.printable d (by simp)
      rw [hasPair_cons] at hpair
      have hspace : isSpace d = false := by
        rw [Bool.or_eq_false_iff] at hpair
        simpa using hpair.1
      rw [List.cons_append, placed_cons mark hd]
      simp [Source.atGap, isGap_eq_isSpace hd, hspace, hbreak]

/-- The rest of a plain scalar is one behind each of its characters. -/
theorem tail (h : InPlain seen (c :: text)) :
    InPlain (if isSpace c then c :: seen else []) text := by
  have hlast {d : Char} (hne : (c :: text).getLast? ≠ some d) : text.getLast? ≠ some d := by
    cases text with
    | nil => simp
    | cons e text => rwa [List.getLast?_cons_cons] at hne
  obtain ⟨hcolon, hcolons⟩ := h.colon
  obtain ⟨hhash, -⟩ := h.hash
  rw [hasPair_cons, Bool.or_eq_false_iff] at hcolons hhash
  refine ⟨?_, ⟨hlast hcolon, hcolons.2⟩, ⟨hhash.2, ?_⟩, ⟨hlast h.space.1, ?_⟩⟩
  · intro d hd
    exact h.printable d (by simp [hd])
  · intro hseen hhead
    cases hspace : isSpace c with
    | false => simp [hspace] at hseen
    | true => simp [hspace, hhead] at hhash
  · rintro rfl
    cases hspace : isSpace c with
    | false => simp
    | true =>
        obtain rfl : c = ' ' := by simpa [isSpace] using hspace
        exact absurd rfl h.space.1

/-- A line reads back up to its end. -/
theorem readPlain (h : InPlain seen text) (hcolumn : 0 < mark.column)
    (hindent : indent ≤ mark.column) :
    ∃ mark', readPlain false indent before (.blanks seen) (placed mark (text ++ '\n' :: next)) =
      readPlain false indent (text.reverse ++ seen ++ before) .none
        (placed mark' ('\n' :: next)) := by
  -- a space makes the gap longer, and any other character empties it
  induction text generalizing seen before mark with
  | nil =>
      obtain rfl := h.space.2 rfl
      exact ⟨mark, rfl⟩
  | cons c text ih =>
      obtain ⟨hc, hbreak⟩ := h.printable c (by simp)
      have htail := h.tail
      have hafter : (mark.after c).column = mark.column + 1 := Mark.after_of_not_isBreak mark hbreak
      cases hspace : isSpace c with
      | true =>
          obtain rfl : c = ' ' := by simpa [isSpace] using hspace
          rw [List.cons_append, readPlain_space]
          rw [hspace, if_pos rfl] at htail
          obtain ⟨mark', hread⟩ :=
            @ih (' ' :: seen) before (mark.after ' ') htail (by omega) (by omega)
          exact ⟨mark', by rw [hread]; simp⟩
      | false =>
          rw [List.cons_append, readPlain_char hc hspace hbreak]
          · rw [hspace, if_neg (by simp)] at htail
            obtain ⟨mark', hread⟩ :=
              @ih [] (c :: (seen ++ before)) (mark.after c) htail (by omega) (by omega)
            exact ⟨mark', by rw [Gap.none, hread]; simp [Gap.none]⟩
          · intro hseen
            refine ⟨hcolumn, hindent, ?_⟩
            rintro rfl
            exact h.hash.2 hseen rfl
          · rintro rfl
            exact h.atGap _

end InPlain

/-- A text that fits a plain scalar is the rest of one from its start. -/
theorem inPlain_of_fitsPlain (hfits : fitsPlain text = true) : InPlain [] text := by
  unfold fitsPlain holdsIndicator at hfits
  simp only [Bool.and_eq_true, List.all_eq_true, Bool.not_eq_true', Bool.or_eq_false_iff,
    beq_eq_false_iff_ne] at hfits
  obtain ⟨⟨⟨⟨⟨hall, -⟩, hlast⟩, -⟩, ⟨⟨hcolon, hcolons⟩, hhash⟩⟩, -⟩ := hfits
  refine ⟨hall, ⟨hcolon, hcolons⟩, ⟨hhash, by simp⟩, ⟨?_, fun _ => rfl⟩⟩
  intro hspace
  simp [hspace, isSpace] at hlast

/-! ## A whole scalar -/

/-- What starts a plain scalar that fits. -/
theorem cons_of_fitsPlain (hfits : fitsPlain text = true) :
    ∃ c rest, text = c :: rest ∧ (∀ d ∈ indicators, c ≠ d) ∧ isSpace c = false ∧
      (c = '-' ∨ c = '?' ∨ c = ':' → ∃ d more, rest = d :: more ∧ isSpace d = false) := by
  cases text with
  | nil => simp [fitsPlain, startsIndicator] at hfits
  | cons c rest =>
      have hstarts : startsIndicator (c :: rest) = false := by
        unfold fitsPlain at hfits
        simp only [Bool.and_eq_true, Bool.not_eq_true'] at hfits
        exact hfits.1.1.2
      have hspace : isSpace c = false := by
        unfold fitsPlain at hfits
        simp only [Bool.and_eq_true, Bool.not_eq_true'] at hfits
        simpa using hfits.1.1.1.1.2
      unfold startsIndicator at hstarts
      rw [Bool.or_eq_false_iff] at hstarts
      refine ⟨c, rest, rfl, ?_, hspace, ?_⟩
      · rintro d hd rfl
        simp only [List.contains_eq_mem, decide_eq_false_iff_not] at hstarts
        exact hstarts.1 hd
      · intro hc
        have hc' : (c == '-' || c == '?' || c == ':') = true := by simpa [or_assoc] using hc
        have hhead := hstarts.2
        rw [hc', Bool.true_and] at hhead
        cases rest with
        | nil => cases hhead
        | cons d more => exact ⟨d, more, rfl, by simpa using hhead⟩

/-- A plain scalar ends before a line that is not indented. -/
theorem readPlain_newline (hnext : StartsName next) (mark : Mark) :
    readPlain false 1 text .none (placed mark ('\n' :: next)) =
      .ok ⟨text.reverse, placed (mark.after '\n') next, true⟩ := by
  have hstart : readPlain false 1 text .none (placed mark ('\n' :: next)) =
      readPlain false 1 text (.broken (some '\n') []) (placed (mark.after '\n') next) := by
    rw [placed_cons mark (by decide), readPlain]
    rfl
  rw [hstart]
  cases next with
  | nil => rfl
  | cons c next =>
      have hc := hnext c rfl
      have hcolumn : (mark.after '\n').column = 0 := rfl
      have hgap := isGap_of_isNameChar hc
      have hbreak := isBreak_of_isNameChar hc
      rw [placed_cons _ (isPrintable_of_isNameChar hc), readPlain]
      simp [hgap, hbreak, hcolumn, Gap.isNone, Gap.isBroken]

/-- A text that fits a plain scalar reads back up to the next line. -/
theorem readPlain_of_fitsPlain (hfits : fitsPlain text = true) (hnext : StartsName next)
    (hcolumn : 0 < mark.column) :
    ∃ mark', mark'.column = 0 ∧
      readPlain false 1 [] .none (placed mark (text ++ '\n' :: next)) =
        .ok ⟨text, placed mark' next, true⟩ := by
  obtain ⟨last, hread⟩ := @InPlain.readPlain 1 text next [] [] mark
    (inPlain_of_fitsPlain hfits) hcolumn hcolumn
  refine ⟨last.after '\n', rfl, ?_⟩
  rw [Gap.none, hread, readPlain_newline hnext]
  simp

/-- The name of a setting reads back up to the colon after it. -/
theorem readPlain_name (hword : ∀ c ∈ text, isNameChar c = true) :
    readPlain false indent before .none (placed mark (text ++ ':' :: ' ' :: rest)) =
      .ok ⟨before.reverse ++ text, placed (mark.along text) (':' :: ' ' :: rest), false⟩ := by
  induction text generalizing before mark with
  | nil =>
      have hends : Source.atGap (placed (mark.after ':') (' ' :: rest)) = true := by
        rw [placed_cons _ (by decide)]
        rfl
      have hmark : mark.along [] = mark := rfl
      rw [hmark, List.nil_append, placed_cons mark (by decide), readPlain]
      simp [hends, isGap, isBreak, Gap.none, Gap.isNone, Gap.isBroken]
  | cons c text ih =>
      obtain ⟨hc, htext⟩ := List.forall_mem_cons.mp hword
      have hspace : isSpace c = false := by
        have hne : c ≠ ' ' := ne_of_isNameChar hc (by decide)
        simp [isSpace, hne]
      have hbreak := isBreak_of_isNameChar hc
      have hcolon : c ≠ ':' := ne_of_isNameChar hc (by decide)
      rw [List.cons_append, Gap.none, readPlain_char (isPrintable_of_isNameChar hc) hspace hbreak
        (by simp) (fun h => absurd h hcolon), ih htext]
      simp [Mark.along]

end SerialLock.Yaml
