import SerialLock.Proofs.Yaml.Placed
import SerialLock.Yaml.Scalar

/-!
# Scalars in single quotes read back

A quote is doubled, and a line after a break is indented.  A text that fits single quotes holds no
line feed and no space beside a break, so that folding takes nothing away from it
(`readSingleQuoted_of_fits`).
-/

set_option autoImplicit false

namespace SerialLock.Yaml

/-- Folding such a gap drops none of its characters. -/
inductive Gap.Kept : Gap → Prop where
  | blanks (seen : List Char) : Kept (.blanks seen)
  | broken (first : Char) (others : List Char) (hfirst : first ≠ '\n') :
      Kept (.broken (some first) others)

variable {c : Char} {gap : Gap} {lineStart : Bool} {text rest next before : List Char}
  {mark : Mark}

/-- A break more is kept by folding, unless it is a line feed. -/
theorem Gap.Kept.folded_addBreak (hkept : gap.Kept) (hc : c ≠ '\n')
    (hgap : gap.isBroken = true ∨ gap = .none) :
    (gap.addBreak c).Kept ∧ (gap.addBreak c).folded = c :: gap.folded := by
  cases hkept with
  | blanks seen =>
      obtain rfl : seen = [] := by simpa [Gap.isBroken, Gap.none] using hgap
      exact ⟨.broken c [] hc, by simp [Gap.addBreak, Gap.folded, hc]⟩
  | broken first others hfirst =>
      refine ⟨.broken first (c :: others) hfirst, ?_⟩
      simp [Gap.addBreak, Gap.folded, hfirst]

/-! ## One character -/

/-- A character, with its quote doubled if it is one. -/
def singleQuotedChar (c : Char) : List Char :=
  if c == '\'' then ['\'', '\''] else [c]

/-- A character is read back, with its quote doubled if it is one, and the gap before it ends. -/
theorem readSingleQuoted_char (hc : isPrintable c = true) (hspace : isSpace c = false)
    (hbreak : isBreak c = false) (hcolumn : 0 < mark.column) :
    ∃ mark', 0 < mark'.column ∧
      readSingleQuoted before gap (placed mark (singleQuotedChar c ++ rest)) =
        readSingleQuoted (c :: (gap.folded ++ before)) .none (placed mark' rest) := by
  have hgap : isGap c = false := by rw [isGap_eq_isSpace hc, hspace]
  unfold singleQuotedChar
  by_cases hquote : c = '\''
  · subst hquote
    refine ⟨(mark.after '\'').after '\'', Mark.column_after_pos _ hbreak, ?_⟩
    have hmarker := Source.atDocumentMarker_of_column '\'' hcolumn
      (placed (mark.after '\'') ('\'' :: rest))
    simp only [beq_self_eq_true, if_true, List.cons_append, List.nil_append]
    rw [placed_cons mark hc, readSingleQuoted]
    simp only [hgap, hbreak, hmarker]
    rw [placed_cons _ hc]
    simp
  · refine ⟨mark.after c, Mark.column_after_pos mark hbreak, ?_⟩
    have hmarker := Source.atDocumentMarker_of_column c hcolumn (placed (mark.after c) rest)
    rw [if_neg (by simpa using hquote), List.cons_append, List.nil_append, placed_cons mark hc,
      readSingleQuoted]
    simp [hgap, hbreak, hmarker, hquote]

/-- A quote that is not doubled ends the scalar. -/
theorem readSingleQuoted_close (hcolumn : 0 < mark.column) :
    readSingleQuoted before gap (placed mark ('\'' :: '\n' :: next)) =
      .ok ((gap.folded ++ before).reverse, placed (mark.after '\'') ('\n' :: next)) := by
  have hmarker := Source.atDocumentMarker_of_column '\'' hcolumn
    (placed (mark.after '\'') ('\n' :: next))
  rw [placed_cons mark (by decide), readSingleQuoted]
  simp only [hmarker]
  rw [placed_cons _ (by decide)]
  simp [isGap, isBreak]

/-- A space goes to the gap. -/
theorem readSingleQuoted_space :
    readSingleQuoted before gap (placed mark (' ' :: rest)) =
      readSingleQuoted before (gap.addBlank ' ') (placed (mark.after ' ') rest) := by
  rw [placed_cons mark (by decide), readSingleQuoted]
  rfl

/-- A break goes to the gap. -/
theorem readSingleQuoted_break (hc : isPrintable c = true) (hbreak : isBreak c = true) :
    readSingleQuoted before gap (placed mark (c :: rest)) =
      readSingleQuoted before (gap.addBreak c) (placed (mark.after c) rest) := by
  have hgap := isGap_of_isBreak hbreak
  rw [placed_cons mark hc, readSingleQuoted]
  simp [hgap, hbreak]

/-- The indentation at the start of a line is passed. -/
theorem readSingleQuoted_indented (hgap : gap.isBroken = lineStart)
    (hcolumn : lineStart = false → 0 < mark.column) :
    ∃ mark', 0 < mark'.column ∧
      readSingleQuoted before gap
        (placed mark ((if lineStart then indentation ++ text else text) ++ rest)) =
      readSingleQuoted before gap (placed mark' (text ++ rest)) := by
  cases lineStart with
  | false => exact ⟨mark, hcolumn rfl, rfl⟩
  | true =>
      cases gap with
      | blanks seen => cases hgap
      | broken first others =>
          refine ⟨(mark.after ' ').after ' ', Mark.column_after_pos _ (by decide), ?_⟩
          simp only [if_true, indentation, List.cons_append, List.nil_append]
          rw [placed_cons mark (by decide), placed_cons _ (by decide), readSingleQuoted,
            readSingleQuoted]
          simp [isGap, Gap.addBlank]

/-! ## A text -/

/-- The rest of a text in single quotes, after the gap `gap`. -/
structure InQuotes (gap : Gap) (text : List Char) : Prop where
  printable : ∀ c ∈ text, isPrintable c = true ∧ c ≠ '\n'
  spaces : hasPair isSpace isBreak text = false ∧ hasPair isBreak isSpace text = false
  kept : gap.Kept
  beforeBreak : gap.isBroken = true ∨ gap = .none ∨ text.head?.any isBreak = false
  beforeSpace : gap.isBroken = true → text.head?.any isSpace = false

/-- The rest of a text in single quotes is one behind each of its characters. -/
theorem InQuotes.tail {gap' : Gap} (h : InQuotes gap (c :: text)) (hkept : gap'.Kept)
    (hbreak : gap'.isBroken = true ∨ gap' = .none ∨ isSpace c = true)
    (hspace : gap'.isBroken = true → isBreak c = true) : InQuotes gap' text := by
  obtain ⟨hspaces, hbreaks⟩ := h.spaces
  rw [hasPair_cons, Bool.or_eq_false_iff] at hspaces hbreaks
  refine ⟨?_, ⟨hspaces.2, hbreaks.2⟩, hkept, ?_, ?_⟩
  · intro d hd
    exact h.printable d (by simp [hd])
  · rcases hbreak with hbroken | hnone | hc
    · exact .inl hbroken
    · exact .inr (.inl hnone)
    · exact .inr (.inr (by simpa [hc] using hspaces.1))
  · intro hbroken
    simpa [hspace hbroken] using hbreaks.1

/-- The rest of a text in single quotes is read back behind what was read before. -/
theorem InQuotes.readSingleQuoted (h : InQuotes gap text)
    (hcolumn : gap.isBroken = false → 0 < mark.column) :
    ∃ mark', readSingleQuoted before gap
        (placed mark (singleQuotedRest gap.isBroken text ++ '\n' :: next)) =
      .ok (((text.reverse ++ gap.folded) ++ before).reverse, placed mark' ('\n' :: next)) := by
  -- a line is indented exactly where the gap before it holds a break
  induction text generalizing gap before mark with
  | nil =>
      obtain ⟨mark', hcolumn', hread⟩ := @readSingleQuoted_indented gap gap.isBroken ['\'']
        ('\n' :: next) before mark rfl hcolumn
      refine ⟨mark'.after '\'', ?_⟩
      unfold singleQuotedRest
      rw [hread, List.singleton_append, readSingleQuoted_close hcolumn']
      rfl
  | cons c text ih =>
      obtain ⟨hc, hfeed⟩ := h.printable c (by simp)
      unfold singleQuotedRest
      cases hbreak : isBreak c with
      | true =>
          have hgap : gap.isBroken = true ∨ gap = .none := by
            rcases h.beforeBreak with hbroken | hnone | hhead
            · exact .inl hbroken
            · exact .inr hnone
            · simp [hbreak] at hhead
          obtain ⟨hkept, hfolded⟩ := h.kept.folded_addBreak hfeed hgap
          have hbroken : (gap.addBreak c).isBroken = true := by cases gap <;> rfl
          have htail := h.tail hkept (.inl hbroken) (fun _ => hbreak)
          obtain ⟨mark', hread⟩ :=
            @ih (gap.addBreak c) before (mark.after c) htail (by simp [hbroken])
          refine ⟨mark', ?_⟩
          rw [if_pos rfl, List.cons_append, readSingleQuoted_break hc hbreak, ← hbroken, hread,
            hfolded]
          simp
      | false =>
          cases hspace : isSpace c with
          | true =>
              obtain rfl : c = ' ' := by simpa [isSpace] using hspace
              have hbroken : gap.isBroken = false := by simpa [isSpace] using h.beforeSpace
              cases h.kept with
              | broken first others hfirst => cases hbroken
              | blanks seen =>
                  have htail := h.tail (.blanks (' ' :: seen)) (.inr (.inr rfl))
                    (by simp [Gap.isBroken])
                  obtain ⟨mark', hread⟩ := @ih (.blanks (' ' :: seen)) before (mark.after ' ') htail
                    (fun _ => Mark.column_after_pos _ hbreak)
                  refine ⟨mark', ?_⟩
                  have hspaces : readSingleQuoted before (.blanks seen)
                      (placed mark (' ' :: (singleQuotedRest false text ++ '\n' :: next))) = _ :=
                    readSingleQuoted_space
                  exact hspaces.trans (hread.trans (by simp [Gap.folded]))
          | false =>
              obtain ⟨middle, hmiddle, hindented⟩ := @readSingleQuoted_indented gap gap.isBroken
                (singleQuotedChar c) (singleQuotedRest false text ++ '\n' :: next) before mark rfl
                hcolumn
              obtain ⟨after, hafter, hchar⟩ := @readSingleQuoted_char c gap
                (singleQuotedRest false text ++ '\n' :: next) before middle hc hspace hbreak hmiddle
              have htail := h.tail (.blanks []) (.inr (.inl rfl)) (by simp [Gap.isBroken])
              obtain ⟨mark', hread⟩ := @ih .none (c :: (gap.folded ++ before)) after htail
                (fun _ => hafter)
              refine ⟨mark', ?_⟩
              rw [if_neg (by simp), List.append_assoc]
              exact hindented.trans (hchar.trans (hread.trans (by simp [Gap.none, Gap.folded])))

/-- A text that fits single quotes is printable. -/
theorem isPrintable_of_fitsSingleQuotes (hfits : fitsSingleQuotes text = true) :
    ∀ c ∈ text, isPrintable c = true := by
  unfold fitsSingleQuotes at hfits
  rw [Bool.and_eq_true, Bool.not_eq_true'] at hfits
  exact isPrintable_of_not_needsEscapes hfits.1

/-- A text that fits single quotes reads back. -/
theorem readSingleQuoted_of_fits (hfits : fitsSingleQuotes text = true) (hfeed : '\n' ∉ text)
    (hcolumn : 0 < mark.column) :
    ∃ mark', readSingleQuoted [] .none
        (placed mark (singleQuotedRest false text ++ '\n' :: next)) =
      .ok (text, placed mark' ('\n' :: next)) := by
  have hprintable := isPrintable_of_fitsSingleQuotes hfits
  unfold fitsSingleQuotes needsEscapes at hfits
  simp only [Bool.and_eq_true, Bool.not_eq_true', Bool.or_eq_false_iff] at hfits
  obtain ⟨⟨-, hspaces⟩, hbreaks⟩ := hfits
  have hquotes : InQuotes .none text := by
    refine ⟨?_, ⟨hspaces, hbreaks⟩, .blanks [], .inr (.inl rfl), by simp [Gap.none, Gap.isBroken]⟩
    intro c hc
    refine ⟨hprintable c hc, ?_⟩
    rintro rfl
    exact hfeed hc
  obtain ⟨mark', hread⟩ := @InQuotes.readSingleQuoted .none text next [] mark hquotes
    (fun _ => hcolumn)
  refine ⟨mark', hread.trans ?_⟩
  simp [Gap.none, Gap.folded]

/-! ## What the quotes hold -/

/-- An indentation has nothing in it but spaces. -/
theorem mem_indented {body : List Char}
    (hmem : c ∈ if lineStart then indentation ++ body else body) : c = ' ' ∨ c ∈ body := by
  split at hmem
  · simpa [indentation] using hmem
  · exact .inr hmem

/-- What is written for a character is that character and quotes. -/
theorem mem_singleQuotedChar {d : Char} (hmem : c ∈ singleQuotedChar d) : c = d ∨ c = '\'' := by
  unfold singleQuotedChar at hmem
  split at hmem
  · exact .inr (by simpa using hmem)
  · exact .inl (by simpa using hmem)

/-- Nothing but spaces and quotes is added to the text. -/
theorem mem_singleQuotedRest (hmem : c ∈ singleQuotedRest lineStart text) :
    c ∈ text ∨ c = ' ' ∨ c = '\'' := by
  induction text generalizing lineStart with
  | nil =>
      unfold singleQuotedRest at hmem
      rcases mem_indented hmem with hspace | hquote
      · exact .inr (.inl hspace)
      · exact .inr (.inr (by simpa using hquote))
  | cons d text ih =>
      have hrest {lineStart : Bool} (hmem : c ∈ singleQuotedRest lineStart text) :
          c ∈ d :: text ∨ c = ' ' ∨ c = '\'' := by
        rcases ih hmem with htext | hadded
        · exact .inl (List.mem_cons_of_mem d htext)
        · exact .inr hadded
      unfold singleQuotedRest at hmem
      split at hmem
      · rcases List.mem_cons.mp hmem with rfl | hmem
        · exact .inl List.mem_cons_self
        · exact hrest hmem
      · rcases List.mem_append.mp hmem with hchar | hmem
        · rcases mem_indented hchar with hspace | hchar
          · exact .inr (.inl hspace)
          · rcases mem_singleQuotedChar hchar with rfl | hquote
            · exact .inl List.mem_cons_self
            · exact .inr (.inr hquote)
        · exact hrest hmem

end SerialLock.Yaml
