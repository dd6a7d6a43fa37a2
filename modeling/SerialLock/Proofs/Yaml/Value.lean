import SerialLock.Proofs.Yaml.Arrival
import SerialLock.Proofs.Yaml.DoubleQuoted
import SerialLock.Proofs.Yaml.Literal
import SerialLock.Proofs.Yaml.SingleQuoted

/-!
# Values of a mapping read back

What is written for a text spells that text (`Spells`): where a value stands the reader takes it for
one scalar and comes to the next entry.  There is a lemma for each style, and the style that is
chosen for a text is one that fits it (`spells_written`).
-/

set_option autoImplicit false

namespace SerialLock.Yaml.Lexer

variable {c : Char} {text : List Char}

/-- Where a value stands, these characters are read as one scalar, up to the next entry. -/
def Spells (written : List Char) (style : Style) (text : List Char) : Prop :=
  ∃ c rest, written = c :: rest ∧ isPrintable c = true ∧ isBreak c = false ∧ c ≠ ' ' ∧ c ≠ '#' ∧
    ∀ (lexer : Lexer) (mark : Mark) (next : List Char) (behind : List Token),
      lexer.At mark (c :: (rest ++ next)) behind [0] false → 0 < mark.column → StartsName next →
      ∃ after, lexer.readToken c (placed (mark.after c) (rest ++ next)) = .ok after ∧
        after.Lands next (.scalar style text :: behind) [0]

/-- A plain scalar. -/
theorem spells_plain (hfits : fitsPlain text = true) : Spells (text ++ ['\n']) .plain text := by
  obtain ⟨c, rest, rfl, hc, hspace, hhyphen⟩ := cons_of_fitsPlain hfits
  have hline := (inPlain_of_fitsPlain hfits).printable
  obtain ⟨hprintable, hbreak⟩ := hline c (by simp)
  have hgap : isGap c = false := by rw [isGap_eq_isSpace hprintable, hspace]
  have hne : c ≠ ' ' := by
    rintro rfl
    cases hspace
  refine ⟨c, rest ++ ['\n'], rfl, hprintable, hbreak, hne, hc '#' (by decide), ?_⟩
  intro lexer mark next behind h hcolumn hnext
  obtain ⟨mark', hcolumn', hread⟩ := readPlain_of_fitsPlain hfits hnext hcolumn
  have hrest : lexer.rest = ⟨c, mark⟩ :: placed (mark.after c) (rest ++ ['\n'] ++ next) := by
    rw [h.rest, placed_cons mark hprintable]
  have hmarker : Source.atDocumentMarker lexer.rest = false := by
    rw [hrest]
    exact Source.atDocumentMarker_of_column c hcolumn _
  have hgap' : c = '-' ∨ c = '?' ∨ c = ':' →
      Source.atGap (placed (mark.after c) (rest ++ ['\n'] ++ next)) = false := by
    intro hc'
    obtain ⟨d, more, rfl, hd⟩ := hhyphen hc'
    obtain ⟨hprintable', hbreak'⟩ := hline d (by simp)
    rw [List.cons_append, List.cons_append, placed_cons _ hprintable']
    simp [Source.atGap, isGap_eq_isSpace hprintable', hd, hbreak']
  have hsource : readPlain false ((lexer.columns.head?.map (· + 1)).getD 0) [] .none lexer.rest =
      .ok ⟨c :: rest, placed mark' next, true⟩ := by
    rw [h.columns, h.rest, ← hread]
    simp
  rw [readToken_plain h.outer hc hgap hgap' hmarker]
  have hscalar := readPlainScalar_eq (noteKey_of_not_allowed h.keyAllowed) h.outer hsource
  refine ⟨_, hscalar, ?_⟩
  refine lands_of_skip hcolumn' (skip_next hnext) ?_ h.columns h.key h.outer
  simp [emit, h.tokens]

/-- A scalar in single quotes. -/
theorem spells_singleQuoted (hfits : fitsSingleQuotes text = true) (hfeed : '\n' ∉ text) :
    Spells ('\'' :: singleQuotedRest false text ++ ['\n']) .singleQuoted text := by
  refine ⟨'\'', singleQuotedRest false text ++ ['\n'], rfl, by decide, by decide, by decide,
    by decide, ?_⟩
  intro lexer mark next behind h hcolumn hnext
  obtain ⟨hhyphen, hstop⟩ := h.not_atMarker (by decide) hcolumn
  have hflow := inFlow_eq_false h.outer
  obtain ⟨mark', hread⟩ := @readSingleQuoted_of_fits text next (mark.after '\'') hfits hfeed
    (mark.column_after_pos (by decide))
  have hscalar : asScalar .singleQuoted (readSingleQuoted [] .none)
      (placed (mark.after '\'') (singleQuotedRest false text ++ ['\n'] ++ next)) =
      .ok (.scalar .singleQuoted text, placed mark' ('\n' :: next)) := by
    unfold asScalar
    rw [List.append_assoc, List.singleton_append, hread]
    rfl
  have htoken (rest : Source) : lexer.readToken '\'' rest =
      lexer.readSimple (asScalar .singleQuoted (readSingleQuoted [] .none)) 1 := by
    unfold Lexer.readToken
    simp [hflow, hhyphen, hstop]
  rw [htoken]
  exact h.readSimple (by decide) hnext hscalar

/-- A scalar in double quotes. -/
theorem spells_doubleQuoted (text : List Char) :
    Spells ('"' :: text.flatMap escaped ++ ['"', '\n']) .doubleQuoted text := by
  refine ⟨'"', text.flatMap escaped ++ ['"', '\n'], rfl, by decide, by decide, by decide,
    by decide, ?_⟩
  intro lexer mark next behind h hcolumn hnext
  obtain ⟨hhyphen, hstop⟩ := h.not_atMarker (by decide) hcolumn
  have hflow := inFlow_eq_false h.outer
  obtain ⟨mark', hread⟩ := @readDoubleQuoted_flatMap ('\n' :: next) [] [] (mark.after '"') text
    (mark.column_after_pos (by decide))
  have hscalar : asScalar .doubleQuoted (readDoubleQuoted [] .none none)
      (placed (mark.after '"') (text.flatMap escaped ++ ['"', '\n'] ++ next)) =
      .ok (.scalar .doubleQuoted text, placed mark' ('\n' :: next)) := by
    unfold asScalar
    rw [List.append_assoc, List.cons_append, List.singleton_append, Gap.none, hread]
    simp [Except.map]
  have htoken (rest : Source) : lexer.readToken '"' rest =
      lexer.readSimple (asScalar .doubleQuoted (readDoubleQuoted [] .none none)) 1 := by
    unfold Lexer.readToken
    simp [hflow, hhyphen, hstop]
  rw [htoken]
  exact h.readSimple (by decide) hnext hscalar

/-- A literal block. -/
theorem spells_literal (hfits : fitsLiteral text = true) (hne : text ≠ []) :
    Spells ('|' :: literalHints text ++ '\n' :: literalRest true text
      ++ (if text.getLast?.any isBreak then [] else ['\n'])) .literal text := by
  refine ⟨'|', literalHints text ++ '\n' :: literalRest true text
    ++ (if text.getLast?.any isBreak then [] else ['\n']), rfl, by decide, by decide, by decide,
    by decide, ?_⟩
  intro lexer mark next behind h hcolumn hnext
  obtain ⟨hhyphen, hstop⟩ := h.not_atMarker (by decide) hcolumn
  have hflow := inFlow_eq_false h.outer
  have htoken (rest : Source) : lexer.readToken '|' rest = lexer.readBlockScalar true := by
    unfold Lexer.readToken
    simp [hflow, hhyphen, hstop]
  obtain ⟨first, hfirst, hheader⟩ := @readBlockHeader_literalHints
    (literalRest true text ++ ((if text.getLast?.any isBreak then [] else ['\n']) ++ next)) text
    (mark.after '|')
  obtain ⟨block, mark', hcolumn', hblock, hfinished⟩ :=
    readBlock_of_fitsLiteral hfits hne hnext hfirst
  have hrest : lexer.rest.drop 1 = placed (mark.after '|') (literalHints text ++ '\n' ::
      (literalRest true text ++ ((if text.getLast?.any isBreak then [] else ['\n']) ++ next))) := by
    rw [h.rest, placed_cons mark (by decide), List.drop_one, List.tail_cons]
    simp only [List.append_assoc, List.cons_append]
  have hindent : (incrementOf text).map (fun increment => 0 + increment) = incrementOf text := by
    simp
  rw [htoken]
  unfold readBlockScalar
  rw [dropKey_eq h.key]
  simp only [bind, Except.bind, hrest, hheader, h.columns, List.head?_cons, Option.getD_some,
    hindent, Option.map_some, hblock, hfinished, if_true]
  refine ⟨_, rfl, ?_⟩
  refine lands_of_skip hcolumn' (skip_next hnext) ?_ rfl h.key h.outer
  simp [emit, h.tokens]

/-- A text is written plain only where it fits. -/
theorem styleOf_eq_plain (hstyle : styleOf text = .plain) : fitsPlain text = true := by
  unfold styleOf at hstyle
  grind

/-- A text is written in single quotes only where it fits and has no line feed. -/
theorem styleOf_eq_singleQuoted (hstyle : styleOf text = .singleQuoted) :
    fitsSingleQuotes text = true ∧ '\n' ∉ text := by
  unfold styleOf at hstyle
  grind

/-- A text is written as a literal only where it fits and is not empty. -/
theorem styleOf_eq_literal (hstyle : styleOf text = .literal) :
    fitsLiteral text = true ∧ text ≠ [] := by
  unfold styleOf at hstyle
  grind

/-- No text is written folded. -/
theorem styleOf_ne_folded (text : List Char) : styleOf text ≠ .folded := by
  unfold styleOf
  grind

/-- What is written for a text spells it, in the style that was chosen. -/
theorem spells_written (text : List Char) : Spells (written text) (styleOf text) text := by
  unfold written
  cases hstyle : styleOf text with
  | plain => exact spells_plain (styleOf_eq_plain hstyle)
  | singleQuoted =>
      obtain ⟨hfits, hfeed⟩ := styleOf_eq_singleQuoted hstyle
      exact spells_singleQuoted hfits hfeed
  | doubleQuoted => exact spells_doubleQuoted text
  | literal =>
      obtain ⟨hfits, hne⟩ := styleOf_eq_literal hstyle
      exact spells_literal hfits hne
  | folded => exact absurd hstyle (styleOf_ne_folded text)

/-- What would be read as a truth value is quoted. -/
example : written "true".toList = "'true'\n".toList := by
  decide +kernel

/-- All that is written for a text may stand in a document. -/
theorem isPrintable_of_mem_written (hmem : c ∈ written text) : isPrintable c = true := by
  unfold written at hmem
  cases hstyle : styleOf text with
  | plain =>
      simp only [hstyle, List.mem_append, List.mem_singleton] at hmem
      rcases hmem with hmem | rfl
      · exact ((inPlain_of_fitsPlain (styleOf_eq_plain hstyle)).printable c hmem).1
      · decide
  | singleQuoted =>
      obtain ⟨hfits, -⟩ := styleOf_eq_singleQuoted hstyle
      simp only [hstyle, List.mem_append, List.mem_cons] at hmem
      rcases hmem with (rfl | hmem) | rfl | hmem
      · decide
      · rcases mem_singleQuotedRest hmem with htext | rfl | rfl
        · exact isPrintable_of_fitsSingleQuotes hfits c htext
        · decide
        · decide
      · decide
      · cases hmem
  | doubleQuoted =>
      simp only [hstyle, List.mem_append, List.mem_cons, List.mem_flatMap] at hmem
      rcases hmem with (rfl | ⟨d, -, hmem⟩) | rfl | rfl | hmem
      · decide
      · exact isPrintable_of_mem_escaped hmem
      · decide
      · decide
      · cases hmem
  | literal =>
      obtain ⟨hfits, -⟩ := styleOf_eq_literal hstyle
      simp only [hstyle, List.mem_append, List.mem_cons] at hmem
      rcases hmem with ((rfl | hmem) | rfl | hmem) | hmem
      · decide
      · exact isPrintable_of_mem_literalHints hmem
      · decide
      · rcases mem_literalRest hmem with htext | rfl
        · exact isPrintable_of_fitsLiteral hfits c htext
        · decide
      · split at hmem
        · cases hmem
        · obtain rfl : c = '\n' := by simpa using hmem
          decide
  | folded => exact absurd hstyle (styleOf_ne_folded text)

end SerialLock.Yaml.Lexer
