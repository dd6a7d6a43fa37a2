import SerialLock.Proofs.Yaml.Entry
import SerialLock.Yaml.Node.Read

/-!
# Mappings of scalars read back

A mapping is written as its entries, one after the other.  Its tokens are those of the entries
(`lexemes_mappingText`), and its document is a mapping with a node for every name and for every
value (`ofText_mappingText`).  Both are by induction on the entries.
-/

set_option autoImplicit false

namespace SerialLock.Yaml

/-- An entry of a mapping: its name, what is written for its value, and the scalar that this
spells. -/
structure Field where
  name : List Char
  written : List Char
  style : Style
  text : List Char

namespace Field

/-- The name is one that settings may have, and what is written reads back as the scalar. -/
structure Valid (field : Field) : Prop where
  name_chars : ∀ c ∈ field.name, isNameChar c = true
  name_ne_nil : field.name ≠ []
  name_short : field.name.length ≤ 1024
  printable : ∀ c ∈ field.written, isPrintable c = true
  spells : Lexer.Spells field.written field.style field.text

/-- The tokens of an entry. -/
def tokens (field : Field) : List Token :=
  [.key, .scalar .plain field.name, .value, .scalar field.style field.text]

end Field

/-- The entries of a mapping, one after the other. -/
def mappingText : List Field → List Char
  | [] => []
  | field :: rest => entry field.name field.written (mappingText rest)

/-- The tokens of a mapping. -/
def mappingTokens (fields : List Field) : List Token :=
  .blockMappingStart :: (fields.flatMap Field.tokens ++ [.blockEnd])

/-- The entries of a mapping node with these entries in its text. -/
inductive HoldsFields : List Field → List (Node × Node) → Prop where
  | nil : HoldsFields [] []
  | cons (field : Field) (nameMark valueMark : Mark) {fields : List Field}
      {entries : List (Node × Node)} (hrest : HoldsFields fields entries) :
      HoldsFields (field :: fields) ((.scalar nameMark none none .plain field.name,
        .scalar valueMark none none field.style field.text) :: entries)

variable {field : Field} {fields : List Field}

/-! ## Characters -/

/-- The text of a mapping starts with the name of its first entry, if it has one. -/
theorem startsName_mappingText (hvalid : ∀ field ∈ fields, field.Valid) :
    StartsName (mappingText fields) := by
  cases fields with
  | nil => simp [StartsName, mappingText]
  | cons field fields =>
      obtain ⟨hfield, -⟩ := List.forall_mem_cons.mp hvalid
      obtain ⟨c, name, hname⟩ := List.exists_cons_of_ne_nil hfield.name_ne_nil
      intro d hd
      have hc : c = d := by simpa [mappingText, entry, hname] using hd
      exact hc ▸ hfield.name_chars c (by simp [hname])

/-- The text of a mapping is printable. -/
theorem isPrintable_of_mem_mappingText (hvalid : ∀ field ∈ fields, field.Valid) :
    ∀ c ∈ mappingText fields, isPrintable c = true := by
  induction fields with
  | nil => simp [mappingText]
  | cons field fields ih =>
      obtain ⟨hfield, hvalid'⟩ := List.forall_mem_cons.mp hvalid
      have hrest := ih hvalid'
      intro c hc
      simp only [mappingText, entry, List.mem_append, List.mem_cons] at hc
      rcases hc with hname | rfl | rfl | hwritten | hnext
      · exact isPrintable_of_isNameChar (hfield.name_chars c hname)
      · decide
      · decide
      · exact hfield.printable c hwritten
      · exact hrest c hnext

/-- An entry has a character at least for each of its tokens but the key. -/
theorem length_mappingText (hvalid : ∀ field ∈ fields, field.Valid) :
    3 * fields.length ≤ (mappingText fields).length := by
  induction fields with
  | nil => simp
  | cons field fields ih =>
      obtain ⟨hfield, hvalid'⟩ := List.forall_mem_cons.mp hvalid
      have hrest := ih hvalid'
      have hname := List.length_pos_iff.mpr hfield.name_ne_nil
      simp only [mappingText, entry, List.length_append, List.length_cons]
      omega

/-! ## Tokens -/

/-- Entries of an open mapping leave their tokens. -/
theorem Lexer.run_fields {lexer : Lexer} {behind : List Token} (steps : Nat)
    (hvalid : ∀ field ∈ fields, field.Valid) (h : lexer.Lands (mappingText fields) behind [0]) :
    ∃ after, run (steps + 3 * fields.length) lexer = run steps after ∧
      after.Lands [] ((fields.flatMap Field.tokens).reverse ++ behind) [0] := by
  induction fields generalizing lexer behind with
  | nil => exact ⟨lexer, rfl, h⟩
  | cons field fields ih =>
      obtain ⟨hfield, hrest⟩ := List.forall_mem_cons.mp hvalid
      obtain ⟨middle, hentry, hmiddle⟩ := run_entry (steps + 3 * fields.length) h (.inr rfl)
        hfield.name_chars hfield.name_ne_nil hfield.name_short hfield.spells
        (startsName_mappingText hrest)
      obtain ⟨after, hrun, hafter⟩ := ih hrest hmiddle
      refine ⟨after, ?_, ?_⟩
      · rw [← hrun, ← hentry]
        congr 1
      · simpa [Field.tokens] using hafter

/-- The entries of a mapping open it, leave their tokens and close it. -/
theorem Lexer.run_mapping {lexer : Lexer} (steps : Nat) (hvalid : ∀ field ∈ fields, field.Valid)
    (hne : fields ≠ []) (h : lexer.Lands (mappingText fields) [] []) :
    ∃ after, run (steps + 1 + 3 * fields.length) lexer = .ok after ∧
      after.tokens.map Lexeme.token = (mappingTokens fields).reverse := by
  obtain ⟨field, fields, rfl⟩ := List.exists_cons_of_ne_nil hne
  obtain ⟨hfield, hrest⟩ := List.forall_mem_cons.mp hvalid
  obtain ⟨opened, hfirst, hopened⟩ := run_entry (steps + 1 + 3 * fields.length) h (.inl rfl)
    hfield.name_chars hfield.name_ne_nil hfield.name_short hfield.spells
    (startsName_mappingText hrest)
  obtain ⟨last, hlast, hend⟩ := run_fields (steps + 1) hrest hopened
  obtain ⟨arrived, mark, happroach, hat, -⟩ := hend
  obtain ⟨after, hafter, htokens⟩ := run_end steps happroach hat
  refine ⟨after, ?_, ?_⟩
  · rw [List.length_cons, Nat.mul_succ, ← Nat.add_assoc]
    exact hfirst.trans (hlast.trans hafter)
  · simp [htokens, mappingTokens, Field.tokens]

/-- The tokens of a mapping with an entry at least. -/
theorem lexemes_mappingText (hvalid : ∀ field ∈ fields, field.Valid) (hne : fields ≠ []) :
    ∃ found, lexemes (mappingText fields) = .ok found ∧
      found.map Lexeme.token = mappingTokens fields := by
  have hprintable := isPrintable_of_mem_mappingText hvalid
  have hallowed : (mappingText fields).all isAllowed = true := by
    rw [List.all_eq_true]
    exact fun c hc => isAllowed_of_isPrintable (hprintable c hc)
  have hmark : withoutByteOrderMark (mappingText fields) = mappingText fields :=
    withoutByteOrderMark_eq fun hmem => ne_of_isPrintable (hprintable _ hmem) (by decide) rfl
  let start : Mark := ⟨0, 0, 0⟩
  let lexer : Lexer :=
    { rest := placed start (mappingText fields), finish := finish start (mappingText fields) }
  have happroach : lexer.approach = .ok lexer :=
    Lexer.approach_eq rfl (by simp [lexer]) (Lexer.skip_next (startsName_mappingText hvalid)) rfl
  have hlands : lexer.Lands (mappingText fields) [] [] :=
    ⟨lexer, start, happroach, ⟨rfl, rfl, rfl, rfl, rfl, rfl⟩, rfl⟩
  have hlength := length_mappingText hvalid
  obtain ⟨after, hrun, htokens⟩ := Lexer.run_mapping
    ((mappingText fields).length - 3 * fields.length) hvalid hne hlands
  refine ⟨after.tokens.reverse, ?_, ?_⟩
  · unfold lexemes
    rw [if_pos hallowed, hmark]
    have hsteps : (mappingText fields).length - 3 * fields.length + 1 + 3 * fields.length =
        (mappingText fields).length + 1 := by omega
    rw [hsteps] at hrun
    simp only
    rw [show Lexer.run _ _ = _ from hrun]
    rfl
  · rw [List.map_reverse, htokens, List.reverse_reverse]

/-! ## Nodes -/

/-- A scalar without properties is a node of its own. -/
theorem readNode_scalar (handles : Handles) (steps : Nat) (context : Context) (style : Style)
    (text : List Char) (start finish : Mark) (rest : List Lexeme)
    (anchors : List (List Char × Nat)) :
    readNode handles (steps + 1) context ⟨⟨.scalar style text, start, finish⟩ :: rest, anchors⟩ =
      .ok (.scalar start none none style text, ⟨rest, anchors⟩) := by
  cases context <;> rfl

/-- The entries of a mapping are read up to its end. -/
theorem readEntries_fields (handles : Handles) {steps : Nat} {found : List Lexeme}
    (anchors : List (List Char × Nat)) (hsteps : fields.length + 1 < steps)
    (hfound : found.map Lexeme.token = fields.flatMap Field.tokens ++ [.blockEnd]) :
    ∃ entries, readEntries handles steps ⟨found, anchors⟩ = .ok (entries, ⟨[], anchors⟩) ∧
      HoldsFields fields entries := by
  induction fields generalizing found steps with
  | nil =>
      obtain ⟨steps, rfl⟩ := Nat.exists_eq_succ_of_ne_zero (show steps ≠ 0 by omega)
      obtain ⟨last, rest, rfl, hlast, hrest⟩ := List.map_eq_cons_iff.mp hfound
      obtain rfl := List.map_eq_nil_iff.mp hrest
      obtain ⟨_, start, finish⟩ := last
      cases hlast
      exact ⟨[], rfl, .nil⟩
  | cons field fields ih =>
      rw [List.length_cons] at hsteps
      -- one step for the entry, and one for the node of its name or of its value
      obtain ⟨steps, rfl⟩ : ∃ before, steps = before + 2 := ⟨steps - 2, by omega⟩
      obtain ⟨⟨_, _, _⟩, afterKey, rfl, rfl, hkey⟩ := List.map_eq_cons_iff.mp hfound
      obtain ⟨⟨_, nameMark, _⟩, afterName, rfl, rfl, hname⟩ := List.map_eq_cons_iff.mp hkey
      obtain ⟨⟨_, _, _⟩, afterValue, rfl, rfl, hvalue⟩ := List.map_eq_cons_iff.mp hname
      obtain ⟨⟨_, valueMark, _⟩, rest, rfl, rfl, hrest⟩ := List.map_eq_cons_iff.mp hvalue
      obtain ⟨entries, hread, hentries⟩ := @ih (steps + 1) rest (by omega) hrest
      refine ⟨_, ?_, .cons field nameMark valueMark hentries⟩
      rw [readEntries]
      simp [Cursor.peek, Cursor.advance, endsBlockPart, readNode_scalar, hread, bind, Except.bind,
        pure, Except.pure]

/-- Every entry has four tokens. -/
theorem length_flatMap_tokens (fields : List Field) :
    (fields.flatMap Field.tokens).length = 4 * fields.length := by
  induction fields with
  | nil => rfl
  | cons field fields ih =>
      rw [List.flatMap_cons, List.length_append, ih, List.length_cons]
      simp only [Field.tokens, List.length_cons, List.length_nil]
      omega

/-- The document of a mapping with an entry at least. -/
theorem ofText_mappingText (hvalid : ∀ field ∈ fields, field.Valid) (hne : fields ≠ []) :
    ∃ mark entries, Document.ofText (mappingText fields) = .ok ⟨some (.mapping mark none entries)⟩ ∧
      HoldsFields fields entries := by
  obtain ⟨found, hlexemes, htokens⟩ := lexemes_mappingText hvalid hne
  obtain ⟨⟨_, mark, finish⟩, content, rfl, rfl, hcontent⟩ := List.map_eq_cons_iff.mp htokens
  have hlength : content.length = 4 * fields.length + 1 := by
    rw [← List.length_map Lexeme.token, hcontent, List.length_append, length_flatMap_tokens]
    rfl
  obtain ⟨entries, hread, hentries⟩ := @readEntries_fields fields usualHandles
    (3 * (content.length + 1) + 7) content [] (by omega) hcontent
  refine ⟨mark, entries, ?_, hentries⟩
  unfold Document.ofText
  rw [hlexemes]
  simp [Document.ofLexemes, readDirectives, readRoot, readNode, readProperties, readTagProperty,
    readAnchorProperty, Cursor.peek, Cursor.advance, Cursor.here, bind, Except.bind, hread, pure,
    Except.pure]

end SerialLock.Yaml
