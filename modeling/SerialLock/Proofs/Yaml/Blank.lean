import SerialLock.Proofs.Results
import SerialLock.Proofs.Text.Trim
import SerialLock.Proofs.Yaml.Mapping

/-!
# Blank texts

White space starts no indicator.  So a text of nothing else has no token but plain scalars: what is
white space in other languages is a character like others here (`tokens_of_isBlank`).  Its document is
no mapping, and a text that holds a mapping is not blank (`trim_ne_nil_of_mapping`).
-/

set_option autoImplicit false

namespace SerialLock.Yaml

variable {c d : Char} {mark : Mark} {text : List Char}

/-- White space is not a character that is none. -/
theorem ne_of_isBlank (hc : Text.isBlank c = true) (hd : Text.isBlank d = false) : c ≠ d := by
  rintro rfl
  rw [hc] at hd
  cases hd

/-- Line breaks that are made alike stay white space. -/
theorem isBlank_of_mem_placed (htext : ∀ c ∈ text, Text.isBlank c = true) :
    ∀ p ∈ placed mark text, Text.isBlank p.char = true := by
  have hblank : Text.isBlank '\n' = true := by decide
  induction mark, text using placed.induct with
  | case1 mark => simp [placed]
  | case2 mark rest ih =>
      have hrest := ih fun c hc => htext c (by simp [hc])
      simpa [placed, hblank] using hrest
  | case3 mark c rest hreturn hfeed ih =>
      have hrest := ih fun c hc => htext c (by simp [hc])
      rw [placed, if_pos hfeed]
      · simpa [hblank] using hrest
      · exact hreturn
  | case4 mark c rest hreturn hfeed hbreak ih =>
      have hrest := ih fun c hc => htext c (by simp [hc])
      rw [placed, if_neg hfeed, if_pos hbreak]
      · simpa [htext c (by simp)] using hrest
      · exact hreturn
  | case5 mark c rest hreturn hfeed hbreak ih =>
      have hrest := ih fun c hc => htext c (by simp [hc])
      rw [placed, if_neg hfeed, if_neg hbreak]
      · simpa [htext c (by simp)] using hrest
      · exact hreturn

/-- Without a byte order mark there is what stands behind it. -/
theorem withoutByteOrderMark_suffix (text : List Char) : withoutByteOrderMark text <:+ text := by
  cases text with
  | nil => exact List.suffix_refl []
  | cons c rest =>
      simp only [withoutByteOrderMark]
      split
      · exact List.suffix_cons c rest
      · exact List.suffix_refl _

/-- Reading a plain scalar leaves an end of what was there. -/
theorem readPlain_rest {inFlow : Bool} {indent : Nat} {seen : List Char} {gap : Gap}
    {source : Source} {plain : Plain} (hread : readPlain inFlow indent seen gap source = .ok plain) :
    plain.rest <:+ source := by
  induction source generalizing seen gap with
  | nil =>
      cases hread
      exact List.suffix_refl []
  | cons p rest ih =>
      unfold readPlain at hread
      have hlater {seen : List Char} {gap : Gap}
          (hread : readPlain inFlow indent seen gap rest = .ok plain) : plain.rest <:+ p :: rest :=
        (ih hread).trans (List.suffix_cons p rest)
      simp only at hread
      split at hread
      · split at hread
        · cases hread
        · exact hlater hread
      · split at hread
        · exact hlater hread
        · split at hread
          · cases hread
            exact List.suffix_refl _
          · split at hread
            · cases hread
            · split at hread
              · cases hread
                exact List.suffix_refl _
              · exact hlater hread

namespace Lexer

variable {lexer next : Lexer} {steps : Nat}

/-- Passing a gap leaves an end of what was there. -/
theorem skip_rest (inFlow keyAllowed inComment : Bool) (source : Source) :
    (skip inFlow keyAllowed inComment source).1 <:+ source := by
  induction source generalizing keyAllowed inComment with
  | nil => exact List.suffix_refl []
  | cons p rest ih =>
      have hlater (keyAllowed inComment : Bool) :
          (skip inFlow keyAllowed inComment rest).1 <:+ p :: rest :=
        (ih keyAllowed inComment).trans (List.suffix_cons p rest)
      unfold skip
      simp only
      split
      · exact hlater _ _
      · split
        · exact hlater _ _
        · split
          · exact hlater _ _
          · split
            · exact hlater _ _
            · exact List.suffix_refl _

/-- There is nothing but white space left, and nothing but plain scalars behind. -/
structure InBlank (lexer : Lexer) : Prop where
  rest : ∀ p ∈ lexer.rest, Text.isBlank p.char = true
  tokens : ∀ lexeme ∈ lexer.tokens, ∃ text, lexeme.token = .scalar .plain text
  columns : lexer.columns = []
  outer : lexer.outer = []

namespace InBlank

/-- Passing a gap keeps to white space. -/
theorem skip (h : lexer.InBlank) (keyAllowed : Bool) :
    { lexer with
      rest := (Lexer.skip lexer.inFlow lexer.keyAllowed false lexer.rest).1, keyAllowed }.InBlank where
  rest p hp := h.rest p ((skip_rest _ _ _ _).subset hp)
  tokens := h.tokens
  columns := h.columns
  outer := h.outer

/-- Dropping the places of keys keeps to white space. -/
theorem dropStaleKeys (h : lexer.InBlank) (hdrop : lexer.dropStaleKeys = .ok next) :
    next.InBlank := by
  obtain ⟨key, outer, rfl, hlength⟩ := of_dropStaleKeys hdrop
  rw [h.outer] at hlength
  exact ⟨h.rest, h.tokens, h.columns, List.length_eq_zero_iff.mp hlength⟩

/-- Where no block is open, none ends. -/
theorem closeWhile_eq (h : lexer.InBlank) (isOver : Nat → Bool) :
    lexer.closeWhile isOver = lexer := by
  have hcolumns := h.columns
  cases lexer
  cases hcolumns
  unfold Lexer.closeWhile
  split <;> rfl

/-- Coming to the next token keeps to white space. -/
theorem approach (h : lexer.InBlank) (happroach : lexer.approach = .ok next) : next.InBlank := by
  unfold Lexer.approach at happroach
  obtain ⟨kept, hdrop, hclose⟩ := bind_eq_ok_iff.mp happroach
  have hkept := (h.skip _).dropStaleKeys hdrop
  cases hclose
  rwa [hkept.closeWhile_eq]

/-- Dropping the place of a key keeps to white space. -/
theorem dropKey (h : lexer.InBlank) (hdrop : lexer.dropKey = .ok next) : next.InBlank := by
  obtain rfl := of_dropKey hdrop
  exact ⟨h.rest, h.tokens, h.columns, h.outer⟩

/-- Keeping the place of a key keeps to white space. -/
theorem noteKey (h : lexer.InBlank) (hnote : lexer.noteKey = .ok next) : next.InBlank := by
  unfold Lexer.noteKey at hnote
  split at hnote
  · obtain ⟨kept, hdrop, hnoted⟩ := bind_eq_ok_iff.mp hnote
    obtain ⟨hrest, htokens, hcolumns, houter⟩ := h.dropKey hdrop
    cases hnoted
    exact ⟨hrest, htokens, hcolumns, houter⟩
  · cases hnote
    exact h

/-- Reading a plain scalar in white space keeps to it. -/
theorem readPlainScalar (h : lexer.InBlank) (hread : lexer.readPlainScalar = .ok next) :
    next.InBlank := by
  unfold Lexer.readPlainScalar at hread
  obtain ⟨noted, hnote, hread⟩ := bind_eq_ok_iff.mp hread
  obtain ⟨plain, hplain, hemit⟩ := bind_eq_ok_iff.mp hread
  obtain ⟨hrest, htokens, hcolumns, houter⟩ := h.noteKey hnote
  cases hemit
  refine ⟨?_, ?_, hcolumns, houter⟩
  · intro p hp
    exact hrest p ((readPlain_rest hplain).subset hp)
  · intro lexeme hlexeme
    rcases List.mem_cons.mp hlexeme with rfl | hearlier
    · exact ⟨_, rfl⟩
    · exact htokens lexeme hearlier

/-- White space starts a plain scalar, or nothing. -/
theorem readToken {p : Placed} {rest : Source} (h : lexer.InBlank) (hrest : lexer.rest = p :: rest)
    (hread : lexer.readToken p.char rest = .ok next) : next.InBlank := by
  have hblank : Text.isBlank p.char = true := h.rest p (by simp [hrest])
  have hne (d : Char) (hd : Text.isBlank d = false) : (p.char == d) = false := by
    simpa using ne_of_isBlank hblank hd
  have hmarker (d : Char) (hd : Text.isBlank d = false) : lexer.rest.atMarker d = false := by
    rw [hrest]
    exact Source.atMarker_of_ne (ne_of_isBlank hblank hd)
  unfold Lexer.readToken at hread
  simp only [hmarker '-' (by decide), hmarker '.' (by decide), hne '%' (by decide),
    hne '[' (by decide), hne '\x7b' (by decide), hne ']' (by decide), hne '\x7d' (by decide),
    hne ',' (by decide), hne '-' (by decide), hne '?' (by decide), hne ':' (by decide),
    hne '*' (by decide), hne '&' (by decide), hne '!' (by decide), hne '|' (by decide),
    hne '>' (by decide), hne '\'' (by decide), hne '"' (by decide), Bool.false_and,
    Bool.false_eq_true, if_false] at hread
  split at hread
  · exact h.readPlainScalar hread
  · cases hread

/-- The end of the text keeps to white space. -/
theorem close (h : lexer.InBlank) (hclose : lexer.close = .ok next) : next.InBlank := by
  unfold Lexer.close at hclose
  simp only at hclose
  have hfinished (finish : Mark) : { lexer with finish }.InBlank :=
    ⟨h.rest, h.tokens, h.columns, h.outer⟩
  rw [(hfinished _).closeWhile_eq] at hclose
  exact (hfinished _).dropKey hclose

/-- Of white space the whole run makes nothing but plain scalars. -/
theorem run (h : lexer.InBlank) (hrun : lexer.run steps = .ok next) : next.InBlank := by
  induction steps generalizing lexer with
  | zero =>
      cases hrun
      exact h
  | succ steps ih =>
      obtain ⟨arrived, happroach, hread⟩ := bind_eq_ok_iff.mp hrun
      have harrived := h.approach happroach
      split at hread
      · exact harrived.close hread
      · rename_i p rest hrest
        obtain ⟨after, htoken, hrun'⟩ := bind_eq_ok_iff.mp hread
        exact ih (harrived.readToken hrest htoken) hrun'

end InBlank

end Lexer

/-- The tokens of white space are plain scalars. -/
theorem tokens_of_isBlank {found : List Lexeme} (htext : ∀ c ∈ text, Text.isBlank c = true)
    (hfound : lexemes text = .ok found) :
    ∀ lexeme ∈ found, ∃ text, lexeme.token = .scalar .plain text := by
  unfold lexemes at hfound
  split at hfound
  · obtain ⟨last, hrun, rfl⟩ := map_eq_ok_iff.mp hfound
    have hstart : ∀ c ∈ withoutByteOrderMark text, Text.isBlank c = true :=
      fun c hc => htext c ((withoutByteOrderMark_suffix text).subset hc)
    have hlast := Lexer.InBlank.run ⟨isBlank_of_mem_placed hstart, by simp, rfl, rfl⟩ hrun
    intro lexeme hlexeme
    exact hlast.tokens lexeme (List.mem_reverse.mp hlexeme)
  · cases hfound

/-- A document that starts with a scalar is that scalar. -/
theorem root_of_readRoot_scalar {handles : Handles} {style : Style} {start finish : Mark}
    {content : List Lexeme} {document : Document}
    (hread : readRoot handles (⟨.scalar style text, start, finish⟩ :: content) = .ok document) :
    document.root? = some (.scalar start none none style text) := by
  obtain ⟨⟨root, cursor⟩, hroot, hrest⟩ := bind_eq_ok_iff.mp hread
  rw [List.length_cons, Nat.mul_succ, readNode_scalar] at hroot
  cases hroot
  simp only at hrest
  split at hrest
  · cases hrest
    rfl
  · split at hrest
    · cases hrest
    · cases hrest

/-- A text of white space holds no mapping. -/
theorem trim_ne_nil_of_mapping {anchor : Option Nat} {entries : List (Node × Node)}
    (hdocument : Document.ofText text = .ok ⟨some (.mapping mark anchor entries)⟩) :
    Text.trim text ≠ [] := by
  intro hblank
  obtain ⟨found, hfound, hread⟩ := bind_eq_ok_iff.mp hdocument
  have htokens := tokens_of_isBlank (Text.trim_eq_nil_iff.mp hblank) hfound
  cases found with
  | nil => cases hread
  | cons first content =>
      obtain ⟨text', hfirst⟩ := htokens first (by simp)
      obtain ⟨token, start, finish⟩ := first
      obtain rfl : token = .scalar .plain text' := hfirst
      have hroot : readRoot usualHandles (⟨.scalar .plain text', start, finish⟩ :: content) =
          .ok ⟨some (.mapping mark anchor entries)⟩ := by
        simpa [Document.ofLexemes, readDirectives, bind, Except.bind] using hread
      cases root_of_readRoot_scalar hroot

end SerialLock.Yaml
