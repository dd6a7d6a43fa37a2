import SerialLock.Proofs.Yaml.Plain
import SerialLock.Yaml.Token.Read

/-!
# Where the reader of tokens stands

Between the parts of an entry the reader stands at a character of the block, with known tokens
behind it (`At`).  Passing the gap in front of the next token leads from one such place to another
(`approach_eq`), and a token is one step of the run (`run_token`).
-/

set_option autoImplicit false

namespace SerialLock.Yaml

namespace Source

variable {c d : Char} {mark : Mark} {rest : Source}

/-- A document marker does not start with another character. -/
theorem atMarker_of_ne (hne : c ≠ d) : Source.atMarker d (⟨c, mark⟩ :: rest) = false := by
  unfold atMarker chars
  simp [hne]

/-- A document marker starts with a hyphen or a full stop. -/
theorem atDocumentMarker_of_ne (hhyphen : c ≠ '-') (hstop : c ≠ '.') :
    Source.atDocumentMarker (⟨c, mark⟩ :: rest) = false := by
  unfold atDocumentMarker
  rw [atMarker_of_ne hhyphen, atMarker_of_ne hstop]
  rfl

end Source

namespace Lexer

variable {lexer next : Lexer} {c : Char} {mark : Mark} {text name : List Char} {keyAllowed : Bool}
  {behind : List Token} {opened : List Nat} {mayKey : Bool}

/-! ## Gaps -/

/-- Nothing is passed in front of a token. -/
theorem skip_token (hc : isPrintable c = true) (hbreak : isBreak c = false) (hspace : c ≠ ' ')
    (hcomment : c ≠ '#') :
    skip false keyAllowed false (placed mark (c :: text)) =
      (placed mark (c :: text), keyAllowed) := by
  have htab : c ≠ '\t' := ne_of_isPrintable hc (by decide)
  have hmark : c ≠ byteOrderMark := ne_of_isPrintable hc (by decide)
  rw [placed_cons mark hc, skip]
  simp [hbreak, hspace, hcomment, htab, hmark]

/-- A space is passed in front of a token. -/
theorem skip_space :
    skip false keyAllowed false (placed mark (' ' :: text)) =
      skip false keyAllowed false (placed (mark.after ' ') text) := by
  rw [placed_cons mark (by decide), skip]
  rfl

/-- After a line feed, which ends a comment, a key may start. -/
theorem skip_feed {inComment : Bool} :
    skip false keyAllowed inComment (placed mark ('\n' :: text)) =
      skip false true false (placed (mark.after '\n') text) := by
  rw [placed_cons mark (by decide), skip]
  simp [isBreak]

/-- In front of the next entry, or of the end, nothing is passed. -/
theorem skip_next (hnext : StartsName text) :
    skip false keyAllowed false (placed mark text) = (placed mark text, keyAllowed) := by
  cases text with
  | nil => rfl
  | cons c text =>
      have hc := hnext c rfl
      exact skip_token (isPrintable_of_isNameChar hc) (isBreak_of_isNameChar hc)
        (ne_of_isNameChar hc (by decide)) (ne_of_isNameChar hc (by decide))

/-- Without an outer collection the reader stands in a block. -/
theorem inFlow_eq_false (houter : lexer.outer = []) : lexer.inFlow = false := by
  unfold inFlow
  rw [houter]
  rfl

/-- Places of keys that are near are kept. -/
theorem dropStaleKeys_eq (houter : lexer.outer = [])
    (hkey : lexer.key.any (Candidate.isStale · lexer.here) = false) :
    lexer.dropStaleKeys = .ok lexer := by
  unfold dropStaleKeys
  cases lexer
  cases houter
  simp [hkey]

/-- No block at the first column ends in a line. -/
theorem closeWhile_eq (houter : lexer.outer = [])
    (hcolumns : ∀ column ∈ lexer.columns, column = 0) :
    lexer.closeWhile (fun column => lexer.here.column < column) = lexer := by
  have hnone :
      lexer.columns.takeWhile (fun column => decide (lexer.here.column < column)) = [] := by
    cases hcases : lexer.columns with
    | nil => rfl
    | cons column columns =>
        obtain rfl : column = 0 := hcolumns column (by simp [hcases])
        simp
  unfold closeWhile inFlow
  simp only [houter, hnone]
  cases lexer
  cases houter
  rfl

/-- Passing a gap changes no more than where the reader stands and whether a key may start. -/
theorem approach_eq {rest : Source} (houter : lexer.outer = [])
    (hcolumns : ∀ column ∈ lexer.columns, column = 0)
    (hskip : skip false lexer.keyAllowed false lexer.rest = (rest, keyAllowed))
    (hkey : lexer.key.any (Candidate.isStale · { lexer with rest }.here) = false) :
    lexer.approach = .ok { lexer with rest, keyAllowed } := by
  unfold approach
  rw [inFlow_eq_false houter, hskip]
  simp only
  rw [@dropStaleKeys_eq { lexer with rest, keyAllowed } houter hkey]
  exact congrArg Except.ok (@closeWhile_eq { lexer with rest, keyAllowed } houter hcolumns)

/-! ## Places of keys -/

/-- Where no place of a key is kept, none is dropped. -/
theorem dropKey_eq (hkey : lexer.key = none) : lexer.dropKey = .ok lexer := by
  unfold dropKey
  rw [hkey]
  simp only [Option.any_none]
  cases lexer
  cases hkey
  rfl

/-- No more is dropped than the place of the key. -/
theorem of_dropKey (hdrop : lexer.dropKey = .ok next) : next = { lexer with key := none } := by
  unfold dropKey at hdrop
  split at hdrop
  · cases hdrop
  · exact (Except.ok.inj hdrop).symm

/-- Where places are too far back, no more than places of keys change. -/
theorem of_dropStaleKeys (hdrop : lexer.dropStaleKeys = .ok next) :
    ∃ key outer, next = { lexer with key, outer } ∧ outer.length = lexer.outer.length := by
  unfold dropStaleKeys at hdrop
  simp only at hdrop
  split at hdrop
  · cases hdrop
  · exact ⟨_, _, (Except.ok.inj hdrop).symm, List.length_map _⟩

/-- Where a key may start, its place is kept. -/
theorem noteKey_of_allowed (hallowed : lexer.keyAllowed = true) (hkey : lexer.key = none) :
    ∃ required, lexer.noteKey =
      .ok { lexer with key := some ⟨lexer.tokens.length, lexer.here, required⟩ } := by
  unfold noteKey
  rw [if_pos hallowed, dropKey_eq hkey]
  exact ⟨_, rfl⟩

/-- Where no key may start, no place is kept. -/
theorem noteKey_of_not_allowed (hallowed : lexer.keyAllowed = false) :
    lexer.noteKey = .ok lexer := by
  unfold noteKey
  rw [if_neg (by simp [hallowed])]

/-! ## Tokens -/

/-- One token is one step of a run. -/
theorem run_token {arrived : Lexer} {steps : Nat} (happroach : lexer.approach = .ok arrived)
    (hc : isPrintable c = true) (hrest : arrived.rest = placed mark (c :: text))
    (hread : arrived.readToken c (placed (mark.after c) text) = .ok next) :
    run (steps + 1) lexer = run steps next := by
  rw [placed_cons mark hc] at hrest
  rw [run, happroach]
  simp only [bind, Except.bind, hrest, hread]

/-! ## Places of the reader -/

/-- The reader stands in the block at `text`, with the tokens `behind` it, latest first. -/
structure At (lexer : Lexer) (mark : Mark) (text : List Char) (behind : List Token)
    (opened : List Nat) (mayKey : Bool) : Prop where
  rest : lexer.rest = placed mark text
  tokens : lexer.tokens.map Lexeme.token = behind
  columns : lexer.columns = opened
  keyAllowed : lexer.keyAllowed = mayKey
  key : lexer.key = none
  outer : lexer.outer = []

/-- The reader comes to the next entry, with the tokens `behind` it. -/
def Lands (lexer : Lexer) (next : List Char) (behind : List Token) (opened : List Nat) : Prop :=
  ∃ arrived mark, lexer.approach = .ok arrived ∧ arrived.At mark next behind opened true ∧
    mark.column = 0

/-- Passing a gap up to the start of a line, with nothing pending, comes to the next entry. -/
theorem lands_of_skip {next : List Char} (hcolumn : mark.column = 0)
    (hskip : skip false lexer.keyAllowed false lexer.rest = (placed mark next, true))
    (htokens : lexer.tokens.map Lexeme.token = behind) (hcolumns : lexer.columns = [0])
    (hkey : lexer.key = none) (houter : lexer.outer = []) : lexer.Lands next behind [0] := by
  have happroach := approach_eq houter (by simp [hcolumns]) hskip (by simp [hkey])
  exact ⟨_, mark, happroach, ⟨rfl, htokens, hcolumns, rfl, hkey, houter⟩, hcolumn⟩

/-- Within a line only its first character says what a token is. -/
theorem At.not_atMarker (h : lexer.At mark (c :: text) behind opened mayKey)
    (hc : isPrintable c = true) (hcolumn : 0 < mark.column) :
    lexer.rest.atMarker '-' = false ∧ lexer.rest.atMarker '.' = false := by
  have hmarker := Source.atDocumentMarker_of_column c hcolumn (placed (mark.after c) text)
  rw [← placed_cons mark hc, ← h.rest] at hmarker
  simpa [Source.atDocumentMarker] using hmarker

/-- A scalar in quotes, from what its reader makes of the text after the first quote. -/
theorem At.readSimple {next : List Char} {style : Style}
    {read : Source → Result (Token × Source)} (h : lexer.At mark (c :: text) behind [0] false)
    (hc : isPrintable c = true) (hnext : StartsName next) {mark' : Mark}
    (hread : read (placed (mark.after c) text) =
      .ok (.scalar style name, placed mark' ('\n' :: next))) :
    ∃ after, lexer.readSimple read 1 = .ok after ∧
      after.Lands next (.scalar style name :: behind) [0] := by
  have hrest : lexer.rest.drop 1 = placed (mark.after c) text := by
    rw [h.rest, placed_cons mark hc, List.drop_one, List.tail_cons]
  unfold Lexer.readSimple
  rw [noteKey_of_not_allowed h.keyAllowed]
  simp only [bind, Except.bind, hrest, hread]
  refine ⟨_, rfl, ?_⟩
  have hskip : skip false false false (placed mark' ('\n' :: next)) =
      (placed (mark'.after '\n') next, true) := skip_feed.trans (skip_next hnext)
  refine lands_of_skip rfl hskip ?_ h.columns h.key h.outer
  simp [emit, h.tokens]

/-- The space after the colon is passed. -/
theorem At.approach_eq (h : lexer.At mark (' ' :: c :: text) behind [0] false)
    (hc : isPrintable c = true) (hbreak : isBreak c = false) (hspace : c ≠ ' ')
    (hcomment : c ≠ '#') :
    ∃ arrived, lexer.approach = .ok arrived ∧
      arrived.At (mark.after ' ') (c :: text) behind [0] false := by
  have hskip : skip false lexer.keyAllowed false lexer.rest =
      (placed (mark.after ' ') (c :: text), false) := by
    rw [h.rest, h.keyAllowed]
    exact skip_space.trans (skip_token hc hbreak hspace hcomment)
  have happroach := Lexer.approach_eq h.outer (by simp [h.columns]) hskip (by simp [h.key])
  exact ⟨_, happroach, ⟨rfl, h.tokens, h.columns, rfl, h.key, h.outer⟩⟩

/-! ## Plain scalars -/

/-- Nothing but an indicator, a gap or a hyphen of its own keeps a plain scalar from starting. -/
theorem startsPlain_of_ne {rest : Source} (hc : ∀ d ∈ indicators, c ≠ d) (hgap : isGap c = false)
    (hhyphen : c = '-' ∨ c = '?' ∨ c = ':' → rest.atGap = false) :
    startsPlain false c rest = true := by
  have hnone : ",[]\x7b\x7d#&*!|>'\"%@\x60".toList.contains c = false := by
    rw [List.contains_eq_mem, decide_eq_false_iff_not]
    intro hmem
    have hall : ",[]\x7b\x7d#&*!|>'\"%@\x60".toList.all indicators.contains = true := by decide
    have hindicator : c ∈ indicators := by simpa using List.all_eq_true.mp hall c hmem
    exact hc c hindicator rfl
  unfold startsPlain
  split
  · rename_i hc'
    have hrest := hhyphen (.inl (by simpa using hc'))
    cases rest with
    | nil => rfl
    | cons p rest =>
        simp only [Source.atGap, Bool.or_eq_false_iff] at hrest
        simp [Source.peek, hrest.1]
  · split
    · rename_i hc'
      simp [hhyphen (.inr (by simpa using hc'))]
    · simp only [hgap, hnone]
      rfl

/-- Such a character is read as the start of a plain scalar. -/
theorem readToken_plain {rest : Source} (houter : lexer.outer = [])
    (hc : ∀ d ∈ indicators, c ≠ d) (hgap : isGap c = false)
    (hhyphen : c = '-' ∨ c = '?' ∨ c = ':' → rest.atGap = false)
    (hmarker : Source.atDocumentMarker lexer.rest = false) :
    lexer.readToken c rest = lexer.readPlainScalar := by
  have hflow := inFlow_eq_false houter
  have hne (d : Char) (hd : d ∈ indicators) : (c == d) = false := by simpa using hc d hd
  have hgap' (d : Char) (hd : d = '-' ∨ d = '?' ∨ d = ':') : (c == d && rest.atGap) = false := by
    by_cases h : c = d
    · subst h
      simp [hhyphen hd]
    · simp [h]
  unfold Source.atDocumentMarker at hmarker
  rw [Bool.or_eq_false_iff] at hmarker
  unfold readToken
  simp only [hflow, hmarker, startsPlain_of_ne hc hgap hhyphen, Bool.false_or,
    hne '%' (by decide), hne '[' (by decide), hne '\x7b' (by decide), hne ']' (by decide),
    hne '\x7d' (by decide), hne ',' (by decide), hgap' '-' (by decide), hgap' '?' (by decide),
    hgap' ':' (by decide), hne '*' (by decide), hne '&' (by decide), hne '!' (by decide),
    hne '|' (by decide), hne '>' (by decide), hne '\'' (by decide), hne '"' (by decide)]
  rfl

/-- A plain scalar becomes one token, in front of what its reader leaves. -/
theorem readPlainScalar_eq {noted : Lexer} {plain : Plain} (hnote : lexer.noteKey = .ok noted)
    (houter : noted.outer = [])
    (hread : readPlain false ((noted.columns.head?.map (· + 1)).getD 0) [] .none noted.rest =
      .ok plain) :
    lexer.readPlainScalar = .ok ({ noted with keyAllowed := plain.broken }.emit
      (.scalar .plain plain.text) noted.here plain.rest) := by
  have hflow := inFlow_eq_false houter
  unfold readPlainScalar
  rw [hnote]
  simp only [bind, Except.bind, hflow, hread]
  rfl

end Lexer

end SerialLock.Yaml
