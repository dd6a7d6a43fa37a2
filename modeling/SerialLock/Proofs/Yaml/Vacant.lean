import SerialLock.Proofs.Results
import SerialLock.Proofs.Yaml.Entry
import SerialLock.Proofs.Yaml.Grammar

/-!
# Texts without a document

A line is vacant if nothing stands in it but spaces, in front of a comment or of its end.  Before
the first token the reader passes a vacant line as a whole, and it stops in any other
(`skip_line_iff`).  Where it stops there is a token or an error, since whatever reads a token leaves
it behind (`emits_readToken`).  So a text has no token exactly where all its lines are vacant
(`lexemes_ofLines_eq_nil_iff`), and a document is missing exactly where there is no token
(`ofText_eq_missing_iff`).
-/

set_option autoImplicit false

namespace SerialLock.Yaml

variable {c : Char} {mark : Mark} {line text : List Char} {lines : List (List Char)} {ended : Bool}

/-! ## Lines -/

/-- May the character stand in a line?  No line break may, and no byte order mark. -/
def isInLine (c : Char) : Bool :=
  isAllowed c && !isFeed c && !isBreak c && c != byteOrderMark

/-- Does nothing stand in the line but spaces, in front of a comment or of its end? -/
def isVacant : List Char → Bool
  | [] => true
  | c :: rest => if c == ' ' then isVacant rest else c == '#'

/-- The text of lines with a line feed between any two, and one at the end if the last is ended. -/
def ofLines (lines : List (List Char)) (ended : Bool) : List Char :=
  ['\n'].intercalate lines ++ if ended then ['\n'] else []

/-- A character that may stand in a line is allowed, and no feed, break or byte order mark. -/
theorem of_isInLine (hc : isInLine c = true) :
    isAllowed c = true ∧ isFeed c = false ∧ isBreak c = false ∧ c ≠ byteOrderMark := by
  unfold isInLine at hc
  simp only [Bool.and_eq_true, Bool.not_eq_true', bne_iff_ne] at hc
  obtain ⟨⟨⟨hallowed, hfeed⟩, hbreak⟩, hmark⟩ := hc
  exact ⟨hallowed, hfeed, hbreak, hmark⟩

/-- A character that may stand in a line is read as it is. -/
theorem placed_inLine (mark : Mark) (hc : isInLine c = true) (rest : List Char) :
    placed mark (c :: rest) = ⟨c, mark⟩ :: placed (mark.after c) rest := by
  obtain ⟨-, hfeed, -, -⟩ := of_isInLine hc
  apply placed_of_feed
  rw [hfeed]
  rintro ⟨⟩

/-- The first of several lines is followed by a line feed. -/
theorem ofLines_cons_cons (line line' : List Char) (lines : List (List Char)) (ended : Bool) :
    ofLines (line :: line' :: lines) ended = line ++ '\n' :: ofLines (line' :: lines) ended := by
  unfold ofLines
  rw [List.intercalate_cons_cons, List.append_assoc, List.append_assoc, List.singleton_append]

/-- What holds of a line feed holds throughout the text where it holds throughout the lines. -/
theorem forall_mem_ofLines {P : Char → Prop} (hfeed : P '\n') :
    (∀ c ∈ ofLines lines ended, P c) ↔ ∀ line ∈ lines, ∀ c ∈ line, P c := by
  have hend : ∀ c ∈ if ended then ['\n'] else [], P c := by
    cases ended <;> simp [hfeed]
  induction lines with
  | nil =>
      simpa [ofLines] using hend
  | cons line lines ih =>
      cases lines with
      | nil =>
          rw [ofLines, List.intercalate_singleton, List.forall_mem_append,
            List.forall_mem_singleton]
          exact and_iff_left hend
      | cons line' lines =>
          rw [ofLines_cons_cons, List.forall_mem_append, List.forall_mem_cons,
            @List.forall_mem_cons _ _ line]
          exact and_congr_right fun _ => (and_iff_right hfeed).trans ih

namespace Lexer

variable {lexer next : Lexer} {keyAllowed : Bool} {steps : Nat}

/-! ## Passing lines -/

/-- A comment is passed up to the end of its line. -/
theorem skip_comment {inFlow : Bool} {comment : List Char}
    (hcomment : ∀ c ∈ comment, isInLine c = true) (mark : Mark) (text : List Char) :
    skip inFlow keyAllowed true (placed mark (comment ++ text)) =
      skip inFlow keyAllowed true (placed (mark.along comment) text) := by
  induction comment generalizing mark with
  | nil => rfl
  | cons c comment ih =>
      obtain ⟨hc, hrest⟩ := List.forall_mem_cons.mp hcomment
      obtain ⟨-, -, hbreak, -⟩ := of_isInLine hc
      rw [List.cons_append, placed_inLine mark hc, skip]
      simp only [hbreak, Bool.false_eq_true, if_false, if_true]
      exact ih hrest (mark.after c)

/-- A vacant line is passed up to its end. -/
theorem skip_vacant (hchars : ∀ c ∈ line, isInLine c = true) (hvacant : isVacant line = true)
    (mark : Mark) (text : List Char) :
    ∃ inComment, skip false keyAllowed false (placed mark (line ++ text)) =
      skip false keyAllowed inComment (placed (mark.along line) text) := by
  induction line generalizing mark with
  | nil => exact ⟨false, rfl⟩
  | cons c line ih =>
      obtain ⟨hc, hrest⟩ := List.forall_mem_cons.mp hchars
      rw [isVacant] at hvacant
      split at hvacant
      · rename_i hspace
        obtain rfl := eq_of_beq hspace
        obtain ⟨inComment, hskip⟩ := ih hrest hvacant (mark.after ' ')
        exact ⟨inComment, skip_space.trans hskip⟩
      · obtain rfl := eq_of_beq hvacant
        refine ⟨true, ?_⟩
        rw [List.cons_append, placed_inLine mark hc, skip]
        exact skip_comment hrest (mark.after '#') text

/-- Nothing is passed behind the first character of a line that is neither a space nor the start of
a comment. -/
theorem skip_not_vacant (hchars : ∀ c ∈ line, isInLine c = true) (hvacant : isVacant line = false)
    (mark : Mark) (text : List Char) :
    (skip false true false (placed mark (line ++ text))).1 ≠ [] := by
  induction line generalizing mark with
  | nil => cases hvacant
  | cons c line ih =>
      obtain ⟨hc, hrest⟩ := List.forall_mem_cons.mp hchars
      obtain ⟨-, -, hbreak, hmark⟩ := of_isInLine hc
      rw [isVacant] at hvacant
      split at hvacant
      · rename_i hspace
        obtain rfl := eq_of_beq hspace
        rw [List.cons_append, skip_space]
        exact ih hrest hvacant (mark.after ' ')
      · rename_i hspace
        rw [List.cons_append, placed_inLine mark hc, skip]
        simp [hbreak, hspace, hvacant, hmark]

/-- A line is passed with the line feed behind it if it is vacant, and only then. -/
theorem skip_line_iff (hchars : ∀ c ∈ line, isInLine c = true) (mark : Mark) (text : List Char) :
    (skip false true false (placed mark (line ++ '\n' :: text))).1 = [] ↔
      isVacant line = true ∧
        (skip false true false (placed ((mark.along line).after '\n') text)).1 = [] := by
  cases hvacant : isVacant line with
  | false => simp [skip_not_vacant hchars hvacant mark]
  | true =>
      obtain ⟨inComment, hskip⟩ :=
        @skip_vacant line true hchars hvacant mark ('\n' :: text)
      rw [hskip, skip_feed]
      exact (and_iff_right rfl).symm

/-- Nothing is left of a line at the end of the text exactly if it is vacant. -/
theorem skip_lastLine_iff (hchars : ∀ c ∈ line, isInLine c = true) (mark : Mark) :
    (skip false true false (placed mark line)).1 = [] ↔ isVacant line = true := by
  cases hvacant : isVacant line with
  | false =>
      have hstop := skip_not_vacant hchars hvacant mark []
      rw [List.append_nil] at hstop
      simp [hstop]
  | true =>
      obtain ⟨inComment, hskip⟩ := @skip_vacant line true hchars hvacant mark []
      rw [List.append_nil] at hskip
      rw [hskip]
      simp [placed, skip]

/-- Lines are passed to the end of the text if they all are vacant, and only then. -/
theorem skip_ofLines_iff (hchars : ∀ line ∈ lines, ∀ c ∈ line, isInLine c = true) (mark : Mark) :
    (skip false true false (placed mark (ofLines lines ended))).1 = [] ↔
      ∀ line ∈ lines, isVacant line = true := by
  induction lines generalizing mark with
  | nil => cases ended <;> simp [ofLines, placed, skip, isBreak, isFeed]
  | cons line lines ih =>
      obtain ⟨hline, hlines⟩ := List.forall_mem_cons.mp hchars
      rw [List.forall_mem_cons]
      cases lines with
      | nil =>
          cases ended with
          | false =>
              have htext : ofLines [line] false = line := by simp [ofLines]
              rw [htext, skip_lastLine_iff hline]
              simp
          | true =>
              have htext : ofLines [line] true = line ++ ['\n'] := by simp [ofLines]
              rw [htext, skip_line_iff hline]
              simp [placed, skip]
      | cons line' lines =>
          rw [ofLines_cons_cons, skip_line_iff hline, ih hlines]

/-! ## Tokens that are left behind -/

/-- If there is a next state, it has a token behind it. -/
def Emits (result : Result Lexer) : Prop :=
  ∀ next, result = .ok next → next.tokens ≠ []

/-- Where there is no next state, nothing is asked of it. -/
theorem emits_error (reason : Malformed) : Emits (.error reason) := by
  intro next hnext
  cases hnext

/-- A token that is emitted stands behind the next state. -/
theorem emits_emit (lexer : Lexer) (token : Token) (start : Mark) (rest : Source) :
    Emits (.ok (lexer.emit token start rest)) := by
  intro next hnext
  cases hnext
  exact List.cons_ne_nil _ _

/-- What emits last emits, whatever comes before it. -/
theorem Emits.bind {α : Type} {result : Result α} {go : α → Result Lexer}
    (hgo : ∀ a, Emits (go a)) : Emits (result >>= go) := by
  intro next hnext
  obtain ⟨a, -, ha⟩ := bind_eq_ok_iff.mp hnext
  exact hgo a next ha

/-- A choice emits where both of its branches do. -/
theorem Emits.ite {p : Prop} [Decidable p] {result other : Result Lexer} (hresult : Emits result)
    (hother : Emits other) : Emits (if p then result else other) := by
  split
  · exact hresult
  · exact hother

/-- An opening bracket emits a token. -/
theorem emits_openFlow (lexer : Lexer) (token : Token) : Emits (lexer.openFlow token) := by
  apply Emits.bind
  intro noted
  apply emits_emit

/-- A closing bracket emits a token. -/
theorem emits_closeFlow (lexer : Lexer) (token : Token) : Emits (lexer.closeFlow token) := by
  apply Emits.bind
  intro dropped
  apply emits_emit

/-- A comma emits a token. -/
theorem emits_readComma (lexer : Lexer) : Emits lexer.readComma := by
  apply Emits.bind
  intro dropped
  apply emits_emit

/-- The hyphen of an item emits a token. -/
theorem emits_readEntry (lexer : Lexer) : Emits lexer.readEntry := by
  apply Emits.ite (emits_error _)
  apply Emits.bind
  intro dropped
  apply emits_emit

/-- The mark of a key emits a token. -/
theorem emits_readKey (lexer : Lexer) : Emits lexer.readKey := by
  apply Emits.ite (emits_error _)
  apply Emits.bind
  intro dropped
  apply emits_emit

/-- The mark of a value emits a token. -/
theorem emits_readValue (lexer : Lexer) : Emits lexer.readValue := by
  unfold readValue
  cases lexer.key with
  | some key => apply emits_emit
  | none =>
      apply Emits.ite (emits_error _)
      apply emits_emit

/-- A scalar in quotes, a property or an alias emits a token. -/
theorem emits_readSimple (lexer : Lexer) (read : Source → Result (Token × Source)) (width : Nat) :
    Emits (lexer.readSimple read width) := by
  apply Emits.bind
  intro noted
  apply Emits.bind
  rintro ⟨token, rest⟩
  apply emits_emit

/-- A plain scalar emits a token. -/
theorem emits_readPlainScalar (lexer : Lexer) : Emits lexer.readPlainScalar := by
  apply Emits.bind
  intro noted
  apply Emits.bind
  intro plain
  apply emits_emit

/-- A block scalar emits a token. -/
theorem emits_readBlockScalar (lexer : Lexer) (literal : Bool) :
    Emits (lexer.readBlockScalar literal) := by
  apply Emits.bind
  intro dropped
  apply Emits.bind
  rintro ⟨chomp, increment, rest⟩
  apply Emits.bind
  rintro ⟨block, rest'⟩
  apply emits_emit

/-- Document markers are read alike, with what is open closed in front of them. -/
theorem emits_marker (lexer : Lexer) (token : Token) :
    Emits (do return (← lexer.atLineStart).emitNext token 3) := by
  apply Emits.bind
  intro started
  apply emits_emit

/-- Whatever starts with the next character, its token is left behind. -/
theorem emits_readToken (lexer : Lexer) (c : Char) (rest : Source) :
    Emits (lexer.readToken c rest) := by
  unfold readToken
  apply Emits.ite
  · -- a directive, which alone is read with the line break behind it
    apply Emits.bind
    intro started
    apply Emits.bind
    rintro ⟨token, rest'⟩
    apply emits_emit
  apply Emits.ite (emits_marker lexer .documentStart)
  apply Emits.ite (emits_marker lexer .documentEnd)
  apply Emits.ite (emits_openFlow lexer .flowSequenceStart)
  apply Emits.ite (emits_openFlow lexer .flowMappingStart)
  apply Emits.ite (emits_closeFlow lexer .flowSequenceEnd)
  apply Emits.ite (emits_closeFlow lexer .flowMappingEnd)
  apply Emits.ite (emits_readComma lexer)
  apply Emits.ite (emits_readEntry lexer)
  apply Emits.ite (emits_readKey lexer)
  apply Emits.ite (emits_readValue lexer)
  apply Emits.ite (emits_readSimple lexer _ 1)
  apply Emits.ite (emits_readSimple lexer _ 1)
  apply Emits.ite (emits_readSimple lexer _ 1)
  apply Emits.ite (emits_readBlockScalar lexer true)
  apply Emits.ite (emits_readBlockScalar lexer false)
  apply Emits.ite (emits_readSimple lexer _ 1)
  apply Emits.ite (emits_readSimple lexer _ 1)
  exact Emits.ite (emits_readPlainScalar lexer) (emits_error .strayCharacter)

/-! ## Runs -/

/-- No token is taken back where blocks end. -/
theorem closeWhile_tokens (lexer : Lexer) (isOver : Nat → Bool) :
    lexer.tokens <:+ (lexer.closeWhile isOver).tokens := by
  unfold closeWhile
  split
  · exact List.suffix_refl _
  · exact List.suffix_append _ _

/-- No token is taken back on the way to the next one. -/
theorem approach_tokens (happroach : lexer.approach = .ok next) : lexer.tokens <:+ next.tokens := by
  unfold approach at happroach
  obtain ⟨kept, hdrop, hclose⟩ := bind_eq_ok_iff.mp happroach
  obtain ⟨key, outer, hkept, -⟩ := of_dropStaleKeys hdrop
  have htokens : kept.tokens = lexer.tokens := by rw [hkept]
  cases hclose
  rw [← htokens]
  apply closeWhile_tokens

/-- No token is taken back at the end of the text. -/
theorem close_tokens (hclose : lexer.close = .ok next) : lexer.tokens <:+ next.tokens := by
  have hfinish (finish : Mark) :
      lexer.tokens <:+ ({ lexer with finish }.closeWhile fun _ => true).tokens :=
    closeWhile_tokens { lexer with finish } _
  unfold close at hclose
  obtain rfl := of_dropKey hclose
  exact hfinish _

/-- A run from a token on ends with one. -/
theorem run_tokens_ne_nil (htokens : lexer.tokens ≠ []) (hrun : run steps lexer = .ok next) :
    next.tokens ≠ [] := by
  induction steps generalizing lexer with
  | zero =>
      cases hrun
      exact htokens
  | succ steps ih =>
      obtain ⟨arrived, happroach, hread⟩ := bind_eq_ok_iff.mp hrun
      have harrived := (approach_tokens happroach).ne_nil htokens
      split at hread
      · exact (close_tokens hread).ne_nil harrived
      · rename_i p rest hrest
        obtain ⟨after, htoken, hrun'⟩ := bind_eq_ok_iff.mp hread
        exact ih (emits_readToken arrived p.char rest after htoken) hrun'

/-- A run from the start ends without a token where everything is passed, and only then. -/
theorem At.exists_run_iff (h : lexer.At mark text [] [] true) (steps : Nat) :
    (∃ last, run (steps + 1) lexer = .ok last ∧ last.tokens = []) ↔
      (skip false true false (placed mark text)).1 = [] := by
  rcases hresult : skip false true false (placed mark text) with ⟨rest, keyAllowed⟩
  have hskip : skip false lexer.keyAllowed false lexer.rest = (rest, keyAllowed) := by
    rw [h.rest, h.keyAllowed, hresult]
  have happroach := Lexer.approach_eq h.outer (by simp [h.columns]) hskip (by simp [h.key])
  constructor
  · rintro ⟨last, hrun, htokens⟩
    rw [run, happroach, ok_bind] at hrun
    split at hrun
    · assumption
    · -- the first token that is read stays behind
      rename_i p rest' hrest
      obtain ⟨after, htoken, hrun'⟩ := bind_eq_ok_iff.mp hrun
      have hafter := emits_readToken _ p.char rest' after htoken
      exact absurd htokens (run_tokens_ne_nil hafter hrun')
  · rintro rfl
    have hat : { lexer with rest := [], keyAllowed }.At mark [] [] [] keyAllowed :=
      ⟨rfl, h.tokens, h.columns, rfl, h.key, h.outer⟩
    obtain ⟨last, hrun, htokens⟩ := run_end steps happroach hat
    exact ⟨last, hrun, List.map_eq_nil_iff.mp htokens⟩

end Lexer

/-! ## Documents -/

/-- A text has no token exactly where all its lines are vacant. -/
theorem lexemes_ofLines_eq_nil_iff (hchars : ∀ line ∈ lines, ∀ c ∈ line, isInLine c = true) :
    lexemes (ofLines lines ended) = .ok [] ↔ ∀ line ∈ lines, isVacant line = true := by
  have hallowed : ∀ c ∈ ofLines lines ended, isAllowed c = true := by
    rw [forall_mem_ofLines (by decide)]
    exact fun line hline c hc => (of_isInLine (hchars line hline c hc)).1
  have hmark : ∀ c ∈ ofLines lines ended, c ≠ byteOrderMark := by
    rw [forall_mem_ofLines (by decide)]
    exact fun line hline c hc => (of_isInLine (hchars line hline c hc)).2.2.2
  unfold lexemes
  rw [if_pos (List.all_eq_true.mpr hallowed),
    withoutByteOrderMark_eq fun hmem => hmark byteOrderMark hmem rfl]
  simp only [map_eq_ok_iff, List.reverse_eq_nil_iff]
  rw [Lexer.At.exists_run_iff ⟨rfl, rfl, rfl, rfl, rfl, rfl⟩, Lexer.skip_ofLines_iff hchars]

/-- A document is missing exactly where there is no token. -/
theorem ofText_eq_missing_iff : Document.ofText text = .ok ⟨none⟩ ↔ lexemes text = .ok [] := by
  constructor
  · intro hdocument
    obtain ⟨found, hfound, hspelled⟩ := spelledBy_of_ofText hdocument
    cases htokens : found.map Lexeme.token with
    | nil => rw [hfound, List.map_eq_nil_iff.mp htokens]
    | cons token tokens =>
        rw [htokens] at hspelled
        cases hspelled
  · intro hfound
    unfold Document.ofText
    rw [hfound]
    rfl

end SerialLock.Yaml
