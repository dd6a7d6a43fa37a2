import Mathlib.Data.List.TakeWhile
import SerialLock.Proofs.Yaml.Value

/-!
# Entries of a mapping read back

An entry of a block mapping is three tokens and the key token in front of them: the name, the colon
and the value.  Each leads from one known place of the reader to the next (`At`, `AtColon`), and
after the value the reader stands in front of the next entry (`run_entry`).
-/

set_option autoImplicit false

namespace SerialLock.Yaml

/-- An entry of a mapping: a name, a colon, a space and what is written for the value. -/
def entry (name written next : List Char) : List Char :=
  name ++ ':' :: ' ' :: (written ++ next)

namespace Lexer

variable {lexer : Lexer} {c : Char} {mark start : Mark} {text rest name : List Char}
  {behind : List Token} {opened : List Nat}

/-- The reader stands at the colon after a name that starts at `start`. -/
structure AtColon (lexer : Lexer) (start : Mark) (name rest : List Char) (behind : List Token)
    (opened : List Nat) : Prop where
  rest : lexer.rest = placed (start.along name) (':' :: ' ' :: rest)
  tokens : lexer.tokens.map Lexeme.token = .scalar .plain name :: behind
  columns : lexer.columns = opened
  key : ∃ required, lexer.key = some ⟨behind.length, start, required⟩
  outer : lexer.outer = []

/-! ## A name and its colon -/

/-- A name is read as a plain scalar, and its place is kept. -/
theorem At.readToken_name (h : lexer.At mark (c :: name ++ ':' :: ' ' :: rest) behind opened true)
    (hname : ∀ d ∈ c :: name, isNameChar d = true) :
    ∃ next, lexer.readToken c (placed (mark.after c) (name ++ ':' :: ' ' :: rest)) = .ok next ∧
      next.AtColon mark (c :: name) rest behind opened := by
  have hc := hname c (by simp)
  have hprintable := isPrintable_of_isNameChar hc
  have hrest : lexer.rest = ⟨c, mark⟩ :: placed (mark.after c) (name ++ ':' :: ' ' :: rest) := by
    rw [h.rest, List.cons_append, placed_cons mark hprintable]
  have hhyphen : c ≠ '-' := ne_of_isNameChar hc (by decide)
  have hquestion : c ≠ '?' := ne_of_isNameChar hc (by decide)
  have hcolon : c ≠ ':' := ne_of_isNameChar hc (by decide)
  have hstop : c ≠ '.' := ne_of_isNameChar hc (by decide)
  have hmarker : Source.atDocumentMarker lexer.rest = false := by
    rw [hrest]
    exact Source.atDocumentMarker_of_ne hhyphen hstop
  rw [readToken_plain h.outer (ne_indicator_of_isNameChar hc) (isGap_of_isNameChar hc)
    (by simp [hhyphen, hquestion, hcolon]) hmarker]
  have hread (indent : Nat) : readPlain false indent [] .none lexer.rest =
      .ok ⟨c :: name, placed (mark.along (c :: name)) (':' :: ' ' :: rest), false⟩ := by
    rw [h.rest, readPlain_name hname]
    rfl
  obtain ⟨required, hnote⟩ := noteKey_of_allowed h.keyAllowed h.key
  have hscalar := readPlainScalar_eq hnote h.outer (hread _)
  have hlength : lexer.tokens.length = behind.length := by rw [← h.tokens, List.length_map]
  have hhere : lexer.here = mark := by
    unfold here
    rw [hrest]
  refine ⟨_, hscalar, ⟨rfl, ?_, h.columns, ⟨required, ?_⟩, h.outer⟩⟩
  · simp [emit, h.tokens]
  · simp [emit, hlength, hhere]

/-- The colon turns the name into a key, which starts the mapping if none is open. -/
theorem AtColon.readToken (h : lexer.AtColon start name rest behind opened)
    (hstart : start.column = 0) (hopened : opened = [] ∨ opened = [0]) :
    ∃ next mark, lexer.readToken ':' (placed ((start.along name).after ':') (' ' :: rest)) =
        .ok next ∧
      next.At mark (' ' :: rest) (.value :: .scalar .plain name :: .key ::
        (if opened.isEmpty then [.blockMappingStart] else []) ++ behind) [0] false := by
  obtain ⟨required, hkey⟩ := h.key
  have hrest : lexer.rest = ⟨':', start.along name⟩ ::
      placed ((start.along name).after ':') (' ' :: rest) := by
    rw [h.rest, placed_cons _ (by decide)]
  have hgap : Source.atGap (placed ((start.along name).after ':') (' ' :: rest)) = true := by
    rw [placed_cons _ (by decide)]
    rfl
  have hvalue : lexer.readToken ':' (placed ((start.along name).after ':') (' ' :: rest)) =
      lexer.readValue := by
    unfold Lexer.readToken
    rw [hrest]
    simp [Source.atMarker_of_ne, hgap]
  have htokens : lexer.tokens.map Lexeme.token = .scalar .plain name :: behind := h.tokens
  obtain ⟨scalar, earlier, hcons, hscalar, hearlier⟩ := List.map_eq_cons_iff.mp htokens
  have hlength : earlier.length = behind.length := by rw [← hearlier, List.length_map]
  have hflow := inFlow_eq_false h.outer
  rw [hvalue]
  unfold readValue
  rw [hkey]
  refine ⟨_, (start.along name).after ':', rfl, ⟨?_, ?_, ?_, rfl, rfl, h.outer⟩⟩
  · simp [emitNext, emit, insertKey, hrest]
  · rcases hopened with rfl | rfl
    · simp [emitNext, emit, insertKey, hcons, hscalar, hearlier, hlength, hflow, isDeeper,
        h.columns]
    · simp [emitNext, emit, insertKey, hcons, hscalar, hearlier, hlength, hflow, isDeeper,
        h.columns, hstart]
  · rcases hopened with rfl | rfl
    · simp [emitNext, emit, insertKey, hflow, isDeeper, h.columns, hstart]
    · simp [emitNext, emit, insertKey, hflow, isDeeper, h.columns, hstart]

/-! ## Entries -/

/-- Nothing stands between a name and its colon, which is near enough. -/
theorem AtColon.approach_eq (h : lexer.AtColon start name rest behind opened)
    (hopened : opened = [] ∨ opened = [0]) (hname : ∀ c ∈ name, isNameChar c = true)
    (hnear : name.length ≤ 1024) : lexer.approach = .ok lexer := by
  obtain ⟨required, hkey⟩ := h.key
  have hline := Mark.along_of_line (fun c hc => isBreak_of_isNameChar (hname c hc)) start
  have hhere : lexer.here = start.along name := by
    unfold here
    rw [h.rest, placed_cons _ (by decide)]
  have hskip : skip false lexer.keyAllowed false lexer.rest = (lexer.rest, lexer.keyAllowed) := by
    rw [h.rest]
    exact skip_token (by decide) (by decide) (by decide) (by decide)
  have hcolumns : ∀ column ∈ lexer.columns, column = 0 := by
    rw [h.columns]
    rcases hopened with rfl | rfl <;> simp
  have hfresh : lexer.key.any (Candidate.isStale · lexer.here) = false := by
    rw [hkey, hhere, hline]
    have hindex : ¬ start.index + 1024 < start.index + name.length := by omega
    simp [Candidate.isStale, hindex]
  exact Lexer.approach_eq h.outer hcolumns hskip hfresh

/-- An entry is read in three steps, which leave four tokens and come to the next entry. -/
theorem run_entry {written next : List Char} {style : Style} (steps : Nat)
    (h : lexer.Lands (entry name written next) behind opened)
    (hopened : opened = [] ∨ opened = [0]) (hname : ∀ c ∈ name, isNameChar c = true)
    (hne : name ≠ []) (hnear : name.length ≤ 1024) (hspells : Spells written style text)
    (hnext : StartsName next) :
    ∃ after, run (steps + 3) lexer = run steps after ∧
      after.Lands next (.scalar style text :: .value :: .scalar .plain name :: .key ::
        (if opened.isEmpty then [.blockMappingStart] else []) ++ behind) [0] := by
  obtain ⟨arrived, start, happroach, hat, hstart⟩ := h
  obtain ⟨c, name, rfl⟩ := List.exists_cons_of_ne_nil hne
  obtain ⟨d, rest, rfl, hd, hbreak, hspace, hcomment, hreads⟩ := hspells
  -- the name
  obtain ⟨named, hnamed, hcolon⟩ := hat.readToken_name hname
  have hfirst : run (steps + 3) lexer = run (steps + 2) named :=
    run_token happroach (isPrintable_of_isNameChar (hname c (by simp))) hat.rest hnamed
  -- the colon
  obtain ⟨valued, mark, hvalued, hvalue⟩ := hcolon.readToken hstart hopened
  have hsecond : run (steps + 2) named = run (steps + 1) valued :=
    run_token (hcolon.approach_eq hopened hname hnear) (by decide) hcolon.rest hvalued
  -- the value
  obtain ⟨reached, hreached, hat'⟩ := hvalue.approach_eq hd hbreak hspace hcomment
  obtain ⟨after, hafter, hlands⟩ := hreads reached (mark.after ' ') next _ hat'
    (mark.column_after_pos (by decide)) hnext
  have hthird : run (steps + 1) valued = run steps after :=
    run_token hreached hd hat'.rest hafter
  exact ⟨after, hfirst.trans (hsecond.trans hthird), hlands⟩

/-- At the end of the text what is open is closed. -/
theorem run_end {arrived : Lexer} {mayKey : Bool} (steps : Nat)
    (happroach : lexer.approach = .ok arrived) (hat : arrived.At mark [] behind opened mayKey) :
    ∃ after, run (steps + 1) lexer = .ok after ∧
      after.tokens.map Lexeme.token = opened.map (fun _ => .blockEnd) ++ behind := by
  have hclosed (finish : Mark) : ({ arrived with finish }.closeWhile fun _ => true).key = none := by
    unfold closeWhile
    split <;> exact hat.key
  have hall : opened.takeWhile (fun _ => true) = opened :=
    List.takeWhile_eq_self_iff.mpr fun _ _ => rfl
  rw [run, happroach]
  simp only [bind, Except.bind, hat.rest, placed]
  unfold close
  rw [dropKey_eq (hclosed _)]
  refine ⟨_, rfl, ?_⟩
  unfold closeWhile inFlow
  simp [hat.outer, hat.columns, hat.tokens, hall]

end Lexer

end SerialLock.Yaml
