import SerialLock.Proofs.Yaml.Placed
import SerialLock.Yaml.Scalar

/-!
# Literal blocks read back

The first line of a block says how deep its lines are indented, where the text does not show it, and
what becomes of the line breaks at its end (`readBlockHeader_literalHints`).  The reader then takes
the lines as they are, up to one that is not indented (`Block.Holds`, `readBlock_of_fitsLiteral`).
-/

set_option autoImplicit false

namespace SerialLock.Yaml

variable {c : Char} {text rest next : List Char} {mark : Mark}

/-! ## The first line -/

/-- What becomes of the line breaks at the end of the text. -/
def chompOf (text : List Char) : Chomp :=
  match text.reverse with
  | [] => .strip
  | [c] => if isBreak c then .keep else .strip
  | c :: d :: _ => if !isBreak c then .strip else if isBreak d then .keep else .clip

/-- The indentation that is given, where the text does not show it. -/
def incrementOf (text : List Char) : Option Nat :=
  if text.head?.any fun c => c == ' ' || isBreak c then some 2 else none

/-- The indicator for what becomes of the line breaks at the end. -/
def Chomp.hint : Chomp → List Char
  | .strip => ['-']
  | .clip => []
  | .keep => ['+']

/-- The first line gives the indentation where the text does not show it, and what becomes of the
breaks at its end. -/
theorem literalHints_eq (text : List Char) :
    literalHints text =
      (if (incrementOf text).isSome then ['2'] else []) ++ (chompOf text).hint := by
  have hindent : (if text.head?.any fun c => c == ' ' || isBreak c then ['2'] else []) =
      if (incrementOf text).isSome then ['2'] else [] := by
    unfold incrementOf
    split <;> rfl
  unfold literalHints chompOf
  simp only [hindent]
  congr 1
  generalize text.reverse = reversed
  cases reversed with
  | nil => rfl
  | cons c reversed =>
      cases reversed with
      | nil => cases hc : isBreak c <;> simp [hc, Chomp.hint]
      | cons d reversed =>
          cases hc : isBreak c <;> cases hd : isBreak d <;> simp [hc, hd, Chomp.hint]

/-- Whatever the first line gives is read back. -/
theorem readBlockHeader_hint (increment : Bool) (chomp : Chomp) (mark : Mark) :
    ∃ mark', mark'.column = 0 ∧
      readBlockHeader
        (placed mark ((if increment then ['2'] else []) ++ chomp.hint ++ '\n' :: rest)) =
      .ok (chomp, if increment then some 2 else none, placed mark' rest) := by
  cases increment with
  | false =>
    cases chomp with
    | strip => exact ⟨(mark.after '-').after '\n', rfl, rfl⟩
    | clip => exact ⟨mark.after '\n', rfl, rfl⟩
    | keep => exact ⟨(mark.after '+').after '\n', rfl, rfl⟩
  | true =>
    cases chomp with
    | strip => exact ⟨((mark.after '2').after '-').after '\n', rfl, rfl⟩
    | clip => exact ⟨(mark.after '2').after '\n', rfl, rfl⟩
    | keep => exact ⟨((mark.after '2').after '+').after '\n', rfl, rfl⟩

/-- The indentation is given as two, or not at all. -/
theorem incrementOf_cases (text : List Char) :
    incrementOf text = some 2 ∨ incrementOf text = none := by
  unfold incrementOf
  split
  · exact .inl rfl
  · exact .inr rfl

/-- The first line that is written for a text reads back. -/
theorem readBlockHeader_literalHints (text : List Char) (mark : Mark) :
    ∃ mark', mark'.column = 0 ∧
      readBlockHeader (placed mark (literalHints text ++ '\n' :: rest)) =
        .ok (chompOf text, incrementOf text, placed mark' rest) := by
  rw [literalHints_eq]
  obtain ⟨mark', hcolumn, hread⟩ :=
    @readBlockHeader_hint rest (incrementOf text).isSome (chompOf text) mark
  refine ⟨mark', hcolumn, ?_⟩
  rw [hread]
  rcases incrementOf_cases text with hsome | hnone
  · simp [hsome]
  · simp [hnone]

/-! ## The lines -/

namespace Block

/-- The block has taken the characters `read`, latest first: the breaks after its last line are kept
apart, and inside a line there are none. -/
structure Holds (block : Block) (read : List Char) : Prop where
  text : block.others ++ block.lineBreak.toList ++ block.text = read
  breaks : ∀ b ∈ block.others ++ block.lineBreak.toList, isBreak b = true
  noLine : block.lineBreak = none → block.inLine = false → block.text = []
  inLine : block.inLine = true → block.others = [] ∧ block.lineBreak = none
  indent : block.indent = some 2 ∨ (block.indent = none ∧ block.deepest = 0 ∧ block.inLine = false)

variable {block : Block} {read : List Char}

/-- Inside a line the indentation is known. -/
theorem Holds.indent_of_inLine (h : block.Holds read) (hline : block.inLine = true) :
    block.indent = some 2 := by
  rcases h.indent with hindent | ⟨-, -, hout⟩
  · exact hindent
  · rw [hline] at hout
    cases hout

/-- The indentation is given unless the text shows it. -/
def Shows (block : Block) (text : List Char) : Prop :=
  block.indent = none → text.head?.any (fun c => isSpace c || isBreak c) = false

/-- A break ends the line. -/
theorem readBlock_lineEnd (h : block.Holds read) (hline : block.inLine = true)
    (hc : isPrintable c = true) (hbreak : isBreak c = true) :
    let block' := { block with inLine := false, lineBreak := some c }
    readBlock true 1 block (placed mark (c :: rest)) =
        readBlock true 1 block' (placed (mark.after c) rest) ∧
      block'.Holds (c :: read) ∧ block'.indent = some 2 := by
  intro block'
  obtain ⟨hothers, hnone⟩ := h.inLine hline
  have hindent := h.indent_of_inLine hline
  have htext : block.text = read := by simpa [hothers, hnone] using h.text
  refine ⟨?_, ⟨?_, ?_, ?_, ?_, .inl hindent⟩, hindent⟩
  · rw [placed_cons mark hc, readBlock]
    simp [hline, hbreak, block']
  · simp [block', hothers, htext]
  · simpa [block', hothers] using hbreak
  · simp [block']
  · simp [block']

/-- Inside a line a character goes to the text. -/
theorem readBlock_inLine (h : block.Holds read) (hline : block.inLine = true)
    (hc : isPrintable c = true) (hbreak : isBreak c = false) :
    let block' := { block with text := c :: block.text }
    readBlock true 1 block (placed mark (c :: rest)) =
        readBlock true 1 block' (placed (mark.after c) rest) ∧
      block'.Holds (c :: read) ∧ block'.indent = some 2 := by
  intro block'
  obtain ⟨hothers, hnone⟩ := h.inLine hline
  have htext : block.text = read := by simpa [hothers, hnone] using h.text
  refine ⟨?_, ⟨?_, h.breaks, ?_, h.inLine, h.indent⟩, h.indent_of_inLine hline⟩
  · rw [placed_cons mark hc, readBlock]
    simp [hline, hbreak, block']
  · simp [block', hothers, hnone, htext]
  · simp [block', hline]

/-- A break where a line starts goes to the breaks. -/
theorem readBlock_emptyLine (h : block.Holds read) (hline : block.inLine = false)
    (hindent : block.indent = some 2) (hc : isPrintable c = true) (hbreak : isBreak c = true)
    (hcolumn : mark.column = 0) :
    let block' := { block with others := c :: block.others }
    readBlock true 1 block (placed mark (c :: rest)) =
        readBlock true 1 block' (placed (mark.after c) rest) ∧
      block'.Holds (c :: read) ∧ block'.indent = some 2 := by
  intro block'
  have hspace : c ≠ ' ' := by
    rintro rfl
    cases hbreak
  have htab : c ≠ '\t' := by
    rintro rfl
    cases hbreak
  refine ⟨?_, ⟨?_, ?_, h.noLine, ?_, h.indent⟩, hindent⟩
  · rw [placed_cons mark hc, readBlock]
    simp [hline, hbreak, block', hindent, hcolumn, hspace, htab]
  · simp [block', ← h.text]
  · intro b hb
    have hb' : b = c ∨ b ∈ block.others ++ block.lineBreak.toList := by
      simpa [block', or_assoc] using hb
    rcases hb' with rfl | hb'
    · exact hbreak
    · exact h.breaks b hb'
  · intro hline'
    rw [show block'.inLine = block.inLine from rfl, hline] at hline'
    cases hline'

/-- A space of the indentation is passed. -/
theorem readBlock_blank (hline : block.inLine = false)
    (hbefore : block.indent.all (mark.column < ·) = true) :
    readBlock true 1 block (placed mark (' ' :: rest)) =
      readBlock true 1 block (placed (mark.after ' ') rest) := by
  rw [placed_cons mark (by decide), readBlock]
  simp only [hline, hbefore]
  rfl

/-- A line starts behind its indentation. -/
theorem readBlock_lineStart (h : block.Holds read) (hline : block.inLine = false)
    (hspace : block.indent = none → isSpace c = false) (hc : isPrintable c = true)
    (hbreak : isBreak c = false) (hcolumn : mark.column = 0) :
    let block' := { block with indent := some 2 }.startLine true c
    readBlock true 1 block (placed mark (indentation ++ c :: rest)) =
        readBlock true 1 block' (placed (((mark.after ' ').after ' ').after c) rest) ∧
      block'.Holds (c :: read) ∧ block'.indent = some 2 := by
  intro block'
  have hone : (mark.after ' ').column = 1 := by
    rw [mark.after_of_not_isBreak (by decide), hcolumn]
  have htwo : ((mark.after ' ').after ' ').column = 2 := by
    rw [Mark.after_of_not_isBreak _ (by decide), hone]
  have htab : c ≠ '\t' := ne_of_isPrintable hc (by decide)
  refine ⟨?_, ⟨?_, ?_, ?_, ?_, .inl rfl⟩, rfl⟩
  · have hread : readBlock true 1 block (placed mark (indentation ++ c :: rest)) =
        readBlock true 1 block (placed ((mark.after ' ').after ' ') (c :: rest)) := by
      have hzero : block.indent.all (mark.column < ·) = true := by
        rcases h.indent with hindent | ⟨hindent, -, -⟩ <;> simp [hindent, hcolumn]
      have hfirst : block.indent.all ((mark.after ' ').column < ·) = true := by
        rcases h.indent with hindent | ⟨hindent, -, -⟩ <;> simp [hindent, hone]
      exact (readBlock_blank hline hzero).trans (readBlock_blank hline hfirst)
    rw [hread, placed_cons _ hc, readBlock]
    rcases h.indent with hindent | ⟨hindent, hdeepest, -⟩
    · simp [hline, hindent, htwo, hbreak, block']
    · have hne : c ≠ ' ' := by simpa [isSpace] using hspace hindent
      simp [hline, hindent, htwo, hbreak, hne, htab, hdeepest, block']
  · simp [block', startLine, ← h.text]
  · simp [block', startLine]
  · simp [block', startLine]
  · simp [block', startLine]

/-- The block ends before a line that is not indented. -/
theorem readBlock_end (h : block.Holds read) (hline : block.inLine = false)
    (hnext : StartsName next) (hcolumn : mark.column = 0) :
    readBlock true 1 block (placed mark next) = .ok (block, placed mark next) := by
  cases next with
  | nil => rfl
  | cons c next =>
      have hc := hnext c rfl
      have hspace : c ≠ ' ' := ne_of_isNameChar hc (by decide)
      have htab : c ≠ '\t' := ne_of_isNameChar hc (by decide)
      have hbreak := isBreak_of_isNameChar hc
      rw [placed_cons mark (isPrintable_of_isNameChar hc), readBlock]
      rcases h.indent with hindent | ⟨hindent, hdeepest, -⟩
      · simp [hline, hindent, hcolumn, hspace, htab, hbreak]
      · simp [hline, hindent, hcolumn, hspace, htab, hbreak, hdeepest]

/-- Does a line start after the text, where one starts before it if `lineStart`? -/
def lineStartAfter (lineStart : Bool) (text : List Char) : Bool :=
  text.foldl (fun _ c => isBreak c) lineStart

/-- Behind a text that is not empty a line starts exactly if a break ends the text. -/
theorem lineStartAfter_eq (lineStart : Bool) (hne : text ≠ []) :
    lineStartAfter lineStart text = text.getLast?.any isBreak := by
  rcases List.eq_nil_or_concat text with rfl | ⟨init, c, rfl⟩
  · exact absurd rfl hne
  · unfold lineStartAfter
    rw [List.concat_eq_append, List.foldl_append, List.getLast?_concat]
    rfl

/-- Every line that is not empty is indented. -/
theorem literalRest_cons (lineStart : Bool) (c : Char) (text : List Char) :
    literalRest lineStart (c :: text) =
      (if lineStart && !isBreak c then indentation else []) ++
        c :: literalRest (isBreak c) text := by
  rw [literalRest]
  cases isBreak c with
  | true => simp
  | false => cases lineStart <;> simp

/-- The first character of a text is taken with the indentation before it. -/
theorem readBlock_step {lineStart : Bool} (h : block.Holds read)
    (hline : block.inLine = !lineStart) (hcolumn : lineStart = true → mark.column = 0)
    (hshows : block.Shows (c :: text)) (hc : isPrintable c = true) :
    ∃ block' mark', readBlock true 1 block
        (placed mark (literalRest lineStart (c :: text) ++ rest)) =
      readBlock true 1 block' (placed mark' (literalRest (isBreak c) text ++ rest)) ∧
      block'.Holds (c :: read) ∧ block'.indent = some 2 ∧ block'.inLine = !isBreak c ∧
      (isBreak c = true → mark'.column = 0) := by
  rw [literalRest_cons]
  cases hbreak : isBreak c with
  | true =>
      -- a text that starts with a break does not show its indentation, which is given then
      have hindent : block.indent = some 2 := by
        rcases h.indent with hindent | ⟨hnone, -, -⟩
        · exact hindent
        · simpa [hbreak] using hshows hnone
      have hafter := Mark.after_of_isBreak mark hbreak
      cases lineStart with
      | false =>
          obtain ⟨hread, hholds, hindent'⟩ := @readBlock_lineEnd c (literalRest true text ++ rest)
            mark block read h hline hc hbreak
          exact ⟨_, mark.after c, hread, hholds, hindent', rfl, fun _ => hafter⟩
      | true =>
          obtain ⟨hread, hholds, hindent'⟩ := @readBlock_emptyLine c (literalRest true text ++ rest)
            mark block read h hline hindent hc hbreak (hcolumn rfl)
          exact ⟨_, mark.after c, hread, hholds, hindent', hline, fun _ => hafter⟩
  | false =>
      cases lineStart with
      | false =>
          obtain ⟨hread, hholds, hindent'⟩ := @readBlock_inLine c (literalRest false text ++ rest)
            mark block read h hline hc hbreak
          exact ⟨_, mark.after c, hread, hholds, hindent', hline, by simp⟩
      | true =>
          have hspace : block.indent = none → isSpace c = false := by
            intro hnone
            have hhead := hshows hnone
            simp only [List.head?_cons, Option.any_some, Bool.or_eq_false_iff] at hhead
            exact hhead.1
          obtain ⟨hread, hholds, hindent'⟩ := @readBlock_lineStart c
            (literalRest false text ++ rest) mark block read h hline hspace hc hbreak (hcolumn rfl)
          exact ⟨_, _, hread, hholds, hindent', rfl, by simp⟩

/-- The lines of a text are taken as they are. -/
theorem readBlock_literalRest {lineStart : Bool} (h : block.Holds read)
    (hline : block.inLine = !lineStart) (hcolumn : lineStart = true → mark.column = 0)
    (hshows : block.Shows text) (hprintable : ∀ c ∈ text, isPrintable c = true) :
    ∃ block' mark', readBlock true 1 block (placed mark (literalRest lineStart text ++ rest)) =
        readBlock true 1 block' (placed mark' rest) ∧
      block'.Holds (text.reverse ++ read) ∧
      block'.inLine = !lineStartAfter lineStart text ∧
      (block'.inLine = false → mark'.column = 0) := by
  induction text generalizing block read mark lineStart with
  | nil => exact ⟨block, mark, rfl, h, hline, fun hout => hcolumn (by simpa [hline] using hout)⟩
  | cons c text ih =>
      obtain ⟨hc, htext⟩ := List.forall_mem_cons.mp hprintable
      obtain ⟨block', mark', hstep, hholds, hindent, hline', hcolumn'⟩ :=
        @readBlock_step c text rest mark block read lineStart h hline hcolumn hshows hc
      have hshows' : block'.Shows text := by
        intro hnone
        rw [hindent] at hnone
        cases hnone
      obtain ⟨last, markLast, hrun, hholds', hline'', hcolumn''⟩ :=
        ih hholds hline' hcolumn' hshows' htext
      refine ⟨last, markLast, hstep.trans hrun, ?_, hline'', hcolumn''⟩
      rw [List.reverse_cons, List.append_assoc]
      exact hholds'

/-- Chomping undoes the end of a last line that has none in the text. -/
theorem finished_of_inLine (h : block.Holds text.reverse) (hline : block.inLine = true)
    (hlast : text.getLast?.any isBreak = false) :
    ({ block with inLine := false, lineBreak := some '\n' } : Block).finished (chompOf text) =
      text := by
  obtain ⟨hothers, hnone⟩ := h.inLine hline
  have htext : block.text = text.reverse := by simpa [hothers, hnone] using h.text
  have hchomp : chompOf text = .strip := by
    unfold chompOf
    rw [List.getLast?_eq_head?_reverse] at hlast
    cases hreverse : text.reverse with
    | nil => rfl
    | cons c rest =>
        have hc : isBreak c = false := by simpa [hreverse] using hlast
        cases rest <;> simp [hc]
  rw [hchomp]
  simp [finished, htext]

/-- With one break at the end, that is the one after the last line. -/
theorem Holds.others_eq_nil {d : Char} (h : block.Holds (c :: d :: read))
    (hline : block.inLine = false) (hd : isBreak d = false) : block.others = [] := by
  have htext := h.text
  cases hothers : block.others with
  | nil => rfl
  | cons b others =>
      -- the character before the last is a break too, or there is no line at all
      exfalso
      have hbreaks := h.breaks
      rw [hothers] at htext hbreaks
      obtain ⟨-, hrest⟩ := List.cons.inj htext
      cases others with
      | cons b' others =>
          obtain ⟨rfl, -⟩ := List.cons.inj hrest
          have hb := hbreaks b' (by simp)
          rw [hd] at hb
          cases hb
      | nil =>
          cases hlast : block.lineBreak with
          | none => simp [hlast, h.noLine hlast hline] at hrest
          | some b' =>
              obtain rfl : b' = d := by simpa [hlast] using (List.cons.inj (hlast ▸ hrest)).1
              have hb := hbreaks b' (by simp [hlast])
              rw [hd] at hb
              cases hb

/-- Chomping leaves the breaks that the text ends with. -/
theorem finished_of_not_inLine (h : block.Holds text.reverse) (hline : block.inLine = false)
    (hlast : text.getLast?.any isBreak = true) : block.finished (chompOf text) = text := by
  have hkeep : block.finished .keep = text := by
    unfold finished
    simp only
    rw [h.text, List.reverse_reverse]
  rw [List.getLast?_eq_head?_reverse] at hlast
  cases hreverse : text.reverse with
  | nil => simp [hreverse] at hlast
  | cons c rest =>
      have hc : isBreak c = true := by simpa [hreverse] using hlast
      cases rest with
      | nil => simpa [chompOf, hreverse, hc] using hkeep
      | cons d rest =>
          cases hd : isBreak d with
          | true => simpa [chompOf, hreverse, hc, hd] using hkeep
          | false =>
              have hchomp : chompOf text = .clip := by simp [chompOf, hreverse, hc, hd]
              have hothers := (hreverse ▸ h).others_eq_nil hline hd
              have htext := h.text
              rw [hothers, List.nil_append] at htext
              unfold finished
              rw [hchomp]
              simp only
              rw [htext, List.reverse_reverse]

end Block

/-- A text that fits a literal scalar is printable. -/
theorem isPrintable_of_fitsLiteral (hfits : fitsLiteral text = true) :
    ∀ c ∈ text, isPrintable c = true := by
  unfold fitsLiteral at hfits
  rw [Bool.and_eq_true, Bool.not_eq_true'] at hfits
  exact isPrintable_of_not_needsEscapes hfits.1

/-- A text that fits a literal block reads back up to the next line. -/
theorem readBlock_of_fitsLiteral (hfits : fitsLiteral text = true) (hne : text ≠ [])
    (hnext : StartsName next) (hcolumn : mark.column = 0) :
    ∃ block mark', mark'.column = 0 ∧
      readBlock true 1 { indent := incrementOf text }
        (placed mark (literalRest true text ++
          ((if text.getLast?.any isBreak then [] else ['\n']) ++ next))) =
        .ok (block, placed mark' next) ∧
      block.finished (chompOf text) = text := by
  have hprintable := isPrintable_of_fitsLiteral hfits
  have hstart : Block.Holds { indent := incrementOf text } [] := by
    refine ⟨rfl, by simp, fun _ _ => rfl, by simp, ?_⟩
    rcases incrementOf_cases text with hindent | hindent
    · exact .inl hindent
    · exact .inr ⟨hindent, rfl, rfl⟩
  have hshows : Block.Shows { indent := incrementOf text } text := by
    intro hnone
    unfold incrementOf at hnone
    split at hnone
    · cases hnone
    · rename_i hhead
      simpa [isSpace] using hhead
  obtain ⟨block, mark', hread, hholds, hline, hcolumn'⟩ := @Block.readBlock_literalRest text
    ((if text.getLast?.any isBreak then [] else ['\n']) ++ next) mark _ [] true hstart rfl
    (fun _ => hcolumn) hshows hprintable
  rw [List.append_nil] at hholds
  rw [Block.lineStartAfter_eq true hne] at hline
  cases hlast : text.getLast?.any isBreak with
  | true =>
      rw [hlast] at hline hread
      have hout : block.inLine = false := by simpa using hline
      have hend := Block.readBlock_end hholds hout hnext (hcolumn' hout)
      exact ⟨block, mark', hcolumn' hout, hread.trans hend,
        Block.finished_of_not_inLine hholds hout hlast⟩
  | false =>
      rw [hlast] at hline hread
      have hin : block.inLine = true := by simpa using hline
      obtain ⟨hfeed, hholds', -⟩ := @Block.readBlock_lineEnd '\n' next mark' block _ hholds hin
        (by decide) (by decide)
      have hend := Block.readBlock_end hholds' rfl hnext (@Mark.after_of_isBreak '\n' mark' rfl)
      exact ⟨_, mark'.after '\n', rfl, hread.trans (hfeed.trans hend),
        Block.finished_of_inLine hholds hin hlast⟩

/-- Nothing but spaces is added to the lines of the text. -/
theorem mem_literalRest {lineStart : Bool} (hmem : c ∈ literalRest lineStart text) :
    c ∈ text ∨ c = ' ' := by
  induction text generalizing lineStart with
  | nil => cases hmem
  | cons d text ih =>
      rw [Block.literalRest_cons] at hmem
      rcases List.mem_append.mp hmem with hindent | hrest
      · split at hindent
        · exact .inr (by simpa [indentation] using hindent)
        · cases hindent
      · rcases List.mem_cons.mp hrest with rfl | hrest
        · simp
        · rcases ih hrest with htext | hspace
          · exact .inl (List.mem_cons_of_mem d htext)
          · exact .inr hspace

/-- What the first line gives is printable. -/
theorem isPrintable_of_mem_literalHints (hmem : c ∈ literalHints text) : isPrintable c = true := by
  rw [literalHints_eq] at hmem
  rcases List.mem_append.mp hmem with hindent | hchomp
  · split at hindent
    · obtain rfl : c = '2' := by simpa using hindent
      decide
    · cases hindent
  · cases hhint : chompOf text with
    | strip =>
        obtain rfl : c = '-' := by simpa [hhint, Chomp.hint] using hchomp
        decide
    | clip => simp [hhint, Chomp.hint] at hchomp
    | keep =>
        obtain rfl : c = '+' := by simpa [hhint, Chomp.hint] using hchomp
        decide

end SerialLock.Yaml
