import SerialLock.Proofs.CommandLine.Sides
import SerialLock.Proofs.Results

/-!
# Both sides of the command's name

Arguments are read in two parts, those in front of the command's name and those behind it, each by
itself.  They make a request exactly where both sides accept what is given there and the command has
its operands, and the request is put together from the two (`read_parted_iff`).  All arguments that
make a request are of this form (`exists_parted`).
-/

set_option autoImplicit false

namespace SerialLock.CommandLine

/-- The arguments can stand in front of the command's name: they are options alone, and none of them
waits for its value. -/
structure InFront (front : List Bytes) : Prop where
  closed : waitsAfter none none front = some none
  wordless : operands (itemsOf none none front) = []

variable {command : Option CommandName} {waiting : Option Setting} {items : List Item}
  {side : Side} {name : CommandName} {front behind : List Bytes} {request : Request}

/-- Items on both sides of the command's name make a request: both sides accept them, the operands
make a command, and the request is put together from the two sides. -/
def Makes (name : CommandName) (front behind : List Item) (request : Request) : Prop :=
  Acceptable none front ∧ Acceptable (some name) behind ∧
    ∃ made, commandOf name (sideOf behind) = .ok made ∧
      request = requestOf (sideOf front) (sideOf behind) made

/-- At the start nothing has been read, nothing waits, and the side is empty. -/
theorem stands_nil : Stands command [] none {} :=
  .settled acceptable_nil

/-- The command behind its name is made where its side accepts what is given there. -/
theorem readBehind_eq_ok_iff {made : Command} :
    readBehind name behind = .ok (side, made) ↔
      Acceptable (some name) (itemsOf (some name) none behind) ∧
        side = sideOf (itemsOf (some name) none behind) ∧ commandOf name side = .ok made := by
  have hstands : Stands (some name) [] none {} := stands_nil
  have hsettles := settles_takeAll hstands behind
  rw [List.nil_append] at hsettles
  unfold readBehind
  rw [← bind_assoc, bind_eq_ok_iff]
  constructor
  · rintro ⟨settled, hsettled, hmade⟩
    obtain ⟨command, hcommand, hpair⟩ := bind_eq_ok_iff.mp hmade
    cases hpair
    obtain ⟨hitems, hside⟩ := hsettles.eq_ok_iff.mp hsettled
    exact ⟨hitems, hside, hcommand⟩
  · rintro ⟨hitems, hside, hcommand⟩
    refine ⟨side, hsettles.eq_ok_iff.mpr ⟨hitems, hside⟩, ?_⟩
    rw [hcommand]
    rfl

/-! ## In front of the command's name -/

/-- The word of a command is known by its name. -/
theorem commandNamed?_word (name : CommandName) :
    commandNamed? (Utf8.ofString name.word) = some name := by
  cases name <;> rfl

/-- An argument that names a command is the word of it. -/
theorem word_of_commandNamed? {argument : Bytes} (hname : commandNamed? argument = some name) :
    argument = Utf8.ofString name.word := by
  unfold commandNamed? at hname
  have hword := List.find?_some hname
  exact (beq_iff_eq.mp hword).symm

/-- The name of a command hands over what stands in front of it, settled, to the side behind it. -/
theorem readFrom_name (hstands : Stands none items none side) :
    readFrom side (Utf8.ofString name.word :: behind) = .ok request ↔
      Acceptable none items ∧ ∃ behindSide made, readBehind name behind = .ok (behindSide, made) ∧
        request = requestOf (sideOf items) behindSide made := by
  have hform : formOf (Utf8.ofString name.word) = .word := by cases name <;> rfl
  have hhelp : (Utf8.ofString name.word == helpWord) = false := by cases name <;> rfl
  have hsettles := hstands.settles
  rw [lacking_none, List.append_nil] at hsettles
  unfold readFrom
  simp only [hform, hstands.isWaiting_eq, Option.isSome_none, Bool.false_eq_true, if_false, hhelp,
    commandNamed?_word]
  rw [bind_eq_ok_iff]
  constructor
  · rintro ⟨⟨behindSide, made⟩, hbehind, hrest⟩
    obtain ⟨settled, hsettled, hrequest⟩ := bind_eq_ok_iff.mp hrest
    obtain ⟨hitems, rfl⟩ := hsettles.eq_ok_iff.mp hsettled
    cases hrequest
    exact ⟨hitems, behindSide, made, hbehind, rfl⟩
  · rintro ⟨hitems, behindSide, made, hbehind, rfl⟩
    refine ⟨(behindSide, made), hbehind, ?_⟩
    simp only
    rw [hsettles.eq_ok_iff.mpr ⟨hitems, rfl⟩]
    rfl

/-- An argument in front of the command's name that is no operand is read as on any side. -/
theorem readFrom_taken (hstands : Stands none items waiting side) {argument : Bytes}
    {given : List Item} {next : Option Setting}
    (htaken : taken? none waiting argument = some (given, next)) (hwordless : operands given = [])
    (rest : List Bytes) :
    ∃ result, readFrom side (argument :: rest) = (result >>= fun side => readFrom side rest) ∧
      Reads none (items ++ given) next result := by
  unfold taken? at htaken
  cases hform : formOf argument with
  | separator => simp [hform] at htaken
  | long name value =>
      simp only [hform, Option.some.injEq, Prod.mk.injEq] at htaken
      obtain ⟨rfl, rfl⟩ := htaken
      refine ⟨_, ?_, reads_takeLong hstands name value⟩
      rw [readFrom.eq_def]
      simp only [hform]
  | short letters =>
      simp only [hform, Option.some.injEq, Prod.mk.injEq] at htaken
      obtain ⟨rfl, rfl⟩ := htaken
      refine ⟨_, ?_, (settles_takeLetters hstands (ne_nil_of_short hform)).reads⟩
      rw [readFrom.eq_def]
      simp only [hform]
  | word =>
      cases waiting with
      | none =>
          simp only [hform, Option.some.injEq, Prod.mk.injEq] at htaken
          obtain ⟨rfl, -⟩ := htaken
          cases hwordless
      | some setting =>
          simp only [hform, Option.some.injEq, Prod.mk.injEq] at htaken
          obtain ⟨rfl, rfl⟩ := htaken
          refine ⟨.ok (side.takeValue argument), ?_, .ok (stands_takeValue hstands argument)⟩
          rw [readFrom.eq_def]
          simp only [hform, hstands.isWaiting_eq, Option.isSome_some, if_true]
          rfl

/-- Reading goes on over the arguments in front of the command's name. -/
theorem readFrom_front (hstands : Stands none items waiting side)
    (hclosed : waitsAfter none waiting front = some none)
    (hwordless : operands (itemsOf none waiting front) = []) :
    readFrom side (front ++ Utf8.ofString name.word :: behind) = .ok request ↔
      Acceptable none (items ++ itemsOf none waiting front) ∧
        ∃ behindSide made, readBehind name behind = .ok (behindSide, made) ∧
          request = requestOf (sideOf (items ++ itemsOf none waiting front)) behindSide made := by
  induction front generalizing items waiting side with
  | nil =>
      obtain rfl : waiting = none := by simpa [waitsAfter] using hclosed
      rw [itemsOf, lacking_none, List.append_nil, List.nil_append]
      exact readFrom_name hstands
  | cons argument rest ih =>
      unfold waitsAfter at hclosed
      unfold itemsOf at hwordless ⊢
      cases htaken : taken? none waiting argument with
      | none => simp [htaken] at hclosed
      | some taken =>
          obtain ⟨given, next⟩ := taken
          simp only [htaken, Option.bind_some, operands_append,
            List.append_eq_nil_iff] at hclosed hwordless ⊢
          obtain ⟨result, hresult, hreads⟩ := readFrom_taken hstands htaken hwordless.1
            (rest ++ Utf8.ofString name.word :: behind)
          rw [List.cons_append, hresult, ← List.append_assoc]
          cases hreads with
          | ok hnext => exact ih hnext hclosed hwordless.2
          | error hitems =>
              constructor
              · intro hok
                cases hok
              · rintro ⟨hall, -⟩
                exact absurd hall.of_append hitems

/-- Arguments on both sides of the command's name are read as the request that their items make. -/
theorem read_parted_iff (hfront : InFront front) :
    read (front ++ Utf8.ofString name.word :: behind) = .ok request ↔
      Makes name (itemsOf none none front) (itemsOf (some name) none behind) request := by
  unfold read Makes
  rw [readFrom_front stands_nil hfront.closed hfront.wordless, List.nil_append]
  constructor
  · rintro ⟨hitems, behindSide, made, hbehind, hrequest⟩
    obtain ⟨hitems', rfl, hmade⟩ := readBehind_eq_ok_iff.mp hbehind
    exact ⟨hitems, hitems', made, hmade, hrequest⟩
  · rintro ⟨hitems, hitems', made, hmade, hrequest⟩
    exact ⟨hitems, _, made, readBehind_eq_ok_iff.mpr ⟨hitems', rfl, hmade⟩, hrequest⟩

/-! ## Every request -/

/-- Without a command there is no request. -/
theorem withoutCommand_ne_ok (side : Side) : withoutCommand side ≠ .ok request := by
  unfold withoutCommand
  intro hok
  obtain ⟨settled, -, hrest⟩ := bind_eq_ok_iff.mp hok
  split at hrest
  · cases hrest
  · cases hrest

/-- Behind a separator in front of the command's name there is no request. -/
theorem readFrom_separator {argument : Bytes} (hform : formOf argument = .separator)
    (rest : List Bytes) : readFrom side (argument :: rest) ≠ .ok request := by
  rw [readFrom.eq_def]
  simp only [hform]
  cases rest with
  | nil => exact withoutCommand_ne_ok side
  | cons next rest =>
      simp only
      split
      · intro hok
        cases hok
      · intro hok
        cases hok

/-- A word that no option waits for is the name of a command, where a request is made. -/
theorem exists_name_of_readFrom (hstands : Stands none items none side) {argument : Bytes}
    (hform : formOf argument = .word) {rest : List Bytes}
    (hread : readFrom side (argument :: rest) = .ok request) :
    ∃ name : CommandName, argument = Utf8.ofString name.word := by
  rw [readFrom.eq_def] at hread
  simp only [hform, hstands.isWaiting_eq, Option.isSome_none, Bool.false_eq_true, if_false]
    at hread
  split at hread
  · cases hread
  · cases hnamed : commandNamed? argument with
    | none => simp [hnamed] at hread
    | some name => exact ⟨name, word_of_commandNamed? hnamed⟩

/-- Arguments that make a request have the command's name in them, with no operand in front of it
and no option waiting there. -/
theorem exists_parted_of_readFrom {arguments : List Bytes}
    (hstands : Stands none items waiting side) (hread : readFrom side arguments = .ok request) :
    ∃ front, ∃ name : CommandName, ∃ behind,
      arguments = front ++ Utf8.ofString name.word :: behind ∧
        waitsAfter none waiting front = some none ∧
          operands (itemsOf none waiting front) = [] := by
  induction arguments generalizing items waiting side with
  | nil => exact absurd hread (withoutCommand_ne_ok side)
  | cons argument rest ih =>
      by_cases hname : formOf argument = .word ∧ waiting = none
      · obtain ⟨hform, rfl⟩ := hname
        obtain ⟨name, rfl⟩ := exists_name_of_readFrom hstands hform hread
        exact ⟨[], name, rest, rfl, rfl, rfl⟩
      · obtain ⟨given, next, htaken, hwordless⟩ := exists_taken hname (by
          intro hform
          exact readFrom_separator hform rest hread)
        obtain ⟨result, hresult, hreads⟩ := readFrom_taken hstands htaken hwordless rest
        rw [hresult] at hread
        cases hreads with
        | error hitems => cases hread
        | ok hnext =>
            obtain ⟨front, name, behind, rfl, hclosed, hfront⟩ := ih hnext hread
            refine ⟨argument :: front, name, behind, rfl, ?_, ?_⟩
            · simp [waitsAfter, htaken, hclosed]
            · simp [itemsOf, htaken, operands_append, hwordless, hfront]

/-- Arguments that make a request are options, the name of a command, and what stands behind it. -/
theorem exists_parted {arguments : List Bytes} (hread : read arguments = .ok request) :
    ∃ front, ∃ name : CommandName, ∃ behind,
      arguments = front ++ Utf8.ofString name.word :: behind ∧ InFront front := by
  obtain ⟨front, name, behind, harguments, hclosed, hwordless⟩ :=
    exists_parted_of_readFrom stands_nil hread
  exact ⟨front, name, behind, harguments, hclosed, hwordless⟩

end SerialLock.CommandLine
