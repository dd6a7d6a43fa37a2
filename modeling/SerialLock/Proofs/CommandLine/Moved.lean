import SerialLock.Proofs.CommandLine.Parted

/-!
# Options on either side of the command's name

An option that all commands share may stand in front of the command's name and behind it.  Where it
is given on one side alone it means the same there as on the other.  But the sides are read each by
itself, and what is given behind the name goes before what is given in front of it: requests for
more log are not added up, and a value on each side is no conflict.  So an option may be moved to
the other side without a change exactly if it stands on neither besides (`read_move_iff`), apart
from arguments that are refused in both places, and from more log than is told apart.
-/

set_option autoImplicit false

namespace SerialLock.CommandLine

variable {command : Option CommandName} {setting : Setting} {item : Item}
  {items others before after : List Item} {arguments arguments' : List Bytes}

/-! ## Items in another order -/

/-- Items that are accepted are accepted in every order that keeps the order of the operands. -/
theorem acceptable_of_perm (hperm : items.Perm others) (hoperands : operands items = operands others)
    (hall : Acceptable command items) : Acceptable command others where
  faultless := by
    intro hmem
    exact hall.faultless (hperm.mem_iff.mpr hmem)
  once := by
    intro setting
    have honce := hall.once setting
    rwa [(values_perm hperm).length_eq] at honce
  nonempty := by
    intro setting hmem
    exact hall.nonempty setting ((values_perm hperm).mem_iff.mpr hmem)
  jsonOnce := by
    rw [← hperm.count_eq]
    exact hall.jsonOnce
  fitting := by
    rw [← hoperands]
    exact hall.fitting
  single := by
    rw [← hoperands]
    exact hall.single

/-- Accepted items make the same side in every order that keeps the order of the operands. -/
theorem sideOf_of_perm (hperm : items.Perm others) (hoperands : operands items = operands others)
    (hall : Acceptable command items) : sideOf items = sideOf others := by
  have hvalues (setting : Setting) : values setting items = values setting others := by
    have hsame : (values setting items).Perm (values setting others) := values_perm hperm
    have honce := hall.once setting
    cases hitems : values setting items with
    | nil =>
        rw [hitems] at hsame
        exact hsame.nil_eq
    | cons value rest =>
        rw [hitems, List.length_cons] at honce
        obtain rfl : rest = [] := List.eq_nil_of_length_eq_zero (by omega)
        rw [hitems] at hsame
        exact (List.perm_singleton.mp hsame.symm).symm
  have hjson : Item.json ∈ items ↔ Item.json ∈ others := hperm.mem_iff
  simp [sideOf, hvalues, hoperands, hperm.count_eq, hjson]

/-- An item in the midst of others may be put last. -/
theorem perm_insert : (before ++ item :: after).Perm (before ++ after ++ [item]) :=
  List.perm_middle.trans (List.perm_append_singleton item (before ++ after)).symm

/-- Where an item stands that is no operand makes no difference to the operands. -/
theorem operands_insert (hitem : item.operand? = none) :
    operands (before ++ item :: after) = operands (before ++ after ++ [item]) := by
  rw [operands_append_of_none hitem, operands_append, operands_append]
  simp [operands, hitem]

/-- What is accepted, and which side it makes, does not depend on where an option stands. -/
theorem acceptable_insert_iff (hitem : item.operand? = none) :
    Acceptable command (before ++ item :: after) ↔
      Acceptable command (before ++ after ++ [item]) := by
  have hoperands : operands (before ++ item :: after) = operands (before ++ after ++ [item]) :=
    operands_insert hitem
  constructor
  · exact acceptable_of_perm perm_insert hoperands
  · exact acceptable_of_perm perm_insert.symm hoperands.symm

/-- Accepted items make the same side wherever an option stands among them. -/
theorem sideOf_insert (hitem : item.operand? = none)
    (hall : Acceptable command (before ++ item :: after)) :
    sideOf (before ++ item :: after) = sideOf (before ++ after ++ [item]) :=
  sideOf_of_perm perm_insert (operands_insert hitem) hall

/-! ## One option more -/

/-- The option alone, before its value. -/
def Setting.flag (setting : Setting) : Bytes :=
  hyphen :: hyphen :: setting.word

/-- The second arguments have one option more, with its value, at a place where no option waits for
its own: as arguments of their own, or as one more letter behind a hyphen. -/
inductive Adds (command : Option CommandName) : Item → List Bytes → List Bytes → Prop where
  | attached {setting : Setting} {value : Path} {front back : List Bytes}
      (hplace : waitsAfter command none front = some none) :
      Adds command (.given setting value) (front ++ back)
        (front ++ setting.argument value :: back)
  | detached {setting : Setting} {value : Path} {front back : List Bytes}
      (hplace : waitsAfter command none front = some none) (hvalue : formOf value = .word) :
      Adds command (.given setting value) (front ++ back)
        (front ++ setting.flag :: value :: back)
  | long {front back : List Bytes} (hplace : waitsAfter command none front = some none) :
      Adds command .verbose (front ++ back) (front ++ Utf8.ofString "--verbose" :: back)
  | short {front back : List Bytes} (hplace : waitsAfter command none front = some none) :
      Adds command .verbose (front ++ back) (front ++ Utf8.ofString "-v" :: back)
  | letter {front back : List Bytes} {letters more : Bytes}
      (hplace : waitsAfter command none front = some none)
      (hfewer : formOf (hyphen :: (letters ++ more)) = .short (letters ++ more))
      (hmore : formOf (hyphen :: (letters ++ 0x76 :: more)) = .short (letters ++ 0x76 :: more)) :
      Adds command .verbose (front ++ (hyphen :: (letters ++ more)) :: back)
        (front ++ (hyphen :: (letters ++ 0x76 :: more)) :: back)

/-- An option in one argument with its value gives that value, and nothing waits behind it. -/
theorem taken?_argument (setting : Setting) (value : Path) :
    taken? command none (setting.argument value) = some ([.given setting value], none) := by
  unfold taken?
  simp only [formOf_argument, Item.ofLong, long?_word]
  rfl

/-- An option alone gives nothing and waits for its value. -/
theorem taken?_flag (setting : Setting) :
    taken? command none setting.flag = some ([], some setting) := by
  have hform : formOf setting.flag = .long setting.word none := by cases setting <;> rfl
  unfold taken?
  simp only [hform, Item.ofLong, long?_word]
  rfl

/-- A word behind an option that waits is its value. -/
theorem taken?_value {value : Bytes} (hvalue : formOf value = .word) :
    taken? command (some setting) value = some ([.given setting value], none) := by
  unfold taken?
  rw [hvalue]

/-- The long request for more log is counted once. -/
theorem taken?_verbose : taken? command none (Utf8.ofString "--verbose") = some ([.verbose], none) :=
  rfl

/-- The short request for more log is counted once. -/
theorem taken?_short : taken? command none (Utf8.ofString "-v") = some ([.verbose], none) :=
  rfl

/-- Letters after one hyphen give what each of them gives. -/
theorem taken?_letters {letters : Bytes} (hform : formOf (hyphen :: letters) = .short letters) :
    taken? command none (hyphen :: letters) = some (letters.map Item.ofLetter, none) := by
  unfold taken?
  rw [hform]
  rfl

/-- Arguments that give an item where no option waits give it between what stands around them. -/
theorem exists_items_insert {front given back : List Bytes}
    (hplace : waitsAfter command none front = some none)
    (hgiven : itemsOf command none (given ++ back) = item :: itemsOf command none back) :
    ∃ before after, itemsOf command none (front ++ back) = before ++ after ∧
      itemsOf command none (front ++ (given ++ back)) = before ++ item :: after := by
  refine ⟨itemsOf command none front, itemsOf command none back, itemsOf_append back hplace, ?_⟩
  rw [itemsOf_append _ hplace, hgiven]

/-- The arguments give one item more. -/
theorem Adds.exists_items (hadds : Adds command item arguments arguments') :
    ∃ before after, itemsOf command none arguments = before ++ after ∧
      itemsOf command none arguments' = before ++ item :: after := by
  cases hadds with
  | @attached setting value front back hplace =>
      apply @exists_items_insert command _ front [setting.argument value] back hplace
      simp [itemsOf, taken?_argument]
  | @detached setting value front back hplace hvalue =>
      apply @exists_items_insert command _ front [setting.flag, value] back hplace
      simp [itemsOf, taken?_flag, taken?_value hvalue]
  | @long front back hplace =>
      apply @exists_items_insert command _ front [Utf8.ofString "--verbose"] back hplace
      simp [itemsOf, taken?_verbose]
  | @short front back hplace =>
      apply @exists_items_insert command _ front [Utf8.ofString "-v"] back hplace
      simp [itemsOf, taken?_short]
  | @letter front back letters more hplace hfewer hmore =>
      refine ⟨itemsOf command none front ++ letters.map Item.ofLetter,
        more.map Item.ofLetter ++ itemsOf command none back, ?_, ?_⟩
      · rw [itemsOf_append _ hplace, itemsOf, taken?_letters hfewer]
        simp
      · rw [itemsOf_append _ hplace, itemsOf, taken?_letters hmore]
        simp [Item.ofLetter]

/-- An option that is added is no operand. -/
theorem Adds.operand?_eq (hadds : Adds command item arguments arguments') :
    item.operand? = none := by
  cases hadds <;> rfl

/-- One option more leaves none waiting that did not wait before. -/
theorem Adds.waitsAfter_eq (hadds : Adds command item arguments arguments') :
    waitsAfter command none arguments' = waitsAfter command none arguments := by
  cases hadds with
  | @attached setting value front back hplace =>
      simp [waitsAfter_append, hplace, waitsAfter, taken?_argument]
  | @detached setting value front back hplace hvalue =>
      simp [waitsAfter_append, hplace, waitsAfter, taken?_flag, taken?_value hvalue]
  | @long front back hplace => simp [waitsAfter_append, hplace, waitsAfter, taken?_verbose]
  | @short front back hplace => simp [waitsAfter_append, hplace, waitsAfter, taken?_short]
  | @letter front back letters more hplace hfewer hmore =>
      simp [waitsAfter_append, hplace, waitsAfter, taken?_letters hfewer, taken?_letters hmore]

/-- Arguments that may stand in front of the command's name may do so with an option more. -/
theorem InFront.adds (hfront : InFront arguments) (hadds : Adds none item arguments arguments') :
    InFront arguments' := by
  obtain ⟨before, after, hitems, hitems'⟩ := hadds.exists_items
  constructor
  · rw [hadds.waitsAfter_eq]
    exact hfront.closed
  · have hwordless := hfront.wordless
    rw [hitems, operands_append] at hwordless
    rw [hitems', operands_append, ← List.singleton_append, operands_append]
    have hnone : operands [item] = [] := by simp [operands, hadds.operand?_eq]
    rw [hnone]
    exact hwordless

/-! ## One option more on one side -/

variable {name : CommandName} {front behind : List Item} {request : Request}
  {arguments₁ arguments₂ : List Bytes}

/-- Behind the command's name an option makes the same request wherever it stands. -/
theorem makes_insert_behind_iff (hitem : item.operand? = none) :
    Makes name front (before ++ item :: after) request ↔
      Makes name front (before ++ after ++ [item]) request := by
  unfold Makes
  rw [acceptable_insert_iff hitem]
  apply and_congr_right
  intro _
  apply and_congr_right
  intro hall
  rw [sideOf_insert hitem ((acceptable_insert_iff hitem).mpr hall)]

/-- In front of the command's name an option makes the same request wherever it stands. -/
theorem makes_insert_front_iff (hitem : item.operand? = none) :
    Makes name (before ++ item :: after) behind request ↔
      Makes name (before ++ after ++ [item]) behind request := by
  unfold Makes
  rw [acceptable_insert_iff hitem]
  apply and_congr_right
  intro hall
  rw [sideOf_insert hitem ((acceptable_insert_iff hitem).mpr hall)]

/-- One option more behind the command's name is one item more there. -/
theorem read_adds_behind_iff (hfront : InFront arguments)
    (hadds : Adds (some name) item arguments₁ arguments₂) :
    read (arguments ++ Utf8.ofString name.word :: arguments₂) = .ok request ↔
      Makes name (itemsOf none none arguments) (itemsOf (some name) none arguments₁ ++ [item])
        request := by
  obtain ⟨before, after, hitems, hitems'⟩ := hadds.exists_items
  rw [read_parted_iff hfront, hitems, hitems', makes_insert_behind_iff hadds.operand?_eq]

/-- With an option more in front of the command's name, the request is the one that its item makes
as the last of those there. -/
theorem read_adds_front_iff (hfront : InFront arguments)
    (hadds : Adds none item arguments arguments') :
    read (arguments' ++ Utf8.ofString name.word :: arguments₁) = .ok request ↔
      Makes name (itemsOf none none arguments ++ [item]) (itemsOf (some name) none arguments₁)
        request := by
  obtain ⟨before, after, hitems, hitems'⟩ := hadds.exists_items
  rw [read_parted_iff (hfront.adds hadds), hitems, hitems',
    makes_insert_front_iff hadds.operand?_eq]

/-- The command is made of the operands and of the request for JSON alone. -/
theorem commandOf_eq {side other : Side} (hoperands : side.operands = other.operands)
    (hjson : side.json = other.json) : commandOf name side = commandOf name other := by
  unfold commandOf
  rw [hoperands, hjson]

/-! ## Requests for more log -/

/-- The request with more log, as the sides count the requests for it. -/
def withLog (front behind : Nat) (request : Request) : Request :=
  { request with verbosity := if behind = 0 then min 255 front else min 255 behind }

/-- The count of a request is the one that the requests for more log on the two sides come to. -/
theorem requestOf_eq_withLog (front behind : List Item) (made : Command) :
    requestOf (sideOf front) (sideOf behind) made =
      withLog (front.count .verbose) (behind.count .verbose)
        (requestOf (sideOf front) (sideOf behind) made) := by
  unfold withLog requestOf sideOf
  simp only [Request.mk.injEq, true_and, and_true]
  by_cases hnone : behind.count .verbose = 0
  · simp [hnone]
  · have hsome : min 255 (behind.count .verbose) ≠ 0 := by omega
    simp [hnone, hsome]

/-- The count of a request that is read is the one that the requests for more log on the two sides
come to. -/
theorem verbosity_of_makes (hmakes : Makes name front behind request) :
    request = withLog (front.count .verbose) (behind.count .verbose) request := by
  obtain ⟨-, -, made, -, rfl⟩ := hmakes
  exact requestOf_eq_withLog front behind made

/-- Items that change nothing but the log that is asked for make the request with that log. -/
theorem makes_withLog_iff {front' behind' : List Item} {inFront inBack : Nat}
    (hfront : Acceptable none front' ↔ Acceptable none front)
    (hbehind : Acceptable (some name) behind' ↔ Acceptable (some name) behind)
    (hcommand : commandOf name (sideOf behind') = commandOf name (sideOf behind))
    (hlog : ∀ made, requestOf (sideOf front') (sideOf behind') made =
      withLog inFront inBack (requestOf (sideOf front) (sideOf behind) made)) :
    Makes name front' behind' request ↔
      ∃ other, Makes name front behind other ∧ request = withLog inFront inBack other := by
  unfold Makes
  rw [hfront, hbehind, hcommand]
  constructor
  · rintro ⟨hitems, hitems', made, hmade, rfl⟩
    exact ⟨_, ⟨hitems, hitems', made, hmade, rfl⟩, hlog made⟩
  · rintro ⟨other, ⟨hitems, hitems', made, hmade, rfl⟩, rfl⟩
    exact ⟨hitems, hitems', made, hmade, (hlog made).symm⟩

/-- One more request for more log is counted. -/
theorem count_verbose_append :
    (items ++ [Item.verbose]).count .verbose = items.count .verbose + 1 := by
  simp [List.count_append]

/-- One more request for more log behind the command's name changes the count of the request and
nothing else. -/
theorem makes_verbose_behind_iff :
    Makes name front (behind ++ [.verbose]) request ↔
      ∃ other, Makes name front behind other ∧
        request = withLog (front.count .verbose) (behind.count .verbose + 1) other := by
  apply makes_withLog_iff Iff.rfl acceptable_verbose_iff
  · rw [sideOf_verbose]
    exact commandOf_eq rfl rfl
  · intro made
    have hlog := requestOf_eq_withLog front (behind ++ [.verbose]) made
    rw [count_verbose_append] at hlog
    rw [hlog, sideOf_verbose]
    rfl

/-- One more request for more log in front of the command's name changes the count of the request
and nothing else. -/
theorem makes_verbose_front_iff :
    Makes name (front ++ [.verbose]) behind request ↔
      ∃ other, Makes name front behind other ∧
        request = withLog (front.count .verbose + 1) (behind.count .verbose) other := by
  apply makes_withLog_iff acceptable_verbose_iff Iff.rfl rfl
  intro made
  have hlog := requestOf_eq_withLog (front ++ [.verbose]) behind made
  rw [count_verbose_append] at hlog
  rw [hlog, sideOf_verbose]
  rfl

/-- More log makes no request where there was none, and prevents none. -/
theorem forall_not_iff_of_withLog {P Q : Request → Prop} {inFront inBack : Nat}
    (hlog : ∀ request, P request ↔ ∃ other, Q other ∧ request = withLog inFront inBack other) :
    (∀ request, ¬P request) ↔ ∀ request, ¬Q request := by
  constructor
  · intro hnone other hother
    exact hnone _ ((hlog _).mpr ⟨other, hother, rfl⟩)
  · intro hnone request hrequest
    obtain ⟨other, hother, -⟩ := (hlog request).mp hrequest
    exact hnone other hother

/-- The log is the same with one request more on either side where there is no other, and where those
behind the command's name are as many as count. -/
theorem withLog_move_iff {inFront inBack : Nat} :
    withLog inFront (inBack + 1) request = withLog (inFront + 1) inBack request ↔
      (inFront = 0 ∧ inBack = 0) ∨ 255 ≤ inBack := by
  unfold withLog
  simp only [Request.mk.injEq, true_and, and_true, Nat.add_eq_zero_iff, Nat.one_ne_zero, and_false,
    if_false]
  by_cases hnone : inBack = 0
  · rw [if_pos hnone]
    omega
  · rw [if_neg hnone]
    omega

/-! ## Values -/

/-- The request with a value for an option. -/
def Setting.put (setting : Setting) (value? : Option Path) (request : Request) : Request :=
  match setting with
  | .settingsFile => { request with settingsFile := value? }
  | .lockDirectory => { request with lockDirectory := value? }

/-- The value that a request has for an option. -/
def Setting.valueIn (request : Request) : Setting → Option Path
  | .settingsFile => request.settingsFile
  | .lockDirectory => request.lockDirectory

/-- A request has the value that an option is given behind the command's name, and the one in front
of it where none is given behind. -/
theorem value_of_makes (hmakes : Makes name front behind request) (setting : Setting) :
    setting.valueIn request = (values setting behind).head?.or (values setting front).head? := by
  obtain ⟨-, -, made, -, rfl⟩ := hmakes
  cases setting <;> rfl

/-- A value behind the command's name is taken where the option has none there and the value is not
empty, and it goes before one in front. -/
theorem makes_given_behind_iff {value : Path} :
    Makes name front (behind ++ [.given setting value]) request ↔
      values setting behind = [] ∧ value ≠ [] ∧
        ∃ other, Makes name front behind other ∧ request = setting.put (some value) other := by
  unfold Makes
  rw [acceptable_given_iff]
  constructor
  · rintro ⟨hfront, ⟨hbehind, hnone, hvalue⟩, made, hmade, rfl⟩
    rw [sideOf_given hnone] at hmade ⊢
    refine ⟨hnone, hvalue, _, ⟨hfront, hbehind, made, ?_, rfl⟩, ?_⟩
    · rw [← hmade]
      cases setting <;> exact commandOf_eq rfl rfl
    · cases setting <;> rfl
  · rintro ⟨hnone, hvalue, other, ⟨hfront, hbehind, made, hmade, rfl⟩, rfl⟩
    refine ⟨hfront, ⟨hbehind, hnone, hvalue⟩, made, ?_, ?_⟩
    · rw [sideOf_given hnone, ← hmade]
      cases setting <;> exact commandOf_eq rfl rfl
    · rw [sideOf_given hnone]
      cases setting <;> rfl

/-- A value in front of the command's name is taken where the option has none there and the value is
not empty, and one behind the name goes before it. -/
theorem makes_given_front_iff {value : Path} :
    Makes name (front ++ [.given setting value]) behind request ↔
      values setting front = [] ∧ value ≠ [] ∧ ∃ other, Makes name front behind other ∧
        request = setting.put ((values setting behind).head?.or (some value)) other := by
  unfold Makes
  rw [acceptable_given_iff]
  constructor
  · rintro ⟨⟨hfront, hnone, hvalue⟩, hbehind, made, hmade, rfl⟩
    refine ⟨hnone, hvalue, _, ⟨hfront, hbehind, made, hmade, rfl⟩, ?_⟩
    rw [sideOf_given hnone]
    cases setting <;> rfl
  · rintro ⟨hnone, hvalue, other, ⟨hfront, hbehind, made, hmade, rfl⟩, rfl⟩
    refine ⟨⟨hfront, hnone, hvalue⟩, hbehind, made, hmade, ?_⟩
    rw [sideOf_given hnone]
    cases setting <;> rfl

/-! ## Moving an option -/

/-- Items make no more than one request. -/
theorem Makes.unique {other : Request} (hmakes : Makes name front behind request)
    (hother : Makes name front behind other) : request = other := by
  obtain ⟨-, -, made, hmade, rfl⟩ := hmakes
  obtain ⟨-, -, made', hmade', rfl⟩ := hother
  rw [hmade, Except.ok.injEq] at hmade'
  rw [hmade']

/-- A request for more log may change sides exactly if nothing is accepted, or if it is the only
one, or if there are as many behind the name as are told apart. -/
theorem makes_moveVerbose_iff :
    (∀ request, Makes name front (behind ++ [.verbose]) request ↔
        Makes name (front ++ [.verbose]) behind request) ↔
      (∀ request, ¬Makes name front behind request) ∨
        (front.count .verbose = 0 ∧ behind.count .verbose = 0) ∨ 255 ≤ behind.count .verbose := by
  simp only [makes_verbose_behind_iff, makes_verbose_front_iff]
  by_cases hmade : ∃ other, Makes name front behind other
  · obtain ⟨other, hmakes⟩ := hmade
    have hsome : ¬∀ request, ¬Makes name front behind request := fun hnone => hnone other hmakes
    rw [or_iff_right hsome, ← @withLog_move_iff other]
    constructor
    · intro hsame
      obtain ⟨other', hmakes', hlog⟩ := (hsame _).mp ⟨other, hmakes, rfl⟩
      rw [hlog, hmakes'.unique hmakes]
    · intro hlog request
      constructor
      · rintro ⟨other', hmakes', rfl⟩
        obtain rfl := hmakes'.unique hmakes
        exact ⟨other', hmakes, hlog⟩
      · rintro ⟨other', hmakes', rfl⟩
        obtain rfl := hmakes'.unique hmakes
        exact ⟨other', hmakes, hlog.symm⟩
  · have hnone : ∀ request, ¬Makes name front behind request := not_exists.mp hmade
    simp [hnone]

/-- A value may change sides exactly if it is refused on both, or if the option has no other value
on either. -/
theorem makes_moveGiven_iff {value : Path} :
    (∀ request, Makes name front (behind ++ [.given setting value]) request ↔
        Makes name (front ++ [.given setting value]) behind request) ↔
      ((∀ request, ¬Makes name front (behind ++ [.given setting value]) request) ∧
          ∀ request, ¬Makes name (front ++ [.given setting value]) behind request) ∨
        (values setting front = [] ∧ values setting behind = []) := by
  constructor
  · intro hsame
    by_cases hmade : ∃ request, Makes name front (behind ++ [.given setting value]) request
    · obtain ⟨request, hmakes⟩ := hmade
      obtain ⟨hnone, -, -⟩ := makes_given_front_iff.mp ((hsame request).mp hmakes)
      obtain ⟨hnone', -, -⟩ := makes_given_behind_iff.mp hmakes
      exact .inr ⟨hnone, hnone'⟩
    · have hnone := not_exists.mp hmade
      refine .inl ⟨hnone, ?_⟩
      intro request hmakes
      exact hnone request ((hsame request).mpr hmakes)
  · rintro (⟨hnone, hnone'⟩ | ⟨hfront, hbehind⟩)
    · intro request
      exact iff_of_false (hnone request) (hnone' request)
    · intro request
      rw [makes_given_behind_iff, makes_given_front_iff, hfront, hbehind]
      rfl

/-- How often items give the same option as this one. -/
def times : Item → List Item → Nat
  | .given setting _, items => (values setting items).length
  | item, items => items.count item

/-- Arguments that make a request are options, the name of a command, and what stands behind it.
On each side an option has at most one value, the one behind the name goes before the one in front
of it, and requests for more log are counted behind the name, or in front of it where there are none
behind, up to 255.  So where one more option is added, it makes the same on either side, and can be
moved to the other, exactly where it is given on neither side besides, or more log is asked for
behind the name 255 times besides, or the arguments are refused with it on both sides. -/
theorem read_move_iff (arguments : List Bytes) :
    (∀ request, read arguments = .ok request → ∃ front, ∃ name : CommandName, ∃ behind,
      arguments = front ++ Utf8.ofString name.word :: behind ∧ InFront front) ∧
    ∀ (front : List Bytes) (name : CommandName) (behind : List Bytes),
      arguments = front ++ Utf8.ofString name.word :: behind → InFront front →
      let frontItems := itemsOf none none front
      let behindItems := itemsOf (some name) none behind
      (∀ request, read arguments = .ok request →
        request.verbosity = (if behindItems.count .verbose = 0
          then min 255 (frontItems.count .verbose) else min 255 (behindItems.count .verbose)) ∧
        ∀ setting, (values setting frontItems).length ≤ 1 ∧
          (values setting behindItems).length ≤ 1 ∧
          setting.valueIn request =
            (values setting behindItems).head?.or (values setting frontItems).head?) ∧
      ∀ (item : Item) (front' behind' : List Bytes),
        Adds none item front front' → Adds (some name) item behind behind' →
        let before := (read (front ++ Utf8.ofString name.word :: behind')).toOption
        let after := (read (front' ++ Utf8.ofString name.word :: behind)).toOption
        (item = .verbose → (before = none ↔ after = none)) ∧
        (before = after ↔ (before = none ∧ after = none) ∨
          (times item frontItems = 0 ∧ times item behindItems = 0) ∨
          (item = .verbose ∧ 255 ≤ times item behindItems)) := by
  refine ⟨fun request hread => exists_parted hread, ?_⟩
  rintro front name behind rfl hfront frontItems behindItems
  constructor
  · intro request hread
    have hmakes := (read_parted_iff hfront).mp hread
    constructor
    · rw [verbosity_of_makes hmakes]
      rfl
    · intro setting
      exact ⟨hmakes.1.once setting, hmakes.2.1.once setting, value_of_makes hmakes setting⟩
  · intro item front' behind' hadds hadds' before after
    have hbefore : before = none ↔
        ∀ request, ¬Makes name frontItems (behindItems ++ [item]) request := by
      simp only [before, toOption_eq_none_iff, ne_eq, read_adds_behind_iff hfront hadds']
      rfl
    have hafter : after = none ↔
        ∀ request, ¬Makes name (frontItems ++ [item]) behindItems request := by
      simp only [after, toOption_eq_none_iff, ne_eq, read_adds_front_iff hfront hadds]
      rfl
    have hsame : before = after ↔ ∀ request,
        Makes name frontItems (behindItems ++ [item]) request ↔
          Makes name (frontItems ++ [item]) behindItems request := by
      simp only [before, after, toOption_eq_iff, read_adds_behind_iff hfront hadds',
        read_adds_front_iff hfront hadds]
      rfl
    -- more log adds up on its side alone, while a value for an option must be the only one there
    rw [hsame, hbefore, hafter]
    cases item with
    | verbose =>
        rw [forall_not_iff_of_withLog fun _ => makes_verbose_behind_iff,
          forall_not_iff_of_withLog fun _ => makes_verbose_front_iff, makes_moveVerbose_iff]
        simp [times]
    | given setting value =>
        rw [makes_moveGiven_iff]
        simp [times]
    | _ => cases hadds

/-- More log is asked for three times on both sides, which counts twice with two of the letters
behind the name, and once with two of them in front.  A settings file on each side is no conflict. -/
theorem read_move_iff_bothSides :
    let verbose := Utf8.ofString "-v"
    let twice := Utf8.ofString "-vv"
    let path := Utf8.ofString "x"
    InFront [verbose] ∧ Adds none .verbose [verbose] [twice] ∧
      Adds (some .owner) .verbose [verbose, path] [verbose, verbose, path] ∧
      read [verbose, Utf8.ofString "owner", verbose, verbose, path] =
        .ok { verbosity := 2, command := .owner path } ∧
      read [twice, Utf8.ofString "owner", verbose, path] =
        .ok { verbosity := 1, command := .owner path } ∧
      (read ([verbose] ++ Utf8.ofString "owner" :: [verbose, verbose, path])).toOption ≠
        (read ([twice] ++ Utf8.ofString "owner" :: [verbose, path])).toOption ∧
      read [Utf8.ofString "--config", Utf8.ofString "a", Utf8.ofString "owner", path,
          Utf8.ofString "--config", Utf8.ofString "b"] =
        .ok { settingsFile := some (Utf8.ofString "b"), command := .owner path } := by
  intro verbose twice path
  have hfront : InFront [verbose] := ⟨rfl, rfl⟩
  have hadds : Adds none .verbose [verbose] [twice] :=
    @Adds.letter none [] [] [0x76] [] rfl rfl rfl
  have hadds' : Adds (some .owner) .verbose [verbose, path] [verbose, verbose, path] :=
    @Adds.short (some .owner) [] [verbose, path] rfl
  refine ⟨hfront, hadds, hadds', rfl, rfl, ?_, rfl⟩
  obtain ⟨-, hmoves⟩ := (read_move_iff [verbose, Utf8.ofString "owner", verbose, path]).2
    [verbose] .owner [verbose, path] rfl hfront
  obtain ⟨-, hmove⟩ := hmoves _ _ _ hadds hadds'
  intro hsame
  rcases hmove.mp hsame with ⟨hnone, -⟩ | ⟨htimes, -⟩ | ⟨-, htimes⟩
  · cases hnone
  · cases htimes
  · have hone : times .verbose (itemsOf (some .owner) none [verbose, path]) = 1 := rfl
    omega

end SerialLock.CommandLine
