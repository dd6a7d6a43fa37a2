import Mathlib.Data.List.TakeWhile
import SerialLock.Proofs.CommandLine.Moved

/-!
# Which arguments are operands

What the operands of a command are shows without reading options.  Of the arguments behind the
command's name those are left over that stand behind the first separator, and those before it that
neither start with a hyphen nor follow an option that takes its value from the next argument
(`leftOver`).  Where arguments make a request, the operands of its command are these, in this order
(`operands_of_read`): no value is taken for an operand, and no operand for a value.

The items of arguments are compared with what is left over one argument after the other.  All that
has to be known of the arguments before is the last one, as it alone decides whether an option waits
(`taken?_eq`).
-/

set_option autoImplicit false

namespace SerialLock.CommandLine

/-! ## What is left over -/

/-- The argument starts with a hyphen and goes on. -/
def isDashed (argument : Bytes) : Bool :=
  argument.head? == some hyphen && 1 < argument.length

/-- Two hyphens alone: all arguments behind them are operands. -/
def separator : Bytes :=
  [hyphen, hyphen]

/-- The argument is an option that takes its value from the next argument. -/
def isDetached (argument : Bytes) : Bool :=
  argument == Setting.settingsFile.flag || argument == Setting.lockDirectory.flag

/-- The arguments that neither are options nor follow one that takes its value from the next
argument; `previous` is the one before them, if any. -/
def words (previous : Option Bytes) : List Bytes → List Bytes
  | [] => []
  | argument :: rest =>
    let others := words (some argument) rest
    if isDashed argument || previous.any isDetached then others else argument :: others

/-- The arguments before the first separator. -/
def beforeSeparator (arguments : List Bytes) : List Bytes :=
  arguments.takeWhile (· != separator)

/-- The arguments behind the first separator. -/
def behindSeparator (arguments : List Bytes) : List Bytes :=
  (arguments.dropWhile (· != separator)).drop 1

/-- What is left of arguments without their options, the values that follow options, and the first
separator. -/
def leftOver (arguments : List Bytes) : List Bytes :=
  words none (beforeSeparator arguments) ++ behindSeparator arguments

/-- The options among arguments. -/
def options (arguments : List Bytes) : List Bytes :=
  (beforeSeparator arguments).filter isDashed

/-- The arguments are options with their values alone, so that a word behind them is the first. -/
structure OptionsAlone (arguments : List Bytes) : Prop where
  inseparate : separator ∉ arguments
  wordless : words none arguments = []
  closed : arguments.getLast?.any isDetached = false

/-- No option among the arguments has an empty value, neither attached nor in the next argument. -/
structure Valued (arguments : List Bytes) : Prop where
  attached : ∀ setting : Setting, setting.argument [] ∉ arguments
  detached : ∀ option, isDetached option = true → ¬[option, []] <:+: arguments

/-- The command does to what is left over of the arguments what its name says. -/
def IsOf (arguments : List Bytes) : Command → Prop
  | .owner path => leftOver arguments = [path] ∧ path ≠ []
  | .status devices json =>
    leftOver arguments = devices.map Utf8.ofString ∧ devices ≠ [] ∧
      (∀ operand ∈ leftOver arguments, (Utf8.decode? operand).isSome) ∧
      (json = true ↔ Utf8.ofString "--json" ∈ options arguments)
  | .lock device => leftOver arguments = [Utf8.ofString device]
  | .unlock device => leftOver arguments = [Utf8.ofString device]

variable {command : Option CommandName} {waiting : Option Setting} {setting : Setting}
  {previous : Option Bytes} {argument : Bytes} {arguments : List Bytes} {name : CommandName}
  {items : List Item} {made : Command} {request : Request}

/-! ## Forms -/

/-- Only the separator has the form of one. -/
theorem formOf_eq_separator_iff : formOf argument = .separator ↔ argument = separator := by
  constructor
  · intro hform
    unfold formOf at hform
    split at hform
    · split at hform
      · rename_i hhyphens
        simp only [Bool.and_eq_true, beq_iff_eq] at hhyphens
        split at hform
        · rename_i hrest
          rw [List.isEmpty_iff] at hrest
          rw [hrest, hhyphens.1, hhyphens.2]
          rfl
        · cases hform
      · split at hform
        · cases hform
        · cases hform
    · cases hform
  · rintro rfl
    rfl

/-- Only a word has no hyphen in front of it. -/
theorem isDashed_eq_false_iff : isDashed argument = false ↔ formOf argument = .word := by
  unfold isDashed formOf
  match argument with
  | [] => simp
  | [a] => simp
  | a :: b :: rest =>
      simp only [List.head?_cons, List.length_cons]
      by_cases hfirst : a = hyphen
      · by_cases hsecond : b = hyphen
        · by_cases hrest : rest = []
          · simp [hfirst, hsecond, hrest]
          · simp [hfirst, hsecond, hrest]
        · simp [hfirst, hsecond]
      · simp [hfirst]

/-- An argument with the form of a name without a value is two hyphens and the name. -/
theorem eq_of_formOf_long {word : Bytes} (hform : formOf argument = .long word none) :
    argument = hyphen :: hyphen :: word := by
  unfold formOf at hform
  split at hform
  · rename_i a b rest
    by_cases hhyphens : a = hyphen ∧ b = hyphen
    · obtain ⟨rfl, rfl⟩ := hhyphens
      by_cases hrest : rest = []
      · simp [hrest] at hform
      · by_cases hvalue : rest.dropWhile (· != equals) = []
        · have hsplit : rest.takeWhile (· != equals) ++ rest.dropWhile (· != equals) = rest :=
            List.takeWhile_append_dropWhile
          rw [hvalue, List.append_nil] at hsplit
          simp only [hrest, hsplit, List.isEmpty_iff, hvalue, BEq.rfl, Bool.and_self, if_true,
            if_false, Form.long.injEq, and_true] at hform
          rw [hform]
        · simp [hrest, hvalue] at hform
    · simp only [Bool.and_eq_true, beq_iff_eq, hhyphens, if_false] at hform
      split at hform
      · cases hform
      · cases hform
  · cases hform

/-- The detached options are the names after two hyphens that need a value and have none. -/
theorem isDetached_iff : isDetached argument = true ↔
    ∃ setting : Setting, argument = setting.flag := by
  unfold isDetached
  rw [Bool.or_eq_true, beq_iff_eq, beq_iff_eq]
  constructor
  · rintro (rfl | rfl)
    · exact ⟨.settingsFile, rfl⟩
    · exact ⟨.lockDirectory, rfl⟩
  · rintro ⟨setting, rfl⟩
    cases setting with
    | settingsFile => exact .inl rfl
    | lockDirectory => exact .inr rfl

/-- An option alone has the form of its word without a value. -/
theorem formOf_flag (setting : Setting) : formOf setting.flag = .long setting.word none := by
  cases setting <;> rfl

/-- An argument that is not a name without a value is no option that takes the next argument. -/
theorem isDetached_eq_false (hform : ∀ word, formOf argument ≠ .long word none) :
    isDetached argument = false := by
  rw [← Bool.not_eq_true, isDetached_iff]
  rintro ⟨setting, rfl⟩
  exact hform _ (formOf_flag setting)

/-- The word for a name after two hyphens. -/
def Side.Long.word : Side.Long → Bytes
  | .setting setting => setting.word
  | .verbose => Utf8.ofString "verbose"
  | .json => Utf8.ofString "json"
  | .help => Utf8.ofString "help"
  | .version => Utf8.ofString "version"

/-- A name that is known is the word of what it stands for. -/
theorem word_of_long? {word : Bytes} {long : Side.Long}
    (hlong : Side.long? command word = some long) : word = long.word := by
  unfold Side.long? at hlong
  grind [Side.Long.word, Setting.word]

/-- An option waits behind a name after two hyphens exactly if that is a detached option. -/
theorem isDetached_eq_of_long {word : Bytes} {value : Option Bytes}
    (hform : formOf argument = .long word value) :
    isDetached argument = (Item.ofLong command word value).2.isSome := by
  rw [Bool.eq_iff_iff, isDetached_iff]
  constructor
  · rintro ⟨setting, rfl⟩
    rw [formOf_flag, Form.long.injEq] at hform
    obtain ⟨rfl, rfl⟩ := hform
    simp [Item.ofLong, long?_word]
  · intro hwaits
    unfold Item.ofLong at hwaits
    split at hwaits
    · rename_i setting hlong
      exact ⟨setting, by rw [eq_of_formOf_long hform, word_of_long? hlong]; rfl⟩
    all_goals cases hwaits

/-! ## Operands -/

/-- One argument leaves an operand if it is a word that the argument before it does not need. -/
theorem taken?_eq (hprevious : previous.any isDetached = waiting.isSome)
    (hseparator : argument ≠ separator) :
    ∃ given next, taken? command waiting argument = some (given, next) ∧
      isDetached argument = next.isSome ∧
      operands given =
        if isDashed argument || previous.any isDetached then [] else [argument] := by
  by_cases hoperand : formOf argument = .word ∧ waiting = none
  · obtain ⟨hform, rfl⟩ := hoperand
    refine ⟨[.operand argument], none, ?_, isDetached_eq_false (by simp [hform]), ?_⟩
    · simp [taken?, hform]
    · simp [isDashed_eq_false_iff.mpr hform, hprevious, operands, Item.operand?]
  · obtain ⟨given, next, htaken, hwordless⟩ := @exists_taken command waiting argument hoperand
      (fun hform => hseparator (formOf_eq_separator_iff.mp hform))
    refine ⟨given, next, htaken, ?_, ?_⟩
    · unfold taken? at htaken
      cases hform : formOf argument with
      | separator => exact absurd (formOf_eq_separator_iff.mp hform) hseparator
      | long word value =>
          simp only [hform, Option.some.injEq, Prod.mk.injEq] at htaken
          rw [← htaken.2]
          exact isDetached_eq_of_long hform
      | short letters =>
          simp only [hform, Option.some.injEq, Prod.mk.injEq] at htaken
          rw [← htaken.2]
          exact isDetached_eq_false (by simp [hform])
      | word =>
          rw [isDetached_eq_false (by simp [hform])]
          cases waiting with
          | none => simp [hform] at hoperand
          | some setting =>
              simp only [hform, Option.some.injEq, Prod.mk.injEq] at htaken
              rw [← htaken.2]
              rfl
    · rw [hwordless, if_pos]
      rw [hprevious, Bool.or_eq_true]
      by_cases hform : formOf argument = .word
      · exact .inr (by rw [Option.isSome_iff_ne_none]; exact fun hnone => hoperand ⟨hform, hnone⟩)
      · exact .inl (by rwa [← Bool.not_eq_false, isDashed_eq_false_iff])

/-- An argument that is no separator stands before the separator. -/
theorem beforeSeparator_cons (hseparator : argument ≠ separator) :
    beforeSeparator (argument :: arguments) = argument :: beforeSeparator arguments := by
  simp [beforeSeparator, hseparator]

/-- What stands behind the separator does not depend on an argument before it. -/
theorem behindSeparator_cons (hseparator : argument ≠ separator) :
    behindSeparator (argument :: arguments) = behindSeparator arguments := by
  simp [behindSeparator, hseparator]

/-- The operands among the items of arguments are what is left over of them. -/
theorem operands_itemsOf (hprevious : previous.any isDetached = waiting.isSome) :
    operands (itemsOf command waiting arguments) =
      words previous (beforeSeparator arguments) ++ behindSeparator arguments := by
  induction arguments generalizing waiting previous with
  | nil => exact operands_lacking waiting
  | cons argument rest ih =>
      by_cases hseparator : argument = separator
      · subst hseparator
        have htaken : taken? command waiting separator = none := rfl
        rw [itemsOf, htaken]
        simp [operands_append, operands_lacking, operands_map, beforeSeparator, behindSeparator,
          words]
      · obtain ⟨given, next, htaken, hnext, hoperands⟩ :=
          @taken?_eq command waiting previous argument hprevious hseparator
        have hrest := @ih next (some argument) hnext
        rw [itemsOf, htaken, beforeSeparator_cons hseparator, behindSeparator_cons hseparator]
        simp only
        rw [operands_append, hoperands, hrest, words]
        split
        · rfl
        · rfl

/-! ## Options and their values -/

/-- An argument that is no separator leaves its items in front of those of the arguments behind. -/
theorem exists_itemsOf_cons (hseparator : argument ≠ separator) :
    ∃ given next, taken? command waiting argument = some (given, next) ∧
      itemsOf command waiting (argument :: arguments) =
        given ++ itemsOf command next arguments := by
  cases htaken : taken? command waiting argument with
  | none =>
      unfold taken? at htaken
      cases hform : formOf argument with
      | separator => exact absurd (formOf_eq_separator_iff.mp hform) hseparator
      | long word value => simp [hform] at htaken
      | short letters => simp [hform] at htaken
      | word => cases waiting <;> simp [hform] at htaken
  | some taken =>
      obtain ⟨given, next⟩ := taken
      exact ⟨given, next, rfl, by rw [itemsOf, htaken]⟩

/-- Where anything stands before the separator, the first argument is not the separator. -/
theorem ne_separator_of_mem {other : Bytes} (hmem : other ∈ beforeSeparator (argument :: arguments)) :
    argument ≠ separator := by
  rintro rfl
  simp [beforeSeparator] at hmem

/-- Behind the name of the command for states, the request for JSON is the one spelling of it. -/
theorem json_mem_ofLong {word : Bytes} {value : Option Bytes}
    (hform : formOf argument = .long word value) :
    .json ∈ (Item.ofLong (some .status) word value).1 ↔ argument = Utf8.ofString "--json" := by
  constructor
  · intro hmem
    unfold Item.ofLong at hmem
    split at hmem
    case h_4 hlong =>
      rw [eq_of_formOf_long hform, word_of_long? hlong]
      rfl
    all_goals simp at hmem
  · rintro rfl
    have hjson : formOf (Utf8.ofString "--json") = .long (Utf8.ofString "json") none := rfl
    rw [hjson, Form.long.injEq] at hform
    obtain ⟨rfl, rfl⟩ := hform
    exact List.mem_singleton.mpr rfl

/-- One argument asks for JSON if it is the option for it. -/
theorem json_mem_taken {given : List Item} {next : Option Setting}
    (htaken : taken? (some .status) waiting argument = some (given, next)) :
    .json ∈ given ↔ argument = Utf8.ofString "--json" := by
  have hlacking : .json ∉ lacking waiting := by cases waiting <;> simp [lacking]
  have hother (hform : ∀ word, formOf argument ≠ .long word none) :
      argument ≠ Utf8.ofString "--json" := by
    rintro rfl
    exact hform _ rfl
  unfold taken? at htaken
  cases hform : formOf argument with
  | separator => simp [hform] at htaken
  | long word value =>
      simp only [hform, Option.some.injEq, Prod.mk.injEq] at htaken
      rw [← htaken.1, List.mem_append, json_mem_ofLong hform]
      simp [hlacking]
  | short letters =>
      simp only [hform, Option.some.injEq, Prod.mk.injEq] at htaken
      have hne := hother (by simp [hform])
      rw [← htaken.1]
      simp only [hne, iff_false, List.mem_append, hlacking, false_or, List.mem_map, not_exists,
        not_and]
      intro letter _ hletter
      unfold Item.ofLetter at hletter
      split at hletter <;> cases hletter
  | word =>
      have hne := hother (by simp [hform])
      cases waiting with
      | none =>
          simp only [hform, Option.some.injEq, Prod.mk.injEq] at htaken
          simp [← htaken.1, hne]
      | some setting =>
          simp only [hform, Option.some.injEq, Prod.mk.injEq] at htaken
          simp [← htaken.1, hne]

/-- The answer is to be JSON if one of the options says so. -/
theorem json_mem_itemsOf :
    .json ∈ itemsOf (some .status) waiting arguments ↔
      Utf8.ofString "--json" ∈ options arguments := by
  have hdashed : isDashed (Utf8.ofString "--json") = true := rfl
  unfold options
  rw [List.mem_filter, and_iff_left hdashed]
  induction arguments generalizing waiting with
  | nil => cases waiting <;> simp [itemsOf, lacking, beforeSeparator]
  | cons argument rest ih =>
      by_cases hseparator : argument = separator
      · subst hseparator
        have htaken : taken? (some .status) waiting separator = none := rfl
        rw [itemsOf, htaken]
        cases waiting <;> simp [lacking, beforeSeparator]
      · obtain ⟨given, next, htaken, hitems⟩ :=
          @exists_itemsOf_cons (some .status) waiting argument rest hseparator
        rw [hitems, beforeSeparator_cons hseparator, List.mem_append, List.mem_cons,
          json_mem_taken htaken]
        exact or_congr eq_comm ih

/-- The option that waits gets the next argument, or is left without its value. -/
theorem given_or_fault_of_waiting (value : Bytes) (rest : List Bytes) :
    .fault ∈ itemsOf command (some setting) (value :: rest) ∨
      .given setting value ∈ itemsOf command (some setting) (value :: rest) := by
  rw [itemsOf]
  unfold taken?
  cases hform : formOf value with
  | separator => exact .inl (by simp [lacking])
  | long word attached => exact .inl (by simp [lacking])
  | short letters => exact .inl (by simp [lacking])
  | word => exact .inr (by simp)

/-- A value behind a detached option is given to it, or refused. -/
theorem given_or_fault_of_detached {option value : Bytes} (hoption : isDetached option = true)
    (hbehind : [option, value] <:+: beforeSeparator arguments) :
    .fault ∈ itemsOf command waiting arguments ∨
      ∃ setting, .given setting value ∈ itemsOf command waiting arguments := by
  induction arguments generalizing waiting with
  | nil => simp [beforeSeparator] at hbehind
  | cons argument rest ih =>
      have hseparator := ne_separator_of_mem (hbehind.subset (List.mem_cons_self))
      rw [beforeSeparator_cons hseparator, List.infix_cons_iff] at hbehind
      rcases hbehind with hfirst | hlater
      · obtain ⟨rfl, hvalue⟩ := List.cons_prefix_cons.mp hfirst
        obtain ⟨setting, rfl⟩ := isDetached_iff.mp hoption
        have htaken : taken? command waiting setting.flag =
            some (lacking waiting ++ [], some setting) := by
          simp only [taken?, formOf_flag, Item.ofLong, long?_word]
        rw [itemsOf, htaken]
        cases rest with
        | nil => simp [beforeSeparator] at hvalue
        | cons next rest =>
            have hnext := ne_separator_of_mem (hvalue.subset (List.mem_cons_self))
            rw [beforeSeparator_cons hnext, List.cons_prefix_cons] at hvalue
            obtain ⟨rfl, -⟩ := hvalue
            rcases @given_or_fault_of_waiting command setting value rest with hfault | hgiven
            · exact .inl (List.mem_append_right _ hfault)
            · exact .inr ⟨setting, List.mem_append_right _ hgiven⟩
      · obtain ⟨given, next, -, hitems⟩ :=
          @exists_itemsOf_cons command waiting argument rest hseparator
        rw [hitems]
        rcases @ih next hlater with hfault | ⟨setting, hgiven⟩
        · exact .inl (List.mem_append_right _ hfault)
        · exact .inr ⟨setting, List.mem_append_right _ hgiven⟩

/-- An option with its value in one argument before the separator gives that value. -/
theorem given_mem_of_argument_mem {value : Path}
    (hmem : setting.argument value ∈ beforeSeparator arguments) :
    .given setting value ∈ itemsOf command waiting arguments := by
  induction arguments generalizing waiting with
  | nil => simp [beforeSeparator] at hmem
  | cons argument rest ih =>
      have hseparator := ne_separator_of_mem hmem
      rw [beforeSeparator_cons hseparator, List.mem_cons] at hmem
      rcases hmem with rfl | hmem
      · have htaken : taken? command waiting (setting.argument value) =
            some (lacking waiting ++ [.given setting value], none) := by
          simp only [taken?, formOf_argument, Item.ofLong, long?_word]
        rw [itemsOf, htaken]
        simp
      · obtain ⟨given, next, -, hitems⟩ :=
          @exists_itemsOf_cons command waiting argument rest hseparator
        rw [hitems]
        exact List.mem_append_right _ (ih hmem)

/-- Items that are accepted come from arguments whose options have no empty value. -/
theorem valued_of_acceptable (hitems : Acceptable command (itemsOf command none arguments)) :
    Valued (beforeSeparator arguments) where
  attached := by
    intro setting hmem
    exact hitems.nonempty setting (mem_values_iff.mpr (given_mem_of_argument_mem hmem))
  detached := by
    intro option hoption hbehind
    rcases @given_or_fault_of_detached command none arguments option [] hoption hbehind with
      hfault | ⟨setting, hgiven⟩
    · exact hitems.faultless hfault
    · exact hitems.nonempty setting (mem_values_iff.mpr hgiven)

/-! ## Requests -/

/-- Where reading is not cut short by a separator, the last argument decides whether an option
waits behind the arguments. -/
theorem of_waitsAfter {next : Option Setting}
    (hprevious : previous.any isDetached = waiting.isSome)
    (hwaits : waitsAfter command waiting arguments = some next) :
    separator ∉ arguments ∧ (arguments.getLast?.or previous).any isDetached = next.isSome := by
  induction arguments generalizing waiting previous with
  | nil =>
      obtain rfl : waiting = next := by simpa [waitsAfter] using hwaits
      simpa using hprevious
  | cons argument rest ih =>
      have hseparator : argument ≠ separator := by
        rintro rfl
        cases hwaits
      obtain ⟨given, middle, htaken, hmiddle, -⟩ :=
        @taken?_eq command waiting previous argument hprevious hseparator
      rw [waitsAfter, htaken, Option.bind_some] at hwaits
      obtain ⟨hinseparate, hlast⟩ := @ih middle (some argument) hmiddle hwaits
      constructor
      · rw [List.mem_cons, not_or]
        exact ⟨hseparator.symm, hinseparate⟩
      · rw [List.getLast?_cons]
        cases hrest : rest.getLast? with
        | none => simpa [hrest] using hlast
        | some last => simpa [hrest] using hlast

/-- Without a separator all arguments stand before it. -/
theorem beforeSeparator_eq_self (hinseparate : separator ∉ arguments) :
    beforeSeparator arguments = arguments := by
  unfold beforeSeparator
  rw [List.takeWhile_eq_self_iff]
  intro argument hmem
  rw [bne_iff_ne]
  rintro rfl
  exact hinseparate hmem

/-- Arguments that can stand in front of the command's name are options alone. -/
theorem InFront.optionsAlone (hfront : InFront arguments) : OptionsAlone arguments := by
  have hnone : (none : Option Bytes).any isDetached = (none : Option Setting).isSome := rfl
  obtain ⟨hinseparate, hlast⟩ := of_waitsAfter hnone hfront.closed
  have hwordless := hfront.wordless
  rw [operands_itemsOf hnone, beforeSeparator_eq_self hinseparate,
    List.append_eq_nil_iff] at hwordless
  exact ⟨hinseparate, hwordless.1, by simpa using hlast⟩

/-- An operand that the command takes for a device is the text of that device. -/
theorem ofString_display (hname : name ≠ .owner) {operand : Bytes}
    (hfitting : Side.operandFault? (some name) operand = none) :
    Utf8.ofString (Utf8.display operand) = operand ∧ (Utf8.decode? operand).isSome := by
  have hother : (some name == some CommandName.owner) = false := by simpa using hname
  unfold Side.operandFault? at hfitting
  cases hdecode : Utf8.decode? operand with
  | none => simp [hother, hdecode] at hfitting
  | some text =>
      obtain rfl := Utf8.decode?_eq_some_iff.mp hdecode
      rw [Utf8.display_encode]
      exact ⟨by simp [Utf8.ofString], rfl⟩

/-- The command is made of what is left over of the arguments behind its name. -/
theorem isOf_of_commandOf (hitems : Acceptable (some name) (itemsOf (some name) none arguments))
    (hmade : commandOf name (sideOf (itemsOf (some name) none arguments)) = .ok made) :
    made.name = name ∧ IsOf arguments made := by
  have hleft : operands (itemsOf (some name) none arguments) = leftOver arguments :=
    operands_itemsOf rfl
  have hsingle := hitems.single
  have hfitting := hitems.fitting
  have hside : (sideOf (itemsOf (some name) none arguments)).operands = leftOver arguments := hleft
  rw [hleft] at hsingle hfitting
  unfold commandOf at hmade
  rw [hside] at hmade
  cases hlist : leftOver arguments with
  | nil => simp [hlist] at hmade
  | cons first rest =>
      rw [hlist] at hsingle hfitting hmade
      -- every command but `status` takes a single operand
      have hone (hname : name ≠ .status) : rest = [] := by
        have hlength := hsingle (by simpa using hname)
        rw [List.length_cons] at hlength
        exact List.eq_nil_of_length_eq_zero (by omega)
      cases name with
      | owner =>
          obtain rfl : rest = [] := hone (by simp)
          cases hmade
          refine ⟨rfl, hlist, ?_⟩
          rintro rfl
          cases hfitting [] (by simp)
      | status =>
          cases hmade
          have htexts (operand : Bytes) (hmem : operand ∈ first :: rest) :=
            ofString_display (by simp) (hfitting operand hmem)
          refine ⟨rfl, ?_, by simp, ?_, ?_⟩
          · rw [hlist, List.map_map]
            have hsame : (first :: rest).map (Utf8.ofString ∘ Utf8.display) =
                (first :: rest).map id :=
              List.map_congr_left fun operand hmem => (htexts operand hmem).1
            rw [hsame, List.map_id]
          · rw [hlist]
            exact fun operand hmem => (htexts operand hmem).2
          · rw [← @json_mem_itemsOf none]
            simp [sideOf]
      | lock =>
          obtain rfl : rest = [] := hone (by simp)
          cases hmade
          refine ⟨rfl, ?_⟩
          rw [IsOf, hlist, (ofString_display (by simp) (hfitting first (by simp))).1]
      | unlock =>
          obtain rfl : rest = [] := hone (by simp)
          cases hmade
          refine ⟨rfl, ?_⟩
          rw [IsOf, hlist, (ofString_display (by simp) (hfitting first (by simp))).1]

/-- Arguments that make a request are options with their values, the name of the command, and
arguments of which the operands of the command are left over.  No path is empty that is an operand
or the value of an option, on either side of the name. -/
theorem operands_of_read (hread : read arguments = .ok request) :
    ∃ front behind,
      arguments = front ++ Utf8.ofString request.command.name.word :: behind ∧
      OptionsAlone front ∧ IsOf behind request.command ∧
      Valued front ∧ Valued (beforeSeparator behind) ∧
      ∀ setting : Setting, setting.valueIn request ≠ some [] := by
  obtain ⟨front, name, behind, rfl, hfront⟩ := exists_parted hread
  have hmakes := (read_parted_iff hfront).mp hread
  have hvalue := value_of_makes hmakes
  obtain ⟨hitems, hitems', made, hmade, rfl⟩ := hmakes
  obtain ⟨rfl, hisOf⟩ := isOf_of_commandOf hitems' hmade
  have halone := hfront.optionsAlone
  have hvalued := valued_of_acceptable hitems
  rw [beforeSeparator_eq_self halone.inseparate] at hvalued
  refine ⟨front, behind, rfl, halone, hisOf, hvalued, valued_of_acceptable hitems', ?_⟩
  intro setting hempty
  rw [hvalue, Option.or_eq_some_iff] at hempty
  rcases hempty with hbehind | ⟨-, hbefore⟩
  · exact hitems'.nonempty setting (List.mem_of_head? hbehind)
  · exact hitems.nonempty setting (List.mem_of_head? hbefore)

/-- Options among the operands, a hyphen alone and the name of a command as values and as operands,
and operands behind a separator that look like an option and like a separator. -/
def interleaved : List Bytes :=
  ["--config", "-", "-v", "status", "--lock-dir=l", "-", "--config", "status", "-vv", "ttyS0",
    "--json", "-", "--", "--json", "--"].map Utf8.ofString

/-- Operands are read in their order between options, and behind the separator what looks like an
option is one of them. -/
theorem operands_of_read_interleaved :
    let request : Request :=
      { settingsFile := some (Utf8.ofString "status"), lockDirectory := some (Utf8.ofString "l")
        verbosity := 2, command := .status ["-", "ttyS0", "-", "--json", "--"] true }
    read interleaved = .ok request ∧ ∃ front behind,
      interleaved = front ++ Utf8.ofString "status" :: behind ∧
      OptionsAlone front ∧ IsOf behind request.command ∧
      Valued front ∧ Valued (beforeSeparator behind) ∧
      ∀ setting : Setting, setting.valueIn request ≠ some [] := by
  intro request
  have hread : read interleaved = .ok request := rfl
  exact ⟨hread, operands_of_read hread⟩

end SerialLock.CommandLine
