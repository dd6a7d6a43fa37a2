import SerialLock.CommandLine.Read

/-!
# What arguments give

Arguments on one side of the command's name give items: values for options, requests for more log,
operands, and faults, which are refused wherever they stand.  Which items arguments give is decided
along their forms (`itemsOf`), with nothing but the option that waits for its value handed on, so
the items of arguments put together are those of the first and those of the rest (`itemsOf_append`).
-/

set_option autoImplicit false

namespace SerialLock.CommandLine

/-- What an argument, or a part of it, gives. -/
inductive Item where
  | given (setting : Setting) (value : Bytes)
  | verbose
  | json
  | operand (value : Bytes)
  /-- An argument that is not known, asks for help or for the version, has a value that it does not
  take, or lacks one. -/
  | fault
  deriving DecidableEq, Repr

namespace Item

/-- The item of a letter after one hyphen. -/
def ofLetter (letter : UInt8) : Item :=
  if letter == 0x76 then .verbose else .fault

/-- The items of a name after two hyphens, and the option that then waits for its value. -/
def ofLong (command : Option CommandName) (name : Bytes) (value : Option Bytes) :
    List Item × Option Setting :=
  match Side.long? command name, value with
  | some (.setting setting), none => ([], some setting)
  | some (.setting setting), some value => ([.given setting value], none)
  | some .verbose, none => ([.verbose], none)
  | some .json, none => ([.json], none)
  | _, _ => ([.fault], none)

/-- The value that an item gives to an option. -/
def valueFor? (setting : Setting) : Item → Option Path
  | .given other value => if other = setting then some value else none
  | _ => none

/-- The operand that an item is. -/
def operand? : Item → Option Bytes
  | .operand value => some value
  | _ => none

end Item

/-- The fault of an option that is left without its value. -/
def lacking (waiting : Option Setting) : List Item :=
  if waiting.isSome then [.fault] else []

/-- Nothing is lacking where no option waits. -/
theorem lacking_none : lacking none = [] :=
  rfl

/-- The items of a single argument, and the option that waits for its value behind it.  Behind a
separator there is no more than operands. -/
def taken? (command : Option CommandName) (waiting : Option Setting) (argument : Bytes) :
    Option (List Item × Option Setting) :=
  match formOf argument with
  | .separator => none
  | .long name value =>
    let ofLong := Item.ofLong command name value
    some (lacking waiting ++ ofLong.1, ofLong.2)
  | .short letters => some (lacking waiting ++ letters.map Item.ofLetter, none)
  | .word =>
    match waiting with
    | some setting => some ([.given setting argument], none)
    | none => some ([.operand argument], none)

/-- The items of arguments, where an option may be waiting for its value before them. -/
def itemsOf (command : Option CommandName) (waiting : Option Setting) : List Bytes → List Item
  | [] => lacking waiting
  | argument :: rest =>
    match taken? command waiting argument with
    | none => lacking waiting ++ rest.map .operand
    | some (items, next) => items ++ itemsOf command next rest

/-- The option that waits for its value behind arguments, unless a separator is among them. -/
def waitsAfter (command : Option CommandName) (waiting : Option Setting) :
    List Bytes → Option (Option Setting)
  | [] => some waiting
  | argument :: rest =>
    (taken? command waiting argument).bind fun (_, next) => waitsAfter command next rest

/-- The values that items give to an option, in order. -/
def values (setting : Setting) (items : List Item) : List Path :=
  items.filterMap (Item.valueFor? setting)

/-- The operands among items, in order. -/
def operands (items : List Item) : List Bytes :=
  items.filterMap Item.operand?

variable {command : Option CommandName} {waiting : Option Setting} {setting : Setting}
  {item : Item} {items more : List Item}

/-- Where no option waits behind arguments, those that follow give what they give alone. -/
theorem itemsOf_append {front : List Bytes} (back : List Bytes)
    (hfront : waitsAfter command waiting front = some none) :
    itemsOf command waiting (front ++ back) =
      itemsOf command waiting front ++ itemsOf command none back := by
  induction front generalizing waiting with
  | nil =>
      obtain rfl : waiting = none := by simpa [waitsAfter] using hfront
      rfl
  | cons argument rest ih =>
      unfold waitsAfter at hfront
      rw [List.cons_append, itemsOf, itemsOf]
      cases htaken : taken? command waiting argument with
      | none => simp [htaken] at hfront
      | some taken =>
          rw [htaken, Option.bind_some] at hfront
          simp only
          rw [ih hfront, List.append_assoc]

/-- What waits behind the first arguments waits before those that follow. -/
theorem waitsAfter_append {front : List Bytes} (back : List Bytes) :
    waitsAfter command waiting (front ++ back) =
      (waitsAfter command waiting front).bind fun next => waitsAfter command next back := by
  induction front generalizing waiting with
  | nil => rfl
  | cons argument rest ih =>
      rw [List.cons_append, waitsAfter, waitsAfter]
      cases taken? command waiting argument with
      | none => rfl
      | some taken => exact ih

/-! ## Values and operands -/

/-- The values of an option come in the order of the items. -/
theorem values_append : values setting (items ++ more) =
    values setting items ++ values setting more :=
  List.filterMap_append

/-- The operands come in the order of the items. -/
theorem operands_append : operands (items ++ more) = operands items ++ operands more :=
  List.filterMap_append

/-- Items in another order give an option the same values in another order. -/
theorem values_perm (hperm : items.Perm more) :
    (values setting items).Perm (values setting more) :=
  hperm.filterMap (Item.valueFor? setting)

/-- An item that is no value of an option gives it none. -/
theorem values_append_of_none (hnone : item.valueFor? setting = none) :
    values setting (items ++ [item]) = values setting items := by
  rw [values_append]
  simp [values, hnone]

/-- An item that is no operand adds none. -/
theorem operands_append_of_none (hnone : item.operand? = none) :
    operands (items ++ [item]) = operands items := by
  rw [operands_append]
  simp [operands, hnone]

/-- The values of an option are those that some item gives to it. -/
theorem mem_values_iff {value : Path} :
    value ∈ values setting items ↔ .given setting value ∈ items := by
  unfold values
  rw [List.mem_filterMap]
  constructor
  · rintro ⟨item, hmem, hvalue⟩
    cases item with
    | given other value' =>
        by_cases hsame : other = setting
        · obtain rfl : value' = value := by simpa [Item.valueFor?, hsame] using hvalue
          exact hsame ▸ hmem
        · simp [Item.valueFor?, hsame] at hvalue
    | _ => cases hvalue
  · intro hmem
    exact ⟨_, hmem, by simp [Item.valueFor?]⟩

/-- The operands are those that some item is. -/
theorem mem_operands_iff {value : Bytes} : value ∈ operands items ↔ .operand value ∈ items := by
  unfold operands
  rw [List.mem_filterMap]
  constructor
  · rintro ⟨item, hmem, hvalue⟩
    cases item with
    | operand value' =>
        cases hvalue
        exact hmem
    | _ => cases hvalue
  · intro hmem
    exact ⟨_, hmem, rfl⟩

/-- Operands alone give no option a value. -/
theorem values_map_operand (list : List Bytes) : values setting (list.map .operand) = [] := by
  rw [List.eq_nil_iff_forall_not_mem]
  intro value hmem
  simpa using mem_values_iff.mp hmem

/-- Operands alone are the operands that they give. -/
theorem operands_map (list : List Bytes) : operands (list.map .operand) = list := by
  unfold operands
  rw [List.filterMap_map]
  exact List.filterMap_some

/-- A lacking value is no operand. -/
theorem operands_lacking (waiting : Option Setting) : operands (lacking waiting) = [] := by
  cases waiting <;> rfl

/-- A name after two hyphens gives no operand. -/
theorem operands_ofLong (name : Bytes) (value : Option Bytes) :
    operands (Item.ofLong command name value).1 = [] := by
  unfold Item.ofLong
  split <;> rfl

/-- Letters after a hyphen give no operand. -/
theorem operands_ofLetter (letters : Bytes) : operands (letters.map Item.ofLetter) = [] := by
  rw [List.eq_nil_iff_forall_not_mem]
  intro value hmem
  obtain ⟨letter, -, hletter⟩ := List.mem_map.mp (mem_operands_iff.mp hmem)
  unfold Item.ofLetter at hletter
  split at hletter
  · cases hletter
  · cases hletter

/-- Only a word that no option waits for gives an operand before a separator. -/
theorem exists_taken {argument : Bytes} (hword : ¬(formOf argument = .word ∧ waiting = none))
    (hseparator : formOf argument ≠ .separator) :
    ∃ given next, taken? command waiting argument = some (given, next) ∧ operands given = [] := by
  unfold taken?
  cases hform : formOf argument with
  | separator => exact absurd hform hseparator
  | long name value =>
      refine ⟨_, _, rfl, ?_⟩
      rw [operands_append, operands_lacking, operands_ofLong]
      rfl
  | short letters =>
      refine ⟨_, _, rfl, ?_⟩
      rw [operands_append, operands_lacking, operands_ofLetter]
      rfl
  | word =>
      cases waiting with
      | none => exact absurd ⟨hform, rfl⟩ hword
      | some setting => exact ⟨_, _, rfl, rfl⟩

end SerialLock.CommandLine
