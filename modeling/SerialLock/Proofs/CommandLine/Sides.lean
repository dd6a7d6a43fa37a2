import SerialLock.Proofs.CommandLine.Canonical
import SerialLock.Proofs.CommandLine.Items

/-!
# What one side of the command's name makes of its arguments

A side accepts the items that its arguments give, or refuses the arguments, and where it accepts
them it is made of them alone (`settles_takeAll`): each option has its value, `-v` is counted, and
the operands stand in their order.  The reader settles an option or an operand only when the next
argument shows that it is complete.  So the items that have been read are those of the settled side,
and at most one option or one run of operands that is pending (`Stands`), and one argument leads
from such a side to another or is refused with good reason (`Reads`).
-/

set_option autoImplicit false

namespace SerialLock.CommandLine

/-- Items that one side accepts: nothing in them is a fault, no option is given twice or with an
empty value, and the operands are such as the command takes. -/
structure Acceptable (command : Option CommandName) (items : List Item) : Prop where
  faultless : .fault ∉ items
  once : ∀ setting, (values setting items).length ≤ 1
  nonempty : ∀ setting, [] ∉ values setting items
  jsonOnce : items.count .json ≤ 1
  fitting : ∀ value ∈ operands items, Side.operandFault? command value = none
  single : command ≠ some .status → (operands items).length ≤ 1

/-- The side that items make. -/
def sideOf (items : List Item) : Side where
  settingsFile := (values .settingsFile items).head?
  lockDirectory := (values .lockDirectory items).head?
  verbosity := min 255 (items.count .verbose)
  json := decide (.json ∈ items)
  operands := operands items

variable {command : Option CommandName} {waiting : Option Setting} {setting : Setting}
  {items more : List Item} {side : Side} {result : Except Usage Side} {value : Bytes}

/-! ## Acceptable items -/

/-- Of items that are accepted, the first ones are accepted alone. -/
theorem Acceptable.of_append (hall : Acceptable command (items ++ more)) :
    Acceptable command items where
  faultless := by
    intro hmem
    exact hall.faultless (List.mem_append_left more hmem)
  once := by
    intro setting
    have honce := hall.once setting
    rw [values_append, List.length_append] at honce
    omega
  nonempty := by
    intro setting hmem
    apply hall.nonempty setting
    rw [values_append]
    exact List.mem_append_left _ hmem
  jsonOnce := by
    have honce := hall.jsonOnce
    rw [List.count_append] at honce
    omega
  fitting := by
    intro value hmem
    apply hall.fitting value
    rw [operands_append]
    exact List.mem_append_left _ hmem
  single := by
    intro hcommand
    have hsingle := hall.single hcommand
    rw [operands_append, List.length_append] at hsingle
    omega

/-- What follows refused items does not mend them. -/
theorem not_acceptable_append (hitems : ¬Acceptable command items) :
    ¬Acceptable command (items ++ more) :=
  fun hall => hitems hall.of_append

/-- No items at all are accepted. -/
theorem acceptable_nil : Acceptable command [] := by
  constructor <;> simp [values, operands]

/-- A fault is refused wherever it stands. -/
theorem not_acceptable_of_fault (hmem : .fault ∈ items) : ¬Acceptable command items :=
  fun hall => hall.faultless hmem

/-- A flag is accepted with other items, except that `--json` stands but once. -/
theorem acceptable_flag_iff {item : Item} (hvalue : ∀ setting, item.valueFor? setting = none)
    (hoperand : item.operand? = none) (hfault : item ≠ .fault) :
    Acceptable command (items ++ [item]) ↔
      Acceptable command items ∧ (item = .json → .json ∉ items) := by
  have hvalues (setting : Setting) : values setting (items ++ [item]) = values setting items :=
    values_append_of_none (hvalue setting)
  have hoperands : operands (items ++ [item]) = operands items := operands_append_of_none hoperand
  constructor
  · intro hall
    refine ⟨hall.of_append, ?_⟩
    rintro rfl
    have honce := hall.jsonOnce
    rw [List.count_append, List.count_singleton_self] at honce
    rw [← List.count_eq_zero]
    omega
  · rintro ⟨hall, hnone⟩
    constructor
    · simpa [hfault.symm] using hall.faultless
    · simpa only [hvalues] using hall.once
    · simpa only [hvalues] using hall.nonempty
    · rw [List.count_append]
      by_cases hjson : item = .json
      · have hzero : items.count .json = 0 := List.count_eq_zero.mpr (hnone hjson)
        have hone : [item].count .json = 1 := by rw [hjson, List.count_singleton_self]
        omega
      · have hzero : [item].count .json = 0 := by simp [hjson]
        rw [hzero]
        exact hall.jsonOnce
    · simpa only [hoperands] using hall.fitting
    · simpa only [hoperands] using hall.single

/-- A request for more log is always accepted. -/
theorem acceptable_verbose_iff :
    Acceptable command (items ++ [.verbose]) ↔ Acceptable command items := by
  rw [acceptable_flag_iff (fun _ => rfl) rfl (by simp)]
  simp

/-- The request for JSON is accepted once. -/
theorem acceptable_json_iff :
    Acceptable command (items ++ [.json]) ↔ Acceptable command items ∧ .json ∉ items := by
  rw [acceptable_flag_iff (fun _ => rfl) rfl (by simp)]
  simp

/-- A value that is given to an option comes last among its values, and no other option has it. -/
theorem values_given (other : Setting) :
    values other (items ++ [.given setting value]) =
      values other items ++ if setting = other then [value] else [] := by
  rw [values_append]
  congr 1
  by_cases hsame : setting = other
  · simp [values, Item.valueFor?, hsame]
  · simp [values, Item.valueFor?, hsame]

/-- A value is accepted for an option that has none before, unless it is empty. -/
theorem acceptable_given_iff :
    Acceptable command (items ++ [.given setting value]) ↔
      Acceptable command items ∧ values setting items = [] ∧ value ≠ [] := by
  have hoperands : operands (items ++ [.given setting value]) = operands items :=
    operands_append_of_none rfl
  constructor
  · intro hall
    have honce := hall.once setting
    have hnonempty := hall.nonempty setting
    rw [values_given, if_pos rfl] at honce hnonempty
    refine ⟨hall.of_append, ?_, ?_⟩
    · rw [List.length_append, List.length_singleton] at honce
      apply List.eq_nil_of_length_eq_zero
      omega
    · rintro rfl
      exact hnonempty (by simp)
  · rintro ⟨hall, hnone, hvalue⟩
    constructor
    · simpa using hall.faultless
    · intro other
      rw [values_given]
      by_cases hsame : setting = other
      · rw [if_pos hsame, ← hsame, hnone]
        simp
      · rw [if_neg hsame, List.append_nil]
        exact hall.once other
    · intro other
      rw [values_given]
      by_cases hsame : setting = other
      · rw [if_pos hsame, ← hsame, hnone]
        simpa using hvalue.symm
      · rw [if_neg hsame, List.append_nil]
        exact hall.nonempty other
    · simpa [List.count_append] using hall.jsonOnce
    · simpa only [hoperands] using hall.fitting
    · simpa only [hoperands] using hall.single

/-- Operands are accepted if each is such as the command takes and there are not too many. -/
theorem acceptable_operands_iff {list : List Bytes} :
    Acceptable command (items ++ list.map .operand) ↔
      Acceptable command items ∧ (∀ value ∈ list, Side.operandFault? command value = none) ∧
        (command ≠ some .status → (operands items).length + list.length ≤ 1) := by
  have hvalues (setting : Setting) :
      values setting (items ++ list.map .operand) = values setting items := by
    rw [values_append, values_map_operand, List.append_nil]
  have hoperands : operands (items ++ list.map .operand) = operands items ++ list := by
    rw [operands_append, operands_map]
  have hcount : (items ++ list.map Item.operand).count Item.json = items.count Item.json := by
    have hnone : (list.map Item.operand).count Item.json = 0 := by simp [List.count_eq_zero]
    rw [List.count_append, hnone, Nat.add_zero]
  constructor
  · intro hall
    have hfitting := hall.fitting
    have hsingle := hall.single
    rw [hoperands] at hfitting hsingle
    refine ⟨hall.of_append, ?_, ?_⟩
    · intro value hmem
      exact hfitting value (List.mem_append_right _ hmem)
    · intro hcommand
      rw [← List.length_append]
      exact hsingle hcommand
  · rintro ⟨hall, hfitting, hsingle⟩
    constructor
    · simpa using hall.faultless
    · simpa only [hvalues] using hall.once
    · simpa only [hvalues] using hall.nonempty
    · simpa only [hcount] using hall.jsonOnce
    · rw [hoperands]
      intro value hmem
      rcases List.mem_append.mp hmem with hmem | hmem
      · exact hall.fitting value hmem
      · exact hfitting value hmem
    · rw [hoperands, List.length_append]
      exact hsingle

/-! ## Settling -/

/-- The result is the side that items make where these are acceptable, and a refusal else. -/
inductive Settles (command : Option CommandName) (items : List Item) : Except Usage Side → Prop where
  | ok (hitems : Acceptable command items) : Settles command items (.ok (sideOf items))
  | error {usage : Usage} (hitems : ¬Acceptable command items) :
      Settles command items (.error usage)

/-- A side results exactly if the items are accepted, and it is theirs. -/
theorem Settles.eq_ok_iff (hsettles : Settles command items result) :
    result = .ok side ↔ Acceptable command items ∧ side = sideOf items := by
  cases hsettles with
  | ok hitems => simp [hitems, eq_comm]
  | error hitems => simp [hitems]

/-- What goes on from a settled side goes on from the side that the items make, if at all. -/
theorem Settles.bind {go : Side → Except Usage Side} (hsettles : Settles command items result)
    (hgo : Acceptable command items → Settles command (items ++ more) (go (sideOf items))) :
    Settles command (items ++ more) (result.bind go) := by
  cases hsettles with
  | ok hitems => exact hgo hitems
  | error hitems =>
      exact .error (not_acceptable_append hitems)

/-- A side on which items have been read: all of them are settled, or an option waits for its value,
has just got it, or operands have been gathered that are not settled. -/
inductive Stands (command : Option CommandName) : List Item → Option Setting → Side → Prop where
  | settled {items : List Item} (hitems : Acceptable command items) :
      Stands command items none (sideOf items)
  | waiting {items : List Item} {setting : Setting} (hitems : Acceptable command items) :
      Stands command items (some setting)
        { sideOf items with pending := some (.option setting none) }
  | valued {items : List Item} {setting : Setting} {value : Bytes}
      (hitems : Acceptable command items) :
      Stands command (items ++ [.given setting value]) none
        { sideOf items with pending := some (.option setting (some value)) }
  | gathered {items : List Item} {earlier : List Bytes} (hitems : Acceptable command items)
      (hearlier : earlier ≠ [])
      (hsingle : command ≠ some .status → (operands items).length + earlier.length ≤ 1) :
      Stands command (items ++ earlier.map .operand) none
        { sideOf items with pending := some (.operands earlier) }

/-- On the side that items make, an option has the first value that they give it. -/
theorem value?_sideOf : (sideOf items).value? setting = (values setting items).head? := by
  cases setting <;> rfl

/-- A value for an option that has none before is held by the side. -/
theorem sideOf_given (hnone : values setting items = []) :
    sideOf (items ++ [.given setting value]) = (sideOf items).holding setting (some value) := by
  have hoperands : operands (items ++ [.given setting value]) = operands items :=
    operands_append_of_none rfl
  cases setting with
  | settingsFile =>
      simp [sideOf, Side.holding, values_given, hnone, hoperands, List.count_append]
  | lockDirectory =>
      simp [sideOf, Side.holding, values_given, hnone, hoperands, List.count_append]

/-- A request for more log is counted by the side, as far as it counts. -/
theorem sideOf_verbose : sideOf (items ++ [.verbose]) = (sideOf items).more := by
  have hvalues (setting : Setting) : values setting (items ++ [.verbose]) = values setting items :=
    values_append_of_none rfl
  have hoperands : operands (items ++ [.verbose]) = operands items := operands_append_of_none rfl
  simp only [Side.more, sideOf, hvalues, hoperands, Side.mk.injEq]
  simp [List.count_append]
  omega

/-- The request for JSON is kept by the side. -/
theorem sideOf_json : sideOf (items ++ [.json]) = { sideOf items with json := true } := by
  have hvalues (setting : Setting) : values setting (items ++ [.json]) = values setting items :=
    values_append_of_none rfl
  have hoperands : operands (items ++ [.json]) = operands items := operands_append_of_none rfl
  simp [sideOf, hvalues, hoperands, List.count_append]

/-- Operands are put behind those of the side. -/
theorem sideOf_operands {list : List Bytes} :
    sideOf (items ++ list.map .operand) =
      { sideOf items with operands := operands items ++ list } := by
  have hverbose : (list.map Item.operand).count Item.verbose = 0 := by simp [List.count_eq_zero]
  simp [sideOf, values_append, values_map_operand, operands_append, operands_map, List.count_append,
    hverbose]

/-- A value is accepted for an option that has none, unless it is empty. -/
theorem settles_give (hitems : Acceptable command items) :
    Settles command (items ++ [.given setting value]) ((sideOf items).give setting value) := by
  by_cases hall : Acceptable command (items ++ [.given setting value])
  · obtain ⟨-, hnone, hvalue⟩ := acceptable_given_iff.mp hall
    have hfree : (sideOf items).value? setting = none := by
      rw [value?_sideOf, hnone]
      rfl
    rw [Side.give_of_none hfree hvalue, ← sideOf_given hnone]
    exact .ok hall
  · have hrefused : ∃ usage, (sideOf items).give setting value = .error usage := by
      unfold Side.give
      by_cases hnone : values setting items = []
      · have hvalue : value = [] := by
          by_cases hvalue : value = []
          · exact hvalue
          · exact absurd (acceptable_given_iff.mpr ⟨hitems, hnone, hvalue⟩) hall
        rw [if_neg (by simp [value?_sideOf, hnone]), if_pos (by simp [hvalue])]
        exact ⟨_, rfl⟩
      · rw [if_pos (by simpa [value?_sideOf] using hnone)]
        exact ⟨_, rfl⟩
    obtain ⟨usage, hgive⟩ := hrefused
    rw [hgive]
    exact .error hall

/-- Settling makes the side of all items that have been read, or refuses them. -/
theorem Stands.settles (hstands : Stands command items waiting side) :
    Settles command (items ++ lacking waiting) (side.settle command) := by
  cases hstands with
  | settled hitems =>
      rw [lacking_none, List.append_nil]
      exact .ok hitems
  | waiting hitems =>
      apply Settles.error
      apply not_acceptable_of_fault
      simp [lacking]
  | valued hitems =>
      rw [lacking_none, List.append_nil]
      exact settles_give hitems
  | @gathered items earlier hitems hearlier hsingle =>
      rw [lacking_none, List.append_nil]
      unfold Side.settle
      simp only
      cases hfault : earlier.findSome? (Side.operandFault? command) with
      | some usage =>
          apply Settles.error
          rw [acceptable_operands_iff]
          rintro ⟨-, hfitting, -⟩
          rw [List.findSome?_eq_none_iff.mpr hfitting] at hfault
          cases hfault
      | none =>
          have hall : Acceptable command (items ++ earlier.map .operand) :=
            acceptable_operands_iff.mpr
              ⟨hitems, List.findSome?_eq_none_iff.mp hfault, hsingle⟩
          have hside := Settles.ok hall
          rw [sideOf_operands] at hside
          exact hside

/-! ## Single arguments -/

/-- An argument leads to a side on which the items have been read, or is refused with good reason. -/
inductive Reads (command : Option CommandName) (items : List Item) (waiting : Option Setting) :
    Except Usage Side → Prop where
  | ok {side : Side} (hstands : Stands command items waiting side) :
      Reads command items waiting (.ok side)
  | error {usage : Usage} (hitems : ¬Acceptable command items) :
      Reads command items waiting (.error usage)

/-- What is settled at once has been read, and nothing waits. -/
theorem Settles.reads (hsettles : Settles command items result) :
    Reads command items none result := by
  cases hsettles with
  | ok hitems => exact .ok (.settled hitems)
  | error hitems => exact .error hitems

/-- A request for more log is settled at once. -/
theorem settles_more (hitems : Acceptable command items) :
    Settles command (items ++ [.verbose]) (.ok (sideOf items).more) := by
  rw [← sideOf_verbose]
  exact .ok (acceptable_verbose_iff.mpr hitems)

/-- A fault behind other items is refused. -/
theorem not_acceptable_append_fault : ¬Acceptable command (items ++ [.fault]) :=
  not_acceptable_of_fault (by simp)

/-- A letter is settled at once. -/
theorem settles_takeLetter (hstands : Stands command items waiting side) (letter : UInt8) :
    Settles command (items ++ lacking waiting ++ [Item.ofLetter letter])
      (side.takeLetter command letter) := by
  unfold Side.takeLetter Item.ofLetter
  by_cases hverbose : letter = 0x76
  · simp only [hverbose, beq_self_eq_true, if_true]
    have hsettles := hstands.settles
    generalize side.settle command = result at hsettles ⊢
    cases hsettles with
    | ok hitems => exact settles_more hitems
    | error hitems =>
        exact .error (not_acceptable_append hitems)
  · have hother : (letter == 0x76) = false := by simpa using hverbose
    simp only [hother, Bool.false_eq_true, if_false]
    have hrefused (usage : Usage) :
        ∃ usage', (side.settle command).bind (fun _ => .error usage) =
          (.error usage' : Except Usage Side) := by
      cases side.settle command with
      | ok settled => exact ⟨usage, rfl⟩
      | error usage' => exact ⟨usage', rfl⟩
    split
    · obtain ⟨usage, hresult⟩ := hrefused .help
      rw [hresult]
      exact .error not_acceptable_append_fault
    · split
      · obtain ⟨usage, hresult⟩ := hrefused (.version command)
        rw [hresult]
        exact .error not_acceptable_append_fault
      · exact .error not_acceptable_append_fault

/-- On a settled side letters are settled one after the other. -/
theorem settles_takeLetters_settled (hitems : Acceptable command items) (letters : Bytes) :
    Settles command (items ++ letters.map Item.ofLetter)
      ((sideOf items).takeLetters command letters) := by
  induction letters generalizing items with
  | nil =>
      rw [List.map_nil, List.append_nil]
      exact .ok hitems
  | cons letter rest ih =>
      have hfirst := settles_takeLetter (.settled hitems) letter
      rw [lacking_none, List.append_nil] at hfirst
      rw [List.map_cons, List.append_cons]
      exact hfirst.bind ih

/-- The first letter settles what is pending before it. -/
theorem settles_takeLetters (hstands : Stands command items waiting side) {letters : Bytes}
    (hletters : letters ≠ []) :
    Settles command (items ++ (lacking waiting ++ letters.map Item.ofLetter))
      (side.takeLetters command letters) := by
  cases letters with
  | nil => exact absurd rfl hletters
  | cons letter rest =>
      rw [List.map_cons, ← List.append_assoc, List.append_cons]
      exact (settles_takeLetter hstands letter).bind fun hitems =>
        settles_takeLetters_settled hitems rest

/-- The request for JSON is settled at once, and refused the second time. -/
theorem settles_takeFlag_json (hitems : Acceptable command items) :
    Settles command (items ++ [.json])
      (if (sideOf items).json then .error .argumentConflict
        else .ok { sideOf items with json := true }) := by
  by_cases hgiven : Item.json ∈ items
  · have hjson : (sideOf items).json = true := by simpa [sideOf] using hgiven
    rw [if_pos hjson]
    apply Settles.error
    rw [acceptable_json_iff]
    rintro ⟨-, hnone⟩
    exact hnone hgiven
  · have hjson : (sideOf items).json = false := by simpa [sideOf] using hgiven
    rw [hjson, if_neg (by simp), ← sideOf_json]
    exact .ok (acceptable_json_iff.mpr ⟨hitems, hgiven⟩)

/-- What goes on from a settled side reads more items, if it does so from the side they make. -/
theorem Settles.reads_bind {go : Side → Except Usage Side} {next : Option Setting}
    (hsettles : Settles command items result)
    (hgo : Acceptable command items → Reads command (items ++ more) next (go (sideOf items))) :
    Reads command (items ++ more) next (result.bind go) := by
  cases hsettles with
  | ok hitems => exact hgo hitems
  | error hitems =>
      exact .error (not_acceptable_append hitems)

/-- A known name without a value settles what is pending, and an option then waits for its value. -/
theorem reads_takeFlag (hstands : Stands command items waiting side) {name : Bytes}
    {flag : Side.Long} (hflag : Side.long? command name = some flag) :
    Reads command (items ++ (lacking waiting ++ (Item.ofLong command name none).1))
      (Item.ofLong command name none).2 (side.takeFlag command flag) := by
  unfold Side.takeFlag Item.ofLong
  rw [hflag, ← List.append_assoc]
  apply hstands.settles.reads_bind
  intro hitems
  cases flag with
  | setting setting =>
      rw [List.append_nil]
      exact .ok (.waiting hitems)
  | verbose => exact (settles_more hitems).reads
  | json => exact (settles_takeFlag_json hitems).reads
  | help => exact .error not_acceptable_append_fault
  | version => exact .error not_acceptable_append_fault

/-- A name with or without a value is read as the items that it gives. -/
theorem reads_takeLong (hstands : Stands command items waiting side) (name : Bytes)
    (value : Option Bytes) :
    Reads command (items ++ (lacking waiting ++ (Item.ofLong command name value).1))
      (Item.ofLong command name value).2 (side.takeLong command name value) := by
  have hfault : ¬Acceptable command (items ++ (lacking waiting ++ [.fault])) :=
    not_acceptable_of_fault (by simp)
  unfold Side.takeLong
  cases hflag : Side.long? command name with
  | none =>
      unfold Item.ofLong
      rw [hflag]
      exact .error hfault
  | some flag =>
      cases value with
      | none => exact reads_takeFlag hstands hflag
      | some value =>
          unfold Item.ofLong
          rw [hflag]
          cases flag with
          | setting setting =>
              simp only
              rw [← List.append_assoc]
              apply hstands.settles.reads_bind
              intro hitems
              exact (settles_give hitems).reads
          | _ => exact .error hfault

/-! ## Operands -/

variable {name : CommandName}

/-- A side waits for a value exactly if an option does. -/
theorem Stands.isWaiting_eq (hstands : Stands command items waiting side) :
    side.isWaiting = waiting.isSome := by
  cases hstands <;> rfl

/-- The operand is one too many, for a command that takes a single one. -/
theorem not_acceptable_of_operand (hname : name ≠ .status) (hoperands : operands items ≠ []) :
    ¬Acceptable (some name) (items ++ [.operand value]) := by
  intro hall
  have hsingle := hall.single (by simpa using hname)
  have hlength := List.length_pos_iff.mpr hoperands
  have hone : operands [Item.operand value] = [value] := rfl
  rw [operands_append, hone, List.length_append, List.length_singleton] at hsingle
  omega

/-- The first operand of a run settles what is pending, and is refused if it is one too many. -/
theorem reads_takeOperand_alone (hstands : Stands (some name) items none side)
    (hoperands : side.operands = operands items)
    (halone : ∀ earlier, side.pending ≠ some (.operands earlier)) :
    Reads (some name) (items ++ [.operand value]) none (side.takeOperand name value) := by
  unfold Side.takeOperand
  simp only [List.append_nil, List.isEmpty_nil, if_true, hoperands]
  by_cases hmany : name ≠ .status ∧ operands items ≠ []
  · rw [if_pos (by simpa using hmany)]
    exact .error (not_acceptable_of_operand hmany.1 hmany.2)
  · rw [if_neg (by simpa using hmany)]
    have hsettles := hstands.settles
    rw [lacking_none, List.append_nil] at hsettles
    apply hsettles.reads_bind
    intro hitems
    have hsingle : some name ≠ some .status → (operands items).length + [value].length ≤ 1 := by
      intro hname
      have hnone : operands items = [] := by
        by_cases hnone : operands items = []
        · exact hnone
        · exact absurd ⟨by simpa using hname, hnone⟩ hmany
      simp [hnone]
    have hgathered : Stands (some name) (items ++ [value].map .operand) none
        { sideOf items with pending := some (.operands [value]) } :=
      .gathered hitems (by simp) hsingle
    exact .ok hgathered

/-- An operand is gathered with those before it, if the command takes several. -/
theorem reads_takeOperand (hstands : Stands (some name) items none side) (value : Bytes) :
    Reads (some name) (items ++ [.operand value]) none (side.takeOperand name value) := by
  cases hstands with
  | settled hitems =>
      apply reads_takeOperand_alone (.settled hitems) rfl
      intro earlier hpending
      cases hpending
  | valued hitems =>
      apply reads_takeOperand_alone (.valued hitems)
      · exact (operands_append_of_none rfl).symm
      · intro earlier hpending
        cases hpending
  | @gathered items earlier hitems hearlier hsingle =>
      unfold Side.takeOperand
      simp only
      by_cases hname : name = .status
      · subst hname
        have hsome : earlier.isEmpty = false := by simpa using hearlier
        have hgathered : Stands (some .status) (items ++ (earlier ++ [value]).map .operand) none
            { sideOf items with pending := some (.operands (earlier ++ [value])) } :=
          .gathered hitems (by simp) (by simp)
        simp only [hsome, Bool.false_eq_true, if_false]
        rw [List.map_append, ← List.append_assoc] at hgathered
        exact .ok hgathered
      · have hgiven : (name != .status && !((sideOf items).operands ++ earlier).isEmpty) = true := by
          simp [hname, hearlier]
        rw [if_pos hgiven]
        apply Reads.error
        apply not_acceptable_of_operand hname
        rw [operands_append, operands_map]
        simp [hearlier]

/-- Operands are read one after the other. -/
theorem reads_takeOperands (hstands : Stands (some name) items none side) (list : List Bytes) :
    Reads (some name) (items ++ list.map .operand) none (side.takeOperands name list) := by
  induction list generalizing items side with
  | nil =>
      rw [List.map_nil, List.append_nil]
      exact .ok hstands
  | cons value rest ih =>
      rw [List.map_cons, List.append_cons]
      unfold Side.takeOperands
      have hfirst := reads_takeOperand hstands value
      generalize side.takeOperand name value = result at hfirst ⊢
      cases hfirst with
      | ok hnext => exact ih hnext
      | error hitems =>
          exact .error (not_acceptable_append hitems)

/-- Behind a separator an option that waits is found out by the next operand, or at the end. -/
theorem settles_takeOperands (hstands : Stands (some name) items waiting side)
    (list : List Bytes) :
    Settles (some name) (items ++ (lacking waiting ++ list.map .operand))
      ((side.takeOperands name list).bind (Side.settle (some name))) := by
  rw [← List.append_assoc]
  cases waiting with
  | none =>
      have hreads := reads_takeOperands hstands list
      rw [lacking_none, List.append_nil]
      generalize side.takeOperands name list = result at hreads ⊢
      cases hreads with
      | ok hnext =>
          have hsettles := hnext.settles
          rw [lacking_none, List.append_nil] at hsettles
          exact hsettles
      | error hitems => exact .error hitems
  -- the option lacks its value, so it does not matter what the operands are
  | some setting =>
      have hfault : ¬Acceptable (some name) (items ++ lacking (some setting) ++ list.map .operand) :=
        not_acceptable_of_fault (by simp [lacking])
      obtain ⟨usage, hrefused⟩ : ∃ usage,
          (side.takeOperands name list).bind (Side.settle (some name)) = .error usage := by
        cases hstands with
        | waiting hitems =>
            cases list with
            | nil => exact ⟨_, rfl⟩
            | cons value rest =>
                unfold Side.takeOperands Side.takeOperand
                simp only
                split
                · exact ⟨_, rfl⟩
                · exact ⟨_, rfl⟩
      rw [hrefused]
      exact .error hfault

/-! ## All arguments -/

/-- What goes on from every side that an argument may lead to settles the items of both. -/
theorem Reads.settles_bind {next : Option Setting} {go : Side → Except Usage Side}
    (hreads : Reads command items next result)
    (hgo : ∀ side, Stands command items next side →
      Settles command (items ++ more) (go side)) :
    Settles command (items ++ more) (result.bind go) := by
  cases hreads with
  | ok hstands => exact hgo _ hstands
  | error hitems =>
      exact .error (not_acceptable_append hitems)

/-- A single hyphen is no run of letters. -/
theorem ne_nil_of_short {argument letters : Bytes} (hform : formOf argument = .short letters) :
    letters ≠ [] := by
  rintro rfl
  unfold formOf at hform
  split at hform
  · split at hform
    · split at hform
      · cases hform
      · cases hform
    · split at hform
      · cases hform
      · cases hform
  · cases hform

/-- A word is the value of the option that waits. -/
theorem stands_takeValue (hstands : Stands command items (some setting) side) (value : Bytes) :
    Stands command (items ++ [.given setting value]) none (side.takeValue value) := by
  cases hstands with
  | waiting hitems => exact .valued hitems

/-- Reading arguments and settling what they leave makes the side of their items, or refuses the
arguments where one side does not accept them. -/
theorem settles_takeAll (hstands : Stands (some name) items waiting side)
    (arguments : List Bytes) :
    Settles (some name) (items ++ itemsOf (some name) waiting arguments)
      (side.takeAll name arguments >>= Side.settle (some name)) := by
  induction arguments generalizing items waiting side with
  | nil => exact hstands.settles
  | cons argument rest ih =>
      unfold itemsOf taken? Side.takeAll
      cases hform : formOf argument with
      | separator => exact settles_takeOperands hstands rest
      | long word value =>
          simp only [bind_assoc]
          rw [← List.append_assoc]
          apply (reads_takeLong hstands word value).settles_bind
          intro next hnext
          exact ih hnext
      | short letters =>
          simp only [bind_assoc]
          rw [← List.append_assoc]
          have hreads := (settles_takeLetters hstands (ne_nil_of_short hform)).reads
          apply hreads.settles_bind
          intro next hnext
          exact ih hnext
      | word =>
          simp only [hstands.isWaiting_eq]
          cases waiting with
          | some setting =>
              simp only [Option.isSome_some, if_true]
              rw [← List.append_assoc]
              exact ih (stands_takeValue hstands argument)
          | none =>
              simp only [Option.isSome_none, Bool.false_eq_true, if_false, bind_assoc]
              rw [← List.append_assoc]
              apply (reads_takeOperand hstands argument).settles_bind
              intro next hnext
              exact ih hnext

end SerialLock.CommandLine
