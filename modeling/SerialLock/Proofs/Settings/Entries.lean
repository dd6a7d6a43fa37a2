import SerialLock.Proofs.LockFile.Naming
import SerialLock.Proofs.Yaml.Blank
import SerialLock.Proofs.Yaml.Grammar

/-!
# The entries that settings come from

Of a mapping the entries of the three settings count, and nothing else.  Reading its entries one after
the other, a setting is mentioned once at most, and what is mentioned is the value of its entry
(`mentioned_iff`).  So a document has settings exactly where each of them has one readable entry or
none, and they are what the entries say, or the usual ones (`ofText_eq_ok_iff`).  The order of the
entries, their places in the text and other entries do not matter (`entries_decide`).
-/

set_option autoImplicit false

namespace SerialLock

namespace Yaml

namespace Node

/-- The string that an untagged scalar spells. -/
def string? : Node → Option String
  | .scalar _ _ none _ text => some (String.ofList text)
  | _ => none

/-- The truth value that an untagged scalar spells. -/
def truth? : Node → Option Bool
  | .scalar _ _ none .plain text => boolean? text
  | _ => none

/-- The node is no alias, and no scalar with a tag. -/
def isDirect : Node → Bool
  | .scalar _ _ tag _ _ => tag.isNone
  | .alias .. => false
  | _ => true

mutual

/-- The node apart from where it stands and how it is anchored. -/
def bare : Node → Node
  | .scalar _ _ tag style text => .scalar default none tag style text
  | .alias _ number => .alias default number
  | .sequence _ _ items => .sequence default none (bareItems items)
  | .mapping _ _ entries => .mapping default none (bareEntries entries)

/-- The items apart from where they stand and how they are anchored. -/
def bareItems : List Node → List Node
  | [] => []
  | item :: rest => item.bare :: bareItems rest

/-- The entries apart from where they stand and how they are anchored. -/
def bareEntries : List (Node × Node) → List (Node × Node)
  | [] => []
  | (key, value) :: rest => (key.bare, value.bare) :: bareEntries rest

end

variable {node : Node}

/-- Entries are compared by their keys and their values. -/
theorem bareEntries_eq_map (entries : List (Node × Node)) :
    bareEntries entries = entries.map fun entry => (entry.1.bare, entry.2.bare) := by
  induction entries with
  | nil => rfl
  | cons entry rest ih => rw [bareEntries, ih, List.map_cons]

/-- The string of a scalar does not depend on where it stands. -/
@[simp] theorem string?_bare (node : Node) : node.bare.string? = node.string? := by
  cases node with
  | scalar mark anchor tag style text => cases tag <;> rfl
  | _ => rfl

/-- The truth value of a scalar does not depend on where it stands. -/
@[simp] theorem truth?_bare (node : Node) : node.bare.truth? = node.truth? := by
  cases node with
  | scalar mark anchor tag style text => cases tag <;> cases style <;> rfl
  | _ => rfl

/-- Neither does it depend on that whether a node is an alias or has a tag. -/
@[simp] theorem isDirect_bare (node : Node) : node.bare.isDirect = node.isDirect := by
  cases node <;> rfl

end Node

/-- The document is a mapping with these entries, or holds nothing and there are none. -/
inductive Document.Holds : Document → List (Node × Node) → Prop where
  | mapping (mark : Mark) (anchor : Option Nat) (entries : List (Node × Node)) :
      Holds ⟨some (.mapping mark anchor entries)⟩ entries
  | blank (mark : Mark) (anchor : Option Nat) (tag : Option Bytes) :
      Holds ⟨some (.scalar mark anchor tag .plain [])⟩ []
  | missing : Holds ⟨none⟩ []

end Yaml

namespace Settings

open Yaml (Node Mark Document)

/-! ## What entries say -/

/-- The names of the settings. -/
def names : List String :=
  ["lock_dir", "lock_prefix", "check_liveness"]

/-- The values of the entries with this name. -/
def valuesOf (name : String) (entries : List (Node × Node)) : List Node :=
  (entries.filter fun entry => entry.1.string? == some name).map Prod.snd

/-- All keys are untagged scalars, and the settings have no alias and no tagged scalar as values. -/
def Readable (entries : List (Node × Node)) : Prop :=
  ∀ entry ∈ entries, ∃ name, entry.1.string? = some name ∧ (name ∈ names → entry.2.isDirect = true)

/-- The entry is none of a setting, though its key is an untagged scalar. -/
def IsOther (entry : Node × Node) : Prop :=
  ∃ name, entry.1.string? = some name ∧ name ∉ names

/-- Up to their order and their places in the text, the second entries are the first with other
entries inserted and others deleted. -/
def Rearranged (entries entries' : List (Node × Node)) : Prop :=
  ∃ inserted deleted, (∀ entry ∈ inserted ++ deleted, IsOther entry) ∧
    (Node.bareEntries (entries ++ inserted)).Perm (Node.bareEntries (entries' ++ deleted))

/-- What the values of a setting say: the one that there is, or the usual one if there is none. -/
inductive Gives {α : Type} (usual : α) : List (Option α) → α → Prop where
  | absent : Gives usual [] usual
  | present (a : α) : Gives usual [some a] a

/-- The settings are what the entries say. -/
structure ToldBy (entries : List (Node × Node)) (settings : Settings) : Prop where
  lockDirectory : Gives "/var/lock" ((valuesOf "lock_dir" entries).map Node.string?)
    settings.lockDirectory
  lockPrefix : Gives "LCK.." ((valuesOf "lock_prefix" entries).map Node.string?)
    settings.lockPrefix
  checkLiveness : Gives true ((valuesOf "check_liveness" entries).map Node.truth?)
    settings.checkLiveness

variable {entries entries' : List (Node × Node)} {name : String} {settings : Settings}

/-- The values of a name come in the order of the entries. -/
theorem valuesOf_append (name : String) (entries entries' : List (Node × Node)) :
    valuesOf name (entries ++ entries') = valuesOf name entries ++ valuesOf name entries' := by
  unfold valuesOf
  rw [List.filter_append, List.map_append]

/-- Other entries give a setting no value. -/
theorem valuesOf_others (hname : name ∈ names) (hothers : ∀ entry ∈ entries, IsOther entry) :
    valuesOf name entries = [] := by
  unfold valuesOf
  rw [List.map_eq_nil_iff, List.filter_eq_nil_iff]
  intro entry hentry
  obtain ⟨other, hkey, hother⟩ := hothers entry hentry
  rw [hkey, beq_iff_eq, Option.some.injEq]
  rintro rfl
  exact hother hname

/-- Values are found where entries are compared apart from their places. -/
theorem map_valuesOf_bareEntries {α : Type} {read : Node → α}
    (hread : ∀ node, read node.bare = read node) :
    (valuesOf name (Node.bareEntries entries)).map read = (valuesOf name entries).map read := by
  unfold valuesOf
  rw [Node.bareEntries_eq_map, List.filter_map, List.map_map, List.map_map, List.map_map]
  simp [Function.comp_def, hread]

/-- Rearranging entries rearranges the values of a setting. -/
theorem Rearranged.perm {α : Type} {read : Node → α} (h : Rearranged entries entries')
    (hname : name ∈ names) (hread : ∀ node, read node.bare = read node) :
    ((valuesOf name entries).map read).Perm ((valuesOf name entries').map read) := by
  obtain ⟨inserted, deleted, hothers, hperm⟩ := h
  have hinserted := valuesOf_others hname fun entry hmem =>
    hothers entry (List.mem_append_left deleted hmem)
  have hdeleted := valuesOf_others hname fun entry hmem =>
    hothers entry (List.mem_append_right inserted hmem)
  have hvalues : ((valuesOf name (Node.bareEntries (entries ++ inserted))).map read).Perm
      ((valuesOf name (Node.bareEntries (entries' ++ deleted))).map read) :=
    ((hperm.filter _).map Prod.snd).map read
  rwa [map_valuesOf_bareEntries hread, map_valuesOf_bareEntries hread, valuesOf_append,
    valuesOf_append, hinserted, hdeleted, List.append_nil, List.append_nil] at hvalues

/-- The order of the values does not matter to what they say. -/
theorem Gives.of_perm {α : Type} {usual a : α} {readings readings' : List (Option α)}
    (h : Gives usual readings a) (hperm : readings.Perm readings') : Gives usual readings' a := by
  cases h with
  | absent =>
      rw [List.nil_perm.mp hperm]
      exact .absent
  | present =>
      rw [List.perm_singleton.mp hperm.symm]
      exact .present a

/-- What is rearranged can be put back. -/
theorem Rearranged.symm (h : Rearranged entries entries') : Rearranged entries' entries := by
  obtain ⟨inserted, deleted, hothers, hperm⟩ := h
  refine ⟨deleted, inserted, ?_, hperm.symm⟩
  intro entry hentry
  exact hothers entry (List.mem_append.mpr (List.mem_append.mp hentry).symm)

/-- Rearranged entries tell the same settings. -/
theorem ToldBy.of_rearranged (h : ToldBy entries settings) (hrearranged : Rearranged entries entries') :
    ToldBy entries' settings where
  lockDirectory := h.lockDirectory.of_perm (hrearranged.perm (by decide) Node.string?_bare)
  lockPrefix := h.lockPrefix.of_perm (hrearranged.perm (by decide) Node.string?_bare)
  checkLiveness := h.checkLiveness.of_perm (hrearranged.perm (by decide) Node.truth?_bare)

/-- Rearranged entries are as readable. -/
theorem Readable.of_rearranged (h : Readable entries) (hrearranged : Rearranged entries entries') :
    Readable entries' := by
  obtain ⟨inserted, deleted, hothers, hperm⟩ := hrearranged
  intro entry' hentry'
  have hbare : (entry'.1.bare, entry'.2.bare) ∈ Node.bareEntries (entries' ++ deleted) := by
    rw [Node.bareEntries_eq_map]
    exact List.mem_map_of_mem (List.mem_append_left deleted hentry')
  rw [← hperm.mem_iff, Node.bareEntries_eq_map] at hbare
  obtain ⟨entry, hentry, hsame⟩ := List.mem_map.mp hbare
  obtain ⟨hkey, hvalue⟩ := Prod.mk.inj hsame
  rw [← Node.string?_bare entry'.1, ← Node.isDirect_bare entry'.2, ← hkey, ← hvalue,
    Node.string?_bare, Node.isDirect_bare]
  rcases List.mem_append.mp hentry with hfirst | hinserted
  · exact h entry hfirst
  · obtain ⟨name, hname, hother⟩ := hothers entry (List.mem_append_left deleted hinserted)
    exact ⟨name, hname, fun hmem => absurd hmem hother⟩

/-! ## Entries one after the other -/

/-- What is mentioned of a setting after the values of more entries, each of which is read. -/
inductive Extends {α : Type} : Option α → List (Option α) → Option α → Prop where
  | absent (before : Option α) : Extends before [] before
  | present (a : α) : Extends none [some a] (some a)

/-- What is mentioned after more entries. -/
structure Mentions (entries : List (Node × Node)) (before after : Mentioned) : Prop where
  lockDirectory : Extends before.lockDirectory
    ((valuesOf "lock_dir" entries).map Node.string?) after.lockDirectory
  lockPrefix : Extends before.lockPrefix
    ((valuesOf "lock_prefix" entries).map Node.string?) after.lockPrefix
  checkLiveness : Extends before.checkLiveness
    ((valuesOf "check_liveness" entries).map Node.truth?) after.checkLiveness

section Extends

variable {α : Type} {before after : Option α} {reading : Option α} {readings : List (Option α)}

/-- Without a value more, what is mentioned stays. -/
theorem extends_nil_iff : Extends before [] after ↔ after = before := by
  constructor
  · rintro ⟨⟩
    rfl
  · rintro rfl
    exact .absent after

/-- One value more is mentioned exactly if it is the only one, is read, and none was mentioned
before. -/
theorem extends_cons_iff :
    Extends before (reading :: readings) after ↔
      before = none ∧ readings = [] ∧ reading.isSome ∧ after = reading := by
  constructor
  · rintro (_ | a)
    exact ⟨rfl, rfl, rfl, rfl⟩
  · rintro ⟨rfl, rfl, hsome, rfl⟩
    obtain ⟨a, rfl⟩ := Option.isSome_iff_exists.mp hsome
    exact .present a

/-- Values are mentioned one after the other. -/
theorem extends_append_iff {readings' : List (Option α)} :
    Extends before (readings ++ readings') after ↔
      ∃ middle, Extends before readings middle ∧ Extends middle readings' after := by
  cases readings with
  | nil => simp [extends_nil_iff]
  | cons reading readings =>
      cases readings' with
      | nil => simp [extends_nil_iff]
      | cons reading' readings' =>
          rw [List.cons_append, extends_cons_iff]
          constructor
          · rintro ⟨-, hnil, -⟩
            simp at hnil
          · rintro ⟨middle, hfirst, hsecond⟩
            obtain ⟨-, -, hsome, rfl⟩ := extends_cons_iff.mp hfirst
            obtain ⟨rfl, -⟩ := extends_cons_iff.mp hsecond
            cases hsome

/-- From nothing mentioned, what is mentioned at last is what the values say. -/
theorem gives_iff {usual a : α} :
    Gives usual readings a ↔ ∃ after, Extends none readings after ∧ a = after.getD usual := by
  constructor
  · rintro (_ | a)
    · exact ⟨none, .absent none, rfl⟩
    · exact ⟨some a, .present a, rfl⟩
  · rintro ⟨after, (_ | a), rfl⟩
    · exact .absent
    · exact .present a

end Extends

variable {document : Document} {root : Mark} {before after : Mentioned} {key value node : Node}

/-- A text is read exactly from an untagged scalar, which spells it. -/
theorem textOf_eq_ok_iff {setting : Option String} {expected : Expected} {text : String}
    (hdirect : node.isDirect = true) :
    textOf document setting expected node = .ok text ↔ node.string? = some text := by
  cases node with
  | scalar mark anchor tag style chars =>
      obtain rfl : tag = none := by simpa [Node.isDirect] using hdirect
      simp [textOf, aliased, Node.string?]
  | sequence mark anchor items => simp [textOf, aliased, Node.string?]
  | mapping mark anchor entries => simp [textOf, aliased, Node.string?]
  | _ => cases hdirect

/-- A truth value is read exactly from an untagged plain scalar, which spells it. -/
theorem booleanOf_eq_ok_iff {setting : Option String} {truth : Bool}
    (hdirect : node.isDirect = true) :
    booleanOf document setting node = .ok truth ↔ node.truth? = some truth := by
  cases node with
  | scalar mark anchor tag style chars =>
      obtain rfl : tag = none := by simpa [Node.isDirect] using hdirect
      cases style with
      | plain =>
          cases hread : Yaml.boolean? chars with
          | none => simp [booleanOf, aliased, mayBeBoolean, Node.truth?, hread]
          | some read => simp [booleanOf, aliased, mayBeBoolean, Node.truth?, hread]
      | _ => simp [booleanOf, aliased, mayBeBoolean, Node.truth?]
  | sequence mark anchor items => simp [booleanOf, aliased, Node.truth?]
  | mapping mark anchor entries => simp [booleanOf, aliased, Node.truth?]
  | _ => cases hdirect

/-- An untagged scalar is no alias, and has no tag. -/
theorem isDirect_of_string? {text : String} (hstring : node.string? = some text) :
    node.isDirect = true := by
  cases node with
  | scalar mark anchor tag style chars =>
      cases tag with
      | none => rfl
      | some tag => cases hstring
  | _ => cases hstring

/-- An entry gives its value to the name of its key, and none to another. -/
theorem valuesOf_single (other : String) (hkey : key.string? = some name) :
    valuesOf other [(key, value)] = if name = other then [value] else [] := by
  unfold valuesOf
  by_cases hsame : name = other
  · simp [hkey, hsame]
  · simp [hkey, hsame]

/-- A setting takes the value that is read, unless it has been mentioned before. -/
theorem take_eq_ok_iff {α : Type} {before reading : Option α} {result : Except Mismatch α}
    {refused : Mismatch} (set : Option α → Mentioned)
    (hread : ∀ a, result = .ok a ↔ reading = some a) :
    (if before.isSome then .error refused else result >>= fun a => pure (set (some a))) = .ok after ↔
      ∃ taken, after = set taken ∧ Extends before [reading] taken := by
  cases before with
  | some a => simp [extends_cons_iff]
  | none =>
      simp only [Option.isSome_none, Bool.false_eq_true, if_false, bind_eq_ok_iff, hread,
        extends_cons_iff]
      constructor
      · rintro ⟨a, rfl, hset⟩
        cases hset
        exact ⟨some a, rfl, trivial, trivial, rfl, rfl⟩
      · rintro ⟨taken, rfl, -, -, hsome, rfl⟩
        obtain ⟨a, rfl⟩ := Option.isSome_iff_exists.mp hsome
        exact ⟨a, rfl, rfl⟩

/-- One more entry is read exactly where it mentions a setting that was not mentioned before, by a
value that can be read, or where it is another entry. -/
theorem add_eq_ok_iff (hkey : key.string? = some name)
    (hvalue : name ∈ names → value.isDirect = true) :
    before.add document root key value = .ok after ↔ Mentions [(key, value)] before after := by
  have hname : textOf document none .name key = .ok name :=
    (textOf_eq_ok_iff (isDirect_of_string? hkey)).mpr hkey
  obtain ⟨directory, front, liveness⟩ := before
  obtain ⟨directory', front', liveness'⟩ := after
  -- a name is that of one setting at most, so for the other settings no value is added
  have hmentions : Mentions [(key, value)] ⟨directory, front, liveness⟩
      ⟨directory', front', liveness'⟩ ↔
      Extends directory ((if name = "lock_dir" then [value] else []).map Node.string?) directory' ∧
      Extends front ((if name = "lock_prefix" then [value] else []).map Node.string?) front' ∧
      Extends liveness ((if name = "check_liveness" then [value] else []).map Node.truth?)
        liveness' := by
    rw [← valuesOf_single _ hkey, ← valuesOf_single _ hkey, ← valuesOf_single _ hkey]
    exact ⟨fun ⟨h₁, h₂, h₃⟩ => ⟨h₁, h₂, h₃⟩, fun ⟨h₁, h₂, h₃⟩ => ⟨h₁, h₂, h₃⟩⟩
  rw [hmentions]
  unfold Mentioned.add
  rw [hname]
  by_cases hdirectory : name = "lock_dir"
  · subst hdirectory
    have hread (text : String) := @textOf_eq_ok_iff document value
      (some (settingName key "lock_dir")) .text text (hvalue (by decide))
    refine (take_eq_ok_iff (fun taken => ⟨taken, front, liveness⟩) hread).trans ?_
    simp only [reduceIte, String.reduceEq, List.map_cons, List.map_nil, extends_nil_iff]
    constructor
    · rintro ⟨taken, hset, htaken⟩
      cases hset
      exact ⟨htaken, rfl, rfl⟩
    · rintro ⟨htaken, rfl, rfl⟩
      exact ⟨_, rfl, htaken⟩
  · by_cases hfront : name = "lock_prefix"
    · subst hfront
      have hread (text : String) := @textOf_eq_ok_iff document value
        (some (settingName key "lock_prefix")) .text text (hvalue (by decide))
      refine (take_eq_ok_iff (fun taken => ⟨directory, taken, liveness⟩) hread).trans ?_
      simp only [reduceIte, String.reduceEq, List.map_cons, List.map_nil, extends_nil_iff]
      constructor
      · rintro ⟨taken, hset, htaken⟩
        cases hset
        exact ⟨rfl, htaken, rfl⟩
      · rintro ⟨rfl, htaken, rfl⟩
        exact ⟨_, rfl, htaken⟩
    · by_cases hliveness : name = "check_liveness"
      · subst hliveness
        have hread (truth : Bool) := @booleanOf_eq_ok_iff document value
          (some (settingName key "check_liveness")) truth (hvalue (by decide))
        refine (take_eq_ok_iff (fun taken => ⟨directory, front, taken⟩) hread).trans ?_
        simp only [reduceIte, String.reduceEq, List.map_cons, List.map_nil, extends_nil_iff]
        constructor
        · rintro ⟨taken, hset, htaken⟩
          cases hset
          exact ⟨rfl, rfl, htaken⟩
        · rintro ⟨rfl, rfl, htaken⟩
          exact ⟨_, rfl, htaken⟩
      · simp only [bind, Except.bind, pure, Except.pure, beq_iff_eq, hdirectory, hfront, hliveness,
          if_false, Except.ok.injEq, Mentioned.mk.injEq, List.map_nil, extends_nil_iff]
        exact and_congr eq_comm (and_congr eq_comm eq_comm)

/-- Entries are mentioned one after the other. -/
theorem mentions_append_iff :
    Mentions (entries ++ entries') before after ↔
      ∃ middle, Mentions entries before middle ∧ Mentions entries' middle after := by
  constructor
  · rintro ⟨hdirectory, hfront, hliveness⟩
    rw [valuesOf_append, List.map_append, extends_append_iff] at hdirectory hfront hliveness
    obtain ⟨directory, hdirectory, hdirectory'⟩ := hdirectory
    obtain ⟨front, hfront, hfront'⟩ := hfront
    obtain ⟨liveness, hliveness, hliveness'⟩ := hliveness
    exact ⟨⟨directory, front, liveness⟩, ⟨hdirectory, hfront, hliveness⟩,
      ⟨hdirectory', hfront', hliveness'⟩⟩
  · rintro ⟨middle, hfirst, hsecond⟩
    refine ⟨?_, ?_, ?_⟩
    · rw [valuesOf_append, List.map_append, extends_append_iff]
      exact ⟨_, hfirst.lockDirectory, hsecond.lockDirectory⟩
    · rw [valuesOf_append, List.map_append, extends_append_iff]
      exact ⟨_, hfirst.lockPrefix, hsecond.lockPrefix⟩
    · rw [valuesOf_append, List.map_append, extends_append_iff]
      exact ⟨_, hfirst.checkLiveness, hsecond.checkLiveness⟩

/-- Without entries nothing more is mentioned. -/
theorem mentions_nil_iff : Mentions [] before after ↔ after = before := by
  constructor
  · rintro ⟨hdirectory, hfront, hliveness⟩
    obtain ⟨directory, front, liveness⟩ := after
    rw [Mentioned.mk.injEq]
    exact ⟨extends_nil_iff.mp hdirectory, extends_nil_iff.mp hfront, extends_nil_iff.mp hliveness⟩
  · rintro rfl
    exact ⟨.absent _, .absent _, .absent _⟩

/-- Entries are read one after the other exactly where each setting that they mention is mentioned
once, by a value that can be read. -/
theorem addAll_eq_ok_iff (hreadable : Readable entries) :
    before.addAll document root entries = .ok after ↔ Mentions entries before after := by
  induction entries generalizing before with
  | nil =>
      rw [mentions_nil_iff, Mentioned.addAll, Except.ok.injEq, eq_comm]
  | cons entry rest ih =>
      obtain ⟨key, value⟩ := entry
      obtain ⟨⟨name, hkey, hvalue⟩, hrest⟩ := List.forall_mem_cons.mp hreadable
      rw [Mentioned.addAll, bind_eq_ok_iff, ← List.singleton_append, mentions_append_iff]
      exact exists_congr fun middle => and_congr (add_eq_ok_iff hkey hvalue) (ih hrest)

/-! ## Documents -/

/-- Settings that are told are the mentioned ones, completed by the usual ones. -/
theorem toldBy_iff :
    ToldBy entries settings ↔ ∃ after, Mentions entries {} after ∧ settings = after.complete := by
  constructor
  · rintro ⟨hdirectory, hfront, hliveness⟩
    obtain ⟨directory, hdirectory, hdirectory'⟩ := gives_iff.mp hdirectory
    obtain ⟨front, hfront, hfront'⟩ := gives_iff.mp hfront
    obtain ⟨liveness, hliveness, hliveness'⟩ := gives_iff.mp hliveness
    refine ⟨⟨directory, front, liveness⟩, ⟨hdirectory, hfront, hliveness⟩, ?_⟩
    rw [Settings.mk.injEq]
    exact ⟨hdirectory', hfront', hliveness'⟩
  · rintro ⟨after, ⟨hdirectory, hfront, hliveness⟩, rfl⟩
    exact ⟨gives_iff.mpr ⟨_, hdirectory, rfl⟩, gives_iff.mpr ⟨_, hfront, rfl⟩,
      gives_iff.mpr ⟨_, hliveness, rfl⟩⟩

/-- Without entries the settings are the usual ones. -/
theorem toldBy_nil_iff : ToldBy [] settings ↔ settings = {} := by
  rw [toldBy_iff]
  simp only [mentions_nil_iff, exists_eq_left]
  rfl

/-- A document of readable entries yields exactly the settings that they tell. -/
theorem ofDocument_eq_ok_iff (hholds : document.Holds entries) (hreadable : Readable entries) :
    ofDocument document = .ok settings ↔ ToldBy entries settings := by
  cases hholds with
  | mapping mark anchor =>
      rw [ofDocument, map_eq_ok_iff, toldBy_iff]
      exact exists_congr fun after => and_congr (addAll_eq_ok_iff hreadable) eq_comm
  | blank mark anchor tag =>
      rw [toldBy_nil_iff, ofDocument, Except.ok.injEq, eq_comm]
  | missing =>
      rw [toldBy_nil_iff, ofDocument, Except.ok.injEq, eq_comm]

variable {text : List Char}

/-- A blank text has no entries. -/
theorem eq_nil_of_blank (hdocument : Document.ofText text = .ok document)
    (hholds : document.Holds entries) (hblank : Text.trim text = []) : entries = [] := by
  cases hholds with
  | mapping mark anchor => exact absurd hblank (Yaml.trim_ne_nil_of_mapping hdocument)
  | blank mark anchor tag => rfl
  | missing => rfl

/-- A text that parses to readable entries yields exactly the settings that they tell. -/
theorem ofText?_eq_ok_iff (hdocument : Document.ofText text = .ok document)
    (hholds : document.Holds entries) (hreadable : Readable entries) :
    ofText? text = .ok settings ↔ ToldBy entries settings := by
  unfold ofText?
  split
  · rename_i hblank
    obtain rfl := eq_nil_of_blank hdocument hholds (List.isEmpty_iff.mp hblank)
    rw [toldBy_nil_iff, Except.ok.injEq, eq_comm]
  · rw [hdocument, ← ofDocument_eq_ok_iff hholds hreadable]
    cases hread : ofDocument document with
    | ok read => simp [hread]
    | error mismatch => simp [hread]

/-- A text has usable settings exactly where its entries tell settings that have no flaw. -/
theorem ofText_eq_ok_iff (hdocument : Document.ofText text = .ok document)
    (hholds : document.Holds entries) (hreadable : Readable entries) :
    ofText text = .ok settings ↔ ToldBy entries settings ∧ settings.flaw? = none := by
  have hread (read : Settings) := @ofText?_eq_ok_iff entries read document text hdocument hholds
    hreadable
  unfold ofText
  cases hresult : ofText? text with
  | ok read =>
      simp only [hresult, Except.ok.injEq] at hread
      rw [checked_eq_ok_iff, ← hread settings]
      constructor
      · rintro ⟨hflaw, rfl⟩
        exact ⟨rfl, hflaw⟩
      · rintro ⟨rfl, hflaw⟩
        exact ⟨hflaw, rfl⟩
  | error reason =>
      simp only [hresult, reduceCtorEq, false_iff] at hread
      simp [hread]

/-- Values say something only where there is no more than one. -/
theorem Gives.length_le {α : Type} {usual a : α} {readings : List (Option α)}
    (h : Gives usual readings a) : readings.length ≤ 1 := by
  cases h with
  | absent => exact Nat.zero_le 1
  | present => exact Nat.le_refl 1

/-- Entries tell settings only where each is mentioned no more than once. -/
theorem ToldBy.length_le (h : ToldBy entries settings) (hname : name ∈ names) :
    (valuesOf name entries).length ≤ 1 := by
  simp only [names, List.mem_cons, List.not_mem_nil, or_false] at hname
  rcases hname with rfl | rfl | rfl
  · simpa using h.lockDirectory.length_le
  · simpa using h.lockPrefix.length_le
  · simpa using h.checkLiveness.length_le

/-- The settings in a document are decided by the entries of the settings alone.  The entries have
tokens of their own, so that a value is passed with all that stands inside it.  Where the keys are
untagged scalars, and the settings have no alias and no tagged scalar as values, the settings are what
their entries say, with the usual ones for those that have no entry, unless they have a flaw.  So
another document with the same entries has the same settings, in whatever order they come and whatever
other entries there are, and none does that has two entries of one setting. -/
theorem entries_decide (hdocument : Document.ofText text = .ok document)
    (hholds : document.Holds entries) (hreadable : Readable entries) :
    (∃ found, Yaml.lexemes text = .ok found ∧
      document.SpelledBy (found.map Yaml.Lexeme.token)) ∧
    (∀ settings, ofText text = .ok settings ↔ ToldBy entries settings ∧ settings.flaw? = none) ∧
    (∀ text' document' entries', Document.ofText text' = .ok document' →
      document'.Holds entries' → Rearranged entries entries' →
        ∀ settings, ofText text' = .ok settings ↔ ofText text = .ok settings) ∧
    ∀ name ∈ names, 1 < (valuesOf name entries).length →
      ∃ failure, ofText text = .error failure := by
  have hmain (settings : Settings) := @ofText_eq_ok_iff entries settings document text hdocument
    hholds hreadable
  refine ⟨Yaml.spelledBy_of_ofText hdocument, hmain, ?_, ?_⟩
  · intro text' document' entries' hdocument' hholds' hrearranged settings
    rw [hmain, ofText_eq_ok_iff hdocument' hholds' (hreadable.of_rearranged hrearranged)]
    have htold : ToldBy entries' settings ↔ ToldBy entries settings :=
      ⟨fun h => h.of_rearranged hrearranged.symm, fun h => h.of_rearranged hrearranged⟩
    rw [htold]
  · intro name hname hrepeated
    cases hresult : ofText text with
    | error failure => exact ⟨failure, rfl⟩
    | ok settings =>
        obtain ⟨htold, -⟩ := (hmain settings).mp hresult
        have hlength := htold.length_le hname
        omega

/-- A token in a text of one line. -/
def lexemeAt (column width : Nat) (token : Yaml.Token) : Yaml.Lexeme :=
  ⟨token, ⟨0, column, column⟩, ⟨0, column + width, column + width⟩⟩

/-- A plain scalar in a text of one line. -/
def wordAt (column : Nat) (text : String) : Node :=
  .scalar ⟨0, column, column⟩ none none .plain text.toList

/-- An entry of a setting, and another one with more entries inside. -/
def nestedEntries : List (Node × Node) :=
  [(wordAt 1 "lock_dir", wordAt 11 "/a"),
    (wordAt 15 "x", .sequence ⟨0, 18, 18⟩ none
      [wordAt 19 "1", .mapping ⟨0, 22, 22⟩ none [(wordAt 23 "lock_dir", wordAt 33 "/b")]])]

/-- The entry of the setting behind others of one name. -/
def otherEntries : List (Node × Node) :=
  [(wordAt 1 "y", .sequence ⟨0, 4, 4⟩ none []), (wordAt 8 "y", wordAt 11 "1"),
    (wordAt 14 "lock_dir", wordAt 24 "/a")]

/-- The text of the nested entries parses to them. -/
theorem ofText_nestedEntries :
    Document.ofText "\x7block_dir: /a, x: [1, \x7block_dir: /b\x7d]\x7d".toList =
      .ok ⟨some (.mapping ⟨0, 0, 0⟩ none nestedEntries)⟩ := by
  have hfound : Yaml.lexemes "\x7block_dir: /a, x: [1, \x7block_dir: /b\x7d]\x7d".toList = .ok [
      lexemeAt 0 1 .flowMappingStart,
      lexemeAt 1 0 .key, lexemeAt 1 8 (.scalar .plain "lock_dir".toList),
      lexemeAt 9 1 .value, lexemeAt 11 2 (.scalar .plain "/a".toList),
      lexemeAt 13 1 .flowEntry,
      lexemeAt 15 0 .key, lexemeAt 15 1 (.scalar .plain "x".toList),
      lexemeAt 16 1 .value, lexemeAt 18 1 .flowSequenceStart,
      lexemeAt 19 1 (.scalar .plain "1".toList), lexemeAt 20 1 .flowEntry,
      lexemeAt 22 1 .flowMappingStart,
      lexemeAt 23 0 .key, lexemeAt 23 8 (.scalar .plain "lock_dir".toList),
      lexemeAt 31 1 .value, lexemeAt 33 2 (.scalar .plain "/b".toList),
      lexemeAt 35 1 .flowMappingEnd, lexemeAt 36 1 .flowSequenceEnd,
      lexemeAt 37 1 .flowMappingEnd] :=
    toOption_eq_some_iff.mp (by decide +kernel)
  unfold Document.ofText
  rw [hfound]
  rfl

/-- The text of the entries with others among them parses to them. -/
theorem ofText_otherEntries :
    Document.ofText "\x7by: [], y: 1, lock_dir: /a\x7d".toList =
      .ok ⟨some (.mapping ⟨0, 0, 0⟩ none otherEntries)⟩ := by
  have hfound : Yaml.lexemes "\x7by: [], y: 1, lock_dir: /a\x7d".toList = .ok [
      lexemeAt 0 1 .flowMappingStart,
      lexemeAt 1 0 .key, lexemeAt 1 1 (.scalar .plain "y".toList),
      lexemeAt 2 1 .value, lexemeAt 4 1 .flowSequenceStart, lexemeAt 5 1 .flowSequenceEnd,
      lexemeAt 6 1 .flowEntry,
      lexemeAt 8 0 .key, lexemeAt 8 1 (.scalar .plain "y".toList),
      lexemeAt 9 1 .value, lexemeAt 11 1 (.scalar .plain "1".toList),
      lexemeAt 12 1 .flowEntry,
      lexemeAt 14 0 .key, lexemeAt 14 8 (.scalar .plain "lock_dir".toList),
      lexemeAt 22 1 .value, lexemeAt 24 2 (.scalar .plain "/a".toList),
      lexemeAt 26 1 .flowMappingEnd] :=
    toOption_eq_some_iff.mp (by decide +kernel)
  unfold Document.ofText
  rw [hfound]
  rfl

/-- Neither what stands inside the value of another entry nor other entries of one name matter. -/
theorem entries_decide_nestedEntries :
    let settings : Settings := { lockDirectory := "/a" }
    ofText "\x7block_dir: /a, x: [1, \x7block_dir: /b\x7d]\x7d".toList = .ok settings ∧
      ofText "\x7by: [], y: 1, lock_dir: /a\x7d".toList = .ok settings := by
  intro settings
  have hreadable : Readable nestedEntries := by
    intro entry hentry
    simp only [nestedEntries, List.mem_cons, List.not_mem_nil, or_false] at hentry
    rcases hentry with rfl | rfl
    · exact ⟨"lock_dir", rfl, fun _ => rfl⟩
    · exact ⟨"x", rfl, fun hname => absurd hname (by decide)⟩
  have hother (entry : Node × Node) (hentry : entry ∈ otherEntries.take 2 ++ nestedEntries.drop 1) :
      IsOther entry := by
    simp only [otherEntries, nestedEntries, List.take, List.drop, List.cons_append,
      List.nil_append, List.mem_cons, List.not_mem_nil, or_false] at hentry
    rcases hentry with rfl | rfl | rfl
    · exact ⟨"y", rfl, by decide⟩
    · exact ⟨"y", rfl, by decide⟩
    · exact ⟨"x", rfl, by decide⟩
  have hrearranged : Rearranged nestedEntries otherEntries := by
    refine ⟨otherEntries.take 2, nestedEntries.drop 1, hother, ?_⟩
    exact @List.perm_append_comm _ (Node.bareEntries nestedEntries)
      (Node.bareEntries (otherEntries.take 2))
  obtain ⟨-, hsettings, hsame, -⟩ :=
    entries_decide ofText_nestedEntries (.mapping _ _ _) hreadable
  have htold : ToldBy nestedEntries settings :=
    ⟨.present "/a", .absent, .absent⟩
  have hfirst := (hsettings settings).mpr ⟨htold, by decide⟩
  exact ⟨hfirst, (hsame _ _ _ ofText_otherEntries (.mapping _ _ _) hrearranged settings).mpr hfirst⟩

end Settings

end SerialLock
