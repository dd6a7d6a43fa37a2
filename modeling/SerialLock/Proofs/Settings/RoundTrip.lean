import SerialLock.Proofs.Text.Trim
import SerialLock.Proofs.Yaml.Mapping
import SerialLock.Settings.Resolve
import SerialLock.Settings.Write

/-!
# Settings read back from their document

The document of settings is a mapping of three entries (`document_eq`), whatever the texts in it.
The nodes that it reads back to stand for the settings themselves, so that reading it yields what
checking the settings yields (`ofText_toText`): they come back if they have no flaw, and the flaw
that they have otherwise.
-/

set_option autoImplicit false

namespace SerialLock.Settings

open Yaml (Field HoldsFields mappingText written styleOf isPrintable)

/-- A text among the settings, under its name. -/
def textField (name text : String) : Field :=
  ⟨name.toList, written text.toList, styleOf text.toList, text.toList⟩

/-- A truth value among the settings, under its name. -/
def truthField (name : String) (truth : Bool) : Field :=
  let text := (toString truth).toList
  ⟨name.toList, text ++ ['\n'], .plain, text⟩

/-- The entries of the document of settings. -/
def fields (settings : Settings) : List Field :=
  [textField "lock_dir" settings.lockDirectory, textField "lock_prefix" settings.lockPrefix,
    truthField "check_liveness" settings.checkLiveness]

/-- Settings are written as a mapping of their fields. -/
theorem document_eq (settings : Settings) : settings.document = mappingText settings.fields := by
  have hdirectory : "lock_dir: ".toList = "lock_dir".toList ++ [':', ' '] := rfl
  have hprefix : "lock_prefix: ".toList = "lock_prefix".toList ++ [':', ' '] := rfl
  have hliveness : "check_liveness: ".toList = "check_liveness".toList ++ [':', ' '] := rfl
  unfold document
  rw [hdirectory, hprefix, hliveness]
  simp only [fields, textField, truthField, mappingText, Yaml.entry, List.append_assoc,
    List.cons_append, List.nil_append, List.append_nil]

/-- Can the name stand in front of a colon as it is? -/
def isFieldName (name : String) : Bool :=
  name.toList.all Yaml.isNameChar && !name.toList.isEmpty && name.toList.length ≤ 1024

/-- An entry under such a name is as good as what is written for its value. -/
theorem valid_of_isFieldName {name : String} {written text : List Char} {style : Yaml.Style}
    (hname : isFieldName name = true) (hprintable : ∀ c ∈ written, isPrintable c = true)
    (hspells : Yaml.Lexer.Spells written style text) :
    Field.Valid ⟨name.toList, written, style, text⟩ := by
  unfold isFieldName at hname
  simp only [Bool.and_eq_true, List.all_eq_true, Bool.not_eq_true', List.isEmpty_eq_false_iff,
    decide_eq_true_eq] at hname
  obtain ⟨⟨hchars, hne⟩, hshort⟩ := hname
  exact ⟨hchars, hne, hshort, hprintable, hspells⟩

/-- A text is a valid field under a name that can stand in front of a colon. -/
theorem textField_valid {name : String} (hname : isFieldName name = true) (text : String) :
    (textField name text).Valid := by
  apply valid_of_isFieldName hname
  · intro c hc
    exact Yaml.Lexer.isPrintable_of_mem_written hc
  · exact Yaml.Lexer.spells_written text.toList

/-- A truth value is a valid field under a name that can stand in front of a colon. -/
theorem truthField_valid {name : String} (hname : isFieldName name = true) (truth : Bool) :
    (truthField name truth).Valid := by
  have hprintable : ∀ truth : Bool,
      ((toString truth).toList ++ ['\n']).all isPrintable = true := by decide
  have hfits : ∀ truth : Bool, Yaml.fitsPlain (toString truth).toList = true := by decide
  apply valid_of_isFieldName hname
  · exact List.all_eq_true.mp (hprintable truth)
  · exact Yaml.Lexer.spells_plain (hfits truth)

/-- All fields of settings are valid. -/
theorem fields_valid (settings : Settings) : ∀ field ∈ settings.fields, field.Valid := by
  intro field hfield
  simp only [fields, List.mem_cons, List.not_mem_nil, or_false] at hfield
  rcases hfield with rfl | rfl | rfl
  · exact textField_valid (by decide) _
  · exact textField_valid (by decide) _
  · exact truthField_valid (by decide) _

/-- Nodes of the entries stand for the settings. -/
theorem ofDocument_of_holdsFields {settings : Settings} {mark : Yaml.Mark}
    {entries : List (Yaml.Node × Yaml.Node)} (h : HoldsFields settings.fields entries) :
    ofDocument ⟨some (.mapping mark none entries)⟩ = .ok settings := by
  obtain ⟨lockDirectory, lockPrefix, checkLiveness⟩ := settings
  have htruth : Yaml.boolean? (toString checkLiveness).toList = some checkLiveness := by
    cases checkLiveness <;> decide
  cases h with
  | cons _ _ _ h =>
    cases h with
    | cons _ _ _ h =>
      cases h with
      | cons _ _ _ h =>
        cases h with
        | nil =>
          simp [ofDocument, Mentioned.addAll, Mentioned.add, textOf, aliased, textField, truthField,
            booleanOf, mayBeBoolean, htruth, Mentioned.complete, bind, Except.bind, pure,
            Except.pure, Except.map, String.ofList_toList]

/-- Reading the document of settings yields what checking the settings yields. -/
theorem ofText_toText (settings : Settings) : ofText settings.toText.toList = settings.checked := by
  obtain ⟨mark, entries, hread, hentries⟩ :=
    Yaml.ofText_mappingText settings.fields_valid (by simp [fields])
  have htext : settings.toText.toList = mappingText settings.fields := by
    unfold toText
    rw [String.toList_ofList, document_eq]
  have hblank : (Text.trim (mappingText settings.fields)).isEmpty = false := by
    rw [List.isEmpty_eq_false_iff]
    exact Text.trim_ne_nil ⟨'l', _, rfl, by decide⟩
  unfold ofText ofText?
  rw [htext, hblank, hread]
  simp only [ofDocument_of_holdsFields hentries]
  rfl

end SerialLock.Settings
