import SerialLock.Proofs.Settings.Entries
import SerialLock.Proofs.Yaml.Vacant

/-!
# Texts without settings

A text that is blank has the usual settings without being read as a document.  A text of comments
is read, and what is read of it is no document at all; so its settings are the usual ones, too.
Where all lines are vacant both ways lead to the same settings (`ofText_of_vacant`).
-/

set_option autoImplicit false

namespace SerialLock.Settings

open Yaml (Document isInLine isVacant ofLines)

variable {line : List Char} {lines : List (List Char)} {ended : Bool}

/-- Without a comment there are only spaces in a vacant line. -/
theorem eq_space_of_isVacant (hvacant : isVacant line = true) (hcomment : '#' ∉ line) :
    ∀ c ∈ line, c = ' ' := by
  induction line with
  | nil => simp
  | cons c line ih =>
      rw [isVacant] at hvacant
      split at hvacant
      · rename_i hspace
        obtain rfl := eq_of_beq hspace
        rw [List.forall_mem_cons]
        exact ⟨rfl, ih hvacant (List.not_mem_of_not_mem_cons hcomment)⟩
      · obtain rfl := eq_of_beq hvacant
        exact absurd List.mem_cons_self hcomment

/-- Of vacant lines those are blank that hold no comment. -/
theorem trim_ofLines_eq_nil_iff (hvacant : ∀ line ∈ lines, isVacant line = true) :
    Text.trim (ofLines lines ended) = [] ↔ ∀ line ∈ lines, '#' ∉ line := by
  rw [Text.trim_eq_nil_iff, Yaml.forall_mem_ofLines (by decide)]
  constructor
  · intro hblank line hline hcomment
    have hmark := hblank line hline '#' hcomment
    exact absurd hmark (by decide)
  · intro hcomment line hline c hc
    obtain rfl := eq_space_of_isVacant (hvacant line hline) (hcomment line hline) c hc
    decide

/-- A text says nothing exactly where each of its lines is empty, of spaces, or of spaces in front
of a comment: these texts, and no others with such characters, have no document.  Then the settings
are the usual ones by either way.  A text without a comment is blank and not read at all; what is
read of any other, or would be of a blank one, has the same settings. -/
theorem ofText_of_vacant (hchars : ∀ line ∈ lines, ∀ c ∈ line, isInLine c = true) (ended : Bool) :
    let text := ofLines lines ended
    (Document.ofText text = .ok ⟨none⟩ ↔ ∀ line ∈ lines, isVacant line = true) ∧
    ((∀ line ∈ lines, isVacant line = true) →
      (Text.trim text = [] ↔ ∀ line ∈ lines, '#' ∉ line) ∧
      (∃ document, Document.ofText text = .ok document ∧ ofDocument document = .ok {}) ∧
      ofText text = .ok {}) := by
  intro text
  have hmissing : Document.ofText text = .ok ⟨none⟩ ↔ ∀ line ∈ lines, isVacant line = true :=
    Yaml.ofText_eq_missing_iff.trans (Yaml.lexemes_ofLines_eq_nil_iff hchars)
  refine ⟨hmissing, fun hvacant => ?_⟩
  have hdocument := hmissing.mpr hvacant
  have hnone : Readable [] := by
    intro entry hentry
    cases hentry
  have hsettings : ofText text = .ok {} :=
    (ofText_eq_ok_iff hdocument .missing hnone).mpr ⟨toldBy_nil_iff.mpr rfl, by decide⟩
  exact ⟨trim_ofLines_eq_nil_iff hvacant, ⟨_, hdocument, rfl⟩, hsettings⟩

/-- Settings that are commented out, with a tab and other characters of comments. -/
theorem ofText_of_vacant_commentedOut :
    let lines := ["# lock_dir: /a".toList, [], "   ".toList, "  #\t[é𝄞 # ---".toList]
    let text := "# lock_dir: /a\n\n   \n  #\t[é𝄞 # ---\n".toList
    (∀ line ∈ lines, ∀ c ∈ line, isInLine c = true) ∧
      (∀ line ∈ lines, isVacant line = true) ∧ ofLines lines true = text ∧
      Text.trim text ≠ [] ∧ Document.ofText text = .ok ⟨none⟩ ∧ ofText text = .ok {} := by
  intro lines text
  have hall : (lines.all fun line => line.all isInLine) = true := by decide
  have hchars : ∀ line ∈ lines, ∀ c ∈ line, isInLine c = true := by
    intro line hline
    exact List.all_eq_true.mp (List.all_eq_true.mp hall line hline)
  have hvacant : ∀ line ∈ lines, isVacant line = true := by decide
  have htext : ofLines lines true = text := by decide
  obtain ⟨hmissing, hrest⟩ := ofText_of_vacant hchars true
  obtain ⟨htrim, -, hsettings⟩ := hrest hvacant
  rw [htext] at hmissing htrim hsettings
  refine ⟨hchars, hvacant, htext, ?_, hmissing.mpr hvacant, hsettings⟩
  rw [ne_eq, htrim]
  decide

/-- A tab is no space: a text of one is blank, but would not be read as a document. -/
example : ofText ['\t'] = .ok {} ∧ Document.ofText ['\t'] = .error .strayCharacter := ⟨rfl, rfl⟩

end SerialLock.Settings
