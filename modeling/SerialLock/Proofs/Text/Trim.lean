import Mathlib.Data.List.TakeWhile
import SerialLock.Text.Blank

/-!
# Trimming

White space around a text that starts and ends with other characters is all that trimming takes
away (`trim_append`).
-/

set_option autoImplicit false

namespace SerialLock.Text

/-- The text starts and ends with characters that are no white space. -/
structure Bare (text : List Char) : Prop where
  first : ∃ c rest, text = c :: rest ∧ isBlank c = false
  last : ∃ rest c, text = rest ++ [c] ∧ isBlank c = false

/-- Nothing is dropped from a text that starts with no white space. -/
theorem dropWhile_of_first {text : List Char}
    (hfirst : ∃ c rest, text = c :: rest ∧ isBlank c = false) : text.dropWhile isBlank = text := by
  obtain ⟨c, rest, rfl, hc⟩ := hfirst
  rw [List.dropWhile_cons_of_neg (by simp [hc])]

/-- A text is trimmed to nothing exactly where it is blank. -/
theorem trim_eq_nil_iff {text : List Char} : trim text = [] ↔ ∀ c ∈ text, isBlank c = true := by
  unfold trim
  rw [List.reverse_eq_nil_iff, List.dropWhile_eq_nil_iff]
  constructor
  · intro hback c hc
    rw [← @List.takeWhile_append_dropWhile _ isBlank text, List.mem_append] at hc
    rcases hc with hfront | hrest
    · exact List.mem_takeWhile_imp hfront
    · exact hback c (List.mem_reverse.mpr hrest)
  · intro hall c hc
    rw [List.dropWhile_eq_nil_iff.mpr hall] at hc
    cases hc

/-- A text that starts with no white space is not blank. -/
theorem trim_ne_nil {text : List Char}
    (hfirst : ∃ c rest, text = c :: rest ∧ isBlank c = false) : trim text ≠ [] := by
  obtain ⟨c, rest, rfl, hc⟩ := hfirst
  rw [ne_eq, trim_eq_nil_iff]
  intro hall
  rw [hall c (by simp)] at hc
  cases hc

/-- Trimming takes away the white space around a text that has none at its ends. -/
theorem trim_append {before text after : List Char} (hbefore : ∀ c ∈ before, isBlank c = true)
    (htext : Bare text) (hafter : ∀ c ∈ after, isBlank c = true) :
    trim (before ++ text ++ after) = text := by
  obtain ⟨c, rest, hfirst, hc⟩ := htext.first
  obtain ⟨rest', c', hlast, hc'⟩ := htext.last
  have hstart : (text ++ after).dropWhile isBlank = text ++ after :=
    dropWhile_of_first ⟨c, rest ++ after, by simp [hfirst], hc⟩
  have hend : text.reverse.dropWhile isBlank = text.reverse :=
    dropWhile_of_first ⟨c', rest'.reverse, by simp [hlast], hc'⟩
  have hafter' : ∀ c ∈ after.reverse, isBlank c = true := by
    intro c hmem
    exact hafter c (List.mem_reverse.mp hmem)
  unfold trim
  rw [List.append_assoc, List.dropWhile_append_of_pos hbefore, hstart, List.reverse_append,
    List.dropWhile_append_of_pos hafter', hend, List.reverse_reverse]

end SerialLock.Text
