import SerialLock.Proofs.Pid.Numeral
import SerialLock.Proofs.Text.Trim
import SerialLock.Proofs.Text.Utf8

/-!
# Which contents name a process

Contents name a process if they encode a text that does so without the white space around it
(`ofBytes?_eq_some_iff`).  So every numeral names its value, with any white space around it
(`ofBytes?_numeral`), and every number of 64 bits is read back from what is written for it.
-/

set_option autoImplicit false

namespace SerialLock.Pid

/-- A digit is no white space. -/
theorem isBlank_of_isDigit {c : Char} (hdigit : c.isDigit = true) : Text.isBlank c = false := by
  have hrange : 48 ≤ c.toNat ∧ c.toNat ≤ 57 := by
    unfold Char.isDigit at hdigit
    simp only [ge_iff_le, Bool.and_eq_true, decide_eq_true_eq, UInt32.le_iff_toNat_le] at hdigit
    exact hdigit
  rw [← Bool.not_eq_true]
  unfold Text.isBlank
  simp only [Bool.or_eq_true, Bool.and_eq_true, decide_eq_true_eq, beq_iff_eq]
  omega

namespace Numeral

/-- A numeral has no white space at its ends. -/
theorem bare (numeral : Numeral) : Text.Bare numeral.text := by
  obtain ⟨sign, digits, hdigits, hdecimal⟩ := numeral
  constructor
  · cases sign with
    | plus => exact ⟨'+', digits, rfl, rfl⟩
    | minus => exact ⟨'-', digits, rfl, rfl⟩
    | none =>
        cases digits with
        | nil => exact absurd rfl hdigits
        | cons c digits => exact ⟨c, digits, rfl, isBlank_of_isDigit (hdecimal c (by simp))⟩
  · refine ⟨sign.text ++ digits.dropLast, digits.getLast hdigits, ?_, ?_⟩
    · rw [List.append_assoc, List.dropLast_concat_getLast]
      rfl
    · exact isBlank_of_isDigit (hdecimal _ (List.getLast_mem hdigits))

/-- The usual numeral of a number, with more zeros in front. -/
def ofInt (zeros : Nat) (z : Int) : Numeral where
  sign := if z < 0 then .minus else .none
  digits := List.replicate zeros '0' ++ Nat.toDigits 10 z.natAbs
  nonempty := by simp
  decimal := by
    intro c hc
    rcases List.mem_append.mp hc with hzero | hdigit
    · rw [List.eq_of_mem_replicate hzero]
      rfl
    · exact Nat.isDigit_of_mem_toDigits (by decide) (by decide) hdigit

/-- Zeros in front do not change the magnitude of a number. -/
theorem magnitude_ofInt (zeros : Nat) (z : Int) : (ofInt zeros z).magnitude = z.natAbs := by
  unfold magnitude ofInt
  rw [Nat.ofDigitChars_append, Nat.ofDigitChars_replicate_zero, Nat.mul_zero,
    Nat.ofDigitChars_ten_toDigits]

/-- Zeros in front do not change the number. -/
theorem value_ofInt (zeros : Nat) (z : Int) : (ofInt zeros z).value = z := by
  have hmagnitude := magnitude_ofInt zeros z
  unfold value
  rw [hmagnitude]
  unfold ofInt
  by_cases hz : z < 0
  · simp only [hz, if_true]
    omega
  · simp only [hz, if_false]
    omega

/-- A number is written as its usual numeral. -/
theorem text_ofInt_zero (z : Int) : (ofInt 0 z).text = (toString z).toList := by
  unfold text ofInt
  rw [Int.toString_eq_repr, Int.repr_eq_if]
  by_cases hz : z < 0
  · rw [if_pos hz, if_neg (by omega), String.toList_append, Nat.toList_repr]
    have habs : (-z).toNat = z.natAbs := by omega
    rw [habs]
    rfl
  · rw [if_neg hz, if_pos (by omega), Nat.toList_repr]
    have habs : z.toNat = z.natAbs := by omega
    rw [habs]
    rfl

end Numeral

/-! ## Contents -/

/-- Contents name a process if they encode a numeral with white space around it, or a text that
starts with a numeral that exceeds 64 bits. -/
theorem ofBytes?_eq_some_iff {contents : Bytes} {n : Int} :
    ofBytes? contents = some n ↔
      ∃ (text : List Char) (numeral : Numeral) (rest : List Char), contents = Utf8.encode text ∧
        Text.trim text = numeral.text ++ rest ∧ n = clamp numeral.value ∧
        (rest = [] ∨ Exceeds numeral.value) := by
  unfold ofBytes?
  simp only [Option.bind_eq_some_iff, Utf8.decode?_eq_some_iff, ofText?_eq_some_iff]
  constructor
  · rintro ⟨text, hcontents, numeral, rest, htrim, hn, hrest⟩
    exact ⟨text, numeral, rest, hcontents, htrim, hn, hrest⟩
  · rintro ⟨text, numeral, rest, hcontents, htrim, hn, hrest⟩
    exact ⟨text, hcontents, numeral, rest, htrim, hn, hrest⟩

/-- A numeral with white space around it names its value, within 64 bits. -/
theorem ofBytes?_numeral {before after : List Char} (numeral : Numeral)
    (hbefore : ∀ c ∈ before, Text.isBlank c = true)
    (hafter : ∀ c ∈ after, Text.isBlank c = true) :
    ofBytes? (Utf8.encode (before ++ numeral.text ++ after)) = some (clamp numeral.value) := by
  rw [ofBytes?_eq_some_iff]
  refine ⟨_, numeral, [], rfl, ?_, rfl, .inl rfl⟩
  rw [Text.trim_append hbefore numeral.bare hafter, List.append_nil]

/-- Contents name numbers of 64 bits only. -/
theorem mem_of_ofBytes? {contents : Bytes} {n : Int} (hn : ofBytes? contents = some n) :
    least ≤ n ∧ n ≤ greatest := by
  obtain ⟨_, numeral, _, _, _, rfl, _⟩ := ofBytes?_eq_some_iff.mp hn
  exact ⟨least_le_clamp _, clamp_le_greatest _⟩

/-- A number as programs write it into a lock file: filled up with spaces or with zeros, and with a
line end. -/
def padded (spaces zeros : Nat) (z : Int) : List Char :=
  List.replicate spaces ' ' ++ (Numeral.ofInt zeros z).text ++ ['\n']

/-- A number of 64 bits is read back from what programs write for it, with spaces or zeros. -/
theorem ofBytes?_padded (spaces zeros : Nat) {z : Int} (hleast : least ≤ z)
    (hgreatest : z ≤ greatest) : ofBytes? (Utf8.encode (padded spaces zeros z)) = some z := by
  have hspaces : ∀ c ∈ List.replicate spaces ' ', Text.isBlank c = true := by
    intro c hc
    rw [List.eq_of_mem_replicate hc]
    rfl
  have hend : ∀ c ∈ ['\n'], Text.isBlank c = true := by simp [Text.isBlank]
  unfold padded
  rw [ofBytes?_numeral _ hspaces hend, Numeral.value_ofInt, clamp_of_mem hleast hgreatest]

end SerialLock.Pid
