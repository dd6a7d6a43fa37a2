import SerialLock.Proofs.Text.Utf8

/-!
# ASCII characters in encoded texts

A byte below 0x80 stands in an encoded text where the character with its number stands in the text
(`mem_encode_iff`, `getLast?_encode_iff`), because every byte of a longer character is at least
0x80.
-/

set_option autoImplicit false

namespace SerialLock.Utf8

variable {b : UInt8} {text : List Char}

/-- The empty text is encoded by no bytes. -/
@[simp] theorem encode_nil : encode [] = [] := rfl

/-- Texts one after the other are encoded one after the other. -/
theorem encode_append (text more : List Char) :
    encode (text ++ more) = encode text ++ encode more := by
  unfold encode
  rw [List.flatMap_append]

/-- A text is known by its encoding. -/
theorem encode_injective {text text' : List Char} (hencode : encode text = encode text') :
    text = text' := by
  have hdecode := decode?_eq_some_iff.mpr hencode
  have hdecode' := decode?_eq_some_iff.mpr (rfl : encode text = encode text)
  rw [hdecode'] at hdecode
  exact Option.some.inj hdecode

/-- A character has one byte at least. -/
theorem encodeChar_ne_nil (c : Char) : String.utf8EncodeChar c ≠ [] := by
  intro hnil
  have hlength := congrArg List.length hnil
  have hpositive := c.utf8Size_pos
  rw [String.length_utf8EncodeChar, List.length_nil] at hlength
  omega

/-- No text but the empty one is encoded by no bytes. -/
theorem encode_eq_nil_iff : encode text = [] ↔ text = [] := by
  constructor
  · intro hnil
    exact encode_injective hnil
  · rintro rfl
    rfl

/-- All bytes of a character beyond ASCII are at least 0x80. -/
theorem le_of_mem_encodeChar {c : Char} (hc : 0x80 ≤ c.toNat) (hb : b ∈ String.utf8EncodeChar c) :
    0x80 ≤ b.toNat := by
  have hvalid := toNat_valid c
  rw [encodeChar_eq, if_neg (by omega)] at hb
  have hbyte {n : Nat} (hn : n < 256) (hlow : 0x80 ≤ n) : 0x80 ≤ (UInt8.ofNat n).toNat := by
    rw [toNat_byte hn]
    exact hlow
  split at hb
  · simp only [List.mem_cons, List.not_mem_nil, or_false] at hb
    rcases hb with rfl | rfl
    · exact hbyte (by omega) (by omega)
    · exact hbyte (by omega) (by omega)
  · split at hb
    · simp only [List.mem_cons, List.not_mem_nil, or_false] at hb
      rcases hb with rfl | rfl | rfl
      · exact hbyte (by omega) (by omega)
      · exact hbyte (by omega) (by omega)
      · exact hbyte (by omega) (by omega)
    · simp only [List.mem_cons, List.not_mem_nil, or_false] at hb
      rcases hb with rfl | rfl | rfl | rfl
      · exact hbyte (by omega) (by omega)
      · exact hbyte (by omega) (by omega)
      · exact hbyte (by omega) (by omega)
      · exact hbyte (by omega) (by omega)

/-- The only ASCII byte of a character is its number. -/
theorem mem_encodeChar_iff (hb : b.toNat < 0x80) {c : Char} :
    b ∈ String.utf8EncodeChar c ↔ c = Char.ofNat b.toNat := by
  constructor
  · intro hmem
    have hc : c.toNat ≤ 0x7F := by
      by_cases hlarge : 0x80 ≤ c.toNat
      · have hle := le_of_mem_encodeChar hlarge hmem
        omega
      · omega
    rw [encodeChar_eq, if_pos hc, List.mem_singleton] at hmem
    rw [hmem, toNat_byte (by omega), Char.ofNat_toNat]
  · rintro rfl
    have hnumber : (Char.ofNat b.toNat).toNat = b.toNat := toNat_ofNat_of_valid (by omega)
    rw [encodeChar_eq, hnumber, if_pos (by omega), byte_eq rfl]
    exact List.mem_singleton_self b

/-- An ASCII byte stands in an encoded text exactly if its character stands in the text. -/
theorem mem_encode_iff (hb : b.toNat < 0x80) : b ∈ encode text ↔ Char.ofNat b.toNat ∈ text := by
  unfold encode
  rw [List.mem_flatMap]
  constructor
  · rintro ⟨c, hc, hmem⟩
    rw [(mem_encodeChar_iff hb).mp hmem] at hc
    exact hc
  · intro hc
    exact ⟨_, hc, (mem_encodeChar_iff hb).mpr rfl⟩

/-- An ASCII byte ends an encoded text exactly if its character ends the text. -/
theorem getLast?_encode_iff (hb : b.toNat < 0x80) :
    (encode text).getLast? = some b ↔ text.getLast? = some (Char.ofNat b.toNat) := by
  rcases List.eq_nil_or_concat text with rfl | ⟨init, c, rfl⟩
  · simp
  · have hlast : (encode (init.concat c)).getLast? = (String.utf8EncodeChar c).getLast? := by
      rw [List.concat_eq_append, encode_append, encode_cons, encode_nil, List.append_nil,
        List.getLast?_append, List.getLast?_eq_some_getLast (encodeChar_ne_nil c), Option.some_or]
    rw [hlast, List.concat_eq_append, List.getLast?_concat, Option.some.injEq]
    constructor
    · intro hmem
      exact (mem_encodeChar_iff hb).mp (List.mem_of_getLast? hmem)
    · intro hc
      have hnumber : c.toNat = b.toNat := by rw [hc, toNat_ofNat_of_valid (by omega)]
      rw [encodeChar_eq, if_pos (by omega), List.getLast?_singleton, hnumber, byte_eq rfl]

end SerialLock.Utf8
