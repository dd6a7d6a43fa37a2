import SerialLock.Text.Utf8

/-!
# Decoding is the inverse of encoding

The decoder accepts exactly the strings of bytes that encode a text, and yields that text
(`decode?_eq_some_iff`).  What it knows of a character between two bytes is read off the first byte
(`opening?_eq`), and the bounds on the second byte keep out overlong forms, surrogates and numbers
beyond the last character.
-/

set_option autoImplicit false

namespace SerialLock.Utf8

/-! ## One byte -/

/-- What a first byte says about the character, by its number. -/
theorem opening?_eq (b : UInt8) :
    opening? b =
      if 0xC2 ≤ b.toNat ∧ b.toNat ≤ 0xDF then some (.within 0 0x80 0xBF (b.toNat % 32))
      else if b.toNat = 0xE0 then some (.within 1 0xA0 0xBF (b.toNat % 16))
      else if b.toNat = 0xED then some (.within 1 0x80 0x9F (b.toNat % 16))
      else if 0xE1 ≤ b.toNat ∧ b.toNat ≤ 0xEF then some (.within 1 0x80 0xBF (b.toNat % 16))
      else if b.toNat = 0xF0 then some (.within 2 0x90 0xBF (b.toNat % 8))
      else if 0xF1 ≤ b.toNat ∧ b.toNat ≤ 0xF3 then some (.within 2 0x80 0xBF (b.toNat % 8))
      else if b.toNat = 0xF4 then some (.within 2 0x80 0x8F (b.toNat % 8))
      else none := by
  have hfive : (b &&& 0x1F).toNat = b.toNat % 32 := Nat.and_two_pow_sub_one_eq_mod b.toNat 5
  have hfour : (b &&& 0x0F).toNat = b.toNat % 16 := Nat.and_two_pow_sub_one_eq_mod b.toNat 4
  have hthree : (b &&& 0x07).toNat = b.toNat % 8 := Nat.and_two_pow_sub_one_eq_mod b.toNat 3
  unfold opening?
  simp only [hfive, hfour, hthree, Bool.and_eq_true, decide_eq_true_eq, UInt8.le_iff_toNat_le,
    beq_iff_eq, ← UInt8.toNat_inj]
  rfl

/-- A byte that opens a character of several bytes completes none. -/
theorem lead_of_opening {b : UInt8} {state : State} (hopening : opening? b = some state) :
    lead b = (state, []) := by
  have hhigh : ¬b < 0x80 := by
    rw [UInt8.lt_iff_toNat_lt]
    intro hlow
    have hlow' : b.toNat < 0x80 := hlow
    rw [opening?_eq] at hopening
    repeat rw [if_neg (by omega)] at hopening
    cases hopening
  unfold lead
  rw [if_neg hhigh, hopening]

/-- A byte below 128 is a character of its own. -/
theorem lead_of_lt {b : UInt8} (hlow : b.toNat < 0x80) :
    lead b = (.between, [some (Char.ofNat b.toNat)]) := by
  unfold lead
  rw [if_pos (UInt8.lt_iff_toNat_lt.mpr hlow)]

/-- A byte in the range that a character needs adds its last six bits. -/
theorem step_within {more : Nat} {low high : UInt8} (bits : Nat) {b : UInt8}
    (hlow : low.toNat ≤ b.toNat) (hhigh : b.toNat ≤ high.toNat) :
    step (.within more low high bits) b =
      match more with
      | 0 => (.between, [some (Char.ofNat (bits * 64 + b.toNat % 64))])
      | more + 1 => (.within more 0x80 0xBF (bits * 64 + b.toNat % 64), []) := by
  have hsix : (b &&& 0x3F).toNat = b.toNat % 64 := Nat.and_two_pow_sub_one_eq_mod b.toNat 6
  have hrange : (low ≤ b && b ≤ high) = true := by
    simp [UInt8.le_iff_toNat_le, hlow, hhigh]
  cases more with
  | zero => simp only [step, hrange, hsix, if_true]
  | succ more => simp only [step, hrange, hsix, if_true]

/-! ## One character -/

/-- A byte below 128 is decoded at once. -/
theorem pieces_one {b : UInt8} (hb : b.toNat < 0x80) (rest : Bytes) :
    pieces .between (b :: rest) = some (Char.ofNat b.toNat) :: pieces .between rest := by
  rw [pieces, step, lead_of_lt hb]
  rfl

/-- A byte that opens a character is decoded with those behind it. -/
theorem pieces_opening {b : UInt8} {state : State} (hopening : opening? b = some state)
    (rest : Bytes) : pieces .between (b :: rest) = pieces state rest := by
  rw [pieces, step, lead_of_opening hopening]
  rfl

/-- The last byte of a character completes it. -/
theorem pieces_last {low high : UInt8} (bits : Nat) {b : UInt8} (hlow : low.toNat ≤ b.toNat)
    (hhigh : b.toNat ≤ high.toNat) (rest : Bytes) :
    pieces (.within 0 low high bits) (b :: rest) =
      some (Char.ofNat (bits * 64 + b.toNat % 64)) :: pieces .between rest := by
  rw [pieces, step_within bits hlow hhigh]
  rfl

/-- A byte in the midst of a character adds its bits. -/
theorem pieces_more {more : Nat} {low high : UInt8} (bits : Nat) {b : UInt8}
    (hlow : low.toNat ≤ b.toNat) (hhigh : b.toNat ≤ high.toNat) (rest : Bytes) :
    pieces (.within (more + 1) low high bits) (b :: rest) =
      pieces (.within more 0x80 0xBF (bits * 64 + b.toNat % 64)) rest := by
  rw [pieces, step_within bits hlow hhigh]
  rfl

/-- A number below 256 is that of its byte. -/
theorem toNat_byte {n : Nat} (hn : n < 256) : (UInt8.ofNat n).toNat = n := by
  rw [UInt8.toNat_ofNat']
  omega

/-- The number of a character is no surrogate and not beyond the last. -/
theorem toNat_valid (c : Char) :
    c.toNat < 0xD800 ∨ (0xDFFF < c.toNat ∧ c.toNat < 0x110000) :=
  c.valid

/-- The first of two bytes leaves room for the second. -/
theorem opening_two {n : Nat} (hlow : 0x7F < n) (hhigh : n ≤ 0x7FF) :
    opening? (UInt8.ofNat (n / 64 + 0xC0)) = some (.within 0 0x80 0xBF (n / 64)) := by
  rw [opening?_eq, toNat_byte (by omega), if_pos (by omega)]
  congr 2
  omega

/-- The first of three bytes leaves room for the second. -/
theorem opening_three {n : Nat} (hlow : 0x7FF < n) (hhigh : n ≤ 0xFFFF)
    (hvalid : n < 0xD800 ∨ 0xDFFF < n) :
    ∃ low high : UInt8, opening? (UInt8.ofNat (n / 4096 + 0xE0)) =
        some (.within 1 low high (n / 4096)) ∧
      low.toNat ≤ n / 64 % 64 + 0x80 ∧ n / 64 % 64 + 0x80 ≤ high.toNat := by
  have hbits : (n / 4096 + 0xE0) % 16 = n / 4096 := by omega
  rw [opening?_eq, toNat_byte (by omega), hbits, if_neg (by omega)]
  by_cases hzero : n / 4096 = 0
  · rw [if_pos (by omega)]
    refine ⟨0xA0, 0xBF, rfl, ?_, ?_⟩
    · show 0xA0 ≤ _
      omega
    · show _ ≤ 0xBF
      omega
  rw [if_neg (by omega)]
  by_cases hthirteen : n / 4096 = 13
  · -- the numbers from D800 on are surrogates
    rw [if_pos (by omega)]
    refine ⟨0x80, 0x9F, rfl, ?_, ?_⟩
    · show 0x80 ≤ _
      omega
    · show _ ≤ 0x9F
      omega
  rw [if_neg (by omega), if_pos (by omega)]
  refine ⟨0x80, 0xBF, rfl, ?_, ?_⟩
  · show 0x80 ≤ _
    omega
  · show _ ≤ 0xBF
    omega

/-- The first of four bytes leaves room for the second. -/
theorem opening_four {n : Nat} (hlow : 0xFFFF < n) (hhigh : n < 0x110000) :
    ∃ low high : UInt8, opening? (UInt8.ofNat (n / 262144 + 0xF0)) =
        some (.within 2 low high (n / 262144)) ∧
      low.toNat ≤ n / 4096 % 64 + 0x80 ∧ n / 4096 % 64 + 0x80 ≤ high.toNat := by
  have hbits : (n / 262144 + 0xF0) % 8 = n / 262144 := by omega
  rw [opening?_eq, toNat_byte (by omega), hbits, if_neg (by omega), if_neg (by omega),
    if_neg (by omega), if_neg (by omega)]
  by_cases hzero : n / 262144 = 0
  · rw [if_pos (by omega)]
    refine ⟨0x90, 0xBF, rfl, ?_, ?_⟩
    · show 0x90 ≤ _
      omega
    · show _ ≤ 0xBF
      omega
  rw [if_neg (by omega)]
  by_cases hfour : n / 262144 = 4
  · -- no character is beyond 10FFFF
    rw [if_neg (by omega), if_pos (by omega)]
    refine ⟨0x80, 0x8F, rfl, ?_, ?_⟩
    · show 0x80 ≤ _
      omega
    · show _ ≤ 0x8F
      omega
  rw [if_pos (by omega)]
  refine ⟨0x80, 0xBF, rfl, ?_, ?_⟩
  · show 0x80 ≤ _
    omega
  · show _ ≤ 0xBF
    omega

/-- The bytes of a character, by its number. -/
theorem encodeChar_eq (c : Char) :
    String.utf8EncodeChar c =
      if c.toNat ≤ 0x7F then [UInt8.ofNat c.toNat]
      else if c.toNat ≤ 0x7FF then
        [UInt8.ofNat (c.toNat / 64 + 0xC0), UInt8.ofNat (c.toNat % 64 + 0x80)]
      else if c.toNat ≤ 0xFFFF then
        [UInt8.ofNat (c.toNat / 4096 + 0xE0), UInt8.ofNat (c.toNat / 64 % 64 + 0x80),
          UInt8.ofNat (c.toNat % 64 + 0x80)]
      else
        [UInt8.ofNat (c.toNat / 262144 + 0xF0), UInt8.ofNat (c.toNat / 4096 % 64 + 0x80),
          UInt8.ofNat (c.toNat / 64 % 64 + 0x80), UInt8.ofNat (c.toNat % 64 + 0x80)] := by
  have hvalid := toNat_valid c
  unfold String.utf8EncodeChar
  simp only [show c.val.toNat = c.toNat from rfl]
  generalize c.toNat = n at hvalid
  by_cases hone : n ≤ 0x7F
  · rw [if_pos hone, if_pos hone]
  rw [if_neg hone, if_neg hone]
  by_cases htwo : n ≤ 0x7FF
  · rw [if_pos htwo, if_pos htwo, Nat.mod_eq_of_lt (by omega : n / 64 < 32)]
  rw [if_neg htwo, if_neg htwo]
  by_cases hthree : n ≤ 0xFFFF
  · rw [if_pos hthree, if_pos hthree, Nat.mod_eq_of_lt (by omega : n / 4096 < 16)]
  · rw [if_neg hthree, if_neg hthree, Nat.mod_eq_of_lt (by omega : n / 262144 < 8)]

/-- The decoder finds the character that an encoded text starts with. -/
theorem pieces_encodeChar (c : Char) (rest : Bytes) :
    pieces .between (String.utf8EncodeChar c ++ rest) = some c :: pieces .between rest := by
  have hvalid := toNat_valid c
  have hc : Char.ofNat c.toNat = c := Char.ofNat_toNat c
  rw [encodeChar_eq]
  generalize c.toNat = n at hvalid hc
  -- each byte behind the first holds six bits, from the greatest down
  have hsix (m : Nat) : (UInt8.ofNat (m % 64 + 0x80)).toNat = m % 64 + 0x80 :=
    toNat_byte (by omega)
  have hlow : (0x80 : UInt8).toNat = 0x80 := rfl
  have hhigh : (0xBF : UInt8).toNat = 0xBF := rfl
  by_cases hone : n ≤ 0x7F
  · rw [if_pos hone, List.cons_append, List.nil_append,
      pieces_one (by rw [toNat_byte (by omega)]; omega), toNat_byte (by omega), hc]
  rw [if_neg hone]
  by_cases htwo : n ≤ 0x7FF
  · have hbits : n / 64 * 64 + (n % 64 + 0x80) % 64 = n := by omega
    rw [if_pos htwo, List.cons_append, List.cons_append, List.nil_append,
      pieces_opening (opening_two (by omega) htwo), pieces_last _ (by rw [hsix]; omega)
        (by rw [hsix]; omega), hsix, hbits, hc]
  rw [if_neg htwo]
  by_cases hthree : n ≤ 0xFFFF
  · obtain ⟨low, high, hopening, hsecond, hsecond'⟩ :=
      opening_three (by omega) hthree (by omega)
    have hbits : (n / 4096 * 64 + (n / 64 % 64 + 0x80) % 64) * 64 + (n % 64 + 0x80) % 64 = n := by
      omega
    rw [if_pos hthree]
    simp only [List.cons_append, List.nil_append]
    rw [pieces_opening hopening, pieces_more _ (by rw [hsix]; omega) (by rw [hsix]; omega),
      pieces_last _ (by rw [hsix]; omega) (by rw [hsix]; omega), hsix, hsix, hbits, hc]
  · obtain ⟨low, high, hopening, hsecond, hsecond'⟩ := opening_four (n := n) (by omega) (by omega)
    have hbits : ((n / 262144 * 64 + (n / 4096 % 64 + 0x80) % 64) * 64 +
        (n / 64 % 64 + 0x80) % 64) * 64 + (n % 64 + 0x80) % 64 = n := by
      omega
    rw [if_neg hthree]
    simp only [List.cons_append, List.nil_append]
    rw [pieces_opening hopening, pieces_more _ (by rw [hsix]; omega) (by rw [hsix]; omega),
      pieces_more _ (by rw [hsix]; omega) (by rw [hsix]; omega),
      pieces_last _ (by rw [hsix]; omega) (by rw [hsix]; omega), hsix, hsix, hsix, hbits, hc]

/-! ## Only encoded texts are accepted -/

/-- A valid number is that of its character. -/
theorem toNat_ofNat_of_valid {n : Nat} (hvalid : n < 0xD800 ∨ (0xDFFF < n ∧ n < 0x110000)) :
    (Char.ofNat n).toNat = n := by
  unfold Char.ofNat
  rw [dif_pos (show n.isValidChar from hvalid)]
  rfl

/-- A byte is known by its number. -/
theorem byte_eq {b : UInt8} {n : Nat} (hn : n = b.toNat) : UInt8.ofNat n = b := by
  rw [hn, UInt8.ofNat_toNat]

/-- The first byte of a longer character says how many others follow, and bounds the second. -/
theorem opening?_cases {b : UInt8} {state : State} (hopening : opening? b = some state) :
    (0xC2 ≤ b.toNat ∧ b.toNat ≤ 0xDF ∧ state = .within 0 0x80 0xBF (b.toNat % 32)) ∨
      (∃ low high : UInt8, 0xE0 ≤ b.toNat ∧ b.toNat ≤ 0xEF ∧
        state = .within 1 low high (b.toNat % 16) ∧ 0x80 ≤ low.toNat ∧ high.toNat ≤ 0xBF ∧
        (b.toNat = 0xE0 → 0xA0 ≤ low.toNat) ∧ (b.toNat = 0xED → high.toNat ≤ 0x9F)) ∨
      ∃ low high : UInt8, 0xF0 ≤ b.toNat ∧ b.toNat ≤ 0xF4 ∧
        state = .within 2 low high (b.toNat % 8) ∧ 0x80 ≤ low.toNat ∧ high.toNat ≤ 0xBF ∧
        (b.toNat = 0xF0 → 0x90 ≤ low.toNat) ∧ (b.toNat = 0xF4 → high.toNat ≤ 0x8F) := by
  have h80 : (0x80 : UInt8).toNat = 0x80 := rfl
  have h8F : (0x8F : UInt8).toNat = 0x8F := rfl
  have h90 : (0x90 : UInt8).toNat = 0x90 := rfl
  have h9F : (0x9F : UInt8).toNat = 0x9F := rfl
  have hA0 : (0xA0 : UInt8).toNat = 0xA0 := rfl
  have hBF : (0xBF : UInt8).toNat = 0xBF := rfl
  rw [opening?_eq] at hopening
  split at hopening
  · cases hopening
    exact .inl ⟨by omega, by omega, rfl⟩
  right
  split at hopening
  · cases hopening
    exact .inl ⟨0xA0, 0xBF, by omega, by omega, rfl, by omega, by omega, by omega, by omega⟩
  split at hopening
  · cases hopening
    exact .inl ⟨0x80, 0x9F, by omega, by omega, rfl, by omega, by omega, by omega, by omega⟩
  split at hopening
  · cases hopening
    exact .inl ⟨0x80, 0xBF, by omega, by omega, rfl, by omega, by omega, by omega, by omega⟩
  right
  split at hopening
  · cases hopening
    exact ⟨0x90, 0xBF, by omega, by omega, rfl, by omega, by omega, by omega, by omega⟩
  split at hopening
  · cases hopening
    exact ⟨0x80, 0xBF, by omega, by omega, rfl, by omega, by omega, by omega, by omega⟩
  split at hopening
  · cases hopening
    exact ⟨0x80, 0x8F, by omega, by omega, rfl, by omega, by omega, by omega, by omega⟩
  · cases hopening

/-- Inside a character, the decoder goes on only if the next byte lies in the range. -/
theorem exists_byte_of_isSome {more : Nat} {low high : UInt8} {bits : Nat} {bytes : Bytes}
    (hsome : (pieces (.within more low high bits) bytes).all Option.isSome = true) :
    ∃ b rest, bytes = b :: rest ∧ low.toNat ≤ b.toNat ∧ b.toNat ≤ high.toNat := by
  cases bytes with
  | nil => simp [pieces] at hsome
  | cons b rest =>
      refine ⟨b, rest, rfl, ?_⟩
      by_cases hrange : (low ≤ b && b ≤ high) = true
      · simpa [UInt8.le_iff_toNat_le] using hrange
      · rw [pieces, step, if_neg hrange] at hsome
        simp at hsome

/-- Two bytes that go together encode the character of their bits. -/
theorem encodeChar_of_two {b x : UInt8} (hb : 0xC2 ≤ b.toNat ∧ b.toNat ≤ 0xDF)
    (hx : 0x80 ≤ x.toNat ∧ x.toNat ≤ 0xBF) :
    String.utf8EncodeChar (Char.ofNat (b.toNat % 32 * 64 + x.toNat % 64)) = [b, x] := by
  rw [encodeChar_eq, toNat_ofNat_of_valid (by omega), if_neg (by omega), if_pos (by omega),
    byte_eq (b := b) (by omega), byte_eq (b := x) (by omega)]

/-- Three bytes that go together encode the character of their bits, unless they are overlong or a
surrogate. -/
theorem encodeChar_of_three {b x y : UInt8} (hb : 0xE0 ≤ b.toNat ∧ b.toNat ≤ 0xEF)
    (hx : 0x80 ≤ x.toNat ∧ x.toNat ≤ 0xBF) (hoverlong : b.toNat = 0xE0 → 0xA0 ≤ x.toNat)
    (hsurrogate : b.toNat = 0xED → x.toNat ≤ 0x9F) (hy : 0x80 ≤ y.toNat ∧ y.toNat ≤ 0xBF) :
    String.utf8EncodeChar (Char.ofNat ((b.toNat % 16 * 64 + x.toNat % 64) * 64 +
      y.toNat % 64)) = [b, x, y] := by
  rw [encodeChar_eq, toNat_ofNat_of_valid (by omega), if_neg (by omega), if_neg (by omega),
    if_pos (by omega), byte_eq (b := b) (by omega), byte_eq (b := x) (by omega),
    byte_eq (b := y) (by omega)]

/-- Four bytes that go together encode the character of their bits, unless they are overlong or
beyond the last character. -/
theorem encodeChar_of_four {b x y z : UInt8} (hb : 0xF0 ≤ b.toNat ∧ b.toNat ≤ 0xF4)
    (hx : 0x80 ≤ x.toNat ∧ x.toNat ≤ 0xBF) (hoverlong : b.toNat = 0xF0 → 0x90 ≤ x.toNat)
    (hbeyond : b.toNat = 0xF4 → x.toNat ≤ 0x8F) (hy : 0x80 ≤ y.toNat ∧ y.toNat ≤ 0xBF)
    (hz : 0x80 ≤ z.toNat ∧ z.toNat ≤ 0xBF) :
    String.utf8EncodeChar (Char.ofNat (((b.toNat % 8 * 64 + x.toNat % 64) * 64 +
      y.toNat % 64) * 64 + z.toNat % 64)) = [b, x, y, z] := by
  rw [encodeChar_eq, toNat_ofNat_of_valid (by omega), if_neg (by omega), if_neg (by omega),
    if_neg (by omega), byte_eq (b := b) (by omega), byte_eq (b := x) (by omega),
    byte_eq (b := y) (by omega), byte_eq (b := z) (by omega)]

/-- If the decoder makes characters of all bytes, they start with the bytes of a character. -/
theorem exists_char_of_isSome {b : UInt8} {bytes : Bytes}
    (hsome : (pieces .between (b :: bytes)).all Option.isSome = true) :
    ∃ c rest, b :: bytes = String.utf8EncodeChar c ++ rest := by
  have h80 : (0x80 : UInt8).toNat = 0x80 := rfl
  have hBF : (0xBF : UInt8).toNat = 0xBF := rfl
  by_cases hone : b.toNat < 0x80
  · refine ⟨Char.ofNat b.toNat, bytes, ?_⟩
    rw [encodeChar_eq, toNat_ofNat_of_valid (by omega), if_pos (by omega), byte_eq rfl]
    rfl
  cases hopening : opening? b with
  | none =>
      have hlead : lead b = (.between, [none]) := by
        unfold lead
        rw [if_neg fun h => hone (UInt8.lt_iff_toNat_lt.mp h), hopening]
      rw [pieces, step, hlead] at hsome
      simp at hsome
  | some state =>
      rw [pieces_opening hopening] at hsome
      obtain ⟨hb, hb', rfl⟩ | ⟨low, high, hb, hb', rfl, hlow, hhigh, hfirst, hlast⟩ |
        ⟨low, high, hb, hb', rfl, hlow, hhigh, hfirst, hlast⟩ := opening?_cases hopening
      · obtain ⟨x, rest, rfl, hx, hx'⟩ := exists_byte_of_isSome hsome
        have hchar := encodeChar_of_two (b := b) (x := x) ⟨hb, hb'⟩ ⟨by omega, by omega⟩
        exact ⟨_, rest, congrArg (· ++ rest) hchar.symm⟩
      · obtain ⟨x, rest, rfl, hx, hx'⟩ := exists_byte_of_isSome hsome
        rw [pieces_more _ hx hx'] at hsome
        obtain ⟨y, rest, rfl, hy, hy'⟩ := exists_byte_of_isSome hsome
        have hchar := encodeChar_of_three (b := b) (x := x) (y := y) ⟨hb, hb'⟩
          ⟨by omega, by omega⟩ (by omega) (by omega) ⟨by omega, by omega⟩
        exact ⟨_, rest, congrArg (· ++ rest) hchar.symm⟩
      · obtain ⟨x, rest, rfl, hx, hx'⟩ := exists_byte_of_isSome hsome
        rw [pieces_more _ hx hx'] at hsome
        obtain ⟨y, rest, rfl, hy, hy'⟩ := exists_byte_of_isSome hsome
        rw [pieces_more _ hy hy'] at hsome
        obtain ⟨z, rest, rfl, hz, hz'⟩ := exists_byte_of_isSome hsome
        have hchar := encodeChar_of_four (b := b) (x := x) (y := y) (z := z) ⟨hb, hb'⟩
          ⟨by omega, by omega⟩ (by omega) (by omega) ⟨by omega, by omega⟩ ⟨by omega, by omega⟩
        exact ⟨_, rest, congrArg (· ++ rest) hchar.symm⟩

/-! ## Texts -/

/-- The first character is encoded first. -/
theorem encode_cons (c : Char) (text : List Char) :
    encode (c :: text) = String.utf8EncodeChar c ++ encode text := rfl

/-- The decoder finds the characters of an encoded text. -/
theorem pieces_encode (text : List Char) : pieces .between (encode text) = text.map some := by
  induction text with
  | nil => rfl
  | cons c text ih => rw [encode_cons, pieces_encodeChar, ih, List.map_cons]

/-- If the decoder makes characters of all bytes, they encode a text. -/
theorem exists_text_of_isSome {bytes : Bytes}
    (hsome : (pieces .between bytes).all Option.isSome = true) : ∃ text, bytes = encode text := by
  -- the bytes after the first character are fewer
  generalize hlength : bytes.length = length
  induction length using Nat.strongRecOn generalizing bytes with
  | _ length ih =>
      cases bytes with
      | nil => exact ⟨[], rfl⟩
      | cons b bytes =>
          obtain ⟨c, rest, hbytes⟩ := exists_char_of_isSome hsome
          rw [hbytes, pieces_encodeChar] at hsome
          have hrest : (pieces .between rest).all Option.isSome = true := by simpa using hsome
          have hshorter : rest.length < length := by
            have hlengths := congrArg List.length hbytes
            have hpositive := c.utf8Size_pos
            rw [List.length_append, String.length_utf8EncodeChar] at hlengths
            omega
          obtain ⟨text, rfl⟩ := ih rest.length hshorter hrest rfl
          exact ⟨c :: text, hbytes⟩

/-- The bytes that a text is decoded from are those that it is encoded to. -/
theorem decode?_eq_some_iff {bytes : Bytes} {text : List Char} :
    decode? bytes = some text ↔ bytes = encode text := by
  have hencode (text : List Char) : decode? (encode text) = some text := by
    unfold decode?
    rw [pieces_encode]
    simp
  constructor
  · intro hdecode
    have hsome : (pieces .between bytes).all Option.isSome = true := by
      by_cases hsome : (pieces .between bytes).all Option.isSome = true
      · exact hsome
      · simp only [decode?, hsome] at hdecode
        cases hdecode
    obtain ⟨text', rfl⟩ := exists_text_of_isSome hsome
    rw [hencode] at hdecode
    rw [Option.some.inj hdecode]
  · rintro rfl
    exact hencode text

/-- A string is decoded from its bytes. -/
theorem decode?_ofString (text : String) : decode? (ofString text) = some text.toList :=
  decode?_eq_some_iff.mpr rfl

/-- What is shown of an encoded text is the text. -/
theorem display_encode (text : List Char) : display (encode text) = String.ofList text := by
  have hlossy : decodeLossy (encode text) = text := by
    unfold decodeLossy
    rw [pieces_encode, List.map_map]
    exact List.map_id text
  unfold display
  rw [hlossy]

/-- A string is shown as it is. -/
theorem display_ofString (text : String) : display (ofString text) = text := by
  unfold ofString
  rw [display_encode, String.ofList_toList]

end SerialLock.Utf8
