import ClassInspect.Proofs.Text.ModifiedUtf8

/-!
# UTF-8 undone

Characters written in UTF-8 are decoded to themselves (`Utf8.decodeFrom_encode`). Every character is
one sequence, which is read back as the character whatever follows it (`Utf8.strict_encodeChar`).

There are four cases, by the number of bytes, and `Utf8.encodeChar_cases` says for each what the
bytes are as numbers, so that the rest is arithmetic. No character is a surrogate, so decoding
proper and decoding that lets surrogates pass agree on what is written here, and sequences of up to
three bytes are known from there. Those of four are not, as no text of a class file is written with
them.

The first bytes at the edges of the range narrow what may follow them, against sequences that are
too long, surrogates, and numbers past the last character. What a character is written as never
comes near: this is where the size of the character is used.
-/

namespace ClassInspect

/-- The code point of a character's number is the character. -/
theorem CodePoint.ofNat_toNat (c : Char) : ofNat c.toNat = char c := by
  have hvalid : c.toNat.isValidChar := c.valid
  rw [ofNat, dif_pos hvalid]
  rfl

namespace Utf8

/-- Characters in UTF-8. -/
def encode (chars : List Char) : Bytes :=
  chars.flatMap String.utf8EncodeChar

/-- A byte by itself. -/
theorem strict_one {b : UInt8} (h : b.toNat < 0x80) (rest : Bytes) :
    strict b rest = .ok (.ofNat b.toNat, rest) := by
  have hne : b ≠ 0xED := by
    rintro rfl
    exact absurd h (by decide)
  rw [← lenient_of_ne hne, lenient_one h]

/-- A sequence of two bytes. -/
theorem strict_two {a b : UInt8} (ha : 0xC2 ≤ a.toNat ∧ a.toNat < 0xE0) (hb : IsTail b)
    (rest : Bytes) :
    strict a (b :: rest) = .ok (.ofNat (a.toNat % 32 * 64 + b.toNat % 64), rest) := by
  have hne : a ≠ 0xED := by
    rintro rfl
    exact absurd ha (by decide)
  rw [← lenient_of_ne hne, lenient_two ha hb]

/-- A sequence of three bytes that is no surrogate. -/
theorem strict_three {a b c : UInt8} (ha : 0xE0 ≤ a.toNat ∧ a.toNat < 0xF0) (hb : IsTail b)
    (hc : IsTail c) (hlong : a = 0xE0 → 0xA0 ≤ b) (hplain : a = 0xED → ¬ 0xA0 ≤ b)
    (rest : Bytes) :
    strict a (b :: c :: rest) =
      .ok (.ofNat ((a.toNat % 16 * 64 + b.toNat % 64) * 64 + c.toNat % 64), rest) := by
  have hsame : lenient a (b :: c :: rest) = strict a (b :: c :: rest) := by
    rw [lenient, if_neg fun hsurrogate ↦ hplain hsurrogate.1 hsurrogate.2.1]
  rw [← hsame, lenient_three ha hb hc hlong]

/-- The first bytes of sequences of four. Two of them narrow the range of what follows. -/
theorem lead?_four {b : UInt8} (h : 0xF0 ≤ b.toNat ∧ b.toNat < 0xF5) :
    lead? b = some ⟨b.toNat % 8, 3, if b = 0xF0 then 0x90 else 0x80,
      if b = 0xF4 then 0x8F else 0xBF⟩ := by
  have hne (d : UInt8) (hd : d.toNat < 0xF0) : b ≠ d := by
    rintro rfl
    omega
  simp only [lead?, UInt8.lt_iff_toNat_lt, UInt8.reduceToNat]
  rw [if_neg (by omega), if_neg (by omega), if_neg (by omega), if_neg (hne _ (by decide)),
    if_neg (hne _ (by decide)), if_neg (by omega)]
  by_cases hlow : b = 0xF0
  · rw [if_pos hlow, hlow]
    rfl
  · by_cases hhigh : b = 0xF4
    · rw [if_neg hlow, hhigh]
      rfl
    · have hlt : b.toNat < 244 := by
        have hval : b.toNat ≠ 244 := fun heq ↦ hhigh (UInt8.toNat_inj.1 heq)
        omega
      rw [if_neg hlow, if_pos hlt, if_neg hlow, if_neg hhigh]

/-- A sequence of four bytes. -/
theorem strict_four {a b c d : UInt8} (ha : 0xF0 ≤ a.toNat ∧ a.toNat < 0xF5) (hb : IsTail b)
    (hc : IsTail c) (hd : IsTail d) (hlong : a = 0xF0 → 0x90 ≤ b) (hsmall : a = 0xF4 → b ≤ 0x8F)
    (rest : Bytes) :
    strict a (b :: c :: d :: rest) =
      .ok (.ofNat (((a.toNat % 8 * 64 + b.toNat % 64) * 64 + c.toNat % 64) * 64 + d.toNat % 64),
        rest) := by
  have hrange : (if a = 0xF0 then 0x90 else 0x80 : UInt8) ≤ b ∧
      b ≤ (if a = 0xF4 then 0x8F else 0xBF : UInt8) := by
    constructor
    · split
      · exact hlong ‹a = 0xF0›
      · exact hb.range.1
    · split
      · exact hsmall ‹a = 0xF4›
      · exact hb.range.2
  rw [strict, lead?_four ha]
  dsimp only
  rw [tails_cons hrange, tails_cons hc.range, tails_cons hd.range]
  rfl

/-- The bytes of a character, by their numbers. -/
theorem encodeChar_cases (c : Char) :
    (∃ a : UInt8, String.utf8EncodeChar c = [a] ∧ a.toNat = c.toNat ∧ c.toNat < 0x80) ∨
    (∃ a b : UInt8, String.utf8EncodeChar c = [a, b] ∧ a.toNat = 0xC0 + c.toNat / 64 ∧
      b.toNat = 0x80 + c.toNat % 64 ∧ 0x80 ≤ c.toNat ∧ c.toNat < 0x800) ∨
    (∃ a b d : UInt8, String.utf8EncodeChar c = [a, b, d] ∧ a.toNat = 0xE0 + c.toNat / 4096 ∧
      b.toNat = 0x80 + c.toNat / 64 % 64 ∧ d.toNat = 0x80 + c.toNat % 64 ∧
      0x800 ≤ c.toNat ∧ c.toNat < 0x10000) ∨
    (∃ a b d e : UInt8, String.utf8EncodeChar c = [a, b, d, e] ∧
      a.toNat = 0xF0 + c.toNat / 262144 ∧ b.toNat = 0x80 + c.toNat / 4096 % 64 ∧
      d.toNat = 0x80 + c.toNat / 64 % 64 ∧ e.toNat = 0x80 + c.toNat % 64 ∧
      0x10000 ≤ c.toNat ∧ c.toNat < 0x110000) := by
  -- the definition, with all its numbers written as natural numbers
  have hbytes : String.utf8EncodeChar c =
      if c.toNat ≤ 0x7F then [.ofNat c.toNat]
      else if c.toNat ≤ 0x7FF then
        [.ofNat (c.toNat / 64 % 32 + 0xC0), .ofNat (c.toNat % 64 + 0x80)]
      else if c.toNat ≤ 0xFFFF then
        [.ofNat (c.toNat / 4096 % 16 + 0xE0), .ofNat (c.toNat / 64 % 64 + 0x80),
          .ofNat (c.toNat % 64 + 0x80)]
      else
        [.ofNat (c.toNat / 262144 % 8 + 0xF0), .ofNat (c.toNat / 4096 % 64 + 0x80),
          .ofNat (c.toNat / 64 % 64 + 0x80), .ofNat (c.toNat % 64 + 0x80)] := rfl
  have hbyte {n m : Nat} (h : n = m) (hm : m < 0x100) : (UInt8.ofNat n).toNat = m :=
    h ▸ UInt8.toNat_ofNat_of_lt' (h ▸ hm)
  have hvalid : c.toNat.isValidChar := c.valid
  simp only [Nat.isValidChar] at hvalid
  rw [hbytes]
  split
  · exact .inl ⟨_, rfl, hbyte rfl (by omega), by omega⟩
  · split
    · exact .inr (.inl ⟨_, _, rfl, hbyte (by omega) (by omega), hbyte (by omega) (by omega),
        by omega, by omega⟩)
    · split
      · exact .inr (.inr (.inl ⟨_, _, _, rfl, hbyte (by omega) (by omega),
          hbyte (by omega) (by omega), hbyte (by omega) (by omega), by omega, by omega⟩))
      · exact .inr (.inr (.inr ⟨_, _, _, _, rfl, hbyte (by omega) (by omega),
          hbyte (by omega) (by omega), hbyte (by omega) (by omega), hbyte (by omega) (by omega),
          by omega, by omega⟩))

/-- Every character is one sequence, which is read back as the character. -/
theorem strict_encodeChar (c : Char) :
    ∃ b tail, String.utf8EncodeChar c = b :: tail ∧
      ∀ rest, strict b (tail ++ rest) = .ok (.char c, rest) := by
  rw [← CodePoint.ofNat_toNat c]
  obtain ⟨a, hbytes, ha, hsize⟩ | ⟨a, b, hbytes, ha, hb, hsize⟩ |
    ⟨a, b, d, hbytes, ha, hb, hd, hsize⟩ | ⟨a, b, d, e, hbytes, ha, hb, hd, he, hsize⟩ :=
    encodeChar_cases c
  · rw [← ha]
    exact ⟨a, [], hbytes, strict_one (by omega)⟩
  · have hvalue : a.toNat % 32 * 64 + b.toNat % 64 = c.toNat := by omega
    rw [← hvalue]
    exact ⟨a, [b], hbytes, strict_two (by omega) ⟨by omega, by omega⟩⟩
  · -- a character is not too small for three bytes, and it is no surrogate
    have hvalue : (a.toNat % 16 * 64 + b.toNat % 64) * 64 + d.toNat % 64 = c.toNat := by omega
    have hvalid : c.toNat.isValidChar := c.valid
    simp only [Nat.isValidChar] at hvalid
    have hlong : a = 0xE0 → 0xA0 ≤ b := by
      rintro rfl
      simp only [UInt8.le_iff_toNat_le, UInt8.reduceToNat] at ha ⊢
      omega
    have hplain : a = 0xED → ¬ 0xA0 ≤ b := by
      rintro rfl
      simp only [UInt8.le_iff_toNat_le, UInt8.reduceToNat] at ha ⊢
      omega
    rw [← hvalue]
    exact ⟨a, [b, d], hbytes,
      strict_three (by omega) ⟨by omega, by omega⟩ ⟨by omega, by omega⟩ hlong hplain⟩
  · -- nor for four, and it is not past the last character
    have hvalue : ((a.toNat % 8 * 64 + b.toNat % 64) * 64 + d.toNat % 64) * 64 + e.toNat % 64 =
        c.toNat := by omega
    have hlong : a = 0xF0 → 0x90 ≤ b := by
      rintro rfl
      simp only [UInt8.le_iff_toNat_le, UInt8.reduceToNat] at ha ⊢
      omega
    have hsmall : a = 0xF4 → b ≤ 0x8F := by
      rintro rfl
      simp only [UInt8.le_iff_toNat_le, UInt8.reduceToNat] at ha ⊢
      omega
    rw [← hvalue]
    exact ⟨a, [b, d, e], hbytes, strict_four (by omega) ⟨by omega, by omega⟩
      ⟨by omega, by omega⟩ ⟨by omega, by omega⟩ hlong hsmall⟩

/-- Decoding undoes encoding. -/
theorem decodeFrom_encode (chars : List Char) :
    decodeFrom .strict 0 [] (encode chars) = .ok (chars.map .char) :=
  mapError_eq_ok_iff.1 (decode_flatMap strict_encodeChar chars)

end Utf8

end ClassInspect
