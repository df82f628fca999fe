import Mathlib.Data.List.Chain
import ClassInspect.Proofs.Outcome
import ClassInspect.Text.ModifiedUtf8

/-!
# Modified UTF-8 undone

The strings of a class file are sequences of 16-bit units, and `ModifiedUtf8.encode` writes each
unit on its own. Decoding what was written succeeds and gives the code points of the units
(`ModifiedUtf8.decode_encode`): every high surrogate with a low one right behind it is one
character beyond the 16-bit range, and all other units stand for themselves, so that no pair is
left in the text.

Decoding makes three passes, and each is followed on its own.

* The zeros are made plain. The byte that starts a written zero occurs nowhere else, so the pass
  goes through the units one by one (`plainZeros_encode`).
* The bytes are decoded with surrogates allowed. Each unit is one sequence, read back as the unit
  whatever follows (`lenient_plainUnit`).
* The text is written as UTF-16 and read back. Every code point has units, and units are whole when
  they are read back (`Utf16.ofBytes_flatMap`), so this pass cannot fail
  (`Utf16.exists_decode_encode`). Its effect is that pairs are joined (`toNat_join`).

So whatever keeps bytes from being decoded is that they are no UTF-8 (`exists_decode_iff`,
`exists_error_of_decode`).
-/

namespace ClassInspect

/-! ### Code points and their numbers -/

namespace CodePoint

/-- The number of a high surrogate, the first of a pair. -/
def IsHigh (number : Nat) : Prop :=
  0xD800 ≤ number ∧ number < 0xDC00

/-- The number of a low surrogate, the second of a pair. -/
def IsLow (number : Nat) : Prop :=
  0xDC00 ≤ number ∧ number < 0xE000

instance : DecidablePred IsHigh := fun _ ↦ inferInstanceAs (Decidable (_ ∧ _))

instance : DecidablePred IsLow := fun _ ↦ inferInstanceAs (Decidable (_ ∧ _))

/-- Every number of the code space is that of its code point. -/
theorem toNat_ofNat {number : Nat} (h : number < 0x110000) : (ofNat number).toNat = number := by
  by_cases hvalid : number.isValidChar
  · rw [ofNat, dif_pos hvalid]
    rfl
  · have hsurrogate : 0xD800 ≤ number ∧ number < 0xE000 := by
      simp only [Nat.isValidChar] at hvalid
      omega
    rw [ofNat, dif_neg hvalid, dif_pos hsurrogate]
    show 0xD800 + (number - 0xD800) = number
    omega

end CodePoint

/-! ### Sequences of UTF-8 -/

namespace Utf8

/-- A first byte below 80 is the whole sequence. -/
theorem lead?_one {b : UInt8} (h : b.toNat < 0x80) :
    lead? b = some ⟨b.toNat, 0, 0x80, 0xBF⟩ := by
  rw [lead?, if_pos (UInt8.lt_iff_toNat_lt.2 h)]

/-- The first bytes of sequences of two. -/
theorem lead?_two {b : UInt8} (h : 0xC2 ≤ b.toNat ∧ b.toNat < 0xE0) :
    lead? b = some ⟨b.toNat % 32, 1, 0x80, 0xBF⟩ := by
  simp only [lead?, UInt8.lt_iff_toNat_lt, UInt8.reduceToNat]
  rw [if_neg (by omega), if_neg (by omega), if_pos (by omega)]

/-- The first bytes of sequences of three. Two of them narrow the range of what follows. -/
theorem lead?_three {b : UInt8} (h : 0xE0 ≤ b.toNat ∧ b.toNat < 0xF0) :
    lead? b = some ⟨b.toNat % 16, 2, if b = 0xE0 then 0xA0 else 0x80,
      if b = 0xED then 0x9F else 0xBF⟩ := by
  simp only [lead?, UInt8.lt_iff_toNat_lt, UInt8.reduceToNat]
  rw [if_neg (by omega), if_neg (by omega), if_neg (by omega)]
  by_cases hlow : b = 0xE0
  · rw [if_pos hlow, hlow]
    rfl
  · by_cases hhigh : b = 0xED
    · rw [if_neg hlow, if_pos hhigh, hhigh]
      rfl
    · rw [if_neg hlow, if_neg hhigh, if_pos h.2, if_neg hlow, if_neg hhigh]

/-- A continuation byte within its range is added to the value. -/
theorem tails_cons {count value seen : Nat} {low high b : UInt8} (h : low ≤ b ∧ b ≤ high)
    (rest : Bytes) :
    tails (count + 1) low high value seen (b :: rest) =
      tails count 0x80 0xBF (value * 64 + b.toNat % 64) (seen + 1) rest := by
  rw [tails, if_pos h]

/-- A continuation byte. -/
def IsTail (b : UInt8) : Prop :=
  0x80 ≤ b.toNat ∧ b.toNat < 0xC0

theorem IsTail.range {b : UInt8} (h : IsTail b) : 0x80 ≤ b ∧ b ≤ 0xBF := by
  obtain ⟨hlow, hhigh⟩ := h
  simp only [UInt8.le_iff_toNat_le, UInt8.reduceToNat]
  omega

/-- Only sequences with one certain first byte can encode surrogates. -/
theorem lenient_of_ne {b : UInt8} (h : b ≠ 0xED) (rest : Bytes) :
    lenient b rest = strict b rest := by
  unfold lenient
  split
  · rw [if_neg fun hsurrogate ↦ h hsurrogate.1]
  · rfl

/-- A byte by itself. -/
theorem lenient_one {b : UInt8} (h : b.toNat < 0x80) (rest : Bytes) :
    lenient b rest = .ok (.ofNat b.toNat, rest) := by
  have hne : b ≠ 0xED := by
    rintro rfl
    exact absurd h (by decide)
  rw [lenient_of_ne hne, strict, lead?_one h]
  rfl

/-- A sequence of two bytes. -/
theorem lenient_two {a b : UInt8} (ha : 0xC2 ≤ a.toNat ∧ a.toNat < 0xE0) (hb : IsTail b)
    (rest : Bytes) :
    lenient a (b :: rest) = .ok (.ofNat (a.toNat % 32 * 64 + b.toNat % 64), rest) := by
  have hne : a ≠ 0xED := by
    rintro rfl
    exact absurd ha (by decide)
  rw [lenient_of_ne hne, strict, lead?_two ha]
  dsimp only
  rw [tails_cons hb.range]
  rfl

/-- A sequence of three bytes, surrogates included. What follows the first byte must not be so
small that fewer bytes would do. -/
theorem lenient_three {a b c : UInt8} (ha : 0xE0 ≤ a.toNat ∧ a.toNat < 0xF0) (hb : IsTail b)
    (hc : IsTail c) (hlong : a = 0xE0 → 0xA0 ≤ b) (rest : Bytes) :
    lenient a (b :: c :: rest) =
      .ok (.ofNat ((a.toNat % 16 * 64 + b.toNat % 64) * 64 + c.toNat % 64), rest) := by
  by_cases hsurrogate : a = 0xED ∧ 0xA0 ≤ b
  · obtain ⟨rfl, hbig⟩ := hsurrogate
    have hvalue : ((0xED : UInt8).toNat % 16 * 64 + b.toNat % 64) * 64 + c.toNat % 64 =
        0xD000 + b.toNat % 64 * 64 + c.toNat % 64 := by
      simp only [UInt8.reduceToNat]
      omega
    rw [lenient, if_pos ⟨rfl, hbig, hb.range.2, hc.range⟩, hvalue]
  · have hstrict : lenient a (b :: c :: rest) = strict a (b :: c :: rest) := by
      rw [lenient, if_neg fun h ↦ hsurrogate ⟨h.1, h.2.1⟩]
    have hrange : (if a = 0xE0 then 0xA0 else 0x80 : UInt8) ≤ b ∧
        b ≤ (if a = 0xED then 0x9F else 0xBF : UInt8) := by
      constructor
      · split
        · exact hlong ‹a = 0xE0›
        · exact hb.range.1
      · split
        · have hsmall : ¬ 0xA0 ≤ b := fun h ↦ hsurrogate ⟨‹a = 0xED›, h⟩
          simp only [UInt8.le_iff_toNat_le, UInt8.reduceToNat] at hsmall ⊢
          omega
        · exact hb.range.2
    rw [hstrict, strict, lead?_three ha]
    dsimp only
    rw [tails_cons hrange, tails_cons hc.range]
    rfl

/-- Items whose bytes are each read as one code point, whatever follows, are decoded one after
the other. -/
theorem decode_flatMap {α : Type} {mode : Mode} {write : α → Bytes} {point : α → CodePoint}
    (h : ∀ item, ∃ b tail, write item = b :: tail ∧
      ∀ rest, step mode b (tail ++ rest) = .ok (point item, rest)) (items : List α) :
    decode mode (items.flatMap write) = .ok (items.map point) := by
  have hfrom (start : Nat) (done : Text) :
      decodeFrom mode start done (items.flatMap write) = .ok (done.reverse ++ items.map point) := by
    induction items generalizing start done with
    | nil =>
      rw [List.flatMap_nil, decodeFrom]
      simp
    | cons item items ih =>
      obtain ⟨b, tail, hwrite, hstep⟩ := h item
      rw [List.flatMap_cons, hwrite, List.cons_append, decodeFrom]
      split
      · rename_i found rest hfound
        rw [hstep] at hfound
        cases hfound
        rw [ih]
        simp
      · rename_i hfound
        rw [hstep] at hfound
        cases hfound
  rw [decode, hfrom]
  rfl

end Utf8

/-! ### Units written one by one -/

namespace ModifiedUtf8

open CodePoint (IsHigh IsLow)

/-- A unit by itself: zero as a pair of bytes, others in one, two or three bytes by their size. -/
def encodeUnit (unit : UInt16) : Bytes :=
  if unit.toNat = 0 then [0xC0, 0x80]
  else if unit.toNat < 0x80 then [.ofNat unit.toNat]
  else if unit.toNat < 0x800 then
    [.ofNat (0xC0 + unit.toNat / 64), .ofNat (0x80 + unit.toNat % 64)]
  else
    [.ofNat (0xE0 + unit.toNat / 4096), .ofNat (0x80 + unit.toNat / 64 % 64),
      .ofNat (0x80 + unit.toNat % 64)]

/-- A sequence of units, each written by itself. -/
def encode (units : List UInt16) : Bytes :=
  units.flatMap encodeUnit

/-- The code points of a sequence of units, by number: from left to right, each high surrogate with
a low one right behind it is one, and so is every other unit. -/
def codePoints : List UInt16 → List Nat
  | high :: low :: rest =>
    if IsHigh high.toNat ∧ IsLow low.toNat then
      (0x10000 + (high.toNat - 0xD800) * 0x400 + (low.toNat - 0xDC00)) :: codePoints rest
    else high.toNat :: codePoints (low :: rest)
  | [unit] => [unit.toNat]
  | [] => []

/-- A unit as it is written once the zeros are plain. -/
def plainUnit (unit : UInt16) : Bytes :=
  if unit.toNat = 0 then [0] else encodeUnit unit

/-- The bytes of a unit other than zero, by their numbers. -/
theorem encodeUnit_cases {unit : UInt16} (h : unit.toNat ≠ 0) :
    (∃ a : UInt8, encodeUnit unit = [a] ∧ a.toNat = unit.toNat ∧ unit.toNat < 0x80) ∨
    (∃ a b : UInt8, encodeUnit unit = [a, b] ∧ a.toNat = 0xC0 + unit.toNat / 64 ∧
      b.toNat = 0x80 + unit.toNat % 64 ∧ 0x80 ≤ unit.toNat ∧ unit.toNat < 0x800) ∨
    (∃ a b c : UInt8, encodeUnit unit = [a, b, c] ∧ a.toNat = 0xE0 + unit.toNat / 4096 ∧
      b.toNat = 0x80 + unit.toNat / 64 % 64 ∧ c.toNat = 0x80 + unit.toNat % 64 ∧
      0x800 ≤ unit.toNat) := by
  have hbyte {n : Nat} (hn : n < 0x100) : (UInt8.ofNat n).toNat = n :=
    UInt8.toNat_ofNat_of_lt' hn
  have hunit := unit.toNat_lt
  unfold encodeUnit
  rw [if_neg h]
  split
  · exact .inl ⟨_, rfl, hbyte (by omega), by omega⟩
  · split
    · exact .inr (.inl ⟨_, _, rfl, hbyte (by omega), hbyte (by omega), by omega, by omega⟩)
    · exact .inr (.inr ⟨_, _, _, rfl, hbyte (by omega), hbyte (by omega), hbyte (by omega),
        by omega⟩)

/-- The byte that starts a written zero does not occur in any other unit. -/
theorem not_mem_encodeUnit {unit : UInt16} (h : unit.toNat ≠ 0) : 0xC0 ∉ encodeUnit unit := by
  have hne {b : UInt8} (hb : b.toNat ≠ 0xC0) : 0xC0 ≠ b := fun heq ↦ hb (heq ▸ rfl)
  obtain ⟨a, hbytes, ha, hsize⟩ | ⟨a, b, hbytes, ha, hb, hlow, hhigh⟩ |
    ⟨a, b, c, hbytes, ha, hb, hc, hlow⟩ := encodeUnit_cases h
  · simp only [hbytes, List.mem_singleton]
    exact hne (by omega)
  · simp only [hbytes, List.mem_cons, List.not_mem_nil, or_false, not_or]
    exact ⟨hne (by omega), hne (by omega)⟩
  · simp only [hbytes, List.mem_cons, List.not_mem_nil, or_false, not_or]
    exact ⟨hne (by omega), hne (by omega), hne (by omega)⟩

/-- Bytes without the one that starts a written zero stay as they are. -/
theorem plainZeros_append {front : Bytes} (h : 0xC0 ∉ front) (rest : Bytes) :
    plainZeros (front ++ rest) = front ++ plainZeros rest := by
  induction front with
  | nil => rfl
  | cons b front ih =>
    have hb : b ≠ 0xC0 := fun hb ↦ h (hb ▸ List.mem_cons_self)
    have hfront : 0xC0 ∉ front := fun hmem ↦ h (List.mem_cons_of_mem b hmem)
    rw [List.cons_append, plainZeros.eq_2 _ _ fun _ hzero ↦ absurd hzero hb, ih hfront,
      List.cons_append]

/-- Making the zeros plain goes from unit to unit. -/
theorem plainZeros_encode (units : List UInt16) :
    plainZeros (encode units) = units.flatMap plainUnit := by
  induction units with
  | nil => rfl
  | cons unit units ih =>
    have hunit : plainZeros (encodeUnit unit ++ encode units) =
        plainUnit unit ++ plainZeros (encode units) := by
      unfold plainUnit
      split
      · rename_i hzero
        rw [encodeUnit, if_pos hzero]
        rfl
      · rename_i hzero
        exact plainZeros_append (not_mem_encodeUnit hzero) _
    rw [List.flatMap_cons, ← ih, ← hunit]
    rfl

/-- Every unit is one sequence, which is read back as the unit. -/
theorem lenient_plainUnit (unit : UInt16) :
    ∃ b tail, plainUnit unit = b :: tail ∧
      ∀ rest, Utf8.lenient b (tail ++ rest) = .ok (.ofNat unit.toNat, rest) := by
  unfold plainUnit
  split
  · rename_i hzero
    rw [hzero]
    exact ⟨0, [], rfl, Utf8.lenient_one (by decide)⟩
  · rename_i hzero
    have hunit := unit.toNat_lt
    obtain ⟨a, hbytes, ha, hsize⟩ | ⟨a, b, hbytes, ha, hb, hlow, hhigh⟩ |
      ⟨a, b, c, hbytes, ha, hb, hc, hlow⟩ := encodeUnit_cases hzero
    · rw [← ha]
      exact ⟨a, [], hbytes, Utf8.lenient_one (by omega)⟩
    · have hvalue : a.toNat % 32 * 64 + b.toNat % 64 = unit.toNat := by omega
      rw [← hvalue]
      exact ⟨a, [b], hbytes, Utf8.lenient_two (by omega) ⟨by omega, by omega⟩⟩
    · have hvalue : (a.toNat % 16 * 64 + b.toNat % 64) * 64 + c.toNat % 64 = unit.toNat := by omega
      have hlong : a = 0xE0 → 0xA0 ≤ b := by
        rintro rfl
        simp only [UInt8.le_iff_toNat_le, UInt8.reduceToNat] at ha ⊢
        omega
      rw [← hvalue]
      exact ⟨a, [b, c], hbytes,
        Utf8.lenient_three (by omega) ⟨by omega, by omega⟩ ⟨by omega, by omega⟩ hlong⟩

end ModifiedUtf8

/-! ### Units of two bytes -/

theorem CodePoint.toNat_lt (point : CodePoint) : point.toNat < 0x110000 := by
  cases point with
  | char value =>
    have hvalid : value.toNat.isValidChar := value.valid
    simp only [Nat.isValidChar] at hvalid
    show value.toNat < 0x110000
    omega
  | lone surrogate =>
    show 0xD800 + surrogate.val < 0x110000
    omega

namespace Utf16

/-- Every code point has units. -/
theorem exists_units (point : CodePoint) :
    ∃ front, units point.toNat = .ok front ∧ ∀ unit ∈ front, unit < 0x10000 := by
  by_cases hsmall : point.toNat < 0x10000
  · exact ⟨_, if_pos hsmall, by simpa⟩
  · have hlt := point.toNat_lt
    refine ⟨_, (if_neg hsmall).trans (if_pos hlt), ?_⟩
    simp only [List.forall_mem_cons, List.not_mem_nil, false_implies, implies_true, and_true]
    omega

/-- Every text has units. -/
theorem exists_encode (text : Text) :
    ∃ all : List Nat, encode text = .ok (all.flatMap unitBytes) ∧ ∀ unit ∈ all, unit < 0x10000 := by
  induction text with
  | nil => exact ⟨[], rfl, by simp⟩
  | cons point rest ih =>
    obtain ⟨front, hfront, hfrontLt⟩ := exists_units point
    obtain ⟨back, hback, hbackLt⟩ := ih
    refine ⟨front ++ back, ?_, List.forall_mem_append.2 ⟨hfrontLt, hbackLt⟩⟩
    rw [encode, hfront, hback, List.flatMap_append]
    rfl

/-- The numbers of the 16-bit range are their own units. -/
theorem encode_map_ofNat {numbers : List Nat} (h : ∀ number ∈ numbers, number < 0x10000) :
    encode (numbers.map .ofNat) = .ok (numbers.flatMap unitBytes) := by
  induction numbers with
  | nil => rfl
  | cons number numbers ih =>
    obtain ⟨hnumber, hnumbers⟩ := List.forall_mem_cons.1 h
    have htoNat : (CodePoint.ofNat number).toNat = number :=
      CodePoint.toNat_ofNat (Nat.lt_trans hnumber (by decide))
    rw [List.map_cons, encode, htoNat, units, if_pos hnumber, ih hnumbers]
    rfl

/-- Units are read back from their bytes, none of which is left over. -/
theorem ofBytes_flatMap {all : List Nat} (h : ∀ unit ∈ all, unit < 0x10000) (position : Nat) :
    ofBytes position (all.flatMap unitBytes) = .ok all := by
  induction all generalizing position with
  | nil => rfl
  | cons unit all ih =>
    obtain ⟨hunit, hall⟩ := List.forall_mem_cons.1 h
    have hlow : (UInt8.ofNat (unit % 256)).toNat = unit % 256 :=
      UInt8.toNat_ofNat_of_lt' (Nat.mod_lt _ (by decide))
    have hhigh : (UInt8.ofNat (unit / 256)).toNat = unit / 256 :=
      UInt8.toNat_ofNat_of_lt' (Nat.div_lt_of_lt_mul hunit)
    have hvalue : unit % 256 + 256 * (unit / 256) = unit := Nat.mod_add_div _ _
    show ofBytes position (.ofNat (unit % 256) :: .ofNat (unit / 256) :: all.flatMap unitBytes) = _
    rw [ofBytes, ih hall, hlow, hhigh, hvalue]
    rfl

/-- What was written in units is read back joined. -/
theorem decode_flatMap {all : List Nat} (h : ∀ unit ∈ all, unit < 0x10000) :
    decode (all.flatMap unitBytes) = .ok (join all) := by
  rw [decode, ofBytes_flatMap h]
  rfl

/-- Every text can be written and read back. -/
theorem exists_decode_encode (text : Text) :
    ∃ bytes joined, encode text = .ok bytes ∧ decode bytes = .ok joined := by
  obtain ⟨all, hencode, hlt⟩ := exists_encode text
  exact ⟨_, _, hencode, decode_flatMap hlt⟩

end Utf16

namespace ModifiedUtf8

open CodePoint (IsHigh IsLow)

/-! ### Pairs -/

/-- A high surrogate and a low one are joined. -/
theorem join_of_pair {high low : Nat} (h : IsHigh high ∧ IsLow low) (rest : List Nat) :
    Utf16.join (high :: low :: rest) =
      .ofNat (0x10000 + (high - 0xD800) * 0x400 + (low - 0xDC00)) :: Utf16.join rest :=
  if_pos h

/-- Neighbours that are no pair stay as they are. -/
theorem join_of_not_pair {first second : Nat} (h : ¬ (IsHigh first ∧ IsLow second))
    (rest : List Nat) :
    Utf16.join (first :: second :: rest) = .ofNat first :: Utf16.join (second :: rest) :=
  if_neg h

/-- The code points of units are read back joined. -/
theorem toNat_join (units : List UInt16) :
    (Utf16.join (units.map UInt16.toNat)).map CodePoint.toNat = codePoints units := by
  have htoNat (unit : UInt16) : (CodePoint.ofNat unit.toNat).toNat = unit.toNat :=
    CodePoint.toNat_ofNat (Nat.lt_trans unit.toNat_lt (by decide))
  fun_induction codePoints units with
  | case1 high low rest hpair ih =>
    have hvalue : 0x10000 + (high.toNat - 0xD800) * 0x400 + (low.toNat - 0xDC00) < 0x110000 := by
      have := hpair.1.2
      have := hpair.2.2
      omega
    rw [List.map_cons, List.map_cons, join_of_pair hpair, List.map_cons, ih,
      CodePoint.toNat_ofNat hvalue]
  | case2 high low rest hpair ih =>
    rw [List.map_cons] at ih
    rw [List.map_cons, List.map_cons, join_of_not_pair hpair, List.map_cons, ih, htoNat]
  | case3 unit => rw [List.map_singleton, Utf16.join, List.map_singleton, htoNat]
  | case4 => rfl

/-- The first code point of units is the first unit, or it is beyond the 16-bit range. -/
theorem exists_codePoints_cons (unit : UInt16) (rest : List UInt16) :
    ∃ first others, codePoints (unit :: rest) = first :: others ∧
      (first = unit.toNat ∨ 0x10000 ≤ first) := by
  cases rest with
  | nil => exact ⟨unit.toNat, [], rfl, .inl rfl⟩
  | cons low rest =>
    rw [codePoints]
    split
    · exact ⟨_, _, rfl, .inr (by omega)⟩
    · exact ⟨_, _, rfl, .inl rfl⟩

/-- No pair is left among the code points of units. -/
theorem isChain_codePoints (units : List UInt16) :
    (codePoints units).IsChain fun first second ↦ ¬ (IsHigh first ∧ IsLow second) := by
  fun_induction codePoints units with
  | case1 high low rest hpair ih =>
    refine ih.cons ?_
    intro second _ hjoined
    have hhigh := hjoined.1.2
    omega
  | case2 high low rest hpair ih =>
    -- the next code point is the next unit, which is not low behind a high one, or not low at all
    obtain ⟨first, others, hfirst, hnext⟩ := exists_codePoints_cons low rest
    rw [hfirst] at ih ⊢
    refine List.IsChain.cons_cons ?_ ih
    rintro ⟨hhigh, hlow⟩
    rcases hnext with rfl | hbig
    · exact hpair ⟨hhigh, hlow⟩
    · have := hlow.2
      omega
  | case3 unit => exact .singleton _
  | case4 => exact .nil

/-! ### Decoding -/

/-- Bytes that are UTF-8, surrogates allowed, can be decoded. -/
theorem exists_decode_of_utf8 {bytes : Bytes} {text : Text}
    (h : Utf8.decode .lenient (plainZeros bytes) = .ok text) :
    ∃ joined, decode bytes = .ok joined := by
  obtain ⟨encoded, joined, hencode, hdecode⟩ := Utf16.exists_decode_encode text
  refine ⟨joined, ?_⟩
  rw [decode, h]
  show (Utf16.encode text).mapError Failure.noUnits >>= _ = _
  rw [hencode]
  show (Utf16.decode encoded).mapError Failure.units = _
  rw [hdecode]
  rfl

/-- Bytes that are not UTF-8 are refused for that. -/
theorem decode_of_utf8_error {bytes : Bytes} {e : Utf8.Error}
    (h : Utf8.decode .lenient (plainZeros bytes) = .error e) :
    decode bytes = .error (.bytes e) := by
  rw [decode, h]
  rfl

/-- Nothing but the bytes is ever refused. -/
theorem exists_error_of_decode {bytes : Bytes} {failure : Failure}
    (h : decode bytes = .error failure) : ∃ e, failure = .bytes e := by
  rcases hutf8 : Utf8.decode .lenient (plainZeros bytes) with e | text
  · rw [decode_of_utf8_error hutf8] at h
    cases h
    exact ⟨e, rfl⟩
  · obtain ⟨joined, hjoined⟩ := exists_decode_of_utf8 hutf8
    rw [hjoined] at h
    cases h

/-- Decoding undoes encoding: it succeeds, and its code points are those of the units, with each
high surrogate and a low one right behind it joined and everything else kept. No such pair is left
in the result. -/
theorem decode_encode (units : List UInt16) :
    ∃ text, decode (encode units) = .ok text ∧
      text.map CodePoint.toNat = codePoints units ∧
      (text.map CodePoint.toNat).IsChain fun first second ↦ ¬ (IsHigh first ∧ IsLow second) := by
  have hutf8 : Utf8.decode .lenient (units.flatMap plainUnit) =
      .ok ((units.map UInt16.toNat).map .ofNat) := by
    rw [List.map_map]
    exact Utf8.decode_flatMap lenient_plainUnit units
  have hlt : ∀ number ∈ units.map UInt16.toNat, number < 0x10000 := by
    intro number hnumber
    obtain ⟨unit, -, rfl⟩ := List.mem_map.1 hnumber
    exact unit.toNat_lt
  have hdecode : decode (encode units) = .ok (Utf16.join (units.map UInt16.toNat)) := by
    rw [decode, plainZeros_encode, hutf8]
    show (Utf16.encode _).mapError Failure.noUnits >>= _ = _
    rw [Utf16.encode_map_ofNat hlt]
    show (Utf16.decode _).mapError Failure.units = _
    rw [Utf16.decode_flatMap hlt]
    rfl
  have hjoined := toNat_join units
  refine ⟨_, hdecode, hjoined, ?_⟩
  rw [hjoined]
  exact isChain_codePoints units

end ModifiedUtf8

end ClassInspect
