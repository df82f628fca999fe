import Mathlib.Algebra.Group.Int.Defs
import Mathlib.Algebra.Group.Nat.Defs
import Mathlib.Data.List.Induction
import ClassInspect.Bytes

/-!
# Numbers as bytes

`Bytes.ofNat` and `Bytes.toNat` undo each other between the byte strings of one length and the
numbers below a power of 256. For signed numbers `Bytes.ofInt` writes the two's complement, and
`Bytes.signed` takes it back, between the same byte strings and the range `FitsSigned`.
-/

namespace ClassInspect.Bytes

@[simp] theorem toNat_nil : toNat [] = 0 :=
  rfl

/-- The last byte is the least significant one. -/
theorem toNat_concat (bytes : Bytes) (byte : UInt8) :
    toNat (bytes ++ [byte]) = toNat bytes * 256 + byte.toNat := by
  simp [toNat]

@[simp] theorem length_ofNat (size value : Nat) : (ofNat size value).length = size := by
  induction size generalizing value with
  | zero => rfl
  | succ size ih => simp [ofNat, ih]

/-- A byte string of a given length is a number below a power of 256. -/
theorem toNat_lt (bytes : Bytes) : toNat bytes < 256 ^ bytes.length := by
  induction bytes using List.reverseRecOn with
  | nil => simp
  | append_singleton bytes byte ih =>
    have hbyte := byte.toNat_lt
    rw [toNat_concat, List.length_append, List.length_singleton, Nat.pow_succ]
    omega

/-- Writing a number and reading it back. -/
theorem toNat_ofNat {size value : Nat} (h : value < 256 ^ size) :
    toNat (ofNat size value) = value := by
  induction size generalizing value with
  | zero =>
    rw [Nat.pow_zero] at h
    rw [ofNat, toNat_nil]
    omega
  | succ size ih =>
    rw [Nat.pow_succ] at h
    have hbyte : (UInt8.ofNat (value % 256)).toNat = value % 256 :=
      UInt8.toNat_ofNat_of_lt' (by simp only [UInt8.size]; omega)
    rw [ofNat, toNat_concat, ih (by omega), hbyte]
    omega

/-- Reading a number and writing it back. -/
theorem ofNat_toNat (bytes : Bytes) : ofNat bytes.length (toNat bytes) = bytes := by
  induction bytes using List.reverseRecOn with
  | nil => rfl
  | append_singleton bytes byte ih =>
    have hbyte := byte.toNat_lt
    have hdiv : (toNat bytes * 256 + byte.toNat) / 256 = toNat bytes := by omega
    have hmod : (toNat bytes * 256 + byte.toNat) % 256 = byte.toNat := by omega
    rw [toNat_concat, List.length_append, List.length_singleton, ofNat, hdiv, hmod, ih,
      UInt8.ofNat_toNat]

/-- A byte string of a given length and the number it forms determine each other. -/
theorem eq_ofNat_iff {size value : Nat} {bytes : Bytes} :
    (bytes.length = size ∧ value = toNat bytes) ↔
      (value < 256 ^ size ∧ bytes = ofNat size value) := by
  constructor
  · rintro ⟨rfl, rfl⟩
    exact ⟨toNat_lt bytes, (ofNat_toNat bytes).symm⟩
  · rintro ⟨hlt, rfl⟩
    exact ⟨length_ofNat size value, (toNat_ofNat hlt).symm⟩

/-- A number in two bytes. -/
def ofU16 (value : UInt16) : Bytes :=
  ofNat 2 value.toNat

@[simp] theorem length_ofU16 (value : UInt16) : (ofU16 value).length = 2 :=
  length_ofNat _ _

/-! ### Signed numbers -/

/-- The range of the signed numbers of `size` bytes. -/
def FitsSigned (size : Nat) (value : Int) : Prop :=
  -2 ^ (8 * size - 1) ≤ value ∧ value < 2 ^ (8 * size - 1)

/-- The low bytes of a signed number in two's complement, most significant byte first. -/
def ofInt (size : Nat) (value : Int) : Bytes :=
  ofNat size (value % 2 ^ (8 * size)).toNat

@[simp] theorem length_ofInt (size : Nat) (value : Int) : (ofInt size value).length = size :=
  length_ofNat _ _

/-- Powers of two and of 256, over the integers. -/
theorem two_pow_eq (size : Nat) : (2 : Int) ^ (8 * size) = (256 ^ size : Nat) := by
  rw [Int.natCast_pow, Int.pow_mul]
  rfl

/-- The range is twice as long as its upper part. -/
theorem two_mul_half {size : Nat} (h : 0 < size) :
    (2 : Int) ^ (8 * size) = 2 * 2 ^ (8 * size - 1) := by
  have hexp : 8 * size = (8 * size - 1) + 1 := by omega
  rw [hexp, Int.pow_succ, Nat.add_sub_cancel, Int.mul_comm]

/-- The two's complement reading compares and subtracts integers. -/
theorem signed_eq (size value : Nat) :
    signed size value = if (value : Int) < 2 ^ (8 * size - 1) then (value : Int)
      else value - 2 ^ (8 * size) := by
  have hcast (n : Nat) : ((Nat.pow 2 n : Nat) : Int) = 2 ^ n := Int.natCast_pow 2 n
  have hlow : value < Nat.pow 2 (8 * size - 1) ↔ (value : Int) < 2 ^ (8 * size - 1) := by
    rw [← hcast, Int.ofNat_lt]
  rw [signed, hcast]
  simp only [hlow]

/-- A number below the power of 256 gives a signed number in the range, whose remainder it
is. -/
theorem fitsSigned_signed {size value : Nat} (hsize : 0 < size) (h : value < 256 ^ size) :
    FitsSigned size (signed size value) ∧
      (signed size value % 2 ^ (8 * size)).toNat = value := by
  have hhalf := two_mul_half hsize
  have hvalue : (value : Int) < 2 ^ (8 * size) := by
    rw [two_pow_eq, Int.ofNat_lt]
    exact h
  rw [FitsSigned, signed_eq]
  -- from here on only `half` matters, and everything is linear in it
  generalize (2 : Int) ^ (8 * size - 1) = half at *
  split
  · rename_i hlow
    refine ⟨by omega, ?_⟩
    rw [Int.emod_eq_of_lt (by omega) (by omega), Int.toNat_natCast]
  · rename_i hhigh
    refine ⟨by omega, ?_⟩
    rw [Int.sub_emod_right, Int.emod_eq_of_lt (by omega) (by omega), Int.toNat_natCast]

/-- A signed number in the range is the one its remainder gives. -/
theorem signed_emod {size : Nat} {value : Int} (hsize : 0 < size) (h : FitsSigned size value) :
    (value % 2 ^ (8 * size)).toNat < 256 ^ size ∧
      signed size (value % 2 ^ (8 * size)).toNat = value := by
  obtain ⟨hlow, hhigh⟩ := h
  have hhalf := two_mul_half hsize
  have hwhole := two_pow_eq size
  rw [signed_eq]
  generalize (2 : Int) ^ (8 * size - 1) = half at *
  rw [hhalf] at hwhole ⊢
  rcases Int.lt_or_le value 0 with hneg | hnonneg
  · have hmod : value % (2 * half) = value + 2 * half := by
      rw [← Int.add_emod_right, Int.emod_eq_of_lt (by omega) (by omega)]
    rw [hmod, if_neg (by omega)]
    omega
  · have hmod : value % (2 * half) = value := Int.emod_eq_of_lt hnonneg (by omega)
    rw [hmod, if_pos (by omega)]
    omega

/-- The bytes of a signed number and the number determine each other. -/
theorem eq_ofInt_iff {size : Nat} {value : Int} {bytes : Bytes} (hsize : 0 < size) :
    (bytes.length = size ∧ value = signed size (toNat bytes)) ↔
      (FitsSigned size value ∧ bytes = ofInt size value) := by
  constructor
  · rintro ⟨hlength, rfl⟩
    have hfits := fitsSigned_signed hsize (hlength ▸ toNat_lt bytes)
    refine ⟨hfits.1, ?_⟩
    rw [ofInt, hfits.2, ← hlength, ofNat_toNat]
  · rintro ⟨hfits, rfl⟩
    have hsigned := signed_emod hsize hfits
    refine ⟨length_ofInt size value, ?_⟩
    rw [ofInt, toNat_ofNat hsigned.1, hsigned.2]

end ClassInspect.Bytes
