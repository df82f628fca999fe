import ClassInspect.Hex

/-!
# Bytes

A byte string is a list of bytes. This module reads such strings as numbers, in either byte
order and with or without a sign, and writes them in hexadecimal.

`Bytes.toNat` is the base-256 value with the most significant byte first; `signed` maps the
upper half of an `n`-byte range to the negative numbers, which is two's complement.
-/

namespace ClassInspect

/-- A byte string. -/
abbrev Bytes := List UInt8

namespace Bytes

/-- The base-256 number written by the bytes, most significant byte first. -/
def toNat (bytes : Bytes) : Nat :=
  bytes.foldl (fun value byte ↦ value * 256 + byte.toNat) 0

/-- The `size` low bytes of a number, most significant byte first. -/
def ofNat : (size : Nat) → Nat → Bytes
  | 0, _ => []
  | size + 1, value => ofNat size (value / 256) ++ [UInt8.ofNat (value % 256)]

/-- The two's complement reading of a `size`-byte number. -/
def signed (size value : Nat) : Int :=
  if value < Nat.pow 2 (8 * size - 1) then value else (value : Int) - Nat.pow 2 (8 * size)

/-- All bytes as digit pairs without separators, in lower case. -/
def hex (bytes : Bytes) : String :=
  String.ofList (bytes.flatMap Hex.pair)

/-- All bytes as digit pairs without separators, in upper case. -/
def upperHex (bytes : Bytes) : String :=
  String.ofList (bytes.flatMap Hex.upperPair)

/-- The leading `size` bytes and the rest, if there are that many. -/
def split? (size : Nat) (bytes : Bytes) : Option (Bytes × Bytes) :=
  let front := bytes.take size
  if front.length = size then some (front, bytes.drop size) else none

/-- A split succeeds exactly when enough bytes are there. -/
theorem split?_eq_some_iff {size : Nat} {bytes front rest : Bytes} :
    split? size bytes = some (front, rest) ↔
      size ≤ bytes.length ∧ front = bytes.take size ∧ rest = bytes.drop size := by
  simp only [split?, List.length_take]
  split
  · simp only [Option.some.injEq, Prod.mk.injEq]
    constructor
    · rintro ⟨rfl, rfl⟩
      exact ⟨by omega, rfl, rfl⟩
    · rintro ⟨_, rfl, rfl⟩
      exact ⟨rfl, rfl⟩
  · simp only [reduceCtorEq, false_iff, not_and]
    omega

end Bytes

end ClassInspect
