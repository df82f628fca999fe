/-!
# Binary floating-point values

A value read from 32 or 64 bits is a mantissa times a power of two, an infinity or not a
number. Values of 32 bits are widened: every one of them that is not zero has a mantissa of
exactly 53 bits in the wider format, so `single` and `double` meet in the same type.
-/

namespace ClassInspect

/-- A floating-point value in the 64-bit format: `mantissa * 2 ^ exponent` with a sign. -/
inductive Binary where
  | nan
  | infinite (negative : Bool)
  | finite (negative : Bool) (mantissa : Nat) (exponent : Int)
  deriving DecidableEq, Repr

namespace Binary

/-- The bits of a finite mantissa in the wide format. -/
def precision : Nat := 53

/-- The least exponent of the wide format. -/
def leastExponent : Int := -1074

/-- Splits bits into sign, exponent field and fraction, for the given widths of the last two. -/
def fields (exponentBits fractionBits bits : Nat) : Bool × Nat × Nat :=
  (bits / Nat.pow 2 (exponentBits + fractionBits) % 2 = 1,
    bits / Nat.pow 2 fractionBits % Nat.pow 2 exponentBits, bits % Nat.pow 2 fractionBits)

/-- The value of a format with the given widths. The exponent field of all ones is kept for
the infinities and for what is not a number, the one of all zeros for small values without
the leading one. -/
def ofFields (exponentBits fractionBits bits : Nat) : Binary :=
  let (negative, field, fraction) := fields exponentBits fractionBits bits
  let bias : Int := (Nat.pow 2 (exponentBits - 1) : Int) - 1
  if field = Nat.pow 2 exponentBits - 1 then
    if fraction = 0 then infinite negative else nan
  else if field = 0 then finite negative fraction (1 - bias - fractionBits)
  else finite negative (Nat.pow 2 fractionBits + fraction) (field - bias - fractionBits)

/-- The same value with a mantissa of full precision, if it is not zero. -/
def normalize : Binary → Binary
  | finite negative mantissa exponent =>
    if mantissa = 0 then finite negative 0 leastExponent
    else
      let shift := precision - 1 - mantissa.log2
      finite negative (mantissa * Nat.pow 2 shift) (exponent - shift)
  | value => value

/-- The value of 64 bits. -/
def double (bits : Nat) : Binary :=
  ofFields 11 52 bits

/-- The value of 32 bits, widened. -/
def single (bits : Nat) : Binary :=
  normalize (ofFields 8 23 bits)

end Binary

end ClassInspect
