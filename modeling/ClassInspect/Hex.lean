/-!
# Hexadecimal digits

Numbers written with a fixed count of hexadecimal digits, in lower and in upper case.
-/

namespace ClassInspect.Hex

/-- The digit of a number below sixteen, in lower case. -/
def digit (value : Nat) : Char :=
  if value < 10 then Char.ofNat (48 + value) else Char.ofNat (87 + value)

/-- The digit of a number below sixteen, in upper case. -/
def upperDigit (value : Nat) : Char :=
  if value < 10 then Char.ofNat (48 + value) else Char.ofNat (55 + value)

/-- The `count` low digits of a number, in lower case. -/
def fixed : (count : Nat) → Nat → List Char
  | 0, _ => []
  | count + 1, value => fixed count (value / 16) ++ [digit (value % 16)]

/-- The two digits of a byte, in lower case. -/
def pair (byte : UInt8) : List Char :=
  [digit (byte.toNat / 16), digit (byte.toNat % 16)]

/-- The two digits of a byte, in upper case. -/
def upperPair (byte : UInt8) : List Char :=
  [upperDigit (byte.toNat / 16), upperDigit (byte.toNat % 16)]

/-- A number in upper-case digits, without leading zeros. -/
def upper (value : Nat) : String :=
  String.ofList ((Nat.toDigits 16 value).map Char.toUpper)

end ClassInspect.Hex
