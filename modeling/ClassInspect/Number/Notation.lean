import ClassInspect.Number.Binary
import ClassInspect.Number.Shortest

/-!
# The text of floating-point values

Values are written with the shortest digits that read back. The point stands in place when
the first digit's exponent is at least -4 and below 16, and then at least one digit follows
it; other values take an exponent with a sign and at least two digits.
-/

namespace ClassInspect.Binary

/-- When the point stands in place, and how exponents are written. -/
structure Layout where
  leastPositional : Int
  firstExponential : Int
  exponentWidth : Nat

/-- Positional from 0.0001 up to seventeen digits before the point, two exponent digits. -/
def layout : Layout := ⟨-4, 16, 2⟩

/-- Digits with the point in place: the first digit stands for `10 ^ exponent`. -/
def positional (digits : List Char) (exponent : Int) : List Char :=
  if exponent < 0 then
    ['0', '.'] ++ List.replicate (-exponent - 1).toNat '0' ++ digits
  else
    let whole := exponent.toNat + 1
    let fraction := digits.drop whole
    digits.take whole ++ List.replicate (whole - digits.length) '0' ++ ['.'] ++
      (if fraction.isEmpty then ['0'] else fraction)

/-- Digits with one of them before the point and an exponent behind. -/
def exponential (width : Nat) (digits : List Char) (exponent : Int) : List Char :=
  let power := Nat.toDigits 10 exponent.natAbs
  digits.take 1 ++ (if digits.length ≤ 1 then [] else '.' :: digits.drop 1) ++
    ['e', if exponent < 0 then '-' else '+'] ++
    List.replicate (width - power.length) '0' ++ power

/-- The digits of a finite value without its sign. -/
def magnitudeText (mantissa : Nat) (exponent : Int) : List Char :=
  if mantissa = 0 then ['0', '.', '0']
  else
    let tight := mantissa = Nat.pow 2 (precision - 1) ∧ leastExponent < exponent
    let (digits, first) := Shortest.digits mantissa exponent tight
    if layout.leastPositional ≤ first ∧ first < layout.firstExponential then
      positional digits first
    else exponential layout.exponentWidth digits first

/-- The text of a value. Zero keeps its sign, and what is not a number has none. -/
def text : Binary → String
  | nan => "nan"
  | infinite negative => if negative then "-inf" else "inf"
  | finite negative mantissa exponent =>
    let body := magnitudeText mantissa exponent
    String.ofList (if negative then '-' :: body else body)

end ClassInspect.Binary
