/-!
# Shortest digits

The fewest decimal digits that read back as a given binary value, and of those the ones
nearest to it.

A decimal reads back as `m * 2 ^ q` when it lies in the interval that reaches halfway to both
neighbours, ends included exactly when `m` is even. For one, two, … digits the two decimals
of that many digits around the value are tested; the first count with a hit wins, of two hits
the nearer, and of two equally near the one whose last digit is even. All tests are exact:
they compare natural numbers after multiplication by the denominators.
-/

namespace ClassInspect.Shortest

/-- An interval of positive fractions over one denominator, around a value in it. -/
structure Interval where
  low : Nat
  value : Nat
  high : Nat
  denominator : Nat
  closed : Bool
  deriving Repr

/-- The interval of the reals that round to `mantissa * 2 ^ exponent`. The lower neighbour is
only half as far away when the mantissa is the least of its power of two, given by `tight`. -/
def interval (mantissa : Nat) (exponent : Int) (tight : Bool) : Interval :=
  -- Quarters of the unit in the last place make all three bounds whole.
  let low := 4 * mantissa - (if tight then 1 else 2)
  let up := Nat.pow 2 (exponent - 2).toNat
  { low := low * up
    value := 4 * mantissa * up
    high := (4 * mantissa + 2) * up
    denominator := Nat.pow 2 (2 - exponent).toNat
    closed := mantissa % 2 = 0 }

/-- Whether the decimal `digits * 10 ^ exponent` lies in the interval. -/
def Interval.holds (i : Interval) (digits : Nat) (exponent : Int) : Bool :=
  let scaled := digits * Nat.pow 10 exponent.toNat * i.denominator
  let unit := Nat.pow 10 (-exponent).toNat
  if i.closed then i.low * unit ≤ scaled && scaled ≤ i.high * unit
  else i.low * unit < scaled && scaled < i.high * unit

/-- The decimal exponent `e` with `10 ^ e ≤ value < 10 ^ (e + 1)`, found from the number of
digits before or the number of zeros behind the point. -/
def Interval.magnitude (i : Interval) : Int :=
  if i.denominator ≤ i.value then
    ((Nat.toDigits 10 (i.value / i.denominator)).length : Int) - 1
  else
    -- The first power of ten that lifts the value to one or more.
    let ratio := (i.denominator + i.value - 1) / i.value
    Int.negOfNat (Nat.toDigits 10 (ratio - 1)).length

/-- The best decimal with `count` digits, if one of the two around the value reads back. -/
def Interval.pick (i : Interval) (magnitude : Int) (count : Nat) : Option (Nat × Int) :=
  let exponent := magnitude - count + 1
  let numerator := i.value * Nat.pow 10 (-exponent).toNat
  let denominator := i.denominator * Nat.pow 10 exponent.toNat
  let below := numerator / denominator
  let excess := numerator % denominator
  if excess = 0 then some (below, exponent)
  else
    match i.holds below exponent, i.holds (below + 1) exponent with
    | true, true =>
      let nearer :=
        if 2 * excess < denominator then below
        else if denominator < 2 * excess then below + 1
        else if below % 2 = 0 then below else below + 1
      some (nearer, exponent)
    | true, false => some (below, exponent)
    | false, true => some (below + 1, exponent)
    | false, false => none

/-- The first success among the counts from `count` on, with `left` of them to try. -/
def Interval.search (i : Interval) (magnitude : Int) : (left count : Nat) → Nat × Int
  | 0, count => (i.value / i.denominator, magnitude - count + 1)
  | left + 1, count =>
    match i.pick magnitude count with
    | some found => found
    | none => i.search magnitude left (count + 1)

/-- Digits without the zeros at their end, and the exponent of the first digit. -/
def trim (digits : List Char) (exponent : Int) : List Char × Int :=
  let kept := (digits.reverse.dropWhile (· = '0')).reverse
  (kept, exponent + digits.length - 1)

/-- The digits of a positive value `mantissa * 2 ^ exponent`, the first one standing for
`10 ^` the number that comes with them. Seventeen digits always suffice. -/
def digits (mantissa : Nat) (exponent : Int) (tight : Bool) : List Char × Int :=
  let i := interval mantissa exponent tight
  let (value, last) := i.search i.magnitude 17 1
  trim (Nat.toDigits 10 value) last

end ClassInspect.Shortest
