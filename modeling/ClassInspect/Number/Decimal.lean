import ClassInspect.CharClass.Blank
import ClassInspect.CharClass.Decimal

/-!
# Whole numbers as people write them

A sign, then decimal digits of any script, with single low lines allowed between digits and
white space around it all, of which the four ASCII separators are no part. Numbers of more than
4300 digits are refused.
-/

namespace ClassInspect.Decimal

/-- The most digits a number may have. -/
def maxDigits : Nat := 4300

/-- Reads digits behind a digit. A low line must stand between two digits. `count` and `value`
describe the digits so far. -/
def digitsOnto (count value : Nat) : List Char → Option Nat
  | [] => if count ≤ maxDigits then some value else none
  | '_' :: c :: rest => do digitsOnto (count + 1) (value * 10 + (← CharClass.decimal? c)) rest
  | c :: rest => do digitsOnto (count + 1) (value * 10 + (← CharClass.decimal? c)) rest

/-- Reads a number without a sign. -/
def natural? : List Char → Option Nat
  | [] => none
  | c :: rest => do digitsOnto 1 (← CharClass.decimal? c) rest

/-- White space that may surround a number: all but the separators from file to unit. -/
def isMargin (c : Char) : Bool :=
  CharClass.isBlank c && !CharClass.inRanges [(0x1C, 0x1F)] c.toNat

/-- Characters without the margin at either end. -/
def trimMargin (chars : List Char) : List Char :=
  ((chars.dropWhile isMargin).reverse.dropWhile isMargin).reverse

/-- Reads a number. -/
def whole? (chars : List Char) : Option Int :=
  match trimMargin chars with
  | '-' :: rest => (natural? rest).map fun value ↦ -(value : Int)
  | '+' :: rest => (natural? rest).map Int.ofNat
  | rest => (natural? rest).map Int.ofNat

end ClassInspect.Decimal
