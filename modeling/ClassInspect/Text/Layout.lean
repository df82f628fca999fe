/-!
# Columns

Padding of short pieces of text to a column width, and numbers with a fixed least number of
digits. Text that is already wide enough is left as it is.
-/

namespace ClassInspect.Layout

/-- Characters moved to the right end of a column, filled up on the left. -/
def padLeft (fill : Char) (width : Nat) (chars : List Char) : List Char :=
  List.replicate (width - chars.length) fill ++ chars

/-- Characters at the left end of a column, filled up on the right. -/
def padRight (fill : Char) (width : Nat) (chars : List Char) : List Char :=
  chars ++ List.replicate (width - chars.length) fill

/-- A string at the right end of a column of blanks. -/
def right (width : Nat) (string : String) : String :=
  String.ofList (padLeft ' ' width string.toList)

/-- A string at the left end of a column of blanks. -/
def left (width : Nat) (string : String) : String :=
  String.ofList (padRight ' ' width string.toList)

/-- A number in lower-case hexadecimal with at least `width` characters, filled with zeros
between a minus sign, which counts, and the digits. -/
def zeroHex (width : Nat) (value : Int) : List Char :=
  if value < 0 then
    '-' :: padLeft '0' (width - 1) (Nat.toDigits 16 value.natAbs)
  else
    padLeft '0' width (Nat.toDigits 16 value.toNat)

end ClassInspect.Layout
