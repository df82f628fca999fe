import ClassInspect.Hex

/-!
# Text with lone surrogates

The strings of a class file are sequences of 16-bit code units, and nothing forces the
surrogates among them to come in pairs. A `CodePoint` is therefore a character or one half of
a surrogate pair standing alone, and a `Text` is a list of them.

Text that leaves the program is `Text.escaped`: every lone surrogate becomes six ordinary
characters, `\u` and four hexadecimal digits.
-/

namespace ClassInspect

/-- A code point as class files can hold it: a character, or a surrogate that has no
partner. The number of a lone surrogate counts from U+D800. -/
inductive CodePoint where
  | char (value : Char)
  | lone (surrogate : Fin 2048)
  deriving DecidableEq, Repr

namespace CodePoint

/-- The number of a code point. -/
def toNat : CodePoint → Nat
  | char value => value.toNat
  | lone surrogate => 0xD800 + surrogate.val

/-- The code point of a number below 0x110000. Larger numbers, which name no code point,
give the replacement character. -/
def ofNat (value : Nat) : CodePoint :=
  if valid : value.isValidChar then char (Char.ofNatAux value valid)
  else if surrogate : 0xD800 ≤ value ∧ value < 0xE000 then
    lone ⟨value - 0xD800, by omega⟩
  else char '�'

end CodePoint

/-- A sequence of code points. -/
abbrev Text := List CodePoint

namespace Text

/-- Ordinary characters as text. -/
def ofChars (chars : List Char) : Text :=
  chars.map .char

/-- An ordinary string as text. -/
def lit (string : String) : Text :=
  ofChars string.toList

/-- The characters a code point is shown as: itself, or an escape for a lone surrogate. -/
def shown : CodePoint → List Char
  | .char value => [value]
  | .lone surrogate => '\\' :: 'u' :: Hex.fixed 4 (0xD800 + surrogate.val)

/-- The characters shown for a text. -/
def escapedChars (text : Text) : List Char :=
  text.flatMap shown

/-- The text as an ordinary string, with lone surrogates escaped. -/
def escaped (text : Text) : String :=
  String.ofList text.escapedChars

/-- The pieces with a separator between neighbours. -/
def join (separator : Text) : List Text → Text
  | [] => []
  | [piece] => piece
  | piece :: pieces => piece ++ separator ++ join separator pieces

/-- The pieces as lines, with a line feed between neighbours. -/
def lines (pieces : List Text) : Text :=
  join (lit "\n") pieces

/-- A whole number in decimal digits. -/
def ofInt (value : Int) : Text :=
  lit (toString value)

/-- A natural number in decimal digits. -/
def ofNat (value : Nat) : Text :=
  lit (toString value)

end Text

end ClassInspect
