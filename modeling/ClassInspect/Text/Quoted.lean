import ClassInspect.CharClass.Printable
import ClassInspect.Text.CodePoint

/-!
# Quoted text

Names and byte strings are quoted in messages. A quoted text stands between single quotes,
or between double quotes when it has a single quote and no double one. Inside, a backslash
and the quote in use are escaped by a backslash, tab and the two line ends by letters, and
everything else that is not printable by its number in hexadecimal.
-/

namespace ClassInspect

namespace Quoted

/-- The quote for a text that holds single or double quotes as told. -/
def mark (hasSingle hasDouble : Bool) : Char :=
  if hasSingle && !hasDouble then '"' else '\''

/-- The escapes shared by text and bytes: the backslash, the quote in use, tab and the line
ends. -/
def short? (quote c : Char) : Option (List Char) :=
  if c = '\\' ∨ c = quote then some ['\\', c]
  else if c = '\t' then some ['\\', 't']
  else if c = '\n' then some ['\\', 'n']
  else if c = '\r' then some ['\\', 'r']
  else none

/-- A code point by its number, with as many digits as its range needs. -/
def numeric (value : Nat) : List Char :=
  if value < 0x100 then '\\' :: 'x' :: Hex.fixed 2 value
  else if value < 0x10000 then '\\' :: 'u' :: Hex.fixed 4 value
  else '\\' :: 'U' :: Hex.fixed 8 value

/-- A code point inside a quoted text. -/
def codePoint (quote : Char) : CodePoint → List Char
  | .char c =>
    (short? quote c).getD (if CharClass.isPrintable c then [c] else numeric c.toNat)
  | .lone surrogate => numeric (0xD800 + surrogate.val)

/-- A byte inside a quoted byte string. -/
def byte (quote : Char) (b : UInt8) : List Char :=
  (short? quote (Char.ofNat b.toNat)).getD
    (if 0x20 ≤ b ∧ b < 0x7F then [Char.ofNat b.toNat] else numeric b.toNat)

end Quoted

namespace Text

/-- The text between quotes. -/
def quoted (text : Text) : String :=
  let quote := Quoted.mark (text.contains (.char '\'')) (text.contains (.char '"'))
  String.ofList (quote :: text.flatMap (Quoted.codePoint quote) ++ [quote])

/-- The texts between quotes, as a list in brackets. -/
def quotedList (texts : List Text) : String :=
  "[" ++ ", ".intercalate (texts.map quoted) ++ "]"

end Text

/-- The bytes between quotes, marked as bytes by a leading letter. -/
def Bytes.quoted (bytes : List UInt8) : String :=
  let quote := Quoted.mark (bytes.contains 0x27) (bytes.contains 0x22)
  String.ofList ('b' :: quote :: bytes.flatMap (Quoted.byte quote) ++ [quote])

end ClassInspect
