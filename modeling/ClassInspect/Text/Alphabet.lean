import ClassInspect.Text.CodePoint

/-!
# Alphabets

A text may be a list of characters, or one of code points with lone surrogates among them. What is
done to both in the same way is written once, for any `Alphabet`. A symbol of it is a character or
it is none, and then it belongs to no class of characters.
-/

namespace ClassInspect

/-- The symbols of a text, with the characters among them. -/
class Alphabet (α : Type) where
  ofChar : Char → α
  /-- The character that a symbol is, if it is one. -/
  char? : α → Option Char

instance : Alphabet Char where
  ofChar c := c
  char? := some

instance : Alphabet CodePoint where
  ofChar := .char
  char?
    | .char c => some c
    | .lone _ => none

namespace Alphabet

variable {α : Type} [Alphabet α]

/-- Whether a symbol is a character of a class. -/
def is (accepts : Char → Bool) (symbol : α) : Bool :=
  (char? symbol).any accepts

/-- The character that stands for symbols that are none. It belongs to no class either. -/
def standIn : Char :=
  '\uffff'

/-- The character that is seen of a symbol. -/
def look (symbol : α) : Char :=
  (char? symbol).getD standIn

/-- Characters as symbols. -/
def spell (chars : List Char) : List α :=
  chars.map ofChar

end Alphabet

end ClassInspect
