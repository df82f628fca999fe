import ClassInspect.Text.Utf16
import ClassInspect.Text.Utf8

/-!
# Modified UTF-8

The strings of a class file are 16-bit code units, each written on its own: zero as the pair
`C0 80`, surrogates as three bytes like any other unit of that size. Decoding turns the pair
back into a zero byte and decodes with surrogates allowed. Then the text is written as UTF-16 and
read back, which joins every high surrogate with a low one right behind it.
-/

namespace ClassInspect.ModifiedUtf8

/-- Writes each pair `C0 80` as one zero byte. -/
def plainZeros : Bytes → Bytes
  | 0xC0 :: 0x80 :: rest => 0 :: plainZeros rest
  | b :: rest => b :: plainZeros rest
  | [] => []

/-- Why bytes could not be decoded. -/
inductive Failure where
  /-- They are not UTF-8, surrogates allowed. -/
  | bytes (error : Utf8.Error)
  /-- A code point of theirs has no units. -/
  | noUnits (number : Nat)
  /-- Their units are not whole. -/
  | units (error : Utf16.Error)
  deriving DecidableEq, Repr

/-- The text that a string constant's bytes encode. Positions in an error count the bytes
after the zeros were made plain. -/
def decode (bytes : Bytes) : Except Failure Text := do
  let text ← (Utf8.decode .lenient (plainZeros bytes)).mapError .bytes
  let encoded ← (Utf16.encode text).mapError .noUnits
  (Utf16.decode encoded).mapError .units

end ClassInspect.ModifiedUtf8
