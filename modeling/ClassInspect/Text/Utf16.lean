import ClassInspect.Bytes
import ClassInspect.Text.CodePoint

/-!
# UTF-16

Text as units of two bytes, the low byte first. A number below 0x10000 is a unit of its own, also
if it is a surrogate, and a larger one is a high surrogate and a low one behind it. There are no
units for numbers from 0x110000 on.

Decoding needs an even number of bytes. It takes every high surrogate with a low one right behind
it for one character, so text that was encoded comes back with its pairs joined.
-/

namespace ClassInspect.Utf16

/-- The units of a number, or the number if there are none. -/
def units (number : Nat) : Except Nat (List Nat) :=
  if number < 0x10000 then .ok [number]
  else if number < 0x110000 then
    .ok [0xD800 + (number - 0x10000) / 0x400, 0xDC00 + (number - 0x10000) % 0x400]
  else .error number

/-- The bytes of a unit. -/
def unitBytes (unit : Nat) : Bytes :=
  [.ofNat (unit % 256), .ofNat (unit / 256)]

/-- The bytes of a text, or the number of the first code point that has no units. -/
def encode : Text → Except Nat Bytes
  | [] => .ok []
  | point :: rest => do
    let front ← units point.toNat
    return front.flatMap unitBytes ++ (← encode rest)

/-- A byte at the end that is only half a unit. -/
structure Error where
  byte : UInt8
  position : Nat
  deriving DecidableEq, Repr

/-- The wording of an error. -/
def Error.message (e : Error) : String :=
  s!"'utf-16-le' codec can't decode byte 0x{String.ofList (Hex.pair e.byte)} in position " ++
    s!"{e.position}: truncated data"

/-- The units that bytes from a position on form. -/
def ofBytes (position : Nat) : Bytes → Except Error (List Nat)
  | low :: high :: rest => do
    return (low.toNat + 256 * high.toNat) :: (← ofBytes (position + 2) rest)
  | [byte] => .error ⟨byte, position⟩
  | [] => .ok []

/-- The text of units: each high surrogate with a low one right behind it is one code point, and
so is every other unit. -/
def join : List Nat → Text
  | high :: low :: rest =>
    if (0xD800 ≤ high ∧ high < 0xDC00) ∧ 0xDC00 ≤ low ∧ low < 0xE000 then
      .ofNat (0x10000 + (high - 0xD800) * 0x400 + (low - 0xDC00)) :: join rest
    else .ofNat high :: join (low :: rest)
  | [unit] => [.ofNat unit]
  | [] => []

/-- The text that bytes encode. -/
def decode (bytes : Bytes) : Except Error Text := do
  return join (← ofBytes 0 bytes)

end ClassInspect.Utf16
