import ClassInspect.Fault

/-!
# Cursors

A cursor is a position in a byte string. It never moves past the end and never back: a request
for more bytes than are left, or for a negative number, fails and leaves the cursor where it
was. Positions in faults are absolute, since a cursor over a part of a file knows where that
part begins.

`Cursor.Valid` says that the bytes ahead are the data behind the position.
-/

namespace ClassInspect

/-- A position in a byte string that is itself a part of a file. -/
structure Cursor where
  /-- The whole byte string. -/
  data : Bytes
  /-- Where the byte string begins in its file. -/
  base : Int
  /-- The number of bytes already read. -/
  pos : Nat
  /-- The bytes still ahead. -/
  rest : Bytes
  deriving DecidableEq, Repr

namespace Cursor

/-- The cursor at the front of a byte string. -/
def start (data : Bytes) (base : Int) : Cursor :=
  ⟨data, base, 0, data⟩

/-- The position in the file. -/
def place (c : Cursor) : Int :=
  c.base + c.pos

/-- The number of bytes ahead. -/
def remaining (c : Cursor) : Nat :=
  c.rest.length

/-- Whether no byte is left. -/
def atEnd (c : Cursor) : Bool :=
  c.rest.isEmpty

/-- The bytes ahead are what the data holds from the position on. -/
def Valid (c : Cursor) : Prop :=
  c.rest = c.data.drop c.pos ∧ c.pos ≤ c.data.length

/-- The next `size` bytes, and the cursor behind them. -/
def take (c : Cursor) (size : Int) : Except Fault (Bytes × Cursor) :=
  if size < 0 then .error (.negativeSize size)
  else
    match Bytes.split? size.toNat c.rest with
    | some (front, rest) => .ok (front, { c with pos := c.pos + size.toNat, rest := rest })
    | none => .error (.format (.truncated size.toNat c.remaining) (some c.place))

/-- A fresh cursor is valid. -/
theorem valid_start (data : Bytes) (base : Int) : (start data base).Valid :=
  ⟨rfl, Nat.zero_le _⟩

end Cursor

end ClassInspect
