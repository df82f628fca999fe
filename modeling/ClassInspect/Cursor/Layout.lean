import ClassInspect.Number.Binary
import ClassInspect.Scan

/-!
# Record layouts

A layout is a byte order and a sequence of number fields without padding between them.
Reading a layout takes the bytes of all its fields at once and answers the first one.
-/

namespace ClassInspect

/-- Which byte of a number comes first. -/
inductive ByteOrder where
  | mostSignificantFirst
  | leastSignificantFirst
  deriving DecidableEq, Repr

/-- A field of a layout: a whole number of some bytes, or a floating-point number. -/
inductive LayoutField where
  | unsigned (size : Nat)
  | signed (size : Nat)
  | single
  | double
  deriving DecidableEq, Repr

/-- The value of a field. -/
inductive FieldValue where
  | whole (value : Int)
  | real (value : Binary)
  deriving DecidableEq, Repr

/-- The text of a field's value. -/
def FieldValue.text : FieldValue → String
  | whole value => toString value
  | real value => value.text

namespace LayoutField

/-- The number of bytes of a field. -/
def size : LayoutField → Nat
  | unsigned size | signed size => size
  | single => 4
  | double => 8

/-- The field of a letter: lower case for signed numbers, upper case for unsigned ones, `f`
and `d` for floating-point numbers. -/
def ofLetter? : Char → Option LayoutField
  | 'b' => some (signed 1)
  | 'B' => some (unsigned 1)
  | 'h' => some (signed 2)
  | 'H' => some (unsigned 2)
  | 'i' => some (signed 4)
  | 'I' => some (unsigned 4)
  | 'q' => some (signed 8)
  | 'Q' => some (unsigned 8)
  | 'f' => some single
  | 'd' => some double
  | _ => none

/-- The value of a field whose bytes form the given number. -/
def value (field : LayoutField) (number : Nat) : FieldValue :=
  match field with
  | unsigned _ => .whole number
  | signed size => .whole (Bytes.signed size number)
  | single => .real (.single number)
  | double => .real (.double number)

end LayoutField

/-- A byte order and the fields in order. -/
structure RecordLayout where
  order : ByteOrder
  fields : List LayoutField
  deriving DecidableEq, Repr

namespace RecordLayout

/-- The number of bytes of all fields. -/
def size (layout : RecordLayout) : Nat :=
  layout.fields.foldr (fun field total ↦ field.size + total) 0

/-- The layout written as `>` or `<` for the byte order and a letter for each field. -/
def ofString? (string : String) : Option RecordLayout :=
  match string.toList with
  | '>' :: letters => (letters.mapM LayoutField.ofLetter?).map (⟨.mostSignificantFirst, ·⟩)
  | '<' :: letters => (letters.mapM LayoutField.ofLetter?).map (⟨.leastSignificantFirst, ·⟩)
  | _ => none

/-- The number that bytes form in a byte order. -/
def number (order : ByteOrder) (bytes : Bytes) : Nat :=
  match order with
  | .mostSignificantFirst => bytes.toNat
  | .leastSignificantFirst => Bytes.toNat bytes.reverse

/-- Reads all fields and answers the first. -/
def read (layout : RecordLayout) : Scan FieldValue := do
  let bytes ← Scan.take layout.size
  match layout.fields with
  | [] => throw .emptyLayout
  | field :: _ => return field.value (number layout.order (bytes.take field.size))

end RecordLayout

end ClassInspect
