import ClassInspect.Fault
import ClassInspect.Text.Layout

/-!
# Hexadecimal listings

Bytes in lines of a given number. The plain listing has upper-case pairs between single blanks.
The canonical dump has the address in front, lower-case pairs in groups of eight, and the
characters between bars, a point standing for every byte that is not a visible character.
A width below one is refused, also for empty data.

The pairs of a line are padded to the width of a full row, which may be wider than any text can be,
or wider than there is room for. How much room there is depends on where the program runs, so it is
a parameter of the canonical dump (`HexDump.Room`).
-/

namespace ClassInspect

namespace HexDump

/-- Cuts a list into pieces of `size` elements, the last one possibly shorter, and adds them to
those in `done`, which has the last one first. A size of zero gives no pieces. -/
def chunksOnto {α : Type} (size : Nat) (done : List (List α)) (items : List α) :
    List (List α) :=
  if _h : size = 0 ∨ items = [] then done.reverse
  else chunksOnto size (items.take size :: done) (items.drop size)
termination_by items.length
decreasing_by
  have : items.length ≠ 0 := fun empty ↦ _h (.inr (List.length_eq_zero_iff.1 empty))
  simp only [List.length_drop]
  omega

/-- Cuts a list into pieces of `size` elements, the last one possibly shorter. -/
def chunks {α : Type} (size : Nat) (items : List α) : List (List α) :=
  chunksOnto size [] items

/-- Pieces that are already there come first. -/
theorem chunksOnto_eq {α : Type} (size : Nat) (done : List (List α)) (items : List α) :
    chunksOnto size done items = done.reverse ++ chunks size items := by
  unfold chunks
  induction hn : items.length using Nat.strongRecOn generalizing items done with
  | ind n ih =>
    subst hn
    rw [chunksOnto.eq_def size done items, chunksOnto.eq_def size [] items]
    by_cases stop : size = 0 ∨ items = []
    · simp [stop]
    · have : items.length ≠ 0 := fun empty ↦ stop (.inr (List.length_eq_zero_iff.1 empty))
      have shorter : (items.drop size).length < items.length := by
        simp only [List.length_drop]
        omega
      rw [dif_neg stop, dif_neg stop, ih _ shorter _ _ rfl, ih _ shorter [_] _ rfl]
      simp

/-- The pieces of a list are its first elements and the pieces of the others. -/
theorem chunks_eq {α : Type} (size : Nat) (items : List α) :
    chunks size items =
      if size = 0 ∨ items = [] then []
      else items.take size :: chunks size (items.drop size) := by
  rw [chunks, chunksOnto]
  by_cases h : size = 0 ∨ items = []
  · simp [h]
  · simp only [h, dite_false, if_false]
    rw [chunksOnto_eq]
    rfl

/-- The pieces for lines of a width that must be at least one. -/
def rows (data : Bytes) (width : Int) : Except Fault (List Bytes) :=
  if width < 1 then .error (.chunkSize width) else .ok (chunks width.toNat data)

/-- Items with a separator between neighbours. -/
def separated (separator : List Char) : List (List Char) → List Char
  | [] => []
  | [item] => item
  | item :: items => item ++ separator ++ separated separator items

/-- A line of the plain listing. -/
def plainLine (row : Bytes) : List Char :=
  separated [' '] (row.map Hex.upperPair)

/-- The plain listing. -/
def listing (data : Bytes) (width : Int) : Except Fault String := do
  let rows ← rows data width
  return "\n".intercalate (rows.map fun row ↦ String.ofList (plainLine row))

/-- The width of the plain listing unless another is asked for. -/
def defaultWidth : Int := 16

/-- The character shown for a byte. -/
def visible (byte : UInt8) : Char :=
  if 33 ≤ byte ∧ byte ≤ 126 then Char.ofNat byte.toNat else '.'

/-- The pairs of a row, in groups of eight. -/
def groups (row : Bytes) : List Char :=
  separated [' ', ' ']
    ((chunks 8 row).map fun group ↦ separated [' '] (group.map Hex.pair))

/-- The number of columns for the pairs of a full row. -/
def groupsWidth (width : Nat) : Nat :=
  width * 3 - 1 + (width - 1) / 8

/-- A line of the canonical dump. -/
def canonicalLine (width : Nat) (address : Int) (row : Bytes) : List Char :=
  Layout.zeroHex 8 address ++ [' ', ' '] ++
    Layout.padRight ' ' (groupsWidth width) (groups row) ++ [' ', ' ', '|'] ++
    row.map visible ++ ['|']

/-- The most columns that can be counted. -/
def maxColumns : Nat := 0x7FFFFFFFFFFFFFFF

/-- The room for a line: the most columns for its pairs that can be stored. -/
structure Room where
  columns : Nat
  /-- Nothing is stored that cannot be counted. -/
  columns_le : columns ≤ maxColumns
  deriving Repr

/-- Refuses rows whose lines would be too long. Without a row there is no line. -/
def checkColumns (room : Room) (rows : List Bytes) (columns : Nat) : Except Fault Unit :=
  if rows.isEmpty then .ok ()
  else if maxColumns < columns then .error .tooManyColumns
  else if room.columns < columns then .error .outOfMemory
  else .ok ()

/-- The lines of the canonical dump. -/
def canonicalLines (room : Room) (data : Bytes) (address : Int) (width : Int) :
    Except Fault (List (List Char)) := do
  let rows ← rows data width
  checkColumns room rows (groupsWidth width.toNat)
  return rows.mapIdx fun index row ↦
    canonicalLine width.toNat (address + width * index) row

/-- The canonical dump, each line with its line feed. -/
def canonical (room : Room) (data : Bytes) (address : Int) (width : Int) :
    Except Fault String := do
  let lines ← canonicalLines room data address width
  return String.ofList (lines.flatMap (· ++ ['\n']))

end HexDump

end ClassInspect
