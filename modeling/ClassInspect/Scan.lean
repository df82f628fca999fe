import ClassInspect.Cursor
import ClassInspect.Logged

/-!
# Scans

A scan reads values one after the other through a cursor and may write log records. It stops
at the first fault, and then the cursor and the log stay as they were at that moment, so a
failed scan still tells how far it came.

`Scan.times` repeats a scan a given number of times. All lists in a class file and in switch
tables are read by it, so what holds of every element holds of the lists by one induction
(`Scan.times_zero`, `Scan.times_succ`).
-/

namespace ClassInspect

/-- What a scan works on. -/
structure Scan.State where
  cursor : Cursor
  log : Log
  deriving Repr

/-- A computation that reads through a cursor, logs, and may fail. -/
abbrev Scan := EStateM Fault Scan.State

namespace Scan

/-- The state at the front of a byte string with an empty log. -/
def State.start (data : Bytes) (base : Int) : State :=
  ⟨.start data base, #[]⟩

/-- Fails with a problem at a given position. -/
def fail {α : Type} (problem : Problem) (offset : Int) : Scan α :=
  throw (.format problem (some offset))

/-- The position in the file. -/
def place : Scan Int := do
  return (← get).cursor.place

/-- The number of bytes already read. -/
def pos : Scan Nat := do
  return (← get).cursor.pos

/-- Fails with a problem at the current position. -/
def failHere {α : Type} (problem : Problem) : Scan α := do
  fail problem (← place)

/-- A scan that must leave no byte. The problem is told how many it left. -/
def exhaust {α : Type} (problem : Nat → Problem) (scan : Scan α) : Scan α := do
  let value ← scan
  let cursor := (← get).cursor
  unless cursor.atEnd do
    failHere (problem cursor.remaining)
  return value

/-- Passes on the outcome of a computation that needs no cursor. -/
def ofExcept {α : Type} : Except Fault α → Scan α
  | .ok value => pure value
  | .error fault => throw fault

/-- Stops with a breach unless what is relied on holds. -/
def rely (condition : Bool) (breach : Breach) : Scan Unit :=
  if condition then pure () else throw (.breach breach)

/-- Writes a log record. -/
def note (level : Log.Level) (source : Log.Source) (message : Text) : Scan Unit :=
  modify fun s ↦ { s with log := s.log.push ⟨level, source, message⟩ }

/-- The next `size` bytes. -/
def take (size : Int) : Scan Bytes := fun s ↦
  match s.cursor.take size with
  | .ok (bytes, cursor) => .ok bytes { s with cursor := cursor }
  | .error fault => .error fault s

/-- Moves over the next `size` bytes. -/
def skip (size : Int) : Scan Unit := do
  let _ ← take size

/-- The number that `size` bytes form, most significant byte first. Any other number of bytes
forms none. -/
def number (size : Nat) (bytes : Bytes) : Scan Nat :=
  if bytes.length = size then pure bytes.toNat else throw (.breach (.wrongSize size))

/-- An unsigned number of `size` bytes, most significant byte first. -/
def unsigned (size : Nat) : Scan Nat := do
  number size (← take size)

/-- A two's complement number of `size` bytes, most significant byte first. -/
def signed (size : Nat) : Scan Int := do
  return Bytes.signed size (← unsigned size)

/-- An unsigned byte. -/
def u8 : Scan Nat := unsigned 1

/-- A signed byte. -/
def i8 : Scan Int := signed 1

/-- An unsigned number of two bytes. -/
def u16 : Scan Nat := unsigned 2

/-- A signed number of two bytes. -/
def i16 : Scan Int := signed 2

/-- An unsigned number of four bytes. -/
def u32 : Scan Nat := unsigned 4

/-- A signed number of four bytes. -/
def i32 : Scan Int := signed 4

/-- A signed number of eight bytes. -/
def i64 : Scan Int := signed 8

/-- The bits of a floating-point number of four bytes. -/
def f32 : Scan UInt32 := do
  return .ofNat (← unsigned 4)

/-- The bits of a floating-point number of eight bytes. -/
def f64 : Scan UInt64 := do
  return .ofNat (← unsigned 8)

/-- Repeats a scan and adds its results to those in `done`, which has the last one first. -/
def timesOnto {α : Type} (scan : Scan α) : (count : Nat) → (done : List α) → Scan (List α)
  | 0, done => pure done.reverse
  | count + 1, done => do
    let value ← scan
    timesOnto scan count (value :: done)

/-- The results of a scan repeated `count` times. -/
def times {α : Type} (count : Nat) (scan : Scan α) : Scan (List α) :=
  timesOnto scan count []

/-- Results that are already there come first. -/
theorem timesOnto_eq {α : Type} (scan : Scan α) (count : Nat) (done : List α) :
    timesOnto scan count done = (done.reverse ++ ·) <$> times count scan := by
  induction count generalizing done with
  | zero => simp [timesOnto, times]
  | succ count ih =>
    simp only [times, timesOnto, map_bind]
    congr
    funext value
    rw [ih (value :: done), ih [value], ← comp_map]
    congr
    funext rest
    simp

@[simp] theorem times_zero {α : Type} (scan : Scan α) : times 0 scan = pure [] :=
  rfl

/-- A repetition is one scan followed by the remaining ones. -/
theorem times_succ {α : Type} (count : Nat) (scan : Scan α) :
    times (count + 1) scan = (do
      let value ← scan
      let values ← times count scan
      pure (value :: values)) := by
  rw [times, timesOnto]
  congr
  funext value
  rw [timesOnto_eq, map_eq_pure_bind]
  rfl

/-- A list that starts with the number of its elements. -/
def counted {α : Type} (scan : Scan α) : Scan (List α) := do
  times (← u16) scan

/-- Runs a scan over a byte string of its own, which begins at the given position of the
file. The cursor outside does not move. -/
def within {α : Type} (data : Bytes) (base : Int) (scan : Scan α) : Scan α := fun s ↦
  match scan ⟨.start data base, s.log⟩ with
  | .ok value inner => .ok value { s with log := inner.log }
  | .error fault inner => .error fault { s with log := inner.log }

/-- A scan over a whole byte string that begins at the given position of its file. -/
def onBytes {α : Type} (data : Bytes) (base : Int) (scan : Scan α) : Logged α := fun log ↦
  match scan ⟨.start data base, log⟩ with
  | .ok value s => .ok value s.log
  | .error fault s => .error fault s.log

end Scan

end ClassInspect
