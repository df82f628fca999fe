import ClassInspect.Fault
import ClassInspect.Log

/-!
# Computations with a log

A computation that writes log records and may fail. The records written before a failure are
kept.
-/

namespace ClassInspect

/-- A computation that logs and may fail. -/
abbrev Logged := EStateM Fault Log

namespace Logged

/-- Writes a log record. -/
def note (level : Log.Level) (source : Log.Source) (message : Text) : Logged Unit :=
  modify (·.push ⟨level, source, message⟩)

/-- Passes on an outcome that comes without log records. -/
def ofExcept {α : Type} : Except Fault α → Logged α
  | .ok value => pure value
  | .error fault => throw fault

/-- The outcome of a computation that starts with an empty log, and the log it wrote. -/
def outcome {α : Type} (computation : Logged α) : Except Fault α × Log :=
  match computation #[] with
  | .ok value log => (.ok value, log)
  | .error fault log => (.error fault, log)

end Logged

end ClassInspect
