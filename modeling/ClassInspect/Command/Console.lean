import ClassInspect.Command.Invocation
import ClassInspect.Logged
import ClassInspect.Text.Layout

/-!
# The console

What a run puts out is a sequence of log records and pieces of text, in order. The console shows
it: records that are severe enough in colour on the error stream, all records in the report if
there is one, and the pieces on the stream they were written to.
-/

namespace ClassInspect.Command

/-- Something that a run puts out. -/
inductive Output where
  | record (record : LogRecord)
  | out (text : String)
  | err (text : String)
  deriving Repr

/-- The line of a log record. -/
def recordLine (clock : String) (record : LogRecord) : String :=
  let source := String.ofList (record.source.name.toList.take 10)
  clock ++ " | " ++ Layout.right 8 record.level.name ++ " | " ++ Layout.right 10 source ++
    " | " ++ record.message.escaped

/-- The number of a level's colour. -/
def levelColour? : Log.Level → Option String
  | .debug => some "36"
  | .info => none
  | .warning => some "33"
  | .error => some "31"

/-- The line of a log record in the colour of its level. -/
def colouredLine (clock : String) (record : LogRecord) : String :=
  let line := recordLine clock record
  match levelColour? record.level with
  | some colour => s!"\x1b[1;{colour}m{line}\x1b[0m"
  | none => line

/-- The text on the streams and in the report. -/
structure Transcript where
  stdout : String
  stderr : String
  report : String
  deriving Repr

namespace Transcript

/-- Nothing written yet. -/
def empty : Transcript := ⟨"", "", ""⟩

/-- Writes a record into the report. -/
def writeReport (target : Option ReportTarget) (line : String) (t : Transcript) : Transcript :=
  match target with
  | none | some .nowhere => t
  | some .output => { t with stdout := t.stdout ++ line ++ "\n" }
  | some (.file _) => { t with report := t.report ++ line ++ "\n" }

/-- The least severity shown: everything, if more messages were asked for. -/
def leastShown (settings : Settings) : Nat :=
  if 0 < settings.verbosity then 10 else settings.threshold.getD 0

/-- Writes one output. -/
def write (clock : String) (settings : Settings) (t : Transcript) : Output → Transcript
  | .out text => { t with stdout := t.stdout ++ text }
  | .err text => { t with stderr := t.stderr ++ text }
  | .record record =>
    let shown :=
      if leastShown settings ≤ record.level.severity then
        { t with stderr := t.stderr ++ colouredLine clock record ++ "\n" }
      else t
    shown.writeReport settings.report (recordLine clock record)

/-- Writes outputs in order. -/
def ofOutputs (clock : String) (settings : Settings) (outputs : Array Output) : Transcript :=
  outputs.foldl (write clock settings) empty

end Transcript

/-- Why a task ended early. -/
inductive Stop where
  /-- The program ends with a status. -/
  | exit (status : Nat)
  | fault (fault : Fault)
  /-- A file that should be a jar is not an archive. -/
  | notAnArchive
  | unreadable (path : String) (problem : FileProblem)
  deriving Repr

/-- A task that puts out records and text. -/
abbrev Run := EStateM Stop (Array Output)

namespace Run

/-- Puts something out. -/
def put (output : Output) : Run Unit :=
  modify (·.push output)

/-- Writes a log record. -/
def note (level : Log.Level) (source : Log.Source) (message : Text) : Run Unit :=
  put (.record ⟨level, source, message⟩)

/-- Runs a logging computation, whose records are put out. -/
def ofLogged {α : Type} (computation : Logged α) : Run α := fun outputs ↦
  match computation #[] with
  | .ok value log => .ok value (outputs ++ log.map .record)
  | .error fault log => .error (.fault fault) (outputs ++ log.map .record)

/-- Passes on an outcome. -/
def ofExcept {α : Type} : Except Fault α → Run α
  | .ok value => pure value
  | .error fault => throw (.fault fault)

end Run

/-- How a run ends: with a status, or with a fault that nothing handles. -/
abbrev Status := Except Fault Nat

/-- Reports why a task ended early, and gives the status of the run. -/
def reportStop : Stop → Run Status
  | .exit status => return .ok status
  | .fault fault =>
    match fault.formatError? with
    | none => return .error fault
    | some e => do
      Run.note .error .console (.lit "Error processing file: " ++ e.line)
      if let some offset := e.offset then
        Run.note .debug .console (.lit s!"Problem found at byte {offset}")
      Run.put (.err e.printed.escaped)
      return .ok 1
  | .notAnArchive => do
    Run.note .error .console (.lit "Not a valid jar file: File is not a zip file")
    return .ok 1
  | .unreadable path problem => do
    Run.note .error .console (.lit s!"Cannot read file: {problem.message path}")
    return .ok 1

/-- Runs a task with the records that go with every run. -/
def supervise (version : String) (task : Run Unit) : Run Status := fun outputs ↦
  let opening : Run Unit := do
    Run.note .debug .console (.lit "Loggers attached")
    Run.note .debug .console (.lit version)
  let closing (status : Run Status) : Run Status := do
    let status ← status
    Run.note .debug .console (.lit "Removing loggers")
    return status
  match (do opening; task : Run Unit) outputs with
  | .ok _ outputs => closing (pure (.ok 0)) outputs
  | .error stop outputs => closing (reportStop stop) outputs

end ClassInspect.Command
