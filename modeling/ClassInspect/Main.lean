import ClassInspect.Command.Task
import Std.Time.DateTime

/-!
# The command line

Collects what the arguments can refer to, runs the program on it, and writes out what it leaves
behind.
-/

namespace ClassInspect.Main

open Command

/-- The paths that an argument can name: itself, what stands behind an equals sign, and what is
joined to a letter. -/
def candidatePaths (argument : String) : List String :=
  let chars := argument.toList
  [argument, String.ofList ((chars.dropWhile (· ≠ '=')).drop 1), String.ofList (chars.drop 2)]

/-- The node at a path, or nothing if it cannot be read. -/
def probe (path : String) : IO (Option FileNode) := do
  try
    let bytes := (← IO.FS.readBinFile path).toList
    match Archive.decode? bytes with
    | some entries => return some (.archive entries)
    | none => return some (.data bytes)
  catch
    | .inappropriateType .. => return some .directory
    | _ => return none

/-- A path and the paths of all that it leads through. -/
def stations (path : String) : List String :=
  let parts := path.splitOn "/"
  (List.range (parts.length + 1)).map fun count ↦ "/".intercalate (parts.take count)

/-- The files that arguments can refer to, with the directories on the way to them. -/
def collectFiles (arguments : List String) : IO FileSystem := do
  let mut files := []
  for path in ((arguments.flatMap candidatePaths).flatMap stations).eraseDups do
    if path ≠ "" && !path.contains nul then
      if let some node ← probe path then
        files := files ++ [(path, node)]
  return .ofPaths files

/-- Everything on a stream. -/
partial def readAll (stream : IO.FS.Stream) (done : ByteArray) : IO ByteArray := do
  let more ← stream.read 65536
  if more.isEmpty then return done else readAll stream (done ++ more)

/-- A number with at least the given number of digits. -/
def digits (width : Nat) (value : Int) : String :=
  String.ofList (Layout.padLeft '0' width (toString value).toList)

/-- The time in log lines. -/
def clockText : IO String := do
  let time := Std.Time.DateTime.ofTimestampWithZone (← Std.Time.Timestamp.now) Std.Time.TimeZone.UTC
  let date := s!"{digits 4 time.year.toInt}-{digits 2 time.month.val}-{digits 2 time.day.val}"
  let clock :=
    s!"{digits 2 time.hour.val}:{digits 2 time.minute.val}:{digits 2 time.second.val}"
  return s!"{date} {clock},{digits 3 (time.nanosecond.val / 1000000)}"

/-- The room for a line: none is tried that takes more than a tebibyte. -/
def room : HexDump.Room := ⟨0x10000000000, by decide⟩

/-- What the program can see of the world. -/
def environment (arguments : List String) : IO Environment := do
  let stdin ←
    if arguments.contains "-" then readAll (← IO.getStdin) .empty else pure .empty
  return ⟨← collectFiles arguments, stdin.toList, ← clockText, "Lean 4", room⟩

end ClassInspect.Main

open ClassInspect in
/-- Runs the program. -/
def main (arguments : List String) : IO UInt32 := do
  let outcome := Command.run (← Main.environment arguments) arguments
  for (place, content) in outcome.files do
    IO.FS.writeFile place.path content
  IO.print outcome.stdout
  IO.eprint outcome.stderr
  match outcome.status with
  | .ok status => return .ofNat status
  | .error fault =>
    IO.eprintln fault.message.escaped
    return 1
