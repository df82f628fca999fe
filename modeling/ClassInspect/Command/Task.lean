import ClassInspect.Analysis
import ClassInspect.Command.Console
import ClassInspect.Highlight.Terminal
import ClassInspect.Report.Dump
import ClassInspect.Report.Listing

/-!
# Tasks

What the command line does, as a function of the arguments and of what can be seen of the world.
The reports of a class are written whole or not at all, except that with `--constants` the dump
comes before the listings; the classes of a jar are written one by one.
-/

namespace ClassInspect.Command

/-- A report as it is written: without lone surrogates, in colour if asked for, and with a line
feed at its end. -/
def reportText (colour : Bool) (text : Text) : String :=
  let chars := if colour then Terminal.highlight text.escapedChars else text.escapedChars
  String.ofList (if chars.getLast? = some '\n' then chars else chars ++ ['\n'])

/-- Writes a report. -/
def emit (colour : Bool) (text : Text) : Run Unit :=
  Run.put (.out (reportText colour text))

/-- The dump of a class, or the fault that stops it. -/
def dumpText (file : ClassFile) : Except Fault Text :=
  match file.dump with
  | (text, none) => .ok text
  | (_, some fault) => .error fault

/-- The methods to list. -/
def selectMethods (methods : MethodTable) : MethodChoice → Run (List Method)
  | .all => return methods.map MethodEntry.method
  | .unnamed => throw (.fault .signatureWithoutValue)
  | .one signature =>
    match methods.find? (.lit signature) with
    | some entry => return [entry.method]
    | none => do
      Run.note .error .command (.lit s!"No method with signature {signature}")
      throw (.exit 1)

/-- Writes the listings of methods. -/
def javap (colour : Bool) (choice : MethodChoice) (constants : Bool) (data : Bytes)
    (verbose : Bool) : Run Unit := do
  let analysis ← Run.ofLogged (Analysis.ofBytes data verbose)
  if constants then
    emit colour (← Run.ofExcept (dumpText analysis.file))
  let methods ← selectMethods analysis.methods choice
  let listings ← Run.ofLogged (methods.mapM (·.listing analysis.file.pool))
  emit colour (.lines listings)

/-- Writes the name of every class of a jar. -/
def visitClasses (jar : Jar) (verbose : Bool) : List String → Run Unit
  | [] => return
  | name :: names => do
    let file ← Run.ofLogged (jar.load verbose name)
    emit false (.lit s!"{name}: " ++ file.thisClass)
    visitClasses jar verbose names

/-- Walks through a jar. -/
def walkJar (files : FileSystem) (path : String) (verbose : Bool) : Run Unit := do
  Run.ofLogged (Jar.announce path)
  if path.contains nul then throw (.fault .nulInPath)
  match files.openFile path with
  | .error problem => throw (.unreadable path problem)
  | .ok place =>
    match files.node? place with
    | some (.archive entries) =>
      let jar : Jar := ⟨path, entries⟩
      Run.ofLogged jar.enter
      visitClasses jar verbose jar.classNames
    | _ => throw .notAnArchive

/-- Reads an input to its end. The file of the report holds the records written so far. -/
def readInput (env : Environment) (settings : Settings) (files : FileSystem) : Input → Run Bytes
  | .stdin => return env.stdin
  | .file place => do
    if settings.report = some (.file place) then
      return (Transcript.ofOutputs env.clock settings (← get)).report.toUTF8.toList
    else return files.contents place

/-- Inspects a class or a jar. -/
def inspect (files : FileSystem) (read : Input → Run Bytes) (verbose : Bool) :
    Inspection → Run Unit
  | .nothing => do
    Run.put (.out javaProgram.usageText)
    throw (.exit 1)
  | .summary colour input => do
    let analysis ← Run.ofLogged (Analysis.ofBytes (← read input) verbose)
    emit colour analysis.summary
  | .methods input => do
    let analysis ← Run.ofLogged (Analysis.ofBytes (← read input) verbose)
    for entry in analysis.methods do
      emit false entry.signature
  | .javap colour choice constants input => do
    javap colour choice constants (← read input) verbose
  | .jar path => walkJar files path verbose

/-- Prints a file in hexadecimal. The plain listing of an empty file prints nothing. -/
def hexdump (room : HexDump.Room) (width? : Option Int) (canonical : Bool) (data : Bytes) :
    Run Unit := do
  if canonical || !data.isEmpty then
    match width? with
    | none => throw (.fault (.widthWithoutValue canonical))
    | some width =>
      if canonical then Run.put (.out (← Run.ofExcept (HexDump.canonical room data 0 width)))
      else Run.put (.out ((← Run.ofExcept (HexDump.listing data width)) ++ "\n"))

/-- Performs a task. -/
def perform (env : Environment) (files : FileSystem) (invocation : Invocation) : Run Unit := do
  let read := readInput env invocation.settings files
  match invocation.task with
  | .hexdump width? canonical input => hexdump env.room width? canonical (← read input)
  | .inspect inspection => inspect files read (1 < invocation.settings.verbosity) inspection

/-- What a run leaves behind: its status, the text on the two streams, and the files it wrote. -/
structure Outcome where
  status : Status
  stdout : String
  stderr : String
  files : List (Place × String)

/-- The files in the working directory that were not there before, by path. -/
def Outcome.newFiles (outcome : Outcome) (env : Environment) : List (String × String) :=
  outcome.files.filterMap fun (place, text) ↦
    if place.isInside && (env.files.node? place).isNone then some (place.path, text) else none

/-- The files written, with the text of the report in the one it was written to. -/
def writtenFiles (disk : Disk) (report : Option ReportTarget) (text : String) :
    List (Place × String) :=
  disk.written.map fun place ↦ (place, if report = some (.file place) then text else "")

/-- Whether the console can be set up, which takes a level unless more messages were asked for. -/
def Settings.isComplete (settings : Settings) : Bool :=
  0 < settings.verbosity || settings.threshold.isSome

/-- Runs a tool once its arguments are read. -/
def runTool (env : Environment) (setup : Setup Invocation) : Outcome :=
  match setup ⟨env.files, []⟩ with
  | .error (.shown text) disk => ⟨.ok 0, text, "", writtenFiles disk none ""⟩
  | .error (.refused text) disk => ⟨.ok 2, "", text, writtenFiles disk none ""⟩
  | .ok invocation disk =>
    let settings := invocation.settings
    if settings.isComplete then
      let (status, outputs) :=
        match supervise env.versionText (perform env disk.files invocation) #[] with
        | .ok status outputs => (status, outputs)
        | .error _ outputs => (.ok 1, outputs)
      let transcript := Transcript.ofOutputs env.clock settings outputs
      ⟨status, transcript.stdout, transcript.stderr,
        writtenFiles disk settings.report transcript.report⟩
    else ⟨.error .levelWithoutValue, "", "", writtenFiles disk none ""⟩

/-- Runs the command line. -/
def run (env : Environment) : List String → Outcome
  | "hexdump" :: arguments => runTool env (hexdumpInvocation env arguments)
  | "java" :: arguments => runTool env (inspectInvocation env arguments)
  | _ => ⟨.ok 0, overview, "", []⟩

end ClassInspect.Command
