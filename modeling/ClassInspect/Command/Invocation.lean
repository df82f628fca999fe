import ClassInspect.Command.Files
import ClassInspect.Command.Usage
import ClassInspect.HexDump
import ClassInspect.Number.Decimal

/-!
# Invocations

What an argument list asks for. Values are converted in the order in which the arguments stand,
and files are opened then, so a report file is created even if a later argument is refused, and
the first bad value is the one reported. A request for help or for the version ends the
reading of arguments on the spot.
-/

namespace ClassInspect.Command

open Arguments (Occurrence)

/-- Where a report goes. It goes nowhere if it was asked for without a value. -/
inductive ReportTarget where
  | nowhere
  | output
  | file (place : Place)
  deriving DecidableEq, Repr

/-- The settings of every tool. -/
structure Settings where
  /-- The least severity shown on the console, unless it was asked for without a value. -/
  threshold : Option Nat
  report : Option ReportTarget
  /-- How often more messages were asked for. -/
  verbosity : Nat
  deriving Repr

/-- Warnings and errors are shown, and no report is written. -/
def Settings.initial : Settings := ⟨some 30, none, 0⟩

/-- Where bytes are read from. A file is open from the time its path was read, but its bytes are
those it has when the task reads it. -/
inductive Input where
  | stdin
  | file (place : Place)
  deriving DecidableEq, Repr

/-- Which methods to list. -/
inductive MethodChoice where
  | all
  | one (signature : String)
  /-- One method was asked for without a signature. -/
  | unnamed
  deriving DecidableEq, Repr

/-- What to do with a class file or a jar. -/
inductive Inspection where
  /-- No command was given. -/
  | nothing
  | summary (colour : Bool) (input : Input)
  | methods (input : Input)
  | javap (colour : Bool) (choice : MethodChoice) (constants : Bool) (input : Input)
  | jar (path : String)
  deriving Repr

/-- What to do. -/
inductive Task where
  /-- Print a file. The width may have been asked for without a value. -/
  | hexdump (width : Option Int) (canonical : Bool) (input : Input)
  | inspect (inspection : Inspection)
  deriving Repr

/-- A task and how to report on it. -/
structure Invocation where
  settings : Settings
  task : Task
  deriving Repr

/-- What a run can see of the world. -/
structure Environment where
  files : FileSystem
  stdin : Bytes
  /-- The time in log lines. -/
  clock : String
  /-- What the program runs on. -/
  platform : String
  /-- The room for a line of a dump. -/
  room : HexDump.Room
  deriving Repr

/-- The version of the program and what it runs on. -/
def Environment.versionText (env : Environment) : String :=
  s!"classlens 0.1.0 on {env.platform}"

/-- Why reading arguments ended without an invocation: a text was asked for, or the arguments
were refused with a message. -/
inductive Quit where
  | shown (text : String)
  | refused (text : String)
  deriving DecidableEq, Repr

/-- Files, and the places of those that were opened for writing. -/
structure Disk where
  files : FileSystem
  written : List Place
  deriving Repr

/-- Opens a place for writing. -/
def Disk.clear (disk : Disk) (place : Place) : Disk :=
  ⟨disk.files.clear place,
    if disk.written.contains place then disk.written else disk.written ++ [place]⟩

/-- Reading of arguments. The files are kept when it ends early. -/
abbrev Setup := EStateM Quit Disk

/-- The character that no path can hold. -/
def nul : Char := '\x00'

namespace Setup

/-- Refuses arguments of a program. -/
def refuse {α : Type} (program : Program) (message : String) : Setup α :=
  throw (.refused (program.usageText ++ s!"{program.name}: error: {message}\n"))

/-- Refuses the value of an argument. -/
def refuseValue {α : Type} (program : Program) (title message : String) : Setup α :=
  refuse program s!"argument {title}: {message}"

/-- Refuses a value that is not of the expected type. -/
def refuseType {α : Type} (program : Program) (title type value : String) : Setup α :=
  refuseValue program title s!"invalid {type} value: {Text.quoted (Text.lit value)}"

/-- Refuses a file that cannot be opened. -/
def refuseFile {α : Type} (program : Program) (title path : String) (problem : FileProblem) :
    Setup α :=
  refuseValue program title s!"can't open '{path}': {problem.message path}"

/-- Opens an input. A single dash is the standard input. -/
def openInput (program : Program) (path : String) : Setup Input := do
  if path = "-" then return .stdin
  if path.contains nul then refuseType program program.positional "FileType('rb')" path
  match (← get).files.openFile path with
  | .ok place => return .file place
  | .error problem => refuseFile program program.positional path problem

/-- The target of a report. A single dash is the standard output. -/
def openReport (program : Program) (title path : String) : Setup ReportTarget := do
  if path = "-" then return .output
  if path.contains nul then refuseType program title "FileType('w')" path
  match (← get).files.createFile path with
  | .ok place =>
    modify (·.clear place)
    return .file place
  | .error problem => refuseFile program title path problem

end Setup

/-- The capital of a letter. Two letters beyond ASCII have a capital within it. -/
def capital (c : Char) : Char :=
  if c = 'ı' then 'I' else if c = 'ſ' then 'S' else c.toUpper

/-- The severity of a level given by its name, in any case. -/
def threshold? (name : String) : Option Nat :=
  match String.ofList (name.toList.map capital) with
  | "CRITICAL" | "FATAL" => some 50
  | "ERROR" => some 40
  | "WARNING" | "WARN" => some 30
  | "INFO" => some 20
  | "DEBUG" => some 10
  | "NOTSET" => some 0
  | _ => none

/-- A width, which is at least one. -/
def width? (value : String) : Option Int :=
  (Decimal.whole? value.toList).filter (1 ≤ ·)

/-- Handles an option of every tool. -/
def commonOption (env : Environment) (program : Program) (key : Key) (title name : String)
    (value : Option String) (settings : Settings) : Setup Settings :=
  match key with
  | .help => throw (.shown program.helpText)
  | .version => throw (.shown (env.versionText ++ "\n"))
  | .verbose => return { settings with verbosity := settings.verbosity + 1 }
  | .log =>
    match value with
    | none => return { settings with threshold := none }
    | some level =>
      match threshold? level with
      | some threshold => return { settings with threshold := some threshold }
      | none => Setup.refuseType program title "log_level" level
  | .report => do
    let target ←
      match value with
      | none => pure ReportTarget.nowhere
      | some path => Setup.openReport program title path
    if settings.report.isSome then
      Setup.refuseValue program title s!"{name} given more than once"
    else return { settings with report := some target }
  | _ => return settings

/-- Handles what was found in an argument list in order, then its problem. -/
def handleAll {σ : Type} (program : Program) (handle : σ → Occurrence Key → Setup σ)
    (initial : σ) (arguments : List String) : Setup (σ × List String) := do
  match program.grammar.parse arguments with
  | .error problem => Setup.refuse program problem.message
  | .ok parse =>
    let state ← parse.occurrences.foldlM handle initial
    match parse.problem with
    | some problem => Setup.refuse program problem.message
    | none => return (state, parse.extras)

/-- Refuses arguments that nothing wanted. -/
def refuseExtras (program : Program) (extras : List String) : Setup Unit :=
  unless extras.isEmpty do
    Setup.refuse program ("unrecognized arguments: " ++ " ".intercalate extras)

/-- The value of an argument that must be there. -/
def required {α : Type} (program : Program) : Option α → Setup α
  | some value => return value
  | none => Setup.refuse program s!"the following arguments are required: {program.positional}"

/-- The arguments of the tool that prints files. -/
structure HexdumpState where
  settings : Settings
  width : Option Int
  canonical : Bool
  input : Option Input

/-- Handles an argument of the tool that prints files. -/
def hexdumpArgument (env : Environment) (state : HexdumpState) :
    Occurrence Key → Setup HexdumpState
  | .positional values => do
    return { state with input := some (← Setup.openInput hexdumpProgram (values.headD "")) }
  | .option spec name value =>
    match spec.key with
    | .width =>
      match value with
      | none => return { state with width := none }
      | some text =>
        match width? text with
        | some width => return { state with width := some width }
        | none => Setup.refuseType hexdumpProgram spec.title "positive_int" text
    | .canonical => return { state with canonical := true }
    | key => do
      let settings ← commonOption env hexdumpProgram key spec.title name value state.settings
      return { state with settings := settings }

/-- Reads the arguments of the tool that prints files. -/
def hexdumpInvocation (env : Environment) (arguments : List String) : Setup Invocation := do
  let (state, extras) ← handleAll hexdumpProgram (hexdumpArgument env)
    ⟨.initial, some HexDump.defaultWidth, false, none⟩ arguments
  let input ← required hexdumpProgram state.input
  refuseExtras hexdumpProgram extras
  return ⟨state.settings, .hexdump state.width state.canonical input⟩

/-- The arguments of a command. -/
structure CommandState (ι : Type) where
  colour : Bool
  choice : MethodChoice
  constants : Bool
  input : Option ι

/-- Handles an argument of a command. The positional argument is opened at once. -/
def commandArgument {ι : Type} (program : Program) (openWith : String → Setup ι)
    (state : CommandState ι) : Occurrence Key → Setup (CommandState ι)
  | .positional values => do
    return { state with input := some (← openWith (values.headD "")) }
  | .option spec _ value =>
    match spec.key with
    | .help => throw (.shown program.helpText)
    | .colour => return { state with colour := true }
    | .method =>
      return { state with choice := (value.map MethodChoice.one).getD .unnamed }
    | .constants => return { state with constants := true }
    | _ => return state

/-- Reads the arguments of a command. Arguments that it does not know are handed back. -/
def commandArguments {ι : Type} (program : Program) (openWith : String → Setup ι)
    (arguments : List String) : Setup (CommandState ι × ι × List String) := do
  let (state, extras) ← handleAll program (commandArgument program openWith)
    ⟨false, .all, false, none⟩ arguments
  let input ← required program state.input
  return (state, input, extras)

/-- Reads the arguments of a command on a class file. -/
def classArguments (program : Program) (arguments : List String) :
    Setup (CommandState Input × Input × List String) :=
  commandArguments program (Setup.openInput program) arguments

/-- Reads a command with its arguments. -/
def inspection (command : String) (arguments : List String) : Setup (Inspection × List String) :=
  match command with
  | "summary" => do
    let (state, input, extras) ← classArguments summaryProgram arguments
    return (.summary state.colour input, extras)
  | "methods" => do
    let (_, input, extras) ← classArguments methodsProgram arguments
    return (.methods input, extras)
  | "javap" => do
    let (state, input, extras) ← classArguments javapProgram arguments
    return (.javap state.colour state.choice state.constants input, extras)
  | "jar" => do
    let (_, path, extras) ← commandArguments jarProgram pure arguments
    return (.jar path, extras)
  | command =>
    Setup.refuseValue javaProgram javaProgram.positional
      (s!"invalid choice: {Text.quoted (Text.lit command)} " ++
        "(choose from 'summary', 'methods', 'javap', 'jar')")

/-- The arguments of the tool that inspects classes. -/
structure InspectState where
  settings : Settings
  inspection : Inspection
  extras : List String

/-- Handles an argument of the tool that inspects classes. -/
def inspectArgument (env : Environment) (state : InspectState) :
    Occurrence Key → Setup InspectState
  | .positional values => do
    let (found, extras) ← inspection (values.headD "") values.tail
    return { state with inspection := found, extras := extras }
  | .option spec name value => do
    let settings ←
      commonOption env javaProgram spec.key spec.title name value state.settings
    return { state with settings := settings }

/-- Reads the arguments of the tool that inspects classes. -/
def inspectInvocation (env : Environment) (arguments : List String) : Setup Invocation := do
  let (state, extras) ← handleAll javaProgram (inspectArgument env)
    ⟨.initial, .nothing, []⟩ arguments
  refuseExtras javaProgram (extras ++ state.extras)
  return ⟨state.settings, .inspect state.inspection⟩

end ClassInspect.Command
