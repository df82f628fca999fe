import ClassInspect.Command.Grammar

/-!
# The programs of the command line

Each program has a name, the options it takes, and the texts that explain it. Options shared by
the tools come first.
-/

namespace ClassInspect.Command

open Arguments (OptionSpec Grammar)

/-- What an option is for. -/
inductive Key where
  | help
  | log
  | report
  | verbose
  | version
  | width
  | canonical
  | colour
  | method
  | constants
  deriving DecidableEq, Repr

/-- A program with its options and texts. -/
structure Program where
  /-- The name in error messages. -/
  name : String
  grammar : Grammar Key
  /-- The name of the positional argument in error messages. -/
  positional : String
  /-- The usage lines. -/
  usage : List String
  /-- The lines of the help text behind the usage. -/
  help : List String

namespace Program

/-- Lines, each with its line feed. -/
def unlines (lines : List String) : String :=
  String.join (lines.map (· ++ "\n"))

/-- The usage text. -/
def usageText (program : Program) : String :=
  unlines program.usage

/-- The help text. -/
def helpText (program : Program) : String :=
  unlines (program.usage ++ [""] ++ program.help)

end Program

/-- An option without a value. -/
def flag (key : Key) (names : List String) : OptionSpec Key := ⟨key, names, false⟩

/-- An option with a value. -/
def valued (key : Key) (names : List String) : OptionSpec Key := ⟨key, names, true⟩

/-- The option that asks for help. -/
def helpOption : OptionSpec Key := flag .help ["-h", "--help"]

/-- The options of every tool. -/
def commonOptions : List (OptionSpec Key) :=
  [helpOption, valued .log ["--log"], valued .report ["--report"],
    flag .verbose ["--verbose", "-v"], flag .version ["--version", "-V"]]

/-- The help on the options of every tool. -/
def commonHelp : List String :=
  ["  -h, --help            show this help message and exit",
    "  --log log-level       Log level (debug,info,warning,error)",
    "  --report report-file  Also write the log to this file",
    "  --verbose, -v         Show debug messages, give twice to also log each",
    "                        constant",
    "  --version, -V         Display version and exit"]

/-- The tool that prints files in hexadecimal. -/
def hexdumpProgram : Program where
  name := "classlens"
  grammar :=
    ⟨commonOptions ++ [valued .width ["--width"], flag .canonical ["--canonical", "-C"]], .single⟩
  positional := "file"
  usage :=
    ["usage: classlens [-h] [--log log-level] [--report report-file] [--verbose]",
      "                 [--version] [--width WIDTH] [--canonical]",
      "                 file"]
  help :=
    ["Display file contents in hexadecimal",
      "",
      "positional arguments:",
      "  file                  File to dump contents of",
      "",
      "options:"] ++ commonHelp ++
    ["  --width WIDTH         Number of bytes per line of the hexdump.",
      "  --canonical, -C       Show offsets and printable characters next to the hex",
      "                        bytes."]

/-- The tool that inspects class files. -/
def javaProgram : Program where
  name := "classlens"
  grammar := ⟨commonOptions, .command⟩
  positional := "command"
  usage :=
    ["usage: classlens [-h] [--log log-level] [--report report-file] [--verbose]",
      "                 [--version]",
      "                 \x7bsummary,methods,javap,jar\x7d ..."]
  help :=
    ["Java class file inspection utility.",
      "",
      "options:"] ++ commonHelp ++
    ["",
      "commands:",
      "  possible commands",
      "",
      "  \x7bsummary,methods,javap,jar\x7d",
      "    summary             Show an overview of a java class.",
      "    methods             List the method signatures of a java class.",
      "    javap               Disassemble (javap) a java class.",
      "    jar                 Explore jar file."]

/-- The command that shows the summary of a class. -/
def summaryProgram : Program where
  name := "classlens summary"
  grammar := ⟨[helpOption, flag .colour ["--color"]], .single⟩
  positional := "java class file"
  usage := ["usage: classlens summary [-h] [--color] java class file"]
  help :=
    ["positional arguments:",
      "  java class file  class file to inspect",
      "",
      "options:",
      "  -h, --help       show this help message and exit",
      "  --color          Show the output with syntax coloring"]

/-- The command that lists the methods of a class. -/
def methodsProgram : Program where
  name := "classlens methods"
  grammar := ⟨[helpOption], .single⟩
  positional := "java class file"
  usage := ["usage: classlens methods [-h] java class file"]
  help :=
    ["positional arguments:",
      "  java class file  class file to inspect",
      "",
      "options:",
      "  -h, --help       show this help message and exit"]

/-- The command that lists the code of methods. -/
def javapProgram : Program where
  name := "classlens javap"
  grammar :=
    ⟨[helpOption, flag .colour ["--color"], valued .method ["--method", "-m"],
      flag .constants ["--constants"]], .single⟩
  positional := "java class file"
  usage :=
    ["usage: classlens javap [-h] [--color] [--method signature] [--constants]",
      "                       java class file"]
  help :=
    ["positional arguments:",
      "  java class file       class file to inspect",
      "",
      "options:",
      "  -h, --help            show this help message and exit",
      "  --color               Show the output with syntax coloring",
      "  --method signature, -m signature",
      "                        Only disassemble the method with this signature, for",
      "                        example 'void main(java.lang.String[])'",
      "  --constants           Also print the constant pool and member details"]

/-- The command that walks through a jar. -/
def jarProgram : Program where
  name := "classlens jar"
  grammar := ⟨[helpOption], .single⟩
  positional := "java jar file"
  usage := ["usage: classlens jar [-h] java jar file"]
  help :=
    ["positional arguments:",
      "  java jar file  jar file to inspect",
      "",
      "options:",
      "  -h, --help     show this help message and exit"]

/-- What is printed when no tool is named. -/
def overview : String :=
  Program.unlines
    ["classlens: inspect java class files",
      "",
      "Use one of these tools:",
      "  hexdump    Display file contents in hexadecimal",
      "  java       Java class file inspection utility.",
      "",
      "For the options of a tool:",
      "  $ python -m classlens hexdump -h",
      "  $ python -m classlens java -h",
      ""]

end ClassInspect.Command
