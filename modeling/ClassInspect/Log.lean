import ClassInspect.Text.CodePoint

/-!
# Log records

What a run reports about itself is a value: a sequence of records, each with a level, the part
of the program that wrote it, and a message. Showing records is the console's business.
-/

namespace ClassInspect.Log

/-- How important a record is. -/
inductive Level where
  | debug
  | info
  | warning
  | error
  deriving DecidableEq, Repr

namespace Level

/-- The name of a level. -/
def name : Level → String
  | debug => "DEBUG"
  | info => "INFO"
  | warning => "WARNING"
  | error => "ERROR"

/-- The rank of a level, against which a threshold is compared. -/
def severity : Level → Nat
  | debug => 10
  | info => 20
  | warning => 30
  | error => 40

end Level

/-- The part of the program that wrote a record. -/
inductive Source where
  | reader
  | decoder
  | analysis
  | command
  | console
  deriving DecidableEq, Repr

/-- The name of a source in a log line. -/
def Source.name : Source → String
  | reader => "jvm.io"
  | decoder => "jvm.disasm"
  | analysis => "classlens.api"
  | command => "java"
  | console => "root"

end Log

/-- A log record. -/
structure LogRecord where
  level : Log.Level
  source : Log.Source
  message : Text
  deriving DecidableEq, Repr

/-- A log, oldest record first. -/
abbrev Log := Array LogRecord

end ClassInspect
