import ClassInspect.Constant
import ClassInspect.Descriptor
import ClassInspect.Text.ModifiedUtf8

/-!
# Faults

Everything that can go wrong, as causes. A `Problem` says what is wrong with the input of the
class file reader or the instruction decoder; a `Fault` is such a problem with the position
where it was found, or one of the failures that are not about the format: a request that makes
no sense, a name that a table does not have, bytes that are no text.

Some steps rely on what was established before them, such as a look-up behind a check of its
index. They do not take that for granted: what they would do without it is a `Breach`. That no
input leads to one is for theorems to say.

The wording stands in `Problem.message` and `Fault.message` only.
-/

namespace ClassInspect

/-- A step did not find what it relied on. -/
inductive Breach where
  /-- A code point behind the end of a descriptor. -/
  | noCodePoint
  /-- A slot behind the end of a constant pool. -/
  | noSlot
  /-- A kind of constant that the table of references does not have. -/
  | noReferences (tag : Tag)
  /-- Bytes of another number than the value to be made of them has. -/
  | wrongSize (size : Nat)
  /-- A constant of a kind that no branch is for. -/
  | unexpectedKind (tag : Tag)
  /-- A flag bit without any meaning. -/
  | noFlag (bit : Nat)
  /-- A code point that has no units. -/
  | noUnits (number : Nat)
  /-- A letter that stands for no primitive type. -/
  | noTypeName (letter : Char)
  /-- An operand that cannot be read by itself. -/
  | notAnOperand
  /-- An argument that is no element type of a new array. -/
  | noElementType (shown : String)
  /-- A table where a pool index is needed. -/
  | notAnIndex
  /-- A number where a table is needed, for the given part of it. -/
  | notATable (part : String)
  deriving DecidableEq, Repr

/-- The wording of a breach. -/
def Breach.message : Breach → String
  | noCodePoint => "string index out of range"
  | noSlot => "list index out of range"
  | noReferences tag => s!"<ConstantTag.{tag.name}: {tag.code}>"
  | wrongSize size => s!"unpack requires a buffer of {size} bytes"
  | unexpectedKind tag => toString tag.code
  | noFlag bit => s!"{bit} is not a valid AccessFlag"
  | noUnits number => s!"'utf-16-le' codec can't encode character {number}"
  | noTypeName letter => (Text.ofChars [letter]).quoted
  | notAnOperand => "ArgType.WIDE"
  | noElementType shown => s!"{shown} is not a valid NewArrayType"
  | notAnIndex => "'<' not supported between instances of 'int' and 'SwitchTable'"
  | notATable part => s!"'int' object has no attribute '{part}'"

/-- What is wrong with an index into the constant pool. -/
inductive PoolProblem where
  | outOfRange (index : Int) (last : Nat)
  | reserved (index : Int)
  | unexpectedTag (index : Int) (found : Tag) (expected : List Tag)
  | badReference (holder : Nat) (tag : Tag) (cause : PoolProblem)
  | lastTakesTwo
  /-- Not a problem of the index: the look-up did not find what it relied on. -/
  | breach (breach : Breach)
  deriving DecidableEq, Repr

/-- The wording of a problem with a pool index. -/
def PoolProblem.message : PoolProblem → String
  | outOfRange index last => s!"Constant pool index {index} out of range 1..{last}"
  | reserved index => s!"Constant pool index {index} is a reserved slot"
  | unexpectedTag index found expected =>
    s!"Constant pool index {index} is {found.name}, expected " ++
      " or ".intercalate (expected.map Tag.name)
  | badReference holder tag cause => s!"Constant #{holder} ({tag.name}): " ++ cause.message
  | lastTakesTwo => "Last constant takes two slots, but the pool has only one left"
  | breach cause => cause.message

/-- What is wrong with a class file or with bytecode. -/
inductive Problem where
  | badMagic (head : Bytes)
  | truncated (needed available : Nat)
  | pool (problem : PoolProblem)
  | unsupportedTag (tag : Nat)
  | descriptor (text : Text) (problem : Descriptor.Problem)
  | unsupportedOpcode (opcode : Nat)
  | notWidened (opcode : Nat)
  | invalidText (error : Utf8.Error)
  | invalidUnits (error : Utf16.Error)
  | invalidHandleKind (kind : Nat)
  | fieldWithCode (name : Text)
  | secondCode (name : Text)
  | extraBytes (count : Nat)
  | extraCodeBytes (count : Nat)
  | invalidArrayType (code : Nat)
  | switchBounds (low high : Int)
  | switchPairs (count : Int)
  deriving DecidableEq, Repr

/-- The families of problems that are told apart by name. -/
inductive FormatKind where
  | classFormat
  | badMagic
  | truncatedData
  | invalidPoolIndex
  | unsupportedTag
  | malformedDescriptor
  | unsupportedOpcode
  deriving DecidableEq, Repr

namespace FormatKind

/-- The name of a family. -/
def name : FormatKind → String
  | classFormat => "ClassFormatError"
  | badMagic => "BadMagic"
  | truncatedData => "TruncatedData"
  | invalidPoolIndex => "InvalidConstantPoolIndex"
  | unsupportedTag => "UnsupportedTag"
  | malformedDescriptor => "MalformedDescriptor"
  | unsupportedOpcode => "UnsupportedOpcode"

/-- All families. -/
def all : List FormatKind :=
  [classFormat, badMagic, truncatedData, invalidPoolIndex, unsupportedTag,
    malformedDescriptor, unsupportedOpcode]

/-- The family of a given name. -/
def ofName? (name : String) : Option FormatKind :=
  all.find? fun kind ↦ kind.name = name

end FormatKind

namespace Problem

/-- The family of a problem. -/
def kind : Problem → FormatKind
  | badMagic _ => .badMagic
  | truncated _ _ => .truncatedData
  | pool _ => .invalidPoolIndex
  | unsupportedTag _ => .unsupportedTag
  | descriptor _ _ => .malformedDescriptor
  | unsupportedOpcode _ | notWidened _ => .unsupportedOpcode
  | invalidText _ | invalidUnits _ | invalidHandleKind _ | fieldWithCode _ | secondCode _
  | extraBytes _ | extraCodeBytes _ | invalidArrayType _ | switchBounds _ _ | switchPairs _ =>
    .classFormat

/-- The two upper-case hexadecimal digits of an opcode. -/
def opcodeText (opcode : Nat) : String :=
  "0x" ++ String.ofList (Hex.upperPair (UInt8.ofNat opcode))

/-- The wording of a problem, without its position. -/
def message : Problem → Text
  | badMagic head =>
    .lit s!"Incorrect magic {Bytes.upperHex head}, no CAFEBABE, no java class!"
  | truncated needed available => .lit s!"Need {needed} bytes, only {available} left"
  | pool problem => .lit problem.message
  | unsupportedTag tag => .lit s!"Unsupported constant pool tag {tag}"
  | descriptor text problem => .lit s!"Descriptor {text.quoted}: {problem.message}"
  | unsupportedOpcode opcode => .lit s!"Unsupported opcode {opcodeText opcode}"
  | notWidened opcode => .lit s!"Opcode {opcodeText opcode} cannot follow wide"
  | invalidText error => .lit s!"Invalid modified utf-8 string: {error.message}"
  | invalidUnits error => .lit s!"Invalid modified utf-8 string: {error.message}"
  | invalidHandleKind kind => .lit s!"Invalid method handle kind {kind}"
  | fieldWithCode name => .lit "Field " ++ name ++ .lit " has a Code attribute"
  | secondCode name => .lit "Method " ++ name ++ .lit " has two Code attributes"
  | extraBytes count => .lit s!"{count} extra bytes at the end of the class file"
  | extraCodeBytes count => .lit s!"Code attribute has {count} bytes too many"
  | invalidArrayType code => .lit s!"Invalid newarray type {code}"
  | switchBounds low high => .lit s!"tableswitch high {high} below low {low}"
  | switchPairs count => .lit s!"lookupswitch with {count} pairs"

end Problem

/-- A report of something that does not have the class file format: family, wording and, if
known, the position. -/
structure FormatError where
  kind : FormatKind
  message : Text
  offset : Option Int
  deriving DecidableEq, Repr

namespace FormatError

/-- The wording with the position behind it. -/
def line (e : FormatError) : Text :=
  match e.offset with
  | none => e.message
  | some offset => e.message ++ .lit s!" (at offset {offset})"

/-- The wording in double quotes. -/
def label (e : FormatError) : Text :=
  .lit "\"" ++ e.message ++ .lit "\""

/-- The line printed for a report: its family, then the wording. -/
def printed (e : FormatError) : Text :=
  .lit s!"{e.kind.name}: " ++ e.line ++ .lit "\n"

end FormatError

/-- Why an operation failed. -/
inductive Fault where
  /-- The input does not have the format. -/
  | format (problem : Problem) (offset : Option Int)
  /-- A negative number of bytes was asked for. -/
  | negativeSize (size : Int)
  /-- A layout without any value was to be read. -/
  | emptyLayout
  /-- Lines of less than one byte were asked for. -/
  | chunkSize (size : Int)
  /-- A method handle has a kind without a name. -/
  | referenceKind (kind : Int)
  /-- A method handle refers to something that is not a pair of indices. -/
  | notAMember (payload : Payload)
  /-- A flag bit has no name on this kind of item. -/
  | unnamedFlag (bit : Nat)
  /-- There are no flag names for this kind of item. -/
  | unknownOwner (name : String)
  /-- No instruction has this opcode. -/
  | unknownOpcode (code : Int)
  /-- No instruction has this mnemonic. -/
  | unknownMnemonic (name : String)
  /-- Bytes are not UTF-8. -/
  | undecodable (error : Utf8.Error)
  /-- A manifest header has no colon. -/
  | headerWithoutColon
  /-- A path holds a character that no path can hold. -/
  | nulInPath
  /-- A width was asked for without a value, and a dump of one kind or the other needs it. -/
  | widthWithoutValue (canonical : Bool)
  /-- A log level was asked for without a value. -/
  | levelWithoutValue
  /-- A method was asked for without a signature. -/
  | signatureWithoutValue
  /-- A line would have more columns than can be counted. -/
  | tooManyColumns
  /-- A line does not fit into memory. -/
  | outOfMemory
  /-- A step did not find what it relied on. -/
  | breach (breach : Breach)
  deriving DecidableEq, Repr

namespace Fault

/-- A problem whose position is not known. -/
def nowhere (problem : Problem) : Fault :=
  .format problem none

/-- The fault of a failed look-up in a constant pool. Its position is not known. -/
def ofPool : PoolProblem → Fault
  | .breach cause => .breach cause
  | problem => .nowhere (.pool problem)

/-- The fault of a text that was not parsed as a descriptor. Its position is not known. -/
def ofDescriptor (text : Text) : Descriptor.Failure → Fault
  | .malformed problem => .nowhere (.descriptor text problem)
  | .noCodePoint => .breach .noCodePoint

/-- The fault of a text constant, announced at `place`, that was not decoded. -/
def ofText (place : Int) : ModifiedUtf8.Failure → Fault
  | .bytes error => .format (.invalidText error) (some place)
  | .units error => .format (.invalidUnits error) (some place)
  | .noUnits number => .breach (.noUnits number)

/-- The report of a fault about the format. -/
def formatError? : Fault → Option FormatError
  | format problem offset => some ⟨problem.kind, problem.message, offset⟩
  | _ => none

/-- The wording for a payload that is no pair of indices. -/
def notAMemberText : Payload → String
  | .text value =>
    if value.length < 2 then
      s!"not enough values to unpack (expected 2, got {value.length})"
    else if value.length = 2 then "'<' not supported between instances of 'int' and 'str'"
    else "too many values to unpack (expected 2)"
  | .number _ => "cannot unpack non-iterable int object"
  | .real _ => "cannot unpack non-iterable float object"
  | .pair _ _ => ""

/-- The wording of a fault, with its position if it has one. -/
def message : Fault → Text
  | format problem offset => FormatError.line ⟨problem.kind, problem.message, offset⟩
  | negativeSize size => .lit s!"Cannot read {size} bytes"
  | emptyLayout => .lit "tuple index out of range"
  | chunkSize size => .lit s!"Chunk size must be at least 1, not {size}"
  | referenceKind kind => .lit s!"{kind} is not a valid ReferenceKind"
  | notAMember payload => .lit (notAMemberText payload)
  | unnamedFlag bit => .ofNat bit
  | unknownOwner name => .lit (Text.lit name).quoted
  | unknownOpcode code => .ofInt code
  | unknownMnemonic name => .lit (Text.lit name).quoted
  | undecodable error => .lit error.message
  | headerWithoutColon => .lit "not enough values to unpack (expected 2, got 1)"
  | nulInPath => .lit "embedded null byte"
  | widthWithoutValue false => .lit "'<' not supported between instances of 'list' and 'int'"
  | widthWithoutValue true => .lit "unsupported operand type(s) for -: 'list' and 'int'"
  | levelWithoutValue => .lit "Level not an integer or a valid string: []"
  | signatureWithoutValue => .lit "unhashable type: 'list'"
  | tooManyColumns => .lit "Python int too large to convert to C ssize_t"
  | outOfMemory => []
  | breach cause => .lit cause.message

end Fault

end ClassInspect
