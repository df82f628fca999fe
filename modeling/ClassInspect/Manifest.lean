import ClassInspect.CharClass.Blank
import ClassInspect.Keyed
import ClassInspect.Logged
import ClassInspect.Text.Newline

/-!
# Manifests

A manifest is a text of headers `key: value`. A line that starts with a blank continues the
value of the last header, if that has a key; other lines of nothing but white space are
ignored. A key that occurs again takes the new value and keeps its place, and is warned about.

Lines end where a stream with universal line ends has them: at a line feed, at a carriage return,
and at both together.

The text is read as a stream that decodes its bytes before it hands out lines. A sequence of bytes
that the end of the data cuts off is noticed only after all complete lines before it were handled,
and its position counts from its own first byte. Any other byte that is not text is noticed before
the first line of what was decoded with it. Here all data is decoded together, so this is the
first line of all. A stream that takes its data in chunks of 8192 bytes agrees with that for up to
one chunk. For longer data with such a byte behind the first chunk, it hands out the lines of the
chunks before first, and counts the position of the byte from its own chunk.
-/

namespace ClassInspect

/-- A header of a manifest. -/
structure Property where
  key : List Char
  value : List Char
  deriving DecidableEq, Repr

/-- The headers of a manifest, in the order of their first occurrence. -/
abbrev Manifest := List Property

namespace Manifest

/-- Whether a key has a header. -/
def has (manifest : Manifest) (key : List Char) : Bool :=
  manifest.any (·.key = key)

/-- Gives a key a value, in its place or at the end. -/
def put (property : Property) (manifest : Manifest) : Manifest :=
  Keyed.put Property.key property manifest

/-- Adds to the value of a key. -/
def extend (key more : List Char) (manifest : Manifest) : Manifest :=
  manifest.map fun property ↦
    if property.key = key then { property with value := property.value ++ more } else property

/-- The headers as a list in braces. -/
def label (manifest : Manifest) : String :=
  let quoted (chars : List Char) : String := (Text.ofChars chars).quoted
  "\x7b" ++ ", ".intercalate
    (manifest.map fun property ↦ quoted property.key ++ ": " ++ quoted property.value) ++ "\x7d"

/-- What was read so far: the headers, and the key of the last one. -/
structure State where
  properties : Manifest
  key : List Char
  deriving Repr

/-- Writes a record of the manifest reader. -/
def note (level : Log.Level) (message : String) : Logged Unit :=
  Logged.note level .reader (.lit message)

/-- A header is cut at its first colon, and both parts lose the white space around them. -/
def header? (line : List Char) : Option Property :=
  match line.dropWhile (· ≠ ':') with
  | [] => none
  | _ :: value =>
    some ⟨CharClass.trim (line.takeWhile (· ≠ ':')), CharClass.trim value⟩

/-- Whether a line continues the value of the last header. -/
def State.isContinuation (state : State) (line : List Char) : Bool :=
  line.head? = some ' ' && !state.key.isEmpty

/-- Handles one line. -/
def readLine (state : State) (line : List Char) : Logged State :=
  if state.isContinuation line then
    return { state with properties := state.properties.extend state.key line.tail }
  else if (CharClass.trim line).isEmpty then return state
  else
    match header? line with
    | none => throw .headerWithoutColon
    | some property => do
      if state.properties.has property.key then
        note .warning s!"Duplicate key in manifest file: {String.ofList property.key}"
      return ⟨put property state.properties, property.key⟩

/-- Handles lines in order. -/
def readLines : State → List (List Char) → Logged State
  | state, [] => pure state
  | state, line :: lines => do
    let state ← readLine state line
    readLines state lines

/-- Reads the headers of a text. -/
def ofChars (chars : List Char) : Logged Manifest := do
  let (lines, last) := Newline.split (Newline.normalize chars)
  let state ← readLines ⟨[], []⟩ (lines ++ [last])
  return state.properties

/-- Whether a bad part was cut off by the end of the data. An encoded surrogate that lacks its
last byte counts as cut off. -/
def isCutOff (error : Utf8.Error) (tail : Bytes) : Bool :=
  error.reason = .unexpectedEnd ||
    match tail with
    | [first, second] => first = 0xED && 0xA0 ≤ second && second ≤ 0xBF
    | _ => false

/-- The characters of a text that was decoded without surrogates. -/
def chars (text : Text) : List Char :=
  text.filterMap fun c ↦
    match c with
    | .char value => some value
    | .lone _ => none

/-- The lines that are known to be complete when more text may follow: a carriage return at the
end may still belong to a longer line end. -/
def completeLines (chars : List Char) : List (List Char) :=
  let known := if chars.getLast? = some '\r' then chars.dropLast else chars
  (Newline.split (Newline.normalize known)).1

/-- Reads the headers of a manifest file, all of which is decoded together. -/
def ofBytes (data : Bytes) : Logged Manifest := do
  note .debug "Reading manifest"
  let manifest ←
    match Utf8.decodeFrom .strict 0 [] data with
    | .ok text => ofChars (chars text)
    | .error (error, before) =>
      if isCutOff error (data.drop error.start) then do
        let _ ← readLines ⟨[], []⟩ (completeLines (chars before))
        throw (.undecodable { error with start := 0 })
      else throw (.undecodable error)
  note .debug s!"Read manifest: {manifest.label}"
  return manifest

end Manifest

end ClassInspect
