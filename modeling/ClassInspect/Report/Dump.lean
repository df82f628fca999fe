import ClassInspect.ClassFile
import ClassInspect.Pool.Describe
import ClassInspect.Text.Layout

/-!
# The dump of a class

Everything in a class file, line by line: versions, flags, constants with descriptions, members
and the sizes of all attributes. A line can fail, and what is printed is the part before the
first one that does. The dump is for a stream that takes every text, lone surrogates included: no
line fails because it cannot be written.
-/

namespace ClassInspect

/-- The line of a constant: its index, kind and payload, and its description where that says
more than the payload. -/
def Pool.dumpLine (pool : Pool) (entry : Nat × Constant) : Except Fault Text := do
  let (index, constant) := entry
  let shown := constant.shown
  let text := .lit (Layout.right 6 s!"#{index}" ++ " = " ++
    Layout.left 18 constant.tag.name ++ " ") ++ shown
  let description ← pool.describe index
  return if description = shown then text else text ++ .lit "  // " ++ description

/-- The line of an attribute. -/
def Attribute.dumpLine (indent : String) (attr : Attribute) : Except Fault Text :=
  .ok (.lit indent ++ attr.name ++ .lit s!": {attr.data.length} bytes")

/-- The line of the flags. -/
def Flags.dumpLine (indent : String) (flags : Flags) (owner : FlagOwner) : Except Fault Text := do
  return .lit (indent ++ "flags: " ++ (← flags.text owner))

/-- The lines of a field or method: its declaration, descriptor, flags and attributes. -/
def memberDump (declaration : Except Fault Text) (descriptor : Text) (flags : Flags)
    (owner : FlagOwner) (attributes : List Attribute) : List (Except Fault Text) :=
  [declaration.map fun text ↦ .lit "  " ++ text ++ .lit ";",
    .ok (.lit "    descriptor: " ++ descriptor),
    flags.dumpLine "    " owner] ++
    attributes.map (Attribute.dumpLine "    ")

/-- The lines of a field. -/
def Field.dumpLines (field : Field) : List (Except Fault Text) :=
  memberDump field.render field.descriptor field.flags .field field.attributes

/-- The lines of a method. -/
def Method.dumpLines (method : Method) : List (Except Fault Text) :=
  memberDump method.renderSignature method.descriptor method.flags .method method.attributes

namespace ClassFile

/-- The lines of a class. -/
def dumpLines (file : ClassFile) : List (Except Fault Text) :=
  [.ok (.lit "class " ++ file.thisClass),
    .ok (.lit s!"  minor version: {file.minorVersion}"),
    .ok (.lit s!"  major version: {file.majorVersion}"),
    file.flags.dumpLine "  " .type,
    .ok (.lit "Constant pool:")] ++
    file.pool.entries.map file.pool.dumpLine ++
    [.ok (.lit "\x7b")] ++
    file.fields.flatMap Field.dumpLines ++
    file.methods.flatMap Method.dumpLines ++
    [.ok (.lit "\x7d")] ++
    file.attributes.map (Attribute.dumpLine "")

end ClassFile

/-- The lines before the first failure, each with its line feed, and the failure. -/
def printLines : List (Except Fault Text) → Text × Option Fault
  | [] => ([], none)
  | .ok line :: lines =>
    let (text, fault) := printLines lines
    (line ++ .lit "\n" ++ text, fault)
  | .error fault :: _ => ([], some fault)

/-- What the dump of a class prints, and why it stopped early if it did. -/
def ClassFile.dump (file : ClassFile) : Text × Option Fault :=
  printLines file.dumpLines

end ClassInspect
