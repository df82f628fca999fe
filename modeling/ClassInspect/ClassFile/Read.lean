import ClassInspect.ClassFile
import ClassInspect.Pool.Read

/-!
# Reading class files

The parts of a class file are read in file order and every index is followed at once, so the
first fault from the left is the one reported. The code of a method is read by a scan of its
own over the bytes of its attribute, which knows where these stand in the file.

A class file is a `Header`, up to and with the constant pool, and what the pool gives names to.
After the last attribute nothing may follow.
-/

namespace ClassInspect

/-- The text at a pool index. -/
def Scan.utf8 (pool : Pool) (index : Int) : Scan Text :=
  .ofExcept (Pool.lift (pool.utf8 index))

/-- The internal name of the class at a pool index. -/
def Scan.className (pool : Pool) (index : Int) : Scan Text :=
  .ofExcept (Pool.lift (pool.className index))

/-- The internal name of the class at a pool index, unless the index is zero. -/
def Scan.className? (pool : Pool) (index : Nat) : Scan (Option Text) :=
  if index = 0 then pure none else some <$> Scan.className pool index

/-- The type that a descriptor denotes. -/
def Scan.descriptor {α : Type} (parse : Text → Except Descriptor.Failure α) (text : Text) :
    Scan α :=
  .ofExcept ((parse text).mapError (.ofDescriptor text))

/-- The name of the attribute that holds code. -/
def Code.attributeName : Text := .lit "Code"

/-- Reads an attribute. -/
def Attribute.read (pool : Pool) : Scan Attribute := do
  let name ← Scan.utf8 pool (← Scan.u16)
  let length ← Scan.u32
  let offset ← Scan.place
  return ⟨name, ← Scan.take length, offset⟩

/-- Reads a list of attributes. -/
def Attribute.readAll (pool : Pool) : Scan (List Attribute) :=
  Scan.counted (Attribute.read pool)

/-- Reads a row of an exception table. -/
def ExceptionHandler.read (pool : Pool) : Scan ExceptionHandler := do
  let start ← Scan.u16
  let stop ← Scan.u16
  let target ← Scan.u16
  let catchIndex ← Scan.u16
  let catchType ← Scan.className? pool catchIndex
  return ⟨start, stop, target, catchIndex, catchType⟩

/-- Reads the parts of code in order. -/
def Code.readParts (pool : Pool) : Scan Code := do
  let maxStack ← Scan.u16
  let maxLocals ← Scan.u16
  let code ← Scan.take (← Scan.u32)
  let handlers ← Scan.counted (ExceptionHandler.read pool)
  let attributes ← Attribute.readAll pool
  return ⟨maxStack, maxLocals, code, handlers, attributes⟩

/-- Reads code, which must fill its attribute. -/
def Code.read (pool : Pool) : Scan Code :=
  Scan.exhaust .extraCodeBytes (Code.readParts pool)

/-- Reads a field, which may not have code. -/
def Field.read (pool : Pool) : Scan Field := do
  let flags ← Flags.read
  let name ← Scan.utf8 pool (← Scan.u16)
  let descriptor ← Scan.utf8 pool (← Scan.u16)
  let type ← Scan.descriptor Descriptor.field descriptor
  let attributes ← Attribute.readAll pool
  if attributes.any (·.name = Code.attributeName) then
    Scan.failHere (.fieldWithCode name)
  return ⟨flags, name, descriptor, type, attributes⟩

/-- Decodes the code among the attributes of the method with the given name. A second one is
an error, found after the first was decoded. -/
def Method.readCode (pool : Pool) (name : Text) : (found : Option Code) → List Attribute →
    Scan (Option Code)
  | found, [] => pure found
  | found, attr :: attributes =>
    if attr.name = Code.attributeName then
      match found with
      | some _ => Scan.failHere (.secondCode name)
      | none => do
        let code ← Scan.within attr.data attr.offset (Code.read pool)
        readCode pool name (some code) attributes
    else readCode pool name found attributes

/-- Reads a method. -/
def Method.read (pool : Pool) : Scan Method := do
  let flags ← Flags.read
  let name ← Scan.utf8 pool (← Scan.u16)
  let descriptor ← Scan.utf8 pool (← Scan.u16)
  let type ← Scan.descriptor Descriptor.method descriptor
  let attributes ← Attribute.readAll pool
  let code ← Method.readCode pool name none attributes
  return ⟨flags, name, descriptor, type, attributes, code⟩

namespace ClassFile

/-- Writes a debug record of the reader. -/
def note (message : Text) : Scan Unit :=
  Scan.note .debug .reader message

/-- Reads the names of the interfaces. -/
def readInterfaces (pool : Pool) : Scan (List Text) := do
  let names ← Scan.counted do
    return displayName (← Scan.className pool (← Scan.u16))
  note (.lit s!"Loaded interfaces: {Text.quotedList names}")
  return names

/-- Reads the fields. -/
def readFields (pool : Pool) : Scan (List Field) := do
  let fields ← Scan.counted (Field.read pool)
  note (.lit s!"Loaded {fields.length} fields")
  return fields

/-- Reads the methods. -/
def readMethods (pool : Pool) : Scan (List Method) := do
  let methods ← Scan.counted (Method.read pool)
  note (.lit s!"Loaded {methods.length} methods")
  return methods

/-- What stands before the flags of a class. -/
structure Header where
  minorVersion : Nat
  majorVersion : Nat
  pool : Pool
  deriving DecidableEq, Repr

/-- Checks that the first bytes of the data, four if there are as many, agree with the magic
number. Nothing is read. -/
def checkMagic : Scan Unit := do
  let head := (← get).cursor.data.take 4
  unless head.isPrefixOf magic do
    Scan.fail (.badMagic head) 0

/-- Reads the magic number, the versions and the constant pool. -/
def readPreamble (verbose : Bool) : Scan Header := do
  let number ← Scan.u32
  note (.lit s!"Read magic header value 0x{Hex.upper number}")
  let minorVersion ← Scan.u16
  let majorVersion ← Scan.u16
  note (.lit s!"Version {majorVersion}.{minorVersion}")
  let pool ← Pool.read verbose
  return ⟨minorVersion, majorVersion, pool⟩

/-- Reads up to the constant pool, once the magic number is known to be right. -/
def readHeader (verbose : Bool) : Scan Header := do
  checkMagic
  readPreamble verbose

/-- Reads what follows the constant pool. -/
def readMembers (header : Header) : Scan ClassFile := do
  let pool := header.pool
  let flags ← Flags.read
  note (.lit s!"Access flags: {flags.label}")
  let thisClass := displayName (← Scan.className pool (← Scan.u16))
  let superClass := (← Scan.className? pool (← Scan.u16)).map displayName
  note (.lit "Class " ++ thisClass ++ .lit " extends " ++ superClass.getD (.lit "None"))
  let interfaces ← readInterfaces pool
  let fields ← readFields pool
  let methods ← readMethods pool
  let attributes ← Attribute.readAll pool
  return ⟨header.minorVersion, header.majorVersion, pool, flags, thisClass, superClass,
    interfaces, fields, methods, attributes⟩

/-- Reads what follows the constant pool, to the end of the file. -/
def readBody (header : Header) : Scan ClassFile :=
  Scan.exhaust .extraBytes (readMembers header)

/-- Reads a class file. -/
def read (verbose : Bool) : Scan ClassFile := do
  readBody (← readHeader verbose)

/-- The class that a byte string denotes. -/
def parse (data : Bytes) (verbose : Bool) : Logged ClassFile :=
  Scan.onBytes data 0 (read verbose)

end ClassFile

end ClassInspect
