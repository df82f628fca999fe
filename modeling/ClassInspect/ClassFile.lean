import ClassInspect.Descriptor.Render
import ClassInspect.Flags
import ClassInspect.Pool

/-!
# Class files

What a class file denotes: versions, constants, access flags, the names of the class, its super
class and its interfaces, and its fields, methods and attributes. Class names are shown with
dots. Attributes keep their bytes and where these stand in the file; the one named `Code` of a
method is decoded.

Declarations and signatures are rendered through the table of type names. They always come out
(`Field.render_eq`, `Method.renderSignature_eq`).
-/

namespace ClassInspect

/-- A named byte string attached to a class, a member or code. -/
structure Attribute where
  name : Text
  data : Bytes
  /-- Where the bytes stand in the file. -/
  offset : Int
  deriving DecidableEq, Repr

/-- The attribute for logs and debugging. -/
def Attribute.label (attr : Attribute) : Text :=
  .lit "Attribute(name=" ++ attr.name ++ .lit s!", data={Bytes.quoted attr.data})"

/-- A range of code, the place that handles its exceptions, and the class it handles. -/
structure ExceptionHandler where
  start : Nat
  stop : Nat
  target : Nat
  /-- The pool index of the class, or zero for all classes. -/
  catchIndex : Nat
  /-- The internal name of the class, unless the index is zero. -/
  catchType : Option Text
  deriving DecidableEq, Repr

/-- The code of a method. -/
structure Code where
  maxStack : Nat
  maxLocals : Nat
  code : Bytes
  handlers : List ExceptionHandler
  attributes : List Attribute
  deriving DecidableEq, Repr

/-- The code for logs and debugging. -/
def Code.label (code : Code) : String :=
  s!"CodeAttribute(max_stack={code.maxStack}, max_locals={code.maxLocals}, " ++
    s!"length={code.code.length})"

/-- A field. -/
structure Field where
  flags : Flags
  name : Text
  descriptor : Text
  type : FieldType
  attributes : List Attribute
  deriving DecidableEq, Repr

/-- The declaration of a field: its type and its name. -/
def Field.declaration (field : Field) : Text :=
  field.type.display ++ .lit " " ++ field.name

/-- The declaration of a field, if the name of its type is found. -/
def Field.render (field : Field) : Except Fault Text :=
  return (← field.type.render) ++ .lit " " ++ field.name

@[simp] theorem Field.render_eq (field : Field) : field.render = .ok field.declaration := by
  rw [render, FieldType.render_eq]
  rfl

/-- The field for logs and debugging. -/
def Field.label (field : Field) : Text :=
  .lit "Field(" ++ field.declaration ++ .lit ")"

/-- A method. -/
structure Method where
  flags : Flags
  name : Text
  descriptor : Text
  type : MethodType
  attributes : List Attribute
  /-- The decoded attribute named `Code`, if there is one. -/
  code : Option Code
  deriving DecidableEq, Repr

/-- The signature of a method: result, name and parameter types as source text. -/
def Method.signature (method : Method) : Text :=
  method.type.result.display ++ .lit " " ++ method.name ++ .lit "(" ++
    method.type.parameterText ++ .lit ")"

/-- The signature of a method, if the names of its types are found. -/
def Method.renderSignature (method : Method) : Except Fault Text := do
  let parameters ← method.type.renderParameters
  return (← method.type.result.render) ++ .lit " " ++ method.name ++ .lit "(" ++ parameters ++
    .lit ")"

@[simp] theorem Method.renderSignature_eq (method : Method) :
    method.renderSignature = .ok method.signature := by
  rw [renderSignature, MethodType.renderParameters_eq, ResultType.render_eq]
  rfl

/-- The method for logs and debugging. -/
def Method.label (method : Method) : Text :=
  .lit "Method(" ++ method.signature ++ .lit ")"

/-- A class. -/
structure ClassFile where
  minorVersion : Nat
  majorVersion : Nat
  pool : Pool
  flags : Flags
  thisClass : Text
  superClass : Option Text
  interfaces : List Text
  fields : List Field
  methods : List Method
  attributes : List Attribute
  deriving DecidableEq, Repr

namespace ClassFile

/-- The four bytes every class file starts with. -/
def magic : Bytes := [0xCA, 0xFE, 0xBA, 0xBE]

/-- The version of the language platform that a class was compiled for. -/
def platformVersion (file : ClassFile) : Int :=
  file.majorVersion - 44

/-- The class for logs and debugging. -/
def label (file : ClassFile) : Text :=
  .lit "ClassFile(" ++ file.thisClass ++ .lit ")"

end ClassFile

end ClassInspect
