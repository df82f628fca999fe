import ClassInspect.ClassFile.Read
import ClassInspect.Proofs.Scan.Grammar

/-!
# Descriptions of class files

The class file format as a writer sees it. A `RawClass` holds what a class file states, before any
index is followed: numbers and indices as they are, texts as their bytes, attributes as a name
index and a payload. `RawClass.serialize` lays it out, most significant bytes first, and
`RawClass.WellFormed` says which descriptions are class files.

`RawClass.Denotes` is the meaning of a description: indices followed, texts decoded, descriptors
parsed, and every attribute at the position its payload is written at. It is a relation, since
the code of a method is the one whose description, written down, is the payload of the attribute
that holds it.

Nothing here reads. Indices are followed in the description itself (`RawPool.at?`), which is a
second and independent way to look a constant up.
-/

namespace ClassInspect

open Scan (placed writeCounted DenoteAll)

/-! ### Constants -/

/-- A constant as it is written. A text is kept as its bytes, a floating-point number as its
bits. -/
inductive RawConstant where
  | utf8 (payload : Bytes)
  | integer (value : Int)
  | float (bits : UInt32)
  | long (value : Int)
  | double (bits : UInt64)
  | classRef (name : UInt16)
  | string (text : UInt16)
  | fieldRef (owner nameAndType : UInt16)
  | methodRef (owner nameAndType : UInt16)
  | interfaceMethodRef (owner nameAndType : UInt16)
  | nameAndType (name descriptor : UInt16)
  | methodHandle (kind : UInt8) (reference : UInt16)
  | methodType (descriptor : UInt16)
  | dynamic (bootstrap nameAndType : UInt16)
  | invokeDynamic (bootstrap nameAndType : UInt16)
  | module (name : UInt16)
  | package (name : UInt16)
  deriving DecidableEq, Repr

/-- The text that the bytes of a constant encode. -/
def decodedText (payload : Bytes) : Text :=
  match ModifiedUtf8.decode payload with
  | .ok text => text
  | .error _ => []

namespace RawConstant

/-- The kind of a constant. -/
def tag : RawConstant → Tag
  | utf8 _ => .utf8
  | integer _ => .integer
  | float _ => .float
  | long _ => .long
  | double _ => .double
  | classRef _ => .classRef
  | string _ => .string
  | fieldRef _ _ => .fieldRef
  | methodRef _ _ => .methodRef
  | interfaceMethodRef _ _ => .interfaceMethodRef
  | nameAndType _ _ => .nameAndType
  | methodHandle _ _ => .methodHandle
  | methodType _ => .methodType
  | dynamic _ _ => .dynamic
  | invokeDynamic _ _ => .invokeDynamic
  | module _ => .module
  | package _ => .package

/-- The components of a constant. -/
def body : RawConstant → Bytes
  | utf8 payload => .ofNat 2 payload.length ++ payload
  | integer value => .ofInt 4 value
  | float bits => .ofNat 4 bits.toNat
  | long value => .ofInt 8 value
  | double bits => .ofNat 8 bits.toNat
  | classRef index | string index | methodType index | module index | package index =>
    .ofU16 index
  | fieldRef a b | methodRef a b | interfaceMethodRef a b | nameAndType a b | dynamic a b
  | invokeDynamic a b => .ofU16 a ++ .ofU16 b
  | methodHandle kind reference => .ofNat 1 kind.toNat ++ .ofU16 reference

/-- A constant is written as the byte of its kind and its components. -/
def write (constant : RawConstant) : Bytes :=
  .ofNat 1 constant.tag.code ++ constant.body

/-- The slots of a constant: a long number takes a second one, which stays empty. -/
def slots : RawConstant → List (Option RawConstant)
  | long value => [some (long value), none]
  | double bits => [some (double bits), none]
  | constant => [some constant]

/-- The indices in a constant, each with the kinds of constants it may refer to. -/
def references : RawConstant → List (UInt16 × List Tag)
  | classRef index | string index | methodType index | module index | package index =>
    [(index, [.utf8])]
  | fieldRef owner member | methodRef owner member | interfaceMethodRef owner member =>
    [(owner, [.classRef]), (member, [.nameAndType])]
  | nameAndType name descriptor => [(name, [.utf8]), (descriptor, [.utf8])]
  | methodHandle _ member => [(member, [.fieldRef, .methodRef, .interfaceMethodRef])]
  | dynamic _ member | invokeDynamic _ member => [(member, [.nameAndType])]
  | utf8 _ | integer _ | float _ | long _ | double _ => []

/-- A constant whose components fit their bytes, whose text can be decoded and whose kind of
method handle exists. -/
def WellFormed : RawConstant → Prop
  | utf8 payload => payload.length < 2 ^ 16 ∧ ∃ text, ModifiedUtf8.decode payload = .ok text
  | integer value => Bytes.FitsSigned 4 value
  | long value => Bytes.FitsSigned 8 value
  | methodHandle kind _ => 1 ≤ kind ∧ kind ≤ 9
  | _ => True

/-- The constant that is meant. -/
def denote : RawConstant → Constant
  | utf8 payload => .utf8 (decodedText payload)
  | integer value => .integer value
  | float bits => .float bits
  | long value => .long value
  | double bits => .double bits
  | classRef name => .classRef name.toNat
  | string text => .string text.toNat
  | fieldRef owner member => .fieldRef owner.toNat member.toNat
  | methodRef owner member => .methodRef owner.toNat member.toNat
  | interfaceMethodRef owner member => .interfaceMethodRef owner.toNat member.toNat
  | nameAndType name descriptor => .nameAndType name.toNat descriptor.toNat
  | methodHandle kind reference => .methodHandle kind.toNat reference.toNat
  | methodType descriptor => .methodType descriptor.toNat
  | dynamic bootstrap member => .dynamic bootstrap.toNat member.toNat
  | invokeDynamic bootstrap member => .invokeDynamic bootstrap.toNat member.toNat
  | module name => .module name.toNat
  | package name => .package name.toNat

end RawConstant

/-- The constants of a class, in order. -/
abbrev RawPool := List RawConstant

namespace RawPool

/-- The slots of all constants, from number one on. -/
def slots (pool : RawPool) : List (Option RawConstant) :=
  pool.flatMap RawConstant.slots

/-- The constant at an index. There is none at zero and in the empty slot behind a long one. -/
def at? (pool : RawPool) (index : UInt16) : Option RawConstant :=
  (none :: pool.slots)[index.toNat]?.join

/-- A constant of one of the given kinds stands at an index. -/
def Holds (pool : RawPool) (index : UInt16) (tags : List Tag) : Prop :=
  ∃ constant, pool.at? index = some constant ∧ constant.tag ∈ tags

/-- The text at an index. -/
def text (pool : RawPool) (index : UInt16) : Text :=
  match pool.at? index with
  | some (.utf8 payload) => decodedText payload
  | _ => []

/-- The internal name of the class at an index. -/
def className (pool : RawPool) (index : UInt16) : Text :=
  match pool.at? index with
  | some (.classRef name) => pool.text name
  | _ => []

/-- The internal name of the class at an index, unless the index is zero. -/
def className? (pool : RawPool) (index : UInt16) : Option Text :=
  if index = 0 then none else some (pool.className index)

/-- The number of slots, with slot zero, and the constants. -/
def write (pool : RawPool) : Bytes :=
  .ofNat 2 (pool.slots.length + 1) ++ pool.flatMap RawConstant.write

/-- A pool whose slots can be counted, of well-formed constants that refer to constants of the
right kinds. -/
structure WellFormed (pool : RawPool) : Prop where
  count : pool.slots.length + 1 < 2 ^ 16
  constants : ∀ constant ∈ pool, constant.WellFormed
  references : ∀ constant ∈ pool, ∀ reference ∈ constant.references,
    pool.Holds reference.1 reference.2

/-- The pool that is meant. -/
def denote (pool : RawPool) : Pool :=
  ⟨(pool.slots.map (Option.map RawConstant.denote)).toArray⟩

end RawPool

/-! ### Attributes -/

/-- An attribute: the index of its name, and its bytes. -/
structure RawAttribute where
  nameIndex : UInt16
  payload : Bytes
  deriving DecidableEq, Repr

namespace RawAttribute

/-- An attribute is written with the length of its payload in four bytes. -/
def write (a : RawAttribute) : Bytes :=
  .ofU16 a.nameIndex ++ .ofNat 4 a.payload.length ++ a.payload

/-- An attribute with a name, whose payload is not too long. -/
def WellFormed (pool : RawPool) (a : RawAttribute) : Prop :=
  pool.Holds a.nameIndex [.utf8] ∧ a.payload.length < 2 ^ 32

/-- Whether an attribute is named as the one that holds code. -/
def isCode (pool : RawPool) (a : RawAttribute) : Bool :=
  pool.text a.nameIndex = .lit "Code"

/-- The attribute that is meant, if it is written at `place`. -/
def denote (pool : RawPool) (place : Int) (a : RawAttribute) : Attribute :=
  ⟨pool.text a.nameIndex, a.payload, place + 6⟩

/-- The attributes of a list that starts at `place`. -/
def denoteAll (pool : RawPool) (place : Int) (attributes : List RawAttribute) :
    List Attribute :=
  (placed write place attributes).map fun (place, a) ↦ a.denote pool place

/-- The attributes of one list: not too many, and all well formed. -/
def AllWellFormed (pool : RawPool) (attributes : List RawAttribute) : Prop :=
  attributes.length < 2 ^ 16 ∧ ∀ a ∈ attributes, a.WellFormed pool

end RawAttribute

/-! ### Code -/

/-- A row of an exception table. -/
structure RawHandler where
  start : UInt16
  stop : UInt16
  target : UInt16
  catchIndex : UInt16
  deriving DecidableEq, Repr

namespace RawHandler

/-- A row is written as its four numbers. -/
def write (h : RawHandler) : Bytes :=
  .ofU16 h.start ++ .ofU16 h.stop ++ .ofU16 h.target ++ .ofU16 h.catchIndex

/-- The exceptions are those of a class, or all. -/
def WellFormed (pool : RawPool) (h : RawHandler) : Prop :=
  h.catchIndex = 0 ∨ pool.Holds h.catchIndex [.classRef]

/-- The row that is meant. -/
def denote (pool : RawPool) (h : RawHandler) : ExceptionHandler :=
  ⟨h.start.toNat, h.stop.toNat, h.target.toNat, h.catchIndex.toNat, pool.className? h.catchIndex⟩

end RawHandler

/-- The code of a method. -/
structure RawCode where
  maxStack : UInt16
  maxLocals : UInt16
  code : Bytes
  handlers : List RawHandler
  attributes : List RawAttribute
  deriving DecidableEq, Repr

namespace RawCode

/-- What stands before the attributes. -/
def front (c : RawCode) : Bytes :=
  .ofU16 c.maxStack ++ .ofU16 c.maxLocals ++ .ofNat 4 c.code.length ++ c.code ++
    writeCounted RawHandler.write c.handlers

/-- Code is written with the lengths of its parts. -/
def write (c : RawCode) : Bytes :=
  c.front ++ writeCounted RawAttribute.write c.attributes

/-- Code whose parts are not too long and well formed. -/
structure WellFormed (pool : RawPool) (c : RawCode) : Prop where
  code : c.code.length < 2 ^ 32
  handlers : c.handlers.length < 2 ^ 16 ∧ ∀ h ∈ c.handlers, h.WellFormed pool
  attributes : RawAttribute.AllWellFormed pool c.attributes

/-- The code that is meant, if it is written at `place`. -/
def denote (pool : RawPool) (place : Int) (c : RawCode) : Code :=
  ⟨c.maxStack.toNat, c.maxLocals.toNat, c.code, c.handlers.map (RawHandler.denote pool),
    RawAttribute.denoteAll pool (place + c.front.length + 2) c.attributes⟩

end RawCode

/-! ### Fields and methods -/

/-- A field or a method. -/
structure RawMember where
  flags : UInt16
  nameIndex : UInt16
  descriptorIndex : UInt16
  attributes : List RawAttribute
  deriving DecidableEq, Repr

namespace RawMember

/-- A member is written as its numbers and its attributes. -/
def write (m : RawMember) : Bytes :=
  .ofU16 m.flags ++ .ofU16 m.nameIndex ++ .ofU16 m.descriptorIndex ++
    writeCounted RawAttribute.write m.attributes

/-- A field with a name and the descriptor of a type, without code. -/
structure IsField (pool : RawPool) (m : RawMember) : Prop where
  name : pool.Holds m.nameIndex [.utf8]
  descriptor : pool.Holds m.descriptorIndex [.utf8]
  type : ∃ type, Descriptor.field (pool.text m.descriptorIndex) = .ok type
  attributes : RawAttribute.AllWellFormed pool m.attributes
  noCode : ∀ a ∈ m.attributes, a.isCode pool = false

/-- A method with a name and a method descriptor, and with at most one attribute for code, whose
payload is well-formed code written down. -/
structure IsMethod (pool : RawPool) (m : RawMember) : Prop where
  name : pool.Holds m.nameIndex [.utf8]
  descriptor : pool.Holds m.descriptorIndex [.utf8]
  type : ∃ type, Descriptor.method (pool.text m.descriptorIndex) = .ok type
  attributes : RawAttribute.AllWellFormed pool m.attributes
  oneCode : (m.attributes.filter (RawAttribute.isCode pool)).length ≤ 1
  code : ∀ a ∈ m.attributes, a.isCode pool = true →
    ∃ code : RawCode, code.WellFormed pool ∧ code.write = a.payload

/-- The field that is meant, if it is written at `place`. -/
structure DenotesField (pool : RawPool) (place : Int) (m : RawMember) (field : Field) : Prop where
  flags : field.flags = ⟨m.flags⟩
  name : field.name = pool.text m.nameIndex
  descriptor : field.descriptor = pool.text m.descriptorIndex
  type : Descriptor.field field.descriptor = .ok field.type
  attributes : field.attributes = RawAttribute.denoteAll pool (place + 8) m.attributes

/-- The code among attributes: none if there is no attribute for it, and else the code whose
description, written down, is the attribute's bytes. -/
def DenotesCode (pool : RawPool) (attributes : List Attribute) : Option Code → Prop
  | none => ∀ a ∈ attributes, a.name ≠ .lit "Code"
  | some code => ∃ a ∈ attributes, a.name = .lit "Code" ∧
      ∃ raw : RawCode, raw.WellFormed pool ∧ raw.write = a.data ∧ code = raw.denote pool a.offset

/-- The method that is meant, if it is written at `place`. -/
structure DenotesMethod (pool : RawPool) (place : Int) (m : RawMember) (method : Method) :
    Prop where
  flags : method.flags = ⟨m.flags⟩
  name : method.name = pool.text m.nameIndex
  descriptor : method.descriptor = pool.text m.descriptorIndex
  type : Descriptor.method method.descriptor = .ok method.type
  attributes : method.attributes = RawAttribute.denoteAll pool (place + 8) m.attributes
  code : DenotesCode pool method.attributes method.code

end RawMember

/-! ### Classes -/

/-- What a class file states. -/
structure RawClass where
  minorVersion : UInt16
  majorVersion : UInt16
  constants : RawPool
  flags : UInt16
  thisIndex : UInt16
  superIndex : UInt16
  interfaces : List UInt16
  fields : List RawMember
  methods : List RawMember
  attributes : List RawAttribute
  deriving DecidableEq, Repr

namespace RawClass

/-- The magic number, the versions and the constants. -/
def preamble (d : RawClass) : Bytes :=
  ClassFile.magic ++ .ofU16 d.minorVersion ++ .ofU16 d.majorVersion ++ d.constants.write

/-- What stands between the constants and the fields. -/
def identity (d : RawClass) : Bytes :=
  .ofU16 d.flags ++ .ofU16 d.thisIndex ++ .ofU16 d.superIndex ++
    writeCounted Bytes.ofU16 d.interfaces

/-- What stands between the constants and the methods. -/
def untilMethods (d : RawClass) : Bytes :=
  d.identity ++ writeCounted RawMember.write d.fields

/-- What stands between the constants and the attributes. -/
def untilAttributes (d : RawClass) : Bytes :=
  d.untilMethods ++ writeCounted RawMember.write d.methods

/-- What stands behind the constants. -/
def body (d : RawClass) : Bytes :=
  d.untilAttributes ++ writeCounted RawAttribute.write d.attributes

/-- The bytes of a class file. -/
def serialize (d : RawClass) : Bytes :=
  d.preamble ++ d.body

/-- The descriptions of class files. -/
structure WellFormed (d : RawClass) : Prop where
  constants : d.constants.WellFormed
  thisClass : d.constants.Holds d.thisIndex [.classRef]
  superClass : d.superIndex = 0 ∨ d.constants.Holds d.superIndex [.classRef]
  interfaces : d.interfaces.length < 2 ^ 16 ∧
    ∀ index ∈ d.interfaces, d.constants.Holds index [.classRef]
  fields : d.fields.length < 2 ^ 16 ∧ ∀ m ∈ d.fields, m.IsField d.constants
  methods : d.methods.length < 2 ^ 16 ∧ ∀ m ∈ d.methods, m.IsMethod d.constants
  attributes : RawAttribute.AllWellFormed d.constants d.attributes

/-- The class that is meant, if its constants end at `place`. The items of a list start two bytes
behind the list, which starts with their number. -/
structure DenotesAt (d : RawClass) (place : Int) (file : ClassFile) : Prop where
  minorVersion : file.minorVersion = d.minorVersion.toNat
  majorVersion : file.majorVersion = d.majorVersion.toNat
  pool : file.pool = d.constants.denote
  flags : file.flags = ⟨d.flags⟩
  thisClass : file.thisClass = displayName (d.constants.className d.thisIndex)
  superClass : file.superClass = (d.constants.className? d.superIndex).map displayName
  interfaces : file.interfaces =
    d.interfaces.map fun index ↦ displayName (d.constants.className index)
  fields : DenoteAll RawMember.write (RawMember.DenotesField d.constants)
    (place + d.identity.length + 2) d.fields file.fields
  methods : DenoteAll RawMember.write (RawMember.DenotesMethod d.constants)
    (place + d.untilMethods.length + 2) d.methods file.methods
  attributes : file.attributes =
    RawAttribute.denoteAll d.constants (place + d.untilAttributes.length + 2) d.attributes

/-- The class that is meant. -/
def Denotes (d : RawClass) (file : ClassFile) : Prop :=
  d.DenotesAt d.preamble.length file

end RawClass

end ClassInspect
