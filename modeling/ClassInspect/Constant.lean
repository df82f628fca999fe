import ClassInspect.Number.Notation
import ClassInspect.Text.CodePoint

/-!
# Constants

A constant is a text, a number, or a record of indices that refer to other constants. Its
kind is its `Tag`, which is also the byte that announces it in a class file.

Which components of a constant point into the pool, and to constants of which kinds, stands in a
table (`Constant.referring`). `Constant.references` lists these indices, each with the kinds that
may stand there. Components that are not pool indices, such as the number of a bootstrap method,
are not listed.
-/

namespace ClassInspect

/-- The kind of a constant. -/
inductive Tag where
  | utf8
  | integer
  | float
  | long
  | double
  | classRef
  | string
  | fieldRef
  | methodRef
  | interfaceMethodRef
  | nameAndType
  | methodHandle
  | methodType
  | dynamic
  | invokeDynamic
  | module
  | package
  deriving DecidableEq, Repr

namespace Tag

/-- All kinds, in the order of their bytes. -/
def all : List Tag :=
  [utf8, integer, float, long, double, classRef, string, fieldRef, methodRef,
    interfaceMethodRef, nameAndType, methodHandle, methodType, dynamic, invokeDynamic, module,
    package]

/-- The byte that announces a constant of this kind. -/
def code : Tag → Nat
  | utf8 => 1
  | integer => 3
  | float => 4
  | long => 5
  | double => 6
  | classRef => 7
  | string => 8
  | fieldRef => 9
  | methodRef => 10
  | interfaceMethodRef => 11
  | nameAndType => 12
  | methodHandle => 15
  | methodType => 16
  | dynamic => 17
  | invokeDynamic => 18
  | module => 19
  | package => 20

/-- The name of a kind in messages and dumps. -/
def name : Tag → String
  | utf8 => "Utf8"
  | integer => "Integer"
  | float => "Float"
  | long => "Long"
  | double => "Double"
  | classRef => "Class"
  | string => "String"
  | fieldRef => "FieldRef"
  | methodRef => "MethodRef"
  | interfaceMethodRef => "InterfaceMethodRef"
  | nameAndType => "NameAndType"
  | methodHandle => "MethodHandle"
  | methodType => "MethodType"
  | dynamic => "Dynamic"
  | invokeDynamic => "InvokeDynamic"
  | module => "Module"
  | package => "Package"

/-- The kind that a byte announces. -/
def ofCode? (code : Nat) : Option Tag :=
  all.find? fun tag ↦ tag.code = code

/-- The kind of a given name. -/
def ofName? (name : String) : Option Tag :=
  all.find? fun tag ↦ tag.name = name

end Tag

/-- A constant. Floating-point constants keep their bits. -/
inductive Constant where
  | utf8 (text : Text)
  | integer (value : Int)
  | float (bits : UInt32)
  | long (value : Int)
  | double (bits : UInt64)
  | classRef (name : Int)
  | string (text : Int)
  | fieldRef (owner nameAndType : Int)
  | methodRef (owner nameAndType : Int)
  | interfaceMethodRef (owner nameAndType : Int)
  | nameAndType (name descriptor : Int)
  | methodHandle (kind reference : Int)
  | methodType (descriptor : Int)
  | dynamic (bootstrap nameAndType : Int)
  | invokeDynamic (bootstrap nameAndType : Int)
  | module (name : Int)
  | package (name : Int)
  deriving DecidableEq, Repr

/-- What a constant holds, by shape. -/
inductive Payload where
  | text (value : Text)
  | number (value : Int)
  | real (value : Binary)
  | pair (first second : Int)
  deriving DecidableEq, Repr

/-- A payload as text: a pair stands in parentheses. -/
def Payload.shown : Payload → Text
  | text value => value
  | number value => .ofInt value
  | real value => .lit value.text
  | pair first second => .lit s!"({first}, {second})"

/-- The whole numbers of a payload. -/
def Payload.numbers : Payload → List Int
  | number value => [value]
  | pair first second => [first, second]
  | text _ | real _ => []

namespace Constant

/-- The kind of a constant. -/
def tag : Constant → Tag
  | utf8 _ => .utf8
  | integer _ => .integer
  | float _ => .float
  | long _ => .long
  | double _ => .double
  | classRef _ => .classRef
  | string _ => .string
  | fieldRef _ _ => .fieldRef
  | methodRef _ _ => .methodRef
  | interfaceMethodRef _ _ => .interfaceMethodRef
  | nameAndType _ _ => .nameAndType
  | methodHandle _ _ => .methodHandle
  | methodType _ => .methodType
  | dynamic _ _ => .dynamic
  | invokeDynamic _ _ => .invokeDynamic
  | module _ => .module
  | package _ => .package

/-- The payload of a constant. -/
def payload : Constant → Payload
  | utf8 value => .text value
  | integer value | long value => .number value
  | float bits => .real (.single bits.toNat)
  | double bits => .real (.double bits.toNat)
  | classRef index | string index | methodType index | module index | package index =>
    .number index
  | fieldRef a b | methodRef a b | interfaceMethodRef a b | nameAndType a b | methodHandle a b
  | dynamic a b | invokeDynamic a b => .pair a b

/-- The payload of a constant as text. -/
def shown (constant : Constant) : Text :=
  constant.payload.shown

/-- A constant in a log line: the byte of its kind, then its payload. -/
def label (constant : Constant) : Text :=
  .lit s!"Constant {constant.tag.code}: " ++ constant.shown

/-- Whether a constant takes the slot behind it as well. -/
def takesTwo : Constant → Bool
  | long _ | double _ => true
  | _ => false

/-- The kinds of constants with references. For each component of such a constant there are the
kinds that it may refer to, or none if it is a number of its own. -/
def referring : List (Tag × List (Option (List Tag))) :=
  [(.classRef, [some [.utf8]]), (.string, [some [.utf8]]), (.methodType, [some [.utf8]]),
    (.module, [some [.utf8]]), (.package, [some [.utf8]]),
    (.fieldRef, [some [.classRef], some [.nameAndType]]),
    (.methodRef, [some [.classRef], some [.nameAndType]]),
    (.interfaceMethodRef, [some [.classRef], some [.nameAndType]]),
    (.nameAndType, [some [.utf8], some [.utf8]]),
    (.methodHandle, [none, some [.fieldRef, .methodRef, .interfaceMethodRef]]),
    (.dynamic, [none, some [.nameAndType]]), (.invokeDynamic, [none, some [.nameAndType]])]

/-- The pool indices in a constant, in file order, each with the kinds allowed there. -/
def references : Constant → List (Int × List Tag)
  | classRef index | string index | methodType index | module index | package index =>
    [(index, [.utf8])]
  | fieldRef owner member | methodRef owner member | interfaceMethodRef owner member =>
    [(owner, [.classRef]), (member, [.nameAndType])]
  | nameAndType name descriptor => [(name, [.utf8]), (descriptor, [.utf8])]
  | methodHandle _ reference => [(reference, [.fieldRef, .methodRef, .interfaceMethodRef])]
  | dynamic _ member | invokeDynamic _ member => [(member, [.nameAndType])]
  | utf8 _ | integer _ | float _ | long _ | double _ => []

end Constant

/-- What a method handle does with its member. -/
inductive ReferenceKind where
  | getField
  | getStatic
  | putField
  | putStatic
  | invokeVirtual
  | invokeStatic
  | invokeSpecial
  | newInvokeSpecial
  | invokeInterface
  deriving DecidableEq, Repr

namespace ReferenceKind

/-- All kinds of handles, numbered from one. -/
def all : List ReferenceKind :=
  [getField, getStatic, putField, putStatic, invokeVirtual, invokeStatic, invokeSpecial,
    newInvokeSpecial, invokeInterface]

/-- The kind of a number from 1 to 9. -/
def ofCode? (code : Int) : Option ReferenceKind :=
  if 1 ≤ code then all[(code - 1).toNat]? else none

/-- The name of a handle kind in descriptions. -/
def name : ReferenceKind → String
  | getField => "REF_getField"
  | getStatic => "REF_getStatic"
  | putField => "REF_putField"
  | putStatic => "REF_putStatic"
  | invokeVirtual => "REF_invokeVirtual"
  | invokeStatic => "REF_invokeStatic"
  | invokeSpecial => "REF_invokeSpecial"
  | newInvokeSpecial => "REF_newInvokeSpecial"
  | invokeInterface => "REF_invokeInterface"

end ReferenceKind

end ClassInspect
