import ClassInspect.Scan

/-!
# Access flags

Sixteen bits whose names depend on what they stand on: a class, a field or a method. Classes
have no name for the bits `0x40` and `0x80`, fields none for `0x20`; showing such a bit fails,
with the smallest one if there are several.
-/

namespace ClassInspect

/-- The access flags of a class, field or method. -/
structure Flags where
  word : UInt16
  deriving DecidableEq, Repr

/-- What flags stand on. -/
inductive FlagOwner where
  | type
  | field
  | method
  deriving DecidableEq, Repr

namespace FlagOwner

/-- The owner of a given name. -/
def ofName? : String → Option FlagOwner
  | "class" => some type
  | "field" => some field
  | "method" => some method
  | _ => none

/-- The name of a bit that means the same everywhere. -/
def sharedName? : Nat → Option String
  | 0x1 => some "ACC_PUBLIC"
  | 0x2 => some "ACC_PRIVATE"
  | 0x4 => some "ACC_PROTECTED"
  | 0x8 => some "ACC_STATIC"
  | 0x10 => some "ACC_FINAL"
  | 0x100 => some "ACC_NATIVE"
  | 0x200 => some "ACC_INTERFACE"
  | 0x400 => some "ACC_ABSTRACT"
  | 0x800 => some "ACC_STRICT"
  | 0x1000 => some "ACC_SYNTHETIC"
  | 0x2000 => some "ACC_ANNOTATION"
  | 0x4000 => some "ACC_ENUM"
  | 0x8000 => some "ACC_MODULE"
  | _ => none

/-- The name of a bit on an owner. -/
def name? (owner : FlagOwner) (bit : Nat) : Option String :=
  match owner, bit with
  | type, 0x20 => some "ACC_SUPER"
  | field, 0x40 => some "ACC_VOLATILE"
  | field, 0x80 => some "ACC_TRANSIENT"
  | method, 0x20 => some "ACC_SYNCHRONIZED"
  | method, 0x40 => some "ACC_BRIDGE"
  | method, 0x80 => some "ACC_VARARGS"
  | _, bit => sharedName? bit

end FlagOwner

namespace Flags

/-- The values of the bits that are set, in increasing order. -/
def bits (flags : Flags) : List Nat :=
  ((List.range 16).filter flags.word.toNat.testBit).map (Nat.pow 2)

/-- The names of the bits that are set, or the first bit without a name. -/
def names (flags : Flags) (owner : FlagOwner) : Except Fault (List String) :=
  flags.bits.mapM fun bit ↦
    match owner.name? bit with
    | some name => .ok name
    | none => .error (.unnamedFlag bit)

/-- The names of the bits that are set, with commas between them. -/
def text (flags : Flags) (owner : FlagOwner) : Except Fault String :=
  return ", ".intercalate (← flags.names owner)

/-- The text for an owner given by its name. -/
def textFor (flags : Flags) (owner : String) : Except Fault String :=
  match FlagOwner.ofName? owner with
  | some owner => flags.text owner
  | none => .error (.unknownOwner owner)

/-- The set bits as a list in brackets. -/
def label (flags : Flags) : String :=
  "[" ++ ", ".intercalate (flags.bits.map toString) ++ "]"

/-- The bits that mean something on some kind of item. -/
def known : List Nat :=
  [0x1, 0x2, 0x4, 0x8, 0x10, 0x20, 0x40, 0x80, 0x100, 0x200, 0x400, 0x800, 0x1000, 0x2000,
    0x4000, 0x8000]

/-- Checks that a bit means something. -/
def checkBit (bit : Nat) : Except Fault Unit :=
  if known.contains bit then .ok () else .error (.breach (.noFlag bit))

/-- Reads access flags. Each set bit is taken for a flag, which must mean something. -/
def read : Scan Flags := do
  let flags : Flags := ⟨.ofNat (← Scan.u16)⟩
  Scan.ofExcept (flags.bits.forM checkBit)
  return flags

end Flags

end ClassInspect
