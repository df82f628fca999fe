import ClassInspect.Pool
import ClassInspect.Scan

/-!
# Reading constants

A constant is a byte for its kind and then its components. What is wrong with a constant as a
whole is reported at the position of that byte. The pool is read slot by slot up to the
announced number, a constant that takes two leaving the next slot reserved, and then all
references are checked at once, since they may point forwards.
-/

namespace ClassInspect

/-- The text constant that bytes encode, announced at `place`. -/
def Constant.ofPayload (place : Int) (bytes : Bytes) : Scan Constant :=
  match ModifiedUtf8.decode bytes with
  | .ok text => return .utf8 text
  | .error failure => throw (.ofText place failure)

/-- Reads the components of a constant of a given kind, announced at `place`. -/
def Constant.readBody (place : Int) : Tag → Scan Constant
  | .utf8 => do
    let bytes ← Scan.take (← Scan.u16)
    ofPayload place bytes
  | .integer => do return .integer (← Scan.i32)
  | .float => do return .float (← Scan.f32)
  | .long => do return .long (← Scan.i64)
  | .double => do return .double (← Scan.f64)
  | .classRef => do return .classRef (← Scan.u16)
  | .string => do return .string (← Scan.u16)
  | .fieldRef => do return .fieldRef (← Scan.u16) (← Scan.u16)
  | .methodRef => do return .methodRef (← Scan.u16) (← Scan.u16)
  | .interfaceMethodRef => do return .interfaceMethodRef (← Scan.u16) (← Scan.u16)
  | .nameAndType => do return .nameAndType (← Scan.u16) (← Scan.u16)
  | .methodType => do return .methodType (← Scan.u16)
  | .dynamic => do return .dynamic (← Scan.u16) (← Scan.u16)
  | .invokeDynamic => do return .invokeDynamic (← Scan.u16) (← Scan.u16)
  | .module => do return .module (← Scan.u16)
  | .package => do return .package (← Scan.u16)
  | tag => do
    -- one kind is left
    Scan.rely (tag = .methodHandle) (.unexpectedKind tag)
    let kind ← Scan.u8
    let reference ← Scan.u16
    if (ReferenceKind.ofCode? kind).isSome then return .methodHandle kind reference
    else Scan.fail (.invalidHandleKind kind) place

/-- The one kind that is left is relied on, and what is read for it is a method handle. -/
theorem Constant.readBody_methodHandle (place : Int) :
    readBody place .methodHandle = (do
      let kind ← Scan.u8
      let reference ← Scan.u16
      if (ReferenceKind.ofCode? kind).isSome then return .methodHandle kind reference
      else Scan.fail (.invalidHandleKind kind) place) :=
  rfl

/-- Reads what follows the byte of a constant's kind, which stands at `place`. -/
def Constant.readRest (place : Int) (code : Nat) : Scan Constant :=
  match Tag.ofCode? code with
  | none => Scan.fail (.unsupportedTag code) place
  | some tag => readBody place tag

/-- Reads one constant. -/
def Constant.read : Scan Constant := do
  let place ← Scan.place
  readRest place (← Scan.u8)

namespace Pool

/-- Reads one constant for the given slot, and logs it if asked to. -/
def readEntry (verbose : Bool) (index : Nat) : Scan Constant := do
  let constant ← Constant.read
  if verbose then
    Scan.note .debug .reader (.lit s!"constant #{index}: " ++ constant.label)
  return constant

/-- Fills `left` more slots. -/
def readSlots (verbose : Bool) : (left : Nat) → Pool → Scan Pool
  | 0, pool => pure pool
  | left + 1, pool => do
    let constant ← readEntry verbose pool.count
    if constant.takesTwo then
      match left with
      | 0 => throw (.nowhere (.pool .lastTakesTwo))
      | left + 1 => readSlots verbose left ((pool.append (some constant)).append none)
    else readSlots verbose left (pool.append (some constant))

/-- Reads and checks a constant pool. -/
def read (verbose : Bool) : Scan Pool := do
  let count ← Scan.u16
  let pool ← readSlots verbose (count - 1) empty
  Scan.ofExcept (lift pool.check)
  Scan.note .debug .reader (.lit s!"Read constant pool with {pool.count} items")
  return pool

end Pool

end ClassInspect
