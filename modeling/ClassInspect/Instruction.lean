import ClassInspect.Descriptor
import ClassInspect.Opcode

/-!
# Instructions

A decoded instruction with its position in the code. Operands carry their meaning: branch and
switch targets are absolute positions, and the element type of a new array is the type itself.
Bytes without meaning are left out.
-/

namespace ClassInspect

namespace BaseType

/-- The number of a primitive type in the instruction for new arrays. -/
def arrayCode : BaseType → Nat
  | boolean => 4
  | char => 5
  | float => 6
  | double => 7
  | byte => 8
  | short => 9
  | int => 10
  | long => 11

/-- The primitive type of such a number. -/
def ofArrayCode? (code : Nat) : Option BaseType :=
  all.find? fun base ↦ base.arrayCode = code

end BaseType

/-- The jump table of a switch: the target for all other numbers, the bounds of a table for
consecutive numbers, and the listed numbers with their targets. -/
structure SwitchTable where
  fallback : Int
  bounds : Option (Int × Int)
  pairs : List (Int × Int)
  deriving DecidableEq, Repr

/-- An operand. -/
inductive Operand where
  | immediate (value : Int)
  | count (value : Nat)
  | localVariable (index : Nat)
  | constant (index : Nat)
  | target (address : Int)
  | arrayType (type : BaseType)
  | table (value : SwitchTable)
  deriving DecidableEq, Repr

/-- An instruction at a position in the code. -/
structure Instruction where
  offset : Nat
  opcode : Opcode
  /-- Whether the instruction follows the wide mark. -/
  wide : Bool
  operands : List Operand
  deriving DecidableEq, Repr

/-- Items between parentheses. A single one is followed by a comma. -/
def tupleText : List String → String
  | [only] => s!"({only},)"
  | items => "(" ++ ", ".intercalate items ++ ")"

/-- The table for logs and debugging. -/
def SwitchTable.label (table : SwitchTable) : String :=
  let pairs := table.pairs.map fun (number, target) ↦ s!"({number}, {target})"
  s!"SwitchTable(default={table.fallback}, pairs={tupleText pairs})"

/-- What an operand is kept as: a number, or the table of a switch. -/
inductive Argument where
  | number (value : Int)
  | table (value : SwitchTable)
  deriving DecidableEq, Repr

/-- The argument for listings, logs and debugging. -/
def Argument.text : Argument → String
  | number value => toString value
  | table value => value.label

namespace Operand

/-- The argument that an operand is kept as. -/
def argument : Operand → Argument
  | immediate value => .number value
  | count value => .number value
  | localVariable index => .number index
  | constant index => .number index
  | target address => .number address
  | arrayType type => .number type.arrayCode
  | table value => .table value

/-- The operand for logs and debugging. -/
def label (operand : Operand) : String :=
  operand.argument.text

end Operand

namespace Instruction

/-- The mnemonic, with a mark on the wide form. -/
def mnemonic (i : Instruction) : String :=
  if i.wide then i.opcode.mnemonic ++ "_w" else i.opcode.mnemonic

/-- The instruction for logs and debugging. -/
def label (i : Instruction) : String :=
  s!"instruction(opcode={i.mnemonic} (0x{Hex.upper i.opcode.code}), " ++
    s!"args={tupleText (i.operands.map Operand.label)})"

/-- The pool index among the operands. No instruction has two. -/
def constant? (i : Instruction) : Option Nat :=
  i.operands.findSome? fun operand ↦
    match operand with
    | .constant index => some index
    | _ => none

end Instruction

end ClassInspect
