import ClassInspect.Instruction
import ClassInspect.Scan.Progress

/-!
# Decoding bytecode

Instructions are decoded one after the other up to the end of the code. Positions, and with
them the padding of switch tables to a multiple of four, count from the start of the code.

Every instruction takes at least its opcode, so decoding ends (`Instruction.progresses_decode`).
-/

namespace ClassInspect

/-- Moves to the next multiple of four. -/
def Scan.align : Scan Unit := do
  let pos ← Scan.pos
  Scan.skip ((4 - pos % 4) % 4 : Nat)

namespace SwitchTable

/-- Reads a table for consecutive numbers. -/
def readTable (offset : Nat) : Scan SwitchTable := do
  Scan.align
  let fallback ← Scan.i32
  let low ← Scan.i32
  let high ← Scan.i32
  if high < low then Scan.fail (.switchBounds low high) offset
  else
    let targets ← Scan.times (high - low + 1).toNat Scan.i32
    return ⟨offset + fallback, some (low, high),
      targets.mapIdx fun index target ↦ (low + index, offset + target)⟩

/-- Reads a number and its target. -/
def readPair (offset : Nat) : Scan (Int × Int) := do
  let number ← Scan.i32
  let target ← Scan.i32
  return (number, offset + target)

/-- Reads a table for listed numbers. -/
def readLookup (offset : Nat) : Scan SwitchTable := do
  Scan.align
  let fallback ← Scan.i32
  let count ← Scan.i32
  if count < 0 then Scan.fail (.switchPairs count) offset
  else
    let pairs ← Scan.times count.toNat (readPair offset)
    return ⟨offset + fallback, none, pairs⟩

end SwitchTable

namespace Instruction

/-- The element type that a number stands for. -/
def arrayType (offset code : Nat) : Scan BaseType :=
  match BaseType.ofArrayCode? code with
  | some type => return type
  | none => Scan.fail (.invalidArrayType code) offset

/-- Reads the element type of a new array. -/
def readArrayType (offset : Nat) : Scan BaseType := do
  arrayType offset (← Scan.u8)

/-- Reads an operand of the instruction at `offset`. Bytes without meaning give none. -/
def readOperand (offset : Nat) : OperandKind → Scan (Option Operand)
  | .i8 => do return some (.immediate (← Scan.i8))
  | .i16 => do return some (.immediate (← Scan.i16))
  | .count => do return some (.count (← Scan.u8))
  | .reserved => do
    Scan.skip 1
    return none
  | .localVariable => do return some (.localVariable (← Scan.u8))
  | .constant8 => do return some (.constant (← Scan.u8))
  | .constant16 => do return some (.constant (← Scan.u16))
  | .branch16 => do return some (.target (offset + (← Scan.i16)))
  | .branch32 => do return some (.target (offset + (← Scan.i32)))
  | .arrayType => do return some (.arrayType (← readArrayType offset))
  | .tableSwitch => do return some (.table (← SwitchTable.readTable offset))
  | .lookupSwitch => do return some (.table (← SwitchTable.readLookup offset))
  | .wide => throw (.breach .notAnOperand)

/-- Reads operands in order. -/
def readOperands (offset : Nat) : List OperandKind → Scan (List Operand)
  | [] => return []
  | kind :: kinds => do
    let operand ← readOperand offset kind
    let operands ← readOperands offset kinds
    return operand.toList ++ operands

/-- Reads the operands of a wide instruction. Its variable has two bytes, and so has the number
that is added to it. -/
def readWidened (offset : Nat) (opcode : Opcode) : Scan Instruction := do
  let index ← Scan.u16
  if opcode.operands = [.localVariable, .i8] then
    return ⟨offset, opcode, true, [.localVariable index, .immediate (← Scan.i16)]⟩
  else return ⟨offset, opcode, true, [.localVariable index]⟩

/-- Reads what follows an opcode behind a wide mark. -/
def readWideRest (offset code : Nat) : Scan Instruction :=
  match (Opcode.ofCode? code).filter Opcode.isWidened with
  | none => Scan.fail (.notWidened code) (offset + 1)
  | some opcode => readWidened offset opcode

/-- Reads the instruction behind a wide mark. -/
def readWide (offset : Nat) : Scan Instruction := do
  readWideRest offset (← Scan.u8)

/-- Reads what follows an opcode. -/
def readRest (offset code : Nat) : Scan Instruction :=
  match Opcode.ofCode? code with
  | none => Scan.fail (.unsupportedOpcode code) offset
  | some opcode =>
    if opcode.operands = [.wide] then readWide offset
    else do return ⟨offset, opcode, false, ← readOperands offset opcode.operands⟩

/-- Reads one instruction. -/
def decode : Scan Instruction := do
  let offset ← Scan.pos
  readRest offset (← Scan.u8)

open Scan (Shrinks Progresses)

theorem shrinks_align : Shrinks Scan.align :=
  .bind .pos fun _ ↦ .skip _

theorem shrinks_readTable (offset : Nat) : Shrinks (SwitchTable.readTable offset) := by
  refine .bind shrinks_align fun _ ↦ .bind (.signed 4) fun _ ↦ .bind (.signed 4) fun _ ↦
    .bind (.signed 4) fun _ ↦ ?_
  split
  · exact .fail _ _
  · exact .bind ((Shrinks.signed 4).times _) fun _ ↦ .pure _

theorem shrinks_readLookup (offset : Nat) : Shrinks (SwitchTable.readLookup offset) := by
  refine .bind shrinks_align fun _ ↦ .bind (.signed 4) fun _ ↦ .bind (.signed 4) fun _ ↦ ?_
  split
  · exact .fail _ _
  · refine .bind (Shrinks.times ?_ _) fun _ ↦ .pure _
    exact .bind (.signed 4) fun _ ↦ .bind (.signed 4) fun _ ↦ .pure _

theorem shrinks_readArrayType (offset : Nat) : Shrinks (readArrayType offset) := by
  refine .bind (.unsigned 1) fun code ↦ ?_
  unfold arrayType
  cases BaseType.ofArrayCode? code with
  | some type => exact .pure _
  | none => exact .fail _ _

theorem shrinks_readOperand (offset : Nat) (kind : OperandKind) :
    Shrinks (readOperand offset kind) := by
  cases kind with
  | i8 => exact .bind (.signed 1) fun _ ↦ .pure _
  | i16 => exact .bind (.signed 2) fun _ ↦ .pure _
  | count => exact .bind (.unsigned 1) fun _ ↦ .pure _
  | reserved => exact .bind (.skip 1) fun _ ↦ .pure _
  | localVariable => exact .bind (.unsigned 1) fun _ ↦ .pure _
  | constant8 => exact .bind (.unsigned 1) fun _ ↦ .pure _
  | constant16 => exact .bind (.unsigned 2) fun _ ↦ .pure _
  | branch16 => exact .bind (.signed 2) fun _ ↦ .pure _
  | branch32 => exact .bind (.signed 4) fun _ ↦ .pure _
  | arrayType => exact .bind (shrinks_readArrayType offset) fun _ ↦ .pure _
  | tableSwitch => exact .bind (shrinks_readTable offset) fun _ ↦ .pure _
  | lookupSwitch => exact .bind (shrinks_readLookup offset) fun _ ↦ .pure _
  | wide => exact .throw _

theorem shrinks_readOperands (offset : Nat) (kinds : List OperandKind) :
    Shrinks (readOperands offset kinds) := by
  induction kinds with
  | nil => exact .pure _
  | cons kind kinds ih =>
    exact .bind (shrinks_readOperand offset kind) fun _ ↦ .bind ih fun _ ↦ .pure _

theorem shrinks_readWidened (offset : Nat) (opcode : Opcode) :
    Shrinks (readWidened offset opcode) := by
  refine .bind (.unsigned 2) fun _ ↦ ?_
  split
  · exact .bind (.signed 2) fun _ ↦ .pure _
  · exact .pure _

theorem shrinks_readWide (offset : Nat) : Shrinks (readWide offset) := by
  refine .bind (.unsigned 1) fun code ↦ ?_
  unfold readWideRest
  cases (Opcode.ofCode? code).filter Opcode.isWidened with
  | none => exact .fail _ _
  | some opcode => exact shrinks_readWidened offset opcode

theorem shrinks_readRest (offset code : Nat) : Shrinks (readRest offset code) := by
  unfold readRest
  split
  · exact .fail _ _
  · split
    · exact shrinks_readWide offset
    · exact .bind (shrinks_readOperands offset _) fun _ ↦ .pure _

/-- An instruction takes at least its opcode. -/
theorem progresses_decode : Progresses decode :=
  Shrinks.bind_progresses .pos fun _ ↦ Progresses.bind .u8 fun _ ↦ shrinks_readRest _ _

/-- The instructions of a code array up to its end or the first fault, each with the position
behind it. -/
def steps (code : Bytes) : List (Except Fault Instruction × Nat) :=
  (Scan.trace decode progresses_decode (.start code 0)).map fun (outcome, s) ↦
    (outcome, s.cursor.pos)

/-- The instructions of a code array. -/
def decodeAll (code : Bytes) : Except Fault (List Instruction) :=
  (steps code).mapM Prod.fst

end Instruction

end ClassInspect
