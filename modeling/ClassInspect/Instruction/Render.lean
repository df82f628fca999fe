import ClassInspect.Instruction
import ClassInspect.Pool.Describe
import ClassInspect.Text.Layout

/-!
# Listings of instructions

An instruction is a line with its position at the left margin, its mnemonic and its operands.
A switch takes a line for each of its targets. With a constant pool at hand, an instruction
that refers to a constant is followed by a comment that describes it.

What an argument is for is not kept with it. `Instruction.render` looks the row of the opcode up
again and goes through its operand kinds along with the arguments, so it relies on the two being
made for each other: an argument of a kind that asks for something else is a breach.
-/

namespace ClassInspect

namespace SwitchTable

/-- The bounds of a table, which may have none. -/
def boundsText (table : SwitchTable) : String :=
  match table.bounds with
  | some (low, high) => s!"{low} to {high}"
  | none => "None to None"

/-- The lines of a switch whose first line starts with `head` and says what the switch covers. -/
def linesOf (table : SwitchTable) (head covers : String) : List String :=
  (head ++ " \x7b // " ++ covers) ::
    (table.pairs.map fun (number, target) ↦
      Layout.right 18 (toString number) ++ s!": {target}") ++
    [Layout.right 18 "default" ++ s!": {table.fallback}", Layout.right 7 "\x7d"]

end SwitchTable

namespace Argument

/-- The description of the constant that an argument refers to. -/
def describe (argument : Argument) (pool : Pool) : Except Fault Text :=
  match argument with
  | number index => pool.describe index
  | table _ => .error (.breach .notAnIndex)

/-- The name of the element type that an argument stands for. -/
def elementName (argument : Argument) : Except Fault String :=
  match argument with
  | number code =>
    match BaseType.all.find? fun type ↦ (type.arrayCode : Int) = code with
    | some type => .ok type.name
    | none => .error (.breach (.noElementType argument.text))
  | table _ => .error (.breach (.noElementType argument.text))

/-- The lines of a table for consecutive numbers. -/
def tableLines (argument : Argument) (head : String) : Except Fault (List String) :=
  match argument with
  | number _ => .error (.breach (.notATable "low"))
  | table value => .ok (value.linesOf head value.boundsText)

/-- The lines of a table for listed numbers. -/
def lookupLines (argument : Argument) (head : String) : Except Fault (List String) :=
  match argument with
  | number _ => .error (.breach (.notATable "pairs"))
  | table value => .ok (value.linesOf head (toString value.pairs.length))

end Argument

namespace Instruction

/-- The position and the mnemonic. -/
def head (i : Instruction) : String :=
  Layout.right 5 (toString i.offset) ++ ": " ++ i.mnemonic

/-- A line that starts as given, with operands and a comment. -/
def lineOf (head : String) (operands : List String) (comment : Option Text) : Text :=
  Text.lit (if operands.isEmpty then head else head ++ " " ++ ", ".intercalate operands) ++
    (comment.map (Text.lit " // " ++ ·)).getD []

/-- The comment behind a constant: its description if there is a pool, and else the one before. -/
def comment (pool? : Option Pool) (argument : Argument) (before : Option Text) :
    Except Fault (Option Text) :=
  match pool? with
  | some pool => return some (← argument.describe pool)
  | none => return before

/-- Goes through arguments and what they are for. `done` holds the operands so far, and `before` the
last comment. A switch takes the place of all that. -/
def renderArguments (pool? : Option Pool) (head : String) (done : List String)
    (before : Option Text) : List (OperandKind × Argument) → Except Fault Text
  | [] => return lineOf head done before
  | (kind, argument) :: rest =>
    match kind with
    | .constant8 | .constant16 => do
      let after ← comment pool? argument before
      renderArguments pool? head (done ++ ["#" ++ argument.text]) after rest
    | .arrayType => do
      let name ← argument.elementName
      renderArguments pool? head (done ++ [name]) before rest
    | .tableSwitch => return .lit ("\n".intercalate (← argument.tableLines head))
    | .lookupSwitch => return .lit ("\n".intercalate (← argument.lookupLines head))
    | _ => renderArguments pool? head (done ++ [argument.text]) before rest

/-- The instruction in a listing. With a pool, there is a comment on the constant it refers to. -/
def render (i : Instruction) (pool? : Option Pool) : Except Fault Text := do
  let row ← Opcode.lookup i.opcode.code
  renderArguments pool? { i with opcode := row }.head [] none
    (row.meaningful.zip (i.operands.map Operand.argument))

end Instruction

end ClassInspect
