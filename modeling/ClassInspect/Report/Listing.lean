import ClassInspect.Instruction.Decode
import ClassInspect.Instruction.Render
import ClassInspect.Report.Summary

/-!
# The listing of a method

The signature, the limits, the instructions with comments on their constants, and the exception
table. A method without code has a placeholder, and its listing alone has no line feed at its
end.
-/

namespace ClassInspect

/-- A row of the exception table. -/
def ExceptionHandler.line (handler : ExceptionHandler) : Text :=
  .lit (Layout.right 7 (toString handler.start) ++ " " ++
      Layout.right 5 (toString handler.stop) ++ " " ++
      Layout.right 7 (toString handler.target) ++ " ") ++
    orElse "any" handler.catchType

/-- The exception table, if it has rows. -/
def Code.handlerLines (code : Code) : List Text :=
  if code.handlers.isEmpty then []
  else
    .lit "Exception table:" :: .lit "   from    to  target type" ::
      code.handlers.map ExceptionHandler.line

/-- The instructions of a code array. Their number is logged. -/
def disassemble (code : Bytes) : Logged (List Instruction) := do
  let instructions ← Logged.ofExcept (Instruction.decodeAll code)
  Logged.note .debug .decoder
    (.lit s!"Decoded {instructions.length} instructions from {code.length} bytes")
  return instructions

namespace Method

/-- The first lines of the listing of a method with the given signature. -/
def headLines (signature : Text) : List Text :=
  [.lit "Bytecode for method: " ++ signature, .lit "", .lit ""]

/-- The limits of code, and a rule. -/
def limitLines (code : Code) : List Text :=
  [.lit (s!"Max stack: {code.maxStack}, Max locals: {code.maxLocals}, " ++
      s!"Code length: {code.code.length}"),
    .ofChars (List.replicate 50 '-')]

/-- The listing of a method of a class with the given constants. -/
def listing (method : Method) (pool : Pool) : Logged Text := do
  let signature ← Logged.ofExcept method.renderSignature
  match method.code with
  | none =>
    return .lines (headLines signature ++
      [.lit "(No bytecode for this method - it may be abstract or native)"])
  | some code =>
    let instructions ← disassemble code.code
    let lines ← Logged.ofExcept (instructions.mapM (·.render (some pool)))
    return .lines (headLines signature ++ limitLines code ++ lines ++ code.handlerLines) ++
      .lit "\n"

end Method

end ClassInspect
