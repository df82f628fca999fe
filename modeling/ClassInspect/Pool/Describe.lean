import ClassInspect.Pool

/-!
# Descriptions of constants

The text that stands for a constant in comments: its kind and what it refers to, with all
indices followed. Names that start with `<` or `[` are put in quotes.
-/

namespace ClassInspect

/-- A name in a description. -/
def quoteName (name : Text) : Text :=
  match name with
  | .char '<' :: _ | .char '[' :: _ => .lit "\"" ++ name ++ .lit "\""
  | _ => name

namespace Pool

/-- A member as owner, name and descriptor. -/
def memberText (pool : Pool) (owner nameAndType : Int) : Except Fault Text := do
  let owner ← lift (pool.className owner)
  let (name, descriptor) ← lift (pool.nameAndType nameAndType)
  return quoteName owner ++ .lit "." ++ quoteName name ++ .lit ":" ++ descriptor

/-- The member that a method handle refers to, which is a pair of indices. -/
def handleText (pool : Pool) (payload : Payload) : Except Fault Text :=
  match payload with
  | .pair owner nameAndType => pool.memberText owner nameAndType
  | payload => throw (.notAMember payload)

/-- A name and a descriptor. -/
def nameAndTypeText (pool : Pool) (index : Int) : Except Fault Text := do
  let (name, descriptor) ← lift (pool.nameAndType index)
  return quoteName name ++ .lit ":" ++ descriptor

/-- The description of a constant of the pool at the given index. -/
def describeConstant (pool : Pool) (index : Int) : Constant → Except Fault Text
  | .utf8 text => pure text
  | .integer value => pure (.lit s!"int {value}")
  | .float bits => pure (.lit s!"float {(Binary.single bits.toNat).text}f")
  | .long value => pure (.lit s!"long {value}l")
  | .double bits => pure (.lit s!"double {(Binary.double bits.toNat).text}d")
  | .classRef name => do return .lit "class " ++ quoteName (← lift (pool.utf8 name))
  | .string text => do return .lit "String " ++ (← lift (pool.utf8 text))
  | .fieldRef owner member => do return .lit "Field " ++ (← pool.memberText owner member)
  | .methodRef owner member => do return .lit "Method " ++ (← pool.memberText owner member)
  | .interfaceMethodRef owner member => do
    return .lit "InterfaceMethod " ++ (← pool.memberText owner member)
  | .nameAndType _ _ => pool.nameAndTypeText index
  | .methodHandle kind reference => do
    let target ← lift (pool.item reference)
    match ReferenceKind.ofCode? kind with
    | none => throw (.referenceKind kind)
    | some kind =>
      return .lit s!"MethodHandle {kind.name}:" ++ (← pool.handleText target.payload)
  | .methodType descriptor => do return .lit "MethodType " ++ (← lift (pool.utf8 descriptor))
  | .dynamic bootstrap member => do
    return .lit s!"Dynamic #{bootstrap}:" ++ (← pool.nameAndTypeText member)
  | .invokeDynamic bootstrap member => do
    return .lit s!"InvokeDynamic #{bootstrap}:" ++ (← pool.nameAndTypeText member)
  | constant =>
    -- modules and packages are left, which are given by the index of their name
    match constant.tag, constant.payload with
    | .module, .number name | .package, .number name => do
      return .lit s!"{constant.tag.name} " ++ (← lift (pool.utf8 name))
    | tag, _ => throw (.breach (.unexpectedKind tag))

/-- The description of the constant at an index. -/
def describe (pool : Pool) (index : Int) : Except Fault Text := do
  pool.describeConstant index (← lift (pool.item index))

end Pool

end ClassInspect
