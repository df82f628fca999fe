import ClassInspect.Fault

/-!
# Types as source text

A primitive type is kept by its letter, and its name is looked up in a table when the type is
shown. A letter outside the table is a breach. Each type that there is has its name there, so what
is rendered is the `display` of the type (`FieldType.render_eq`, `ResultType.render_eq`).
-/

namespace ClassInspect

namespace BaseType

/-- The names of the primitive types, by letter. -/
def names : List (Char × String) :=
  [('B', "byte"), ('C', "char"), ('D', "double"), ('F', "float"), ('I', "int"), ('J', "long"),
    ('S', "short"), ('Z', "boolean")]

/-- The name that a letter stands for, which must be in the table. -/
def nameOf (letter : Char) : Except Fault String :=
  match names.lookup letter with
  | some name => .ok name
  | none => .error (.breach (.noTypeName letter))

@[simp] theorem nameOf_letter (type : BaseType) : nameOf type.letter = .ok type.name := by
  cases type <;> rfl

end BaseType

/-- The type as source text. -/
def ElementType.render : ElementType → Except Fault Text
  | base type => return .lit (← BaseType.nameOf type.letter)
  | object name => return displayName name

@[simp] theorem ElementType.render_eq (type : ElementType) : type.render = .ok type.display := by
  cases type with
  | base type =>
    rw [render, BaseType.nameOf_letter]
    rfl
  | object name => rfl

/-- The type as source text. -/
def FieldType.render (type : FieldType) : Except Fault Text :=
  return (← type.element.render) ++ (List.replicate type.dimensions (Text.lit "[]")).flatten

@[simp] theorem FieldType.render_eq (type : FieldType) : type.render = .ok type.display := by
  rw [render, ElementType.render_eq]
  rfl

/-- The result as source text. -/
def ResultType.render : ResultType → Except Fault Text
  | void => return .lit "void"
  | value type => type.render

@[simp] theorem ResultType.render_eq (type : ResultType) : type.render = .ok type.display := by
  cases type with
  | void => rfl
  | value type => exact type.render_eq

/-- Items that can all be rendered are rendered one by one. -/
theorem mapM_render {α : Type} {render : α → Except Fault Text} {shown : α → Text}
    {items : List α} (h : ∀ item ∈ items, render item = .ok (shown item)) :
    items.mapM render = .ok (items.map shown) := by
  induction items with
  | nil => rfl
  | cons item items ih =>
    obtain ⟨hitem, hitems⟩ := List.forall_mem_cons.1 h
    rw [List.mapM_cons, hitem, ih hitems]
    rfl

/-- The parameter types as source text. -/
def MethodType.renderParameters (type : MethodType) : Except Fault Text :=
  return .join (.lit ", ") (← type.parameters.mapM FieldType.render)

@[simp] theorem MethodType.renderParameters_eq (type : MethodType) :
    type.renderParameters = .ok type.parameterText := by
  rw [renderParameters, mapM_render fun type _ ↦ type.render_eq]
  rfl

end ClassInspect
