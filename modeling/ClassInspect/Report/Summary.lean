import ClassInspect.ClassFile

/-!
# The summary of a class

Name, super class, version, interfaces, and the declarations of all fields and methods.
Something that is absent, or has an empty name, has a placeholder.
-/

namespace ClassInspect

/-- A text, or a placeholder if it is absent or empty. -/
def orElse (placeholder : String) : Option Text → Text
  | some (c :: rest) => c :: rest
  | _ => .lit placeholder

namespace ClassFile

/-- Lines for the members, or a placeholder if there are none. -/
def memberLines (placeholder : String) : List Text → Text
  | [] => .lit placeholder
  | members => .lines (members.map (.lit " - " ++ ·))

/-- The names of the interfaces. -/
def interfaceText (file : ClassFile) : Text :=
  if file.interfaces.isEmpty then .lit "(None)" else .join (.lit ", ") file.interfaces

/-- The summary of a class whose fields and methods are declared as given. -/
def summaryOf (file : ClassFile) (fields methods : List Text) : Text :=
  .lines [
    .lit "Class:       " ++ file.thisClass,
    .lit "Superclass:  " ++ orElse "N/A" file.superClass,
    .lit s!"Version:     {file.majorVersion}.{file.minorVersion} (Java {file.platformVersion})",
    .lit "Interfaces:  " ++ file.interfaceText,
    .lit "",
    .lit "--- Fields ---",
    memberLines "(No declared fields)" fields,
    .lit "",
    .lit "--- Methods ---",
    memberLines "(No declared methods)" methods] ++ .lit "\n"

/-- The summary of a class. -/
def summary (file : ClassFile) : Text :=
  file.summaryOf (file.fields.map Field.declaration) (file.methods.map Method.signature)

/-- The summary of a class, if the names of all types are found. -/
def renderSummary (file : ClassFile) : Except Fault Text := do
  let fields ← file.fields.mapM Field.render
  let methods ← file.methods.mapM Method.renderSignature
  return file.summaryOf fields methods

@[simp] theorem renderSummary_eq (file : ClassFile) : file.renderSummary = .ok file.summary := by
  rw [renderSummary, mapM_render fun field _ ↦ field.render_eq,
    mapM_render fun method _ ↦ method.renderSignature_eq]
  rfl

end ClassFile

end ClassInspect
