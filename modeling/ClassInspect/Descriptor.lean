import ClassInspect.Text.Quoted

/-!
# Descriptors

The compact notation for types: a letter for each primitive type, `L` and `;` around the name
of a class, and a `[` for each array dimension, of which there are at most 255. A method
descriptor has the parameter types in parentheses and then the result, which may be `V`.

Parsing takes a type from the front of a text and gives back the rest. Each way to be no
descriptor is a `Descriptor.Problem`, and where two apply, the one found first from the left wins,
except that the number of dimensions is judged before what follows the brackets. The parsers look
at the next code point with `peek` and go over it with `take`, which fails at the end of the text.
`FieldType.descriptor` and `MethodType.descriptor` write the notation back.
-/

namespace ClassInspect

/-- The primitive types. -/
inductive BaseType where
  | byte
  | char
  | double
  | float
  | int
  | long
  | short
  | boolean
  deriving DecidableEq, Repr

namespace BaseType

/-- All primitive types, by letter. -/
def all : List BaseType :=
  [byte, char, double, float, int, long, short, boolean]

/-- The letter of a primitive type. -/
def letter : BaseType → Char
  | byte => 'B'
  | char => 'C'
  | double => 'D'
  | float => 'F'
  | int => 'I'
  | long => 'J'
  | short => 'S'
  | boolean => 'Z'

/-- The name of a primitive type. -/
def name : BaseType → String
  | byte => "byte"
  | char => "char"
  | double => "double"
  | float => "float"
  | int => "int"
  | long => "long"
  | short => "short"
  | boolean => "boolean"

/-- The primitive type of a letter. -/
def ofCodePoint? (c : CodePoint) : Option BaseType :=
  all.find? fun base ↦ CodePoint.char base.letter = c

end BaseType

/-- A class name with dots for slashes. -/
def displayName (internal : Text) : Text :=
  internal.map fun c ↦ if c = .char '/' then .char '.' else c

/-- The element type of an array, or a type that is no array. -/
inductive ElementType where
  | base (type : BaseType)
  | object (name : Text)
  deriving DecidableEq, Repr

namespace ElementType

/-- The type as source text. -/
def display : ElementType → Text
  | base type => .lit type.name
  | object name => displayName name

/-- The type with its internal name, for logs and debugging. -/
def label : ElementType → String
  | base type => s!"BaseType('{type.letter}')"
  | object name => s!"ObjectType({name.quoted})"

/-- The type in descriptor notation. -/
def descriptor : ElementType → Text
  | base type => [.char type.letter]
  | object name => .char 'L' :: name ++ [.char ';']

end ElementType

/-- The type of a field: an element type under some number of array dimensions. -/
structure FieldType where
  dimensions : Nat
  element : ElementType
  deriving DecidableEq, Repr

namespace FieldType

/-- The type as source text. -/
def display (type : FieldType) : Text :=
  type.element.display ++ (List.replicate type.dimensions (Text.lit "[]")).flatten

/-- The type with its internal name and its number of dimensions. -/
def label (type : FieldType) : String :=
  if type.dimensions = 0 then type.element.label
  else s!"ArrayType({type.element.label}, dimensions={type.dimensions})"

/-- The type in descriptor notation. -/
def descriptor (type : FieldType) : Text :=
  List.replicate type.dimensions (CodePoint.char '[') ++ type.element.descriptor

end FieldType

/-- The result of a method. -/
inductive ResultType where
  | void
  | value (type : FieldType)
  deriving DecidableEq, Repr

namespace ResultType

/-- The result as source text. -/
def display : ResultType → Text
  | void => .lit "void"
  | value type => type.display

/-- The result with its internal name. -/
def label : ResultType → String
  | void => "VoidType()"
  | value type => type.label

/-- The result in descriptor notation. -/
def descriptor : ResultType → Text
  | void => [.char 'V']
  | value type => type.descriptor

end ResultType

/-- The parameter types and the result of a method. -/
structure MethodType where
  parameters : List FieldType
  result : ResultType
  deriving DecidableEq, Repr

namespace MethodType

/-- The parameter types as source text. -/
def parameterText (type : MethodType) : Text :=
  .join (.lit ", ") (type.parameters.map FieldType.display)

/-- The parameters with their internal names, and the result as source text. A single
parameter is followed by a comma. -/
def label (type : MethodType) : Text :=
  let parameters :=
    match type.parameters.map FieldType.label with
    | [only] => s!"({only},)"
    | labels => "(" ++ ", ".intercalate labels ++ ")"
  .lit s!"MethodType({parameters}, " ++ type.result.display ++ .lit ")"

/-- The type in descriptor notation. -/
def descriptor (type : MethodType) : Text :=
  .char '(' :: type.parameters.flatMap FieldType.descriptor ++ .char ')' ::
    type.result.descriptor

end MethodType

namespace Descriptor

/-- The largest number of array dimensions. -/
def maxDimensions : Nat := 255

/-- What is wrong with a descriptor. -/
inductive Problem where
  | textAfterType
  | tooManyDimensions
  | unterminatedArray
  | typeExpected
  | unterminatedName
  | emptyName
  | unknownCode (code : CodePoint)
  | parenthesisExpected
  | unterminatedParameters
  | textAfterResult
  deriving DecidableEq, Repr

/-- The wording of a problem. -/
def Problem.message : Problem → String
  | textAfterType => "unexpected text after type"
  | tooManyDimensions => "too many array dimensions"
  | unterminatedArray => "unterminated array type"
  | typeExpected => "ends where a type was expected"
  | unterminatedName => "unterminated class name"
  | emptyName => "empty class name"
  | unknownCode code => s!"unknown type code {Text.quoted [code]}"
  | parenthesisExpected => "expected '('"
  | unterminatedParameters => "unterminated parameter list"
  | textAfterResult => "unexpected text after return type"

/-- Why a text could not be parsed. -/
inductive Failure where
  /-- The text is not a descriptor. -/
  | malformed (problem : Problem)
  /-- A code point was taken where the text has none left. -/
  | noCodePoint
  deriving DecidableEq, Repr

/-- The next code point, if there is one. -/
def peek (text : Text) : Option CodePoint :=
  text.head?

/-- Takes the next code point, which must be there, from the front of a text. -/
def take : Text → Except Failure (CodePoint × Text)
  | [] => .error .noCodePoint
  | code :: rest => .ok (code, rest)

theorem eq_cons_of_take {text rest : Text} {code : CodePoint} (h : take text = .ok (code, rest)) :
    text = code :: rest := by
  cases text with
  | nil => cases h
  | cons first others =>
    cases h
    rfl

/-- Takes the brackets at the front of a text and counts them on. -/
def brackets (dimensions : Nat) (text : Text) : Except Failure (Nat × Text) :=
  if peek text = some (.char '[') then
    match _h : take text with
    | .ok (_, rest) => brackets (dimensions + 1) rest
    | .error failure => .error failure
  else .ok (dimensions, text)
termination_by text.length
decreasing_by
  rw [eq_cons_of_take _h]
  exact Nat.lt_succ_self _

/-- The element type that a code point and the text behind it start with. -/
def element (code : CodePoint) (rest : Text) : Except Failure (ElementType × Text) :=
  match BaseType.ofCodePoint? code with
  | some base => .ok (.base base, rest)
  | none =>
    if code = .char 'L' then
      let name := rest.takeWhile (· ≠ .char ';')
      match rest.dropWhile (· ≠ .char ';') with
      | [] => .error (.malformed .unterminatedName)
      | _ :: after =>
        if name.isEmpty then .error (.malformed .emptyName) else .ok (.object name, after)
    else .error (.malformed (.unknownCode code))

/-- The element type at the front of a text, under brackets that were taken before. -/
def elementUnder (dimensions : Nat) (text : Text) : Except Failure (FieldType × Text) :=
  if maxDimensions < dimensions then .error (.malformed .tooManyDimensions)
  else if text.isEmpty then
    .error (.malformed (if dimensions = 0 then .typeExpected else .unterminatedArray))
  else do
    let (code, rest) ← take text
    let (type, after) ← element code rest
    return (⟨dimensions, type⟩, after)

/-- The type that a text starts with, and the text behind it. -/
def fieldType (text : Text) : Except Failure (FieldType × Text) := do
  let (dimensions, rest) ← brackets 0 text
  elementUnder dimensions rest

/-- All brackets at the front are taken, and each counts. -/
theorem brackets_eq (dimensions : Nat) (text : Text) :
    brackets dimensions text =
      .ok (dimensions + (text.takeWhile (· = .char '[')).length,
        text.dropWhile (· = .char '[')) := by
  induction text generalizing dimensions with
  | nil =>
    rw [brackets]
    rfl
  | cons code rest ih =>
    rw [brackets]
    by_cases hcode : code = .char '['
    · have hpeek : peek (code :: rest) = some (.char '[') := congrArg some hcode
      rw [if_pos hpeek]
      show brackets (dimensions + 1) rest = _
      rw [ih, List.takeWhile_cons_of_pos (by simp [hcode]), List.length_cons,
        List.dropWhile_cons_of_pos (by simp [hcode]), Nat.add_assoc, Nat.add_comm 1]
    · have hpeek : peek (code :: rest) ≠ some (.char '[') := fun h ↦ hcode (Option.some.inj h)
      rw [if_neg hpeek, List.takeWhile_cons_of_neg (by simp [hcode]),
        List.dropWhile_cons_of_neg (by simp [hcode])]
      rfl

theorem fieldType_eq (text : Text) :
    fieldType text =
      elementUnder (text.takeWhile (· = .char '[')).length (text.dropWhile (· = .char '[')) := by
  rw [fieldType, brackets_eq, Nat.zero_add]
  rfl

/-- The element type behind not too many brackets is the one at the front. -/
theorem elementUnder_cons {dimensions : Nat} (h : ¬ maxDimensions < dimensions)
    (code : CodePoint) (rest : Text) :
    elementUnder dimensions (code :: rest) =
      (element code rest).map fun found ↦ (⟨dimensions, found.1⟩, found.2) := by
  rw [elementUnder, if_neg h, if_neg (by simp), take]
  cases hfound : element code rest <;> simp only [bind, Except.bind, hfound] <;> rfl

/-- An element type leaves at most what stood behind its first code point. -/
theorem length_element_le {code : CodePoint} {rest after : Text} {type : ElementType}
    (h : element code rest = .ok (type, after)) : after.length ≤ rest.length := by
  unfold element at h
  split at h
  · simp only [Except.ok.injEq, Prod.mk.injEq] at h
    exact h.2 ▸ Nat.le_refl _
  · split at h
    · split at h
      · simp at h
      · rename_i shorter
        dsimp only at h
        split at h
        · simp at h
        · simp only [Except.ok.injEq, Prod.mk.injEq] at h
          have le := List.Sublist.length_le (List.dropWhile_sublist (· ≠ .char ';') (l := rest))
          rw [shorter] at le
          simp only [List.length_cons] at le
          rw [← h.2]
          omega
    · simp at h

/-- An element type under brackets takes at least one code point. -/
theorem length_elementUnder_lt {dimensions : Nat} {text after : Text} {type : FieldType}
    (h : elementUnder dimensions text = .ok (type, after)) : after.length < text.length := by
  by_cases hmax : maxDimensions < dimensions
  · rw [elementUnder, if_pos hmax] at h
    cases h
  · cases text with
    | nil =>
      rw [elementUnder, if_neg hmax] at h
      cases h
    | cons code rest =>
      rw [elementUnder_cons hmax] at h
      cases taken : element code rest with
      | error failure =>
        rw [taken] at h
        cases h
      | ok result =>
        rw [taken] at h
        cases h
        exact Nat.lt_succ_of_le (length_element_le taken)

/-- A type takes at least one code point, so repeated parsing ends. -/
theorem length_fieldType_lt {text after : Text} {type : FieldType}
    (h : fieldType text = .ok (type, after)) : after.length < text.length := by
  rw [fieldType_eq] at h
  exact Nat.lt_of_lt_of_le (length_elementUnder_lt h)
    (List.Sublist.length_le (List.dropWhile_sublist _))

/-- The types up to the closing parenthesis, and the text from there on. `done` holds the types
so far, last one first. -/
def parameters (done : List FieldType) (text : Text) :
    Except Failure (List FieldType × Text) :=
  if peek text = some (.char ')') then .ok (done.reverse, text)
  else if text.isEmpty then .error (.malformed .unterminatedParameters)
  else
    match _h : fieldType text with
    | .ok (type, after) => parameters (type :: done) after
    | .error failure => .error failure
termination_by text.length
decreasing_by exact length_fieldType_lt _h

/-- The result of a method, and the text behind it. -/
def result (text : Text) : Except Failure (ResultType × Text) :=
  if peek text = some (.char 'V') then do
    let (_, rest) ← take text
    return (.void, rest)
  else do
    let (type, after) ← fieldType text
    return (.value type, after)

/-- The type of a field descriptor. -/
def field (text : Text) : Except Failure FieldType := do
  let (type, after) ← fieldType text
  if after.isEmpty then pure type else throw (.malformed .textAfterType)

/-- The type of a method descriptor. -/
def method (text : Text) : Except Failure MethodType :=
  if peek text = some (.char '(') then do
    let (_, rest) ← take text
    let (types, rest) ← parameters [] rest
    let (_, rest) ← take rest
    let (type, after) ← result rest
    if after.isEmpty then pure ⟨types, type⟩ else throw (.malformed .textAfterResult)
  else throw (.malformed .parenthesisExpected)

end Descriptor

end ClassInspect
