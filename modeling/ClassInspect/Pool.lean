import ClassInspect.Fault

/-!
# The constant pool

A pool is a sequence of slots, numbered from one; slot zero does not exist. A slot holds a
constant or is reserved, as is the one behind each constant that takes two.

Look-ups take any integer. They fail on an index outside the pool, on a reserved slot, and on a
constant of another kind than the one asked for, in this order. A look-up that follows an index
inside a constant fails for that inner index.
-/

namespace ClassInspect

/-- A constant pool: the slots from number one on. -/
structure Pool where
  slots : Array (Option Constant)
  deriving DecidableEq, Repr

namespace Pool

/-- The pool without slots. -/
def empty : Pool := ⟨#[]⟩

/-- The number of slots, with slot zero. -/
def count (pool : Pool) : Nat :=
  pool.slots.size + 1

/-- The pool with one more slot. -/
def append (pool : Pool) (slot : Option Constant) : Pool :=
  ⟨pool.slots.push slot⟩

/-- The constants with their indices, in increasing order. -/
def entries (pool : Pool) : List (Nat × Constant) :=
  (pool.slots.toList.zipIdx 1).filterMap fun (slot, index) ↦ slot.map (index, ·)

/-- The constant at an index. -/
def item (pool : Pool) (index : Int) : Except PoolProblem Constant :=
  if 0 < index ∧ index < pool.count then
    match pool.slots[(index - 1).toNat]? with
    | some (some constant) => .ok constant
    | some none => .error (.reserved index)
    | none => .error (.breach .noSlot)
  else .error (.outOfRange index (pool.count - 1))

/-- The constant at an index, if it is of one of the given kinds. No kinds stand for all. -/
def get (pool : Pool) (index : Int) (tags : List Tag) : Except PoolProblem Constant := do
  let constant ← pool.item index
  if tags.isEmpty || tags.contains constant.tag then pure constant
  else throw (.unexpectedTag index constant.tag tags)

/-- The text at an index. -/
def utf8 (pool : Pool) (index : Int) : Except PoolProblem Text := do
  match ← pool.item index with
  | .utf8 text => pure text
  | constant => throw (.unexpectedTag index constant.tag [.utf8])

/-- The internal name of the class at an index. -/
def className (pool : Pool) (index : Int) : Except PoolProblem Text := do
  match ← pool.item index with
  | .classRef name => pool.utf8 name
  | constant => throw (.unexpectedTag index constant.tag [.classRef])

/-- The name and the descriptor at an index. -/
def nameAndType (pool : Pool) (index : Int) : Except PoolProblem (Text × Text) := do
  match ← pool.item index with
  | .nameAndType name descriptor => return (← pool.utf8 name, ← pool.utf8 descriptor)
  | constant => throw (.unexpectedTag index constant.tag [.nameAndType])

/-- A failed look-up as a fault without a position. -/
def lift {α : Type} (outcome : Except PoolProblem α) : Except Fault α :=
  outcome.mapError .ofPool

/-- Checks one reference of the constant at `holder`. -/
def checkReference (pool : Pool) (holder : Nat) (tag : Tag) (reference : Int × List Tag) :
    Except PoolProblem Unit :=
  match pool.get reference.1 reference.2 with
  | .ok _ => .ok ()
  | .error (.breach cause) => .error (.breach cause)
  | .error cause => .error (.badReference holder tag cause)

/-- Checks one component of the constant at `holder`. A component that refers to nothing passes. -/
def checkComponent (pool : Pool) (holder : Nat) (tag : Tag) :
    Int × Option (List Tag) → Except PoolProblem Unit
  | (_, none) => .ok ()
  | (index, some tags) => pool.checkReference holder tag (index, tags)

/-- What the components of constants of a kind refer to. The kind must be in the table. -/
def componentKinds (tag : Tag) : Except PoolProblem (List (Option (List Tag))) :=
  match Constant.referring.lookup tag with
  | some kinds => .ok kinds
  | none => .error (.breach (.noReferences tag))

/-- Checks the references of the constant at `holder`, if its kind has some. -/
def checkConstant (pool : Pool) (holder : Nat) (constant : Constant) : Except PoolProblem Unit :=
  if Constant.referring.any (·.1 = constant.tag) then do
    let kinds ← componentKinds constant.tag
    (constant.payload.numbers.zip kinds).forM (pool.checkComponent holder constant.tag)
  else .ok ()

/-- The kinds of constants that are looked up in the table are there, so just the references of a
constant are checked. -/
theorem checkConstant_eq (pool : Pool) (holder : Nat) (constant : Constant) :
    pool.checkConstant holder constant =
      constant.references.forM (pool.checkReference holder constant.tag) := by
  cases constant <;> rfl

/-- Checks that every reference between constants points to an allowed kind. The first bad
reference of the lowest constant is reported. -/
def check (pool : Pool) : Except PoolProblem Unit :=
  pool.entries.forM fun (index, constant) ↦ pool.checkConstant index constant

theorem check_eq_forM_references (pool : Pool) :
    pool.check = pool.entries.forM fun entry ↦
      entry.2.references.forM (pool.checkReference entry.1 entry.2.tag) := by
  simp only [check, checkConstant_eq]

end Pool

end ClassInspect
