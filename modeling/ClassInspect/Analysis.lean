import ClassInspect.ClassFile.Read
import ClassInspect.HexDump
import ClassInspect.Keyed
import ClassInspect.Report.Summary

/-!
# Analysis of a class

The summary of a class, its bytes in hexadecimal, and its methods by signature. Two methods can
have the same signature, such as a bridge and the method it leads to; then the later one takes
the place of the earlier, at the earlier one's position, and a warning is logged.
-/

namespace ClassInspect

/-- A method under its signature, with its position among the methods of the class. -/
structure MethodEntry where
  signature : Text
  index : Nat
  method : Method
  deriving DecidableEq, Repr

/-- Methods by signature, in the order of first declaration. -/
abbrev MethodTable := List MethodEntry

namespace MethodTable

/-- Whether a signature is in the table. -/
def has (table : MethodTable) (signature : Text) : Bool :=
  table.any (·.signature = signature)

/-- The entry of a signature. -/
def find? (table : MethodTable) (signature : Text) : Option MethodEntry :=
  List.find? (·.signature = signature) table

/-- Puts an entry in the place of the one with its signature, or at the end. -/
def insert (entry : MethodEntry) (table : MethodTable) : MethodTable :=
  Keyed.put MethodEntry.signature entry table

/-- The warning about a signature that is in the table already. -/
def duplicateWarning (signature : Text) : Text :=
  .lit "Signature \"" ++ signature ++ .lit "\" occurs more than once, using the last one"

/-- Adds methods to a table in declaration order. -/
def addAll : MethodTable → List (Method × Nat) → Logged MethodTable
  | table, [] => pure table
  | table, (method, index) :: methods => do
    let signature ← Logged.ofExcept method.renderSignature
    if table.has signature then
      Logged.note .warning .analysis (duplicateWarning signature)
    addAll (insert ⟨signature, index, method⟩ table) methods

/-- Each method comes into the table under its signature, and a warning before it if another
method is there. -/
theorem addAll_cons (table : MethodTable) (method : Method) (index : Nat)
    (methods : List (Method × Nat)) :
    addAll table ((method, index) :: methods) = (do
      if table.has method.signature then
        Logged.note .warning .analysis (duplicateWarning method.signature)
      addAll (insert ⟨method.signature, index, method⟩ table) methods) := by
  rw [addAll, Method.renderSignature_eq]
  rfl

/-- The table of a class's methods. -/
def ofMethods (methods : List Method) : Logged MethodTable :=
  addAll [] methods.zipIdx

end MethodTable

/-- What an analysis finds out about a class. -/
structure Analysis where
  summary : Text
  methods : MethodTable
  hexDump : String
  file : ClassFile

namespace Analysis

/-- Analyses the bytes of a class file. -/
def ofBytes (data : Bytes) (verbose : Bool) : Logged Analysis := do
  Logged.note .debug .analysis (.lit s!"Analyzing {data.length} bytes")
  let file ← ClassFile.parse data verbose
  let summary ← Logged.ofExcept file.renderSummary
  let methods ← MethodTable.ofMethods file.methods
  let hexDump ← Logged.ofExcept (HexDump.listing data HexDump.defaultWidth)
  return ⟨summary, methods, hexDump, file⟩

/-- The summary of a class always comes out, so what is left to fail is reading it. -/
theorem ofBytes_eq (data : Bytes) (verbose : Bool) :
    ofBytes data verbose = (do
      Logged.note .debug .analysis (.lit s!"Analyzing {data.length} bytes")
      let file ← ClassFile.parse data verbose
      let methods ← MethodTable.ofMethods file.methods
      let hexDump ← Logged.ofExcept (HexDump.listing data HexDump.defaultWidth)
      return ⟨file.summary, methods, hexDump, file⟩) := by
  simp only [ofBytes, ClassFile.renderSummary_eq]
  rfl

/-- The analysis for logs and debugging. -/
def label (analysis : Analysis) : Text :=
  .lit "AnalysisResult(" ++ analysis.file.thisClass ++
    .lit s!", {analysis.methods.length} methods)"

end Analysis

end ClassInspect
