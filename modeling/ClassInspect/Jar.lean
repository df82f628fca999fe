import ClassInspect.ClassFile.Read
import ClassInspect.Manifest

/-!
# Jars

A jar is a sequence of named entries. Its manifest is read first, if it has one, and then every
entry whose name ends in `.class`, in order. Where a name occurs more than once, each occurrence
gives the bytes of the last one.
-/

namespace ClassInspect

/-- An entry of a jar. -/
structure JarEntry where
  name : String
  data : Bytes
  deriving DecidableEq, Repr

/-- A jar with the name of its file. -/
structure Jar where
  name : String
  entries : List JarEntry
  deriving DecidableEq, Repr

namespace Jar

/-- The name of the manifest's entry. -/
def manifestName : String := "META-INF/MANIFEST.MF"

/-- The bytes of an entry. -/
def find? (jar : Jar) (name : String) : Option Bytes :=
  (jar.entries.reverse.find? (·.name = name)).map JarEntry.data

/-- Whether an entry holds a class. -/
def isClass (entry : JarEntry) : Bool :=
  entry.name.endsWith ".class"

/-- The names of the entries that hold classes, in order. -/
def classNames (jar : Jar) : List String :=
  (jar.entries.filter isClass).map JarEntry.name

/-- Reads what precedes the classes: the manifest. -/
def enter (jar : Jar) : Logged Unit := do
  match jar.find? manifestName with
  | none => return
  | some data =>
    let _ ← Manifest.ofBytes data

/-- The record written before a jar is opened. -/
def announce (name : String) : Logged Unit :=
  Logged.note .info .reader (.lit s!"Reading jar: {name}")

/-- Reads the class of the given name. -/
def load (jar : Jar) (verbose : Bool) (name : String) : Logged ClassFile := do
  Logged.note .debug .reader (.lit s!"Loading {name}")
  ClassFile.parse ((jar.find? name).getD []) verbose

/-- The classes found by a walk through a jar, and its log. -/
structure Walk where
  classes : List (String × ClassFile)
  log : Log

/-- A step of a walk that only logs. -/
def Walk.lift {α : Type} (step : Logged α) : EStateM Fault Walk α := fun walk ↦
  match step walk.log with
  | .ok value log => .ok value { walk with log := log }
  | .error fault log => .error fault { walk with log := log }

/-- Reads the given classes in order. -/
def visit (jar : Jar) (verbose : Bool) : List String → EStateM Fault Walk Unit
  | [] => return
  | name :: names => do
    let file ← Walk.lift (jar.load verbose name)
    modify fun walk ↦ { walk with classes := walk.classes ++ [(name, file)] }
    visit jar verbose names

/-- Reads the manifest and all classes. What was found before a failure is kept. -/
def walk (jar : Jar) (verbose : Bool) : EStateM Fault Walk Unit := do
  Walk.lift (announce jar.name)
  Walk.lift jar.enter
  jar.visit verbose jar.classNames

/-- The outcome of a walk from the start. -/
def run (jar : Jar) (verbose : Bool) : Option Fault × Walk :=
  match jar.walk verbose ⟨[], #[]⟩ with
  | .ok _ walk => (none, walk)
  | .error fault walk => (some fault, walk)

end Jar

end ClassInspect
