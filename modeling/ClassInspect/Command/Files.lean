import ClassInspect.Jar.Archive

/-!
# Files

The files a run can see, as a value: places with contents. Some are archives, whose entries are
known; read as plain files they have the bytes of the archive.

A path is followed part by part. Each part must start in a directory: empty parts and `.` stay
there, `..` leads above it, and any other part must be a name in it. The first part that fails
decides why the path cannot be opened. What lies outside the working directory is unknown unless
it is listed, except that everything above is a directory.
-/

namespace ClassInspect.Command

/-- What stands at a place. -/
inductive FileNode where
  | data (bytes : Bytes)
  | archive (entries : List JarEntry)
  | directory
  deriving Repr

/-- A place in the file system, as the names on the way to it. The way starts in the working
directory, with a `..` for each step up from there, or at the root, with a slash in front. -/
abbrev Place := List String

namespace Place

/-- Where the way of a path starts. -/
def start (path : String) : Place :=
  if path.startsWith "/" then ["/"] else []

/-- The place above. Nothing is above the root. -/
def above (place : Place) : Place :=
  if place = ["/"] then place
  else if place.all (· = "..") then place ++ [".."]
  else place.dropLast

/-- Follows one part of a path, whatever is there. -/
def follow (place : Place) (part : String) : Place :=
  if part = "" ∨ part = "." then place else if part = ".." then place.above else place ++ [part]

/-- The place that a path leads to if there is a way. -/
def ofPath (path : String) : Place :=
  (path.splitOn "/").foldl follow (start path)

/-- The shortest path to a place. -/
def path : Place → String
  | "/" :: names => "/" ++ "/".intercalate names
  | names => "/".intercalate names

/-- Whether a place is inside the working directory. -/
def isInside (place : Place) : Bool :=
  place.head? ≠ some "/" && place.head? ≠ some ".."

end Place

/-- Files by place. -/
abbrev FileSystem := List (Place × FileNode)

/-- Why a file cannot be opened. -/
inductive FileProblem where
  | missing
  | notADirectory
  | isADirectory
  | nameTooLong
  deriving DecidableEq, Repr

/-- The wording of a problem with a file. -/
def FileProblem.message (problem : FileProblem) (path : String) : String :=
  let reason :=
    match problem with
    | missing => "[Errno 2] No such file or directory"
    | notADirectory => "[Errno 20] Not a directory"
    | isADirectory => "[Errno 21] Is a directory"
    | nameTooLong => "[Errno 36] File name too long"
  s!"{reason}: {Text.quoted (Text.lit path)}"

/-- The most bytes that a name may have. -/
def maxNameSize : Nat := 255

/-- The most bytes that a path may have. -/
def maxPathSize : Nat := 4095

namespace FileSystem

/-- The file system with the given files, each under a path. -/
def ofPaths (files : List (String × FileNode)) : FileSystem :=
  files.map fun (path, node) ↦ (Place.ofPath path, node)

/-- What stands at a place. What leads to something is a directory. -/
def node? (files : FileSystem) (place : Place) : Option FileNode :=
  if place = ["/"] ∨ place.all (· = "..") then some .directory
  else
    match List.find? (fun file ↦ file.1 = place) files with
    | some (_, node) => some node
    | none => if files.any fun file ↦ place.isPrefixOf file.1 then some .directory else none

/-- Follows one part of a path. -/
def step (files : FileSystem) (place : Place) (part : String) : Except FileProblem Place :=
  match files.node? place with
  | some .directory =>
    let next := place.follow part
    if part = "" ∨ part = "." ∨ part = ".." then .ok next
    else if maxNameSize < part.utf8ByteSize then .error .nameTooLong
    else if (files.node? next).isNone then .error .missing
    else .ok next
  | some _ => .error .notADirectory
  | none => .error .missing

/-- Follows the parts of a path. -/
def walk (files : FileSystem) (place : Place) (parts : List String) : Except FileProblem Place :=
  parts.foldlM files.step place

/-- Refuses paths that are not followed at all. -/
def checkPath (path : String) : Except FileProblem Unit :=
  if path = "" then .error .missing
  else if maxPathSize < path.utf8ByteSize then .error .nameTooLong
  else .ok ()

/-- The place that a path leads to. -/
def locate (files : FileSystem) (path : String) : Except FileProblem Place := do
  checkPath path
  files.walk (Place.start path) (path.splitOn "/")

/-- The file that a path leads to, for reading. -/
def openFile (files : FileSystem) (path : String) : Except FileProblem Place := do
  let place ← files.locate path
  match files.node? place with
  | some .directory => throw .isADirectory
  | _ => return place

/-- The bytes at a place. -/
def contents (files : FileSystem) (place : Place) : Bytes :=
  match files.node? place with
  | some (.data bytes) => bytes
  | some (.archive entries) => Archive.encode entries
  | _ => []

/-- Puts an empty file at a place. -/
def clear (files : FileSystem) (place : Place) : FileSystem :=
  if files.any (·.1 = place) then
    files.map fun file ↦ if file.1 = place then (place, .data []) else file
  else files ++ [(place, .data [])]

/-- The place of a new file with the given name in a directory. A path with a slash at its end
names no file. -/
def placeFor (files : FileSystem) (directory : Place) (name : String) (slash : Bool) :
    Except FileProblem Place :=
  match files.node? directory with
  | some .directory =>
    if slash then .error .isADirectory
    else if maxNameSize < name.utf8ByteSize then .error .nameTooLong
    else
      match files.node? (directory ++ [name]) with
      | some .directory => .error .isADirectory
      | _ => .ok (directory ++ [name])
  | _ => .error .notADirectory

/-- The file that a path leads to, for writing. It need not be there. -/
def createFile (files : FileSystem) (path : String) : Except FileProblem Place := do
  checkPath path
  let parts := path.splitOn "/"
  let named := (parts.reverse.dropWhile (· = "")).reverse
  match named.getLast? with
  | none => throw .isADirectory
  | some name =>
    if name = "." ∨ name = ".." then
      let _ ← files.locate path
      throw .isADirectory
    else
      let directory ← files.walk (Place.start path) named.dropLast
      files.placeFor directory name (named.length < parts.length)

end FileSystem

end ClassInspect.Command
