import ClassInspect.Jar

/-!
# Stored archives

The container format of jars, for entries that are stored as they are: each entry has a header
in front of its bytes and a second one in the directory behind all entries, and the archive ends
with a record that tells where the directory is. `Archive.encode` writes that form and
`Archive.decode?` reads it, following the directory. An archive with entries in any other form
is not read.
-/

namespace ClassInspect.Archive

/-- A number of `size` bytes, least significant byte first. -/
def number (size value : Nat) : Bytes :=
  (Bytes.ofNat size value).reverse

/-- The number at a position, least significant byte first. -/
def numberAt? (data : Bytes) (pos size : Nat) : Option Nat := do
  let (bytes, _) ← Bytes.split? size (data.drop pos)
  return Bytes.toNat bytes.reverse

/-- One bit of the checksum's shift register. -/
def shift (register : UInt32) : UInt32 :=
  if register &&& 1 = 1 then (register >>> 1) ^^^ 0xEDB88320 else register >>> 1

/-- The checksum of an entry's bytes. -/
def checksum (data : Bytes) : UInt32 :=
  data.foldl (fun register byte ↦ Nat.repeat shift 8 (register ^^^ byte.toUInt32)) 0xFFFFFFFF ^^^
    0xFFFFFFFF

/-- The part that an entry's two headers share: version, flags, the stored form, the first date
that can be written, checksum, sizes and the lengths of the name and of nothing else. A flag
tells that the name is not plain. -/
def sharedHeader (entry : JarEntry) : Bytes :=
  let name := entry.name.toUTF8.toList
  let flags := if name.all (· < 0x80) then 0 else 0x800
  number 2 20 ++ number 2 flags ++ number 2 0 ++ number 2 0 ++ number 2 0x21 ++
    number 4 (checksum entry.data).toNat ++ number 4 entry.data.length ++
    number 4 entry.data.length ++ number 2 name.length ++ number 2 0

/-- An entry in front of the directory. -/
def encodeEntry (entry : JarEntry) : Bytes :=
  [0x50, 0x4B, 3, 4] ++ sharedHeader entry ++ entry.name.toUTF8.toList ++ entry.data

/-- An entry in the directory, whose bytes start at the given position. -/
def encodeDirectoryEntry (entry : JarEntry) (position : Nat) : Bytes :=
  [0x50, 0x4B, 1, 2] ++ [20, 3] ++ sharedHeader entry ++ number 2 0 ++ number 2 0 ++
    number 2 0 ++ number 4 0x01800000 ++ number 4 position ++ entry.name.toUTF8.toList

/-- The entries, and the directory with positions counted from `position`. -/
def encodeAll : (position : Nat) → List JarEntry → Bytes × Bytes
  | _, [] => ([], [])
  | position, entry :: entries =>
    let bytes := encodeEntry entry
    let (others, directory) := encodeAll (position + bytes.length) entries
    (bytes ++ others, encodeDirectoryEntry entry position ++ directory)

/-- An archive with the given entries. -/
def encode (entries : List JarEntry) : Bytes :=
  let (bytes, directory) := encodeAll 0 entries
  bytes ++ directory ++ [0x50, 0x4B, 5, 6] ++ number 4 0 ++ number 2 entries.length ++
    number 2 entries.length ++ number 4 directory.length ++ number 4 bytes.length ++ number 2 0

/-- Reads an entry by its directory entry, and tells where the next one is. -/
def decodeEntry? (data : Bytes) (pos : Nat) : Option (JarEntry × Nat) := do
  guard ((data.drop pos).take 4 = [0x50, 0x4B, 1, 2])
  guard ((← numberAt? data (pos + 10) 2) = 0)
  let size ← numberAt? data (pos + 20) 4
  let nameLength ← numberAt? data (pos + 28) 2
  let extraLength ← numberAt? data (pos + 30) 2
  let commentLength ← numberAt? data (pos + 32) 2
  let position ← numberAt? data (pos + 42) 4
  let (nameBytes, _) ← Bytes.split? nameLength (data.drop (pos + 46))
  let name ← String.fromUTF8? ⟨nameBytes.toArray⟩
  guard ((data.drop position).take 4 = [0x50, 0x4B, 3, 4])
  let localName ← numberAt? data (position + 26) 2
  let localExtra ← numberAt? data (position + 28) 2
  let (content, _) ← Bytes.split? size (data.drop (position + 30 + localName + localExtra))
  return (⟨name, content⟩, pos + 46 + nameLength + extraLength + commentLength)

/-- Reads `count` entries of the directory. -/
def decodeEntries? (data : Bytes) : (count pos : Nat) → Option (List JarEntry)
  | 0, _ => some []
  | count + 1, pos => do
    let (entry, next) ← decodeEntry? data pos
    return entry :: (← decodeEntries? data count next)

/-- The last position up to `pos` where the final record can start. -/
def finalRecord? (data : Bytes) : (pos : Nat) → Option Nat
  | 0 => if data.take 4 = [0x50, 0x4B, 5, 6] then some 0 else none
  | pos + 1 =>
    if (data.drop (pos + 1)).take 4 = [0x50, 0x4B, 5, 6] then some (pos + 1)
    else finalRecord? data pos

/-- The entries of an archive. -/
def decode? (data : Bytes) : Option (List JarEntry) := do
  guard (22 ≤ data.length)
  let final ← finalRecord? data (data.length - 22)
  let count ← numberAt? data (final + 10) 2
  let directory ← numberAt? data (final + 16) 4
  decodeEntries? data count directory

end ClassInspect.Archive
