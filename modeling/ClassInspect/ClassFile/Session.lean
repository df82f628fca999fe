import ClassInspect.ClassFile.Read
import ClassInspect.Cursor.Layout

/-!
# Reading step by step

A session is a cursor with a constant pool that is driven one operation at a time. An operation
that fails does not end the session: the next one goes on from where the failed one left the
cursor. A pool that was read, alone or as part of a class file, is the one later operations
look names up in, also if the class file turned out to be faulty behind its pool.
-/

namespace ClassInspect

/-- A cursor and the constants that indices refer to. -/
structure Session where
  cursor : Cursor
  pool : Pool
  deriving Repr

namespace Session

/-- What can be asked of a session. -/
inductive Operation where
  | u8
  | i8
  | u16
  | i16
  | u32
  | i32
  | i64
  | f32
  | f64
  | layout (layout : RecordLayout)
  | data (size : Int)
  | skip (size : Int)
  | constantPool
  | constant
  | flags
  | interfaces
  | field
  | fields
  | method
  | methods
  | attr
  | attributes
  | utf8 (index : Int)
  | classFile
  deriving Repr

/-- What an operation answers. -/
inductive Value where
  | number (value : Int)
  | long (value : Int)
  | layoutField (value : FieldValue)
  | data (bytes : Bytes)
  | nothing
  | constantPool (pool : Pool)
  | constant (constant : Constant)
  | flags (flags : Flags)
  | names (names : List Text)
  | field (field : Field)
  | fields (fields : List Field)
  | method (method : Method)
  | methods (methods : List Method)
  | attr (value : Attribute)
  | attributes (attributes : List Attribute)
  | text (text : Text)
  | classFile (file : ClassFile)
  deriving Repr

/-- The session at the front of a byte string. -/
def start (data : Bytes) (base : Int) (pool : Pool) : Session :=
  ⟨.start data base, pool⟩

/-- The scan of an operation that leaves the pool alone. The pool and the class file of
`constantPool` and `classFile` are handled by `step`. -/
def scan (pool : Pool) : Operation → Scan Value
  | .u8 => (.number ∘ Int.ofNat) <$> Scan.u8
  | .i8 => .number <$> Scan.i8
  | .u16 => (.number ∘ Int.ofNat) <$> Scan.u16
  | .i16 => .number <$> Scan.i16
  | .u32 => (.number ∘ Int.ofNat) <$> Scan.u32
  | .i32 => .number <$> Scan.i32
  | .i64 => .long <$> Scan.i64
  | .f32 => (fun bits ↦ .layoutField (.real (.single bits.toNat))) <$> Scan.f32
  | .f64 => (fun bits ↦ .layoutField (.real (.double bits.toNat))) <$> Scan.f64
  | .layout layout => .layoutField <$> layout.read
  | .data size => .data <$> Scan.take size
  | .skip size => (fun _ ↦ .nothing) <$> Scan.skip size
  | .constantPool => .constantPool <$> Pool.read false
  | .constant => .constant <$> Constant.read
  | .flags => .flags <$> Flags.read
  | .interfaces => .names <$> ClassFile.readInterfaces pool
  | .field => .field <$> Field.read pool
  | .fields => .fields <$> ClassFile.readFields pool
  | .method => .method <$> Method.read pool
  | .methods => .methods <$> ClassFile.readMethods pool
  | .attr => .attr <$> Attribute.read pool
  | .attributes => .attributes <$> Attribute.readAll pool
  | .utf8 index => .text <$> Scan.utf8 pool index
  | .classFile => .classFile <$> ClassFile.read false

/-- Runs a scan in a session. -/
def run {α : Type} (session : Session) (scan : Scan α) : Except Fault α × Session :=
  match scan ⟨session.cursor, #[]⟩ with
  | .ok value s => (.ok value, { session with cursor := s.cursor })
  | .error fault s => (.error fault, { session with cursor := s.cursor })

/-- Reads the class file at the cursor, keeping its pool once that is read. -/
def classFile (session : Session) : Except Fault ClassFile × Session :=
  match session.run (ClassFile.readHeader false) with
  | (.ok header, session) =>
    { session with pool := header.pool }.run (ClassFile.readBody header)
  | (.error fault, session) => (.error fault, session)

/-- Performs one operation. -/
def step (session : Session) : Operation → Except Fault Value × Session
  | .constantPool =>
    match session.run (Pool.read false) with
    | (.ok pool, session) => (.ok (.constantPool pool), { session with pool := pool })
    | (.error fault, session) => (.error fault, session)
  | .classFile =>
    match session.classFile with
    | (outcome, session) => (outcome.map .classFile, session)
  | operation => session.run (scan session.pool operation)

/-- Performs operations in order, giving for each its outcome and the session behind it. -/
def steps (session : Session) : List Operation → List (Except Fault Value × Session)
  | [] => []
  | operation :: operations =>
    let outcome := session.step operation
    outcome :: outcome.2.steps operations

end Session

end ClassInspect
