import ClassInspect.ClassFile.Session
import ClassInspect.Proofs.ClassFile.Stepwise
import ClassInspect.Proofs.Scan.Advance

/-!
# Sessions stay within their data

A session goes on after a failure, so what is said about its cursor has to hold in the middle of a
reader that gave up as well as behind one that succeeded. Both come from one fact about scans: a
scan moves its cursor forwards over bytes that are ahead, or not at all (`Scan.Advances`). The
readers of the parts of a class file are local, which gives it at once, and the two scans that are
not, the check of the magic number and the check of the end, move nothing of their own.

Single reads are told apart by the bytes they ask for and the function that makes their answer out
of these (`Session.Operation.request?`). All of them are one scan (`Session.scan_of_request`), so
that they get their bytes whole or do not move is shown once.
-/

namespace ClassInspect

namespace ClassFile

open Scan (Advances)

theorem advances_checkMagic : Advances checkMagic := by
  intro s
  have hcheck := checkMagic_apply s
  split at hcheck
  · rw [Scan.run_eq_ok_iff.2 ⟨s.log, hcheck⟩]
    exact .refl s.cursor
  · rw [Scan.run_eq_error_iff.2 ⟨s.log, hcheck⟩]
    exact .refl s.cursor

theorem advances_readHeader (verbose : Bool) : Advances (readHeader verbose) :=
  advances_checkMagic.bind fun _ ↦ (stepwise_readPreamble verbose).isLocal.advances

theorem advances_readBody (header : Header) : Advances (readBody header) :=
  (stepwise_readMembers header).isLocal.advances.exhaust _

end ClassFile

/-! ### Single reads -/

/-- What the fields of a layout come to: the value of the first one. -/
def RecordLayout.answer (layout : RecordLayout) (bytes : Bytes) : Except Fault FieldValue :=
  match layout.fields with
  | [] => .error .emptyLayout
  | field :: _ => .ok (field.value (number layout.order (bytes.take field.size)))

theorem RecordLayout.read_eq (layout : RecordLayout) :
    layout.read = (do Scan.ofExcept (layout.answer (← Scan.take layout.size))) := by
  unfold read answer
  cases layout.fields with
  | nil => rfl
  | cons field fields => rfl

namespace Session

/-- The number of bytes that a single read asks for, and what it answers if it gets them. -/
structure Request where
  size : Int
  answer : Bytes → Except Fault Value

/-- The request of an operation that is a single read. -/
def Operation.request? : Operation → Option Request
  | .u8 => some ⟨1, fun bytes ↦ .ok (.number bytes.toNat)⟩
  | .i8 => some ⟨1, fun bytes ↦ .ok (.number (Bytes.signed 1 bytes.toNat))⟩
  | .u16 => some ⟨2, fun bytes ↦ .ok (.number bytes.toNat)⟩
  | .i16 => some ⟨2, fun bytes ↦ .ok (.number (Bytes.signed 2 bytes.toNat))⟩
  | .u32 => some ⟨4, fun bytes ↦ .ok (.number bytes.toNat)⟩
  | .i32 => some ⟨4, fun bytes ↦ .ok (.number (Bytes.signed 4 bytes.toNat))⟩
  | .i64 => some ⟨8, fun bytes ↦ .ok (.long (Bytes.signed 8 bytes.toNat))⟩
  | .f32 => some ⟨4, fun bytes ↦
      .ok (.layoutField (.real (.single (UInt32.ofNat bytes.toNat).toNat)))⟩
  | .f64 => some ⟨8, fun bytes ↦
      .ok (.layoutField (.real (.double (UInt64.ofNat bytes.toNat).toNat)))⟩
  | .layout record => some ⟨record.size, fun bytes ↦ (record.answer bytes).map .layoutField⟩
  | .data size => some ⟨size, fun bytes ↦ .ok (.data bytes)⟩
  | .skip size => some ⟨size, fun _ ↦ .ok .nothing⟩
  | _ => none

theorem map_ofExcept {α β : Type} (outcome : Except Fault α) (f : α → β) :
    f <$> Scan.ofExcept outcome = Scan.ofExcept (outcome.map f) := by
  cases outcome with
  | ok value => rfl
  | error fault => rfl

/-- The only single read that fails with the bytes it asked for is one of no bytes: that of a
layout without fields. -/
theorem size_eq_zero_of_answer {operation : Operation} {request : Request}
    (h : operation.request? = some request) {bytes : Bytes} {fault : Fault}
    (hanswer : request.answer bytes = .error fault) : request.size = 0 := by
  cases operation with
  | layout record =>
    obtain ⟨order, fields⟩ := record
    cases h
    cases fields with
    | nil => rfl
    | cons field fields => cases hanswer
  | u8 | i8 | u16 | i16 | u32 | i32 | i64 | f32 | f64 | data | skip =>
    cases h
    cases hanswer
  | _ => cases h

/-- Every single read takes its bytes and answers what they come to. -/
theorem scan_of_request {operation : Operation} {request : Request}
    (h : operation.request? = some request) (pool : Pool) :
    scan pool operation = (do Scan.ofExcept (request.answer (← Scan.take request.size))) := by
  cases operation with
  | u8 | u16 | u32 =>
    cases h
    simp only [scan, Scan.u8, Scan.u16, Scan.u32, Scan.unsigned_eq, map_bind]
    rfl
  | i8 | i16 | i32 | i64 =>
    cases h
    simp only [scan, Scan.i8, Scan.i16, Scan.i32, Scan.i64, Scan.signed, Scan.unsigned_eq,
      map_bind, bind_assoc, pure_bind]
    rfl
  | f32 | f64 =>
    cases h
    simp only [scan, Scan.f32, Scan.f64, Scan.unsigned_eq, map_bind, bind_assoc, pure_bind]
    rfl
  | layout record =>
    cases h
    simp only [scan, RecordLayout.read_eq, map_bind, map_ofExcept]
  | data size =>
    cases h
    simp only [scan, map_eq_pure_bind]
    rfl
  | skip size =>
    cases h
    simp only [scan, Scan.skip, map_bind]
    rfl
  | _ => cases h

/-- With enough bytes ahead, a single read answers what the next ones come to and moves behind
them. -/
theorem run_request_of_le {request : Request} {s : Scan.State} (hnonneg : 0 ≤ request.size)
    (hle : request.size ≤ s.cursor.remaining) :
    Scan.run (do Scan.ofExcept (request.answer (← Scan.take request.size))) s =
      (request.answer (s.cursor.rest.take request.size.toNat),
        s.cursor.advance request.size.toNat) := by
  have hcount : (request.size.toNat : Int) = request.size := Int.toNat_of_nonneg hnonneg
  have hahead : request.size.toNat ≤ s.cursor.rest.length := by
    rw [Cursor.remaining] at hle
    omega
  have htake := Scan.run_take_of_le hahead
  rw [hcount] at htake
  obtain ⟨log, hbind⟩ := Scan.run_bind_of_ok htake fun bytes ↦ Scan.ofExcept (request.answer bytes)
  rw [hbind, Scan.run_ofExcept]

/-- A single read of a negative number of bytes, or of more than there are, fails on the spot. -/
theorem run_request_of_not_le {request : Request} {s : Scan.State}
    (h : ¬ (0 ≤ request.size ∧ request.size ≤ s.cursor.remaining)) :
    ∃ fault, Scan.run (do Scan.ofExcept (request.answer (← Scan.take request.size))) s =
      (.error fault, s.cursor) := by
  rcases Int.lt_or_le request.size 0 with hneg | hnonneg
  · exact ⟨_, Scan.run_bind_of_error (Scan.run_take_of_neg hneg s) _⟩
  · have hshort : s.cursor.rest.length < request.size.toNat := by
      rw [Cursor.remaining] at h
      omega
    have htake := Scan.run_take_of_lt hshort
    rw [Int.toNat_of_nonneg hnonneg] at htake
    exact ⟨_, Scan.run_bind_of_error htake _⟩

/-! ### Steps -/

open Scan (Advances)

theorem advances_scan (pool : Pool) (operation : Operation) : Advances (scan pool operation) := by
  rcases hrequest : operation.request? with _ | request
  · cases operation with
    | constantPool => exact (Pool.stepwise_read false).isLocal.advances.map _
    | constant => exact Constant.stepwise_read.isLocal.advances.map _
    | flags => exact Flags.stepwise_read.isLocal.advances.map _
    | interfaces => exact (ClassFile.stepwise_readInterfaces pool).isLocal.advances.map _
    | field => exact (Field.stepwise_read pool).isLocal.advances.map _
    | fields => exact (ClassFile.stepwise_readFields pool).isLocal.advances.map _
    | method => exact (Method.stepwise_read pool).isLocal.advances.map _
    | methods => exact (ClassFile.stepwise_readMethods pool).isLocal.advances.map _
    | attr => exact (Attribute.stepwise_read pool).isLocal.advances.map _
    | attributes => exact (Attribute.stepwise_readAll pool).isLocal.advances.map _
    | utf8 index => exact (Scan.advances_ofExcept _).map _
    | classFile =>
      have hfile := (ClassFile.advances_readHeader false).bind ClassFile.advances_readBody
      exact hfile.map Value.classFile
    | _ => cases hrequest
  · rw [scan_of_request hrequest]
    exact (Scan.advances_take _).bind fun _ ↦ Scan.advances_ofExcept _

/-- A scan in a session has the outcome of its run, and leaves the cursor where the run does. -/
theorem run_eq {α : Type} (session : Session) (scan : Scan α) :
    session.run scan = ((Scan.run scan ⟨session.cursor, #[]⟩).1,
      { session with cursor := (Scan.run scan ⟨session.cursor, #[]⟩).2 }) := by
  unfold run Scan.run
  cases scan ⟨session.cursor, #[]⟩ with
  | ok value s => rfl
  | error fault s => rfl

theorem forwards_run {α : Type} {scan : Scan α} (h : Advances scan) (session : Session) :
    session.cursor.Forwards (session.run scan).2.cursor := by
  rw [run_eq]
  exact h ⟨session.cursor, #[]⟩

/-- The body of a class file goes on where its header ended. -/
theorem forwards_classFile (session : Session) :
    session.cursor.Forwards session.classFile.2.cursor := by
  have hheader := forwards_run (ClassFile.advances_readHeader false) session
  unfold classFile
  rcases hrun : session.run (ClassFile.readHeader false) with ⟨fault | header, session'⟩
  · rw [hrun] at hheader
    exact hheader
  · rw [hrun] at hheader
    let session'' : Session := { session' with pool := header.pool }
    exact hheader.trans (forwards_run (ClassFile.advances_readBody header) session'')

/-- No operation moves the cursor back, and none changes its data. -/
theorem forwards_step (session : Session) (operation : Operation) :
    session.cursor.Forwards (session.step operation).2.cursor := by
  cases operation with
  | constantPool =>
    have hpool := forwards_run (Pool.stepwise_read false).isLocal.advances session
    unfold step
    rcases hrun : session.run (Pool.read false) with ⟨fault | pool, session'⟩
    · rw [hrun] at hpool
      exact hpool
    · rw [hrun] at hpool
      exact hpool
  | classFile => exact forwards_classFile session
  | _ => exact forwards_run (advances_scan session.pool _) session

theorem step_of_request {operation : Operation} {request : Request}
    (h : operation.request? = some request) (session : Session) :
    session.step operation =
      session.run (do Scan.ofExcept (request.answer (← Scan.take request.size))) := by
  rw [← scan_of_request h session.pool]
  cases operation with
  | constantPool | classFile => cases h
  | _ => rfl

/-! ### Runs -/

/-- What is said of the step from one session to another. It holds for failed operations as for
successful ones, and more is said of single reads. -/
structure InBounds (data : Bytes) (base : Int) (before : Session) (operation : Operation)
    (outcome : Except Fault Value) (after : Session) : Prop where
  data_eq : after.cursor.data = data
  base_eq : after.cursor.base = base
  inside : after.cursor.pos ≤ data.length
  remaining_eq : after.cursor.remaining = data.length - after.cursor.pos
  forwards : before.cursor.pos ≤ after.cursor.pos
  /-- A single read that fails has not moved. -/
  failed : ∀ request fault, operation.request? = some request → outcome = .error fault →
    after.cursor.pos = before.cursor.pos
  /-- A single read that succeeds has moved over the bytes it asked for and no others, and these
  alone decide its answer. -/
  succeeded : ∀ request value, operation.request? = some request → outcome = .ok value →
    ∃ bytes : Bytes, bytes = (data.take after.cursor.pos).drop before.cursor.pos ∧
      bytes.length = request.size ∧ request.answer bytes = .ok value
  /-- A single read moves whenever the bytes it asks for are there. -/
  granted : ∀ request, operation.request? = some request → 0 ≤ request.size →
    request.size ≤ before.cursor.remaining →
    after.cursor.pos = before.cursor.pos + request.size

/-- The relation holds of each operation, the session that the operations before it left, and what
the operation made of it. -/
inductive EachStep (relation : Session → Operation → Except Fault Value → Session → Prop) :
    Session → List Operation → List (Except Fault Value × Session) → Prop
  | done (session : Session) : EachStep relation session [] []
  | step {before after : Session} {operation : Operation} {outcome : Except Fault Value}
    {operations : List Operation} {results : List (Except Fault Value × Session)}
    (h : relation before operation outcome after)
    (rest : EachStep relation after operations results) :
    EachStep relation before (operation :: operations) ((outcome, after) :: results)

/-- One operation on a valid cursor stays in bounds. -/
theorem inBounds_step {session : Session} (h : session.cursor.Valid) (operation : Operation) :
    InBounds session.cursor.data session.cursor.base session operation
      (session.step operation).1 (session.step operation).2 := by
  have hforwards := forwards_step session operation
  have hvalid := hforwards.valid h
  -- a single read is granted, and then it is decided by the bytes ahead, or it stays in place
  have hsingle (request : Request) (hrequest : operation.request? = some request) :
      (0 ≤ request.size ∧ request.size ≤ session.cursor.remaining ∧
        (session.step operation).1 =
          request.answer (session.cursor.rest.take request.size.toNat) ∧
        (session.step operation).2.cursor = session.cursor.advance request.size.toNat) ∨
      (¬ (0 ≤ request.size ∧ request.size ≤ session.cursor.remaining) ∧
        (∃ fault, (session.step operation).1 = .error fault) ∧
        (session.step operation).2.cursor = session.cursor) := by
    rw [step_of_request hrequest, run_eq]
    by_cases hsize : 0 ≤ request.size ∧ request.size ≤ session.cursor.remaining
    · rw [run_request_of_le (s := ⟨session.cursor, #[]⟩) hsize.1 hsize.2]
      exact .inl ⟨hsize.1, hsize.2, rfl, rfl⟩
    · obtain ⟨fault, hrun⟩ := run_request_of_not_le (s := ⟨session.cursor, #[]⟩) hsize
      rw [hrun]
      exact .inr ⟨hsize, ⟨fault, rfl⟩, rfl⟩
  refine ⟨hforwards.data_eq, hforwards.base_eq, ?_, ?_, hforwards.pos_le, ?_, ?_, ?_⟩
  · rw [← hforwards.data_eq]
    exact hvalid.2
  · rw [hvalid.remaining_eq, hforwards.data_eq]
  · intro request fault hrequest hfault
    rcases hsingle request hrequest with ⟨-, -, houtcome, hcursor⟩ | ⟨-, -, hcursor⟩
    · have hzero := size_eq_zero_of_answer hrequest (houtcome.symm.trans hfault)
      rw [hcursor, hzero]
      rfl
    · rw [hcursor]
  · intro request value hrequest hvalue
    rcases hsingle request hrequest with ⟨hnonneg, hle, houtcome, hcursor⟩ | ⟨-, ⟨fault, hfault⟩, -⟩
    · refine ⟨session.cursor.rest.take request.size.toNat, ?_, ?_, houtcome.symm.trans hvalue⟩
      · rw [hcursor, Cursor.pos_advance, h.1, List.take_drop]
      · rw [Cursor.remaining] at hle
        rw [List.length_take]
        omega
    · rw [hfault] at hvalue
      cases hvalue
  · intro request hrequest hnonneg hle
    rcases hsingle request hrequest with ⟨-, -, -, hcursor⟩ | ⟨hsize, -⟩
    · rw [hcursor, Cursor.pos_advance]
      omega
    · exact absurd ⟨hnonneg, hle⟩ hsize

theorem eachStep_of_valid {session : Session} (h : session.cursor.Valid)
    (operations : List Operation) :
    EachStep (InBounds session.cursor.data session.cursor.base) session operations
      (session.steps operations) := by
  induction operations generalizing session with
  | nil => exact .done session
  | cons operation operations ih =>
    have hforwards := forwards_step session operation
    have hrest := ih (hforwards.valid h)
    rw [hforwards.data_eq, hforwards.base_eq] at hrest
    exact .step (inBounds_step h operation) hrest

/-- Every operation of every session, whether it or one before it fails or not, leaves the data and
its place alone, never moves the cursor back or past the end, and keeps the count of the bytes
ahead. A single read takes exactly the bytes it asks for and answers from them, or does not move. -/
theorem eachStep_inBounds (data : Bytes) (base : Int) (pool : Pool) (operations : List Operation) :
    EachStep (InBounds data base) (start data base pool) operations
      ((start data base pool).steps operations) := by
  have hvalid : (start data base pool).cursor.Valid := Cursor.valid_start data base
  exact eachStep_of_valid hvalid operations

end Session

end ClassInspect
