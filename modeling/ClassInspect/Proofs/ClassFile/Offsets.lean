import Mathlib.Control.Monad.Basic
import ClassInspect.Proofs.ClassFile.Boundary
import ClassInspect.Proofs.Scan.Located

/-!
# The positions in refusals

A refusal of the class file reader points into the file, and if bytes are missing, it says how many
are there from the position on (`ClassFile.offset_of_refusal`). For all readers but one this is what
`Scan.Located` says of them, shown reader by reader: faults are reported at the current position or
at one that was looked at earlier, and neither lies outside the data.

The exception is the code of a method. It is read from the payload of an attribute, by a scan of its
own whose positions count from where the payload begins in the file. That is in order because the
payload stands in the file where the attribute says it does, so a position in the payload is one in
the file. What is missing is then missing before the end of the payload, and not before that of the
file (`ClassFile.CodeRefused`).

## What the theorem rests on

* `Scan.Located` has two sides. What is read satisfies a condition, and what fails points into the
  data or is one of some other faults. Attributes are the only readers whose condition matters:
  their payloads stand in the data (`Attribute.located_read`). The other faults are left open up to
  the point where code is decoded, and everything that does not decode code holds for any of them.
* The reader of a method supplies them (`Method.located_read`): a fault in code comes from the first
  attribute of that name, in a list of attributes that was read from the file, and is a fault within
  its payload (`Attribute.RefusedAsCode`).
* Code is decoded with the constants of the header. These are not known before the header has been
  read, so the file is taken in two parts (`ClassFile.fault_of_run_parts`).
* A report with a position is that of a problem at this position, and only one problem is a want of
  bytes (`exists_problem`, `exists_truncated`).
-/

namespace ClassInspect

open Scan (Located run)

variable {data : Bytes} {base : Int} {other : Fault → Prop}

/-! ### Reports -/

/-- A report with a position is that of a problem at this position. -/
theorem exists_problem {fault : Fault} {kind : FormatKind} {message : Text} {offset : Int}
    (h : fault.formatError? = some ⟨kind, message, some offset⟩) :
    ∃ problem : Problem, fault = .format problem (some offset) ∧ problem.kind = kind ∧
      problem.message = message := by
  cases fault with
  | format problem _ =>
    cases h
    exact ⟨problem, rfl, rfl, rfl⟩
  | _ => cases h

theorem exists_truncated {problem : Problem} (h : problem.kind = .truncatedData) :
    ∃ needed available, problem = .truncated needed available := by
  cases problem with
  | truncated needed available => exact ⟨needed, available, rfl⟩
  | _ => cases h

/-! ### Look-ups -/

theorem Scan.located_lift {α : Type} (outcome : Except PoolProblem α) :
    Located data base other (ofExcept (Pool.lift outcome)) fun _ ↦ True := by
  refine .ofExcept (fun _ _ ↦ trivial) fun fault h ↦ ?_
  cases outcome with
  | ok value => cases h
  | error problem =>
    cases h
    cases problem with
    | breach cause => exact .of_breach _
    | _ => exact .of_nowhere (by simp [Problem.kind])

theorem Scan.located_className? (pool : Pool) (index : Nat) :
    Located data base other (className? pool index) fun _ ↦ True := by
  unfold className?
  split
  · exact .pure trivial
  · rw [map_eq_pure_bind]
    exact .bind (located_lift _) fun _ _ ↦ .pure trivial

theorem Scan.located_descriptor {α : Type} (parse : Text → Except Descriptor.Failure α)
    (text : Text) : Located data base other (descriptor parse text) fun _ ↦ True := by
  refine .ofExcept (fun _ _ ↦ trivial) fun fault h ↦ ?_
  cases hparse : parse text with
  | ok value =>
    rw [hparse] at h
    cases h
  | error failure =>
    rw [hparse] at h
    cases h
    cases failure with
    | malformed problem => exact .of_nowhere (by simp [Problem.kind])
    | noCodePoint => exact .of_breach _

theorem Flags.located_read : Located data base other Flags.read fun _ ↦ True := by
  have hbits (flags : Flags) :
      Located data base other (Scan.ofExcept (flags.bits.forM checkBit)) fun _ ↦ True := by
    rw [forM_checkBit]
    exact .pure trivial
  exact .bind (.unsigned 2) fun _ _ ↦ .bind (hbits _) fun _ _ ↦ .pure trivial

/-! ### Constants -/

theorem Constant.located_ofPayload {place : Int}
    (hplace : base ≤ place ∧ place ≤ base + data.length) (bytes : Bytes) :
    Located data base other (Constant.ofPayload place bytes) fun _ ↦ True := by
  unfold ofPayload
  split
  · exact .pure trivial
  · rename_i failure _
    cases failure with
    | bytes error => exact .fail hplace (by simp [Problem.kind])
    | noUnits => exact .throw (.of_breach _)
    | units error => exact .fail hplace (by simp [Problem.kind])

theorem Constant.located_readBody {place : Int}
    (hplace : base ≤ place ∧ place ≤ base + data.length) (tag : Tag) :
    Located data base other (Constant.readBody place tag) fun _ ↦ True := by
  cases tag with
  | utf8 =>
    exact .bind (.unsigned 2) fun length _ ↦ .bind (.take length) fun bytes _ ↦
      located_ofPayload hplace bytes
  | integer | long => exact .bind (.signed _) fun _ _ ↦ .pure trivial
  | float | double =>
    exact .bind (.bind (.unsigned _) fun _ _ ↦ .pure trivial) fun _ (_ : True) ↦ .pure trivial
  | classRef | string | methodType | module | package =>
    exact .bind (.unsigned 2) fun _ _ ↦ .pure trivial
  | fieldRef | methodRef | interfaceMethodRef | nameAndType | dynamic | invokeDynamic =>
    exact .bind (.unsigned 2) fun _ _ ↦ .bind (.unsigned 2) fun _ _ ↦ .pure trivial
  | methodHandle =>
    rw [readBody_methodHandle]
    refine .bind (.unsigned 1) fun kind _ ↦ .bind (.unsigned 2) fun reference _ ↦ ?_
    split
    · exact .pure trivial
    · exact .fail hplace (by simp [Problem.kind])

/-- A constant is complained about where its first byte stands, which was looked at before. -/
theorem Constant.located_read : Located data base other Constant.read fun _ ↦ True := by
  refine .bind .place fun place hplace ↦ .bind (.unsigned 1) fun code _ ↦ ?_
  unfold readRest
  split
  · exact .fail hplace (by simp [Problem.kind])
  · exact located_readBody hplace _

namespace Pool

theorem located_readEntry (verbose : Bool) (index : Nat) :
    Located data base other (readEntry verbose index) fun _ ↦ True := by
  refine .bind Constant.located_read fun constant _ ↦ ?_
  cases verbose with
  | true => exact .bind (.note _ _ _) fun _ _ ↦ .pure trivial
  | false => exact .pure trivial

theorem located_readSlots (verbose : Bool) (left : Nat) (pool : Pool) :
    Located data base other (readSlots verbose left pool) fun _ ↦ True := by
  induction left using Nat.strongRecOn generalizing pool with
  | ind left ih =>
    cases left with
    | zero => exact .pure trivial
    | succ left =>
      rw [readSlots]
      refine .bind (located_readEntry verbose _) fun constant _ ↦ ?_
      split
      · cases left with
        | zero => exact .throw (.of_nowhere (by simp [Problem.kind]))
        | succ left => exact ih left (by omega) _
      · exact ih left (by omega) _

theorem located_read (verbose : Bool) :
    Located data base other (Pool.read verbose) fun _ ↦ True :=
  .bind (.unsigned 2) fun _ _ ↦ .bind (located_readSlots verbose _ _) fun _ _ ↦
    .bind (Scan.located_lift _) fun _ _ ↦ .bind (.note _ _ _) fun _ _ ↦ .pure trivial

end Pool

/-! ### Attributes and code -/

/-- The payload of an attribute stands where the attribute says it does. -/
theorem Attribute.located_read (pool : Pool) :
    Located data base other (Attribute.read pool) fun attr ↦
      data.StandsAt (attr.offset - base) attr.data :=
  .bind (.unsigned 2) fun _ _ ↦ .bind (Scan.located_lift _) fun _ _ ↦
    .bind (.unsigned 4) fun length _ ↦ .bind_place_take length fun _ _ hstands ↦ .pure hstands

theorem Attribute.located_readAll (pool : Pool) :
    Located data base other (Attribute.readAll pool) fun attributes ↦
      ∀ attr ∈ attributes, data.StandsAt (attr.offset - base) attr.data :=
  (Attribute.located_read pool).counted

theorem ExceptionHandler.located_read (pool : Pool) :
    Located data base other (ExceptionHandler.read pool) fun _ ↦ True :=
  .bind (.unsigned 2) fun _ _ ↦ .bind (.unsigned 2) fun _ _ ↦ .bind (.unsigned 2) fun _ _ ↦
    .bind (.unsigned 2) fun _ _ ↦ .bind (Scan.located_className? pool _) fun _ _ ↦ .pure trivial

theorem Code.located_read (pool : Pool) :
    Located data base other (Code.read pool) fun _ ↦ True := by
  have hparts : Located data base other (Code.readParts pool) fun _ ↦ True :=
    .bind (.unsigned 2) fun _ _ ↦ .bind (.unsigned 2) fun _ _ ↦ .bind (.unsigned 4) fun _ _ ↦
      .bind (.take _) fun _ _ ↦ .bind (ExceptionHandler.located_read pool).counted fun _ _ ↦
        .bind (Attribute.located_readAll pool) fun _ _ ↦ .pure trivial
  exact hparts.exhaust fun _ ↦ by simp [Problem.kind]

/-! ### Members -/

theorem Field.located_read (pool : Pool) :
    Located data base other (Field.read pool) fun _ ↦ True := by
  refine .bind Flags.located_read fun _ _ ↦ .bind (.unsigned 2) fun _ _ ↦
    .bind (Scan.located_lift _) fun name _ ↦ .bind (.unsigned 2) fun _ _ ↦
    .bind (Scan.located_lift _) fun _ _ ↦ .bind (Scan.located_descriptor _ _) fun _ _ ↦
    .bind (Attribute.located_readAll pool) fun attributes _ ↦ ?_
  split
  · have hfail : Located data base other
        (Scan.failHere (.fieldWithCode name) : Scan PUnit) fun _ ↦ True :=
      .failHere (by simp [Problem.kind])
    exact .bind hfail fun _ _ ↦ .pure trivial
  · exact .pure trivial

/-- With code found already, no more is decoded. -/
theorem Method.located_readCode_some (pool : Pool) (name : Text) (code : Code)
    (attributes : List Attribute) :
    Located data base other (Method.readCode pool name (some code) attributes) fun _ ↦ True := by
  induction attributes with
  | nil => exact .pure trivial
  | cons attr attributes ih =>
    rw [Method.readCode]
    split
    · exact .failHere (by simp [Problem.kind])
    · exact ih

/-- The faults that come from elsewhere are those of the first attribute that is named for code. -/
theorem Method.located_readCode (pool : Pool) (name : Text) {attributes : List Attribute}
    (hother : ∀ attr log fault, attributes.find? (·.name = Code.attributeName) = some attr →
      (run (Code.read pool) ⟨.start attr.data attr.offset, log⟩).1 = .error fault → other fault) :
    Located data base other (Method.readCode pool name none attributes) fun _ ↦ True := by
  induction attributes with
  | nil => exact .pure trivial
  | cons attr attributes ih =>
    rw [Method.readCode]
    by_cases hname : attr.name = Code.attributeName
    · rw [if_pos hname]
      have hfirst : (attr :: attributes).find? (·.name = Code.attributeName) = some attr :=
        List.find?_cons_of_pos (by simpa using hname)
      have hcode : Located data base other
          (Scan.within attr.data attr.offset (Code.read pool)) fun _ ↦ True :=
        .within (fun _ _ _ ↦ trivial) fun log fault hfault ↦
          .inr (hother attr log fault hfirst hfault)
      exact .bind hcode fun code _ ↦ located_readCode_some pool name code attributes
    · rw [if_neg hname]
      refine ih fun found log fault hfound hfault ↦ hother found log fault ?_ hfault
      rw [List.find?_cons_of_neg (by simpa using hname)]
      exact hfound

/-- Reading ends with this fault because of this attribute: it is the first one that is named for
code in a list of attributes that stands in the file, and what stands in its payload is refused as
code. -/
structure Attribute.RefusedAsCode (attr : Attribute) (data : Bytes) (pool : Pool) (fault : Fault) :
    Prop where
  listed : ∃ attributes s c, s.cursor.LiesIn data 0 ∧
    run (Attribute.readAll pool) s = (.ok attributes, c) ∧
    attributes.find? (·.name = Code.attributeName) = some attr
  stands : data.StandsAt attr.offset attr.data
  refused : ∃ log, (run (Code.read pool) ⟨.start attr.data attr.offset, log⟩).1 = .error fault

/-- Code that is refused is refused at a position within its payload. -/
theorem Attribute.RefusedAsCode.pointsInto {pool : Pool} {attr : Attribute} {fault : Fault}
    (h : attr.RefusedAsCode data pool fault) : fault.PointsInto attr.data attr.offset := by
  obtain ⟨log, hrefused⟩ := h.refused
  have hcode : Located attr.data attr.offset (fun _ ↦ False) (Code.read pool) fun _ ↦ True :=
    Code.located_read pool
  have hstart := Cursor.liesIn_start attr.data attr.offset
  have hfault := (hcode ⟨.start attr.data attr.offset, log⟩ hstart).failure fault _
    (Prod.ext hrefused rfl)
  exact hfault.resolve_right id

theorem Method.located_read (pool : Pool) :
    Located data 0 (fun fault ↦ ∃ attr : Attribute, attr.RefusedAsCode data pool fault)
      (Method.read pool) fun _ ↦ True := by
  refine .bind Flags.located_read fun _ _ ↦ .bind (.unsigned 2) fun _ _ ↦
    .bind (Scan.located_lift _) fun name _ ↦ .bind (.unsigned 2) fun _ _ ↦
    .bind (Scan.located_lift _) fun _ _ ↦ .bind (Scan.located_descriptor _ _) fun _ _ ↦
    .bind (Attribute.located_readAll pool).traced fun attributes hattributes ↦
    .bind (Method.located_readCode pool name fun attr log fault hfirst hfault ↦ ?_) fun _ _ ↦
      .pure trivial
  obtain ⟨hstands, s, c, hs, hrun⟩ := hattributes
  have hattr := hstands attr (List.mem_of_find?_eq_some hfirst)
  rw [Int.sub_zero] at hattr
  exact ⟨attr, ⟨attributes, s, c, hs, hrun, hfirst⟩, hattr, log, hfault⟩

/-! ### Class files -/

namespace ClassFile

theorem located_readInterfaces (pool : Pool) :
    Located data base other (readInterfaces pool) fun _ ↦ True := by
  have hname : Located data base other
      (do return displayName (← Scan.className pool (← Scan.u16))) fun _ ↦ True :=
    .bind (.unsigned 2) fun _ _ ↦ .bind (Scan.located_lift _) fun _ _ ↦ .pure trivial
  exact .bind hname.counted fun _ _ ↦ .bind (.note _ _ _) fun _ _ ↦ .pure trivial

theorem located_readPreamble (verbose : Bool) :
    Located data base other (readPreamble verbose) fun _ ↦ True :=
  .bind (.unsigned 4) fun _ _ ↦ .bind (.note _ _ _) fun _ _ ↦ .bind (.unsigned 2) fun _ _ ↦
    .bind (.unsigned 2) fun _ _ ↦ .bind (.note _ _ _) fun _ _ ↦
    .bind (Pool.located_read verbose) fun _ _ ↦ .pure trivial

theorem located_readMembers (header : Header) :
    Located data 0 (fun fault ↦ ∃ attr : Attribute, attr.RefusedAsCode data header.pool fault)
      (readMembers header) fun _ ↦ True :=
  .bind Flags.located_read fun _ _ ↦ .bind (.note _ _ _) fun _ _ ↦ .bind (.unsigned 2) fun _ _ ↦
    .bind (Scan.located_lift _) fun _ _ ↦ .bind (.unsigned 2) fun _ _ ↦
    .bind (Scan.located_className? _ _) fun _ _ ↦ .bind (.note _ _ _) fun _ _ ↦
    .bind (located_readInterfaces header.pool) fun _ _ ↦
    .bind (.bind (Field.located_read header.pool).counted fun _ _ ↦
      .bind (.note _ _ _) fun _ _ ↦ .pure trivial) fun _ (_ : True) ↦
    .bind (.bind (Method.located_read header.pool).counted fun _ _ ↦
      .bind (.note _ _ _) fun _ _ ↦ .pure trivial) fun _ (_ : True) ↦
    .bind (Attribute.located_readAll header.pool) fun _ _ ↦ .pure trivial

theorem located_readBody (header : Header) :
    Located data 0 (fun fault ↦ ∃ attr : Attribute, attr.RefusedAsCode data header.pool fault)
      (readBody header) fun _ ↦ True :=
  (located_readMembers header).exhaust fun _ ↦ by simp [Problem.kind]

/-- The file was read up to its constants, and with these an attribute is refused as code. -/
def CodeRefused (data : Bytes) (verbose : Bool) (attr : Attribute) (fault : Fault) : Prop :=
  ∃ header c, run (readPreamble verbose) ⟨.start data 0, #[]⟩ = (.ok header, c) ∧
    attr.RefusedAsCode data header.pool fault

/-- The parts of a file fail with a fault that points into it, or because of the code in one of its
attributes. -/
theorem fault_of_run_parts {verbose : Bool} {fault : Fault} {c : Cursor}
    (h : run (Scan.exhaust .extraBytes (readParts verbose)) ⟨.start data 0, #[]⟩ =
      (.error fault, c)) :
    fault.PointsInto data 0 ∨ ∃ attr, CodeRefused data verbose attr fault := by
  have hparts : Scan.exhaust .extraBytes (readParts verbose) =
      (readPreamble verbose >>= readBody : Scan ClassFile) := by
    simp only [readParts, Scan.exhaust, bind_assoc]
    rfl
  rw [hparts] at h
  have hpreamble : Scan.LocatedFrom data 0 (fun fault ↦ ∃ attr, CodeRefused data verbose attr fault)
      ⟨.start data 0, #[]⟩ (readPreamble verbose) fun _ ↦ True :=
    located_readPreamble verbose _ (Cursor.liesIn_start data 0)
  have hfile : Scan.LocatedFrom data 0 (fun fault ↦ ∃ attr, CodeRefused data verbose attr fault)
      ⟨.start data 0, #[]⟩ (readPreamble verbose >>= readBody) fun _ ↦ True := by
    refine .bind ⟨fun header c' hrun ↦ ⟨(hpreamble.success header c' hrun).1, ?_⟩,
      hpreamble.failure⟩
    -- all code is decoded with the constants of the header that was just read
    refine (located_readBody header).mono fun fault hrefused ↦ ?_
    obtain ⟨attr, hattr⟩ := hrefused
    exact ⟨attr, header, c', hrun, hattr⟩
  exact hfile.failure fault c h

/-- A file is refused with a fault that points into it, or into a payload in it that is being
decoded as code. -/
theorem pointsInto_of_parse {verbose : Bool} {fault : Fault}
    (h : (parse data verbose).outcome.1 = .error fault) :
    fault.PointsInto data 0 ∨
      ∃ attr, CodeRefused data verbose attr fault ∧ data.StandsAt attr.offset attr.data ∧
        fault.PointsInto attr.data attr.offset := by
  rw [outcome_parse] at h
  by_cases hmagic : data.take 4 <+: magic
  · rw [run_read_of_magic hmagic] at h
    refine (fault_of_run_parts (Prod.ext h rfl)).imp_right ?_
    rintro ⟨attr, header, c, hheader, hattr⟩
    exact ⟨attr, ⟨header, c, hheader, hattr⟩, hattr.stands, hattr.pointsInto⟩
  · rw [run_read_of_badMagic hmagic] at h
    cases h
    exact .inl (.of_offset ⟨Int.le_refl 0, by omega⟩ (by simp [Problem.kind]))

/-- A refusal points into the file. One for want of bytes says how many are left, and they are those
up to the end of the file, or up to the end of the payload that is being decoded as code. -/
theorem offset_of_refusal {verbose : Bool} {fault : Fault} {kind : FormatKind} {message : Text}
    {offset : Int} (h : (parse data verbose).outcome.1 = .error fault)
    (hreport : fault.formatError? = some ⟨kind, message, some offset⟩) :
    0 ≤ offset ∧ offset ≤ data.length ∧
    (kind = .truncatedData → ∃ needed available : Nat,
      fault = .format (.truncated needed available) (some offset) ∧
      message = .lit s!"Need {needed} bytes, only {available} left" ∧ available < needed ∧
      (offset + available = data.length ∨
        ∃ attr, CodeRefused data verbose attr fault ∧ data.StandsAt attr.offset attr.data ∧
          offset + available = attr.offset + attr.data.length)) := by
  obtain ⟨problem, rfl, rfl, rfl⟩ := exists_problem hreport
  have hpoints := pointsInto_of_parse h
  refine ⟨?_, ?_, fun hkind ↦ ?_⟩
  · rcases hpoints with hfault | ⟨attr, -, hstands, hfault⟩
    · exact (hfault.offset problem offset rfl).1
    · exact Int.le_trans hstands.1 (hfault.offset problem offset rfl).1
  · rcases hpoints with hfault | ⟨attr, -, hstands, hfault⟩
    · have := (hfault.offset problem offset rfl).2
      omega
    · exact Int.le_trans (hfault.offset problem offset rfl).2 hstands.2.1
  · -- the bytes that are there end with the file, or with the payload
    obtain ⟨needed, available, rfl⟩ := exists_truncated hkind
    refine ⟨needed, available, rfl, rfl, ?_⟩
    rcases hpoints with hfault | ⟨attr, hrefused, hstands, hfault⟩
    · obtain ⟨hless, _, hoffset, hend⟩ := hfault.shortage needed available _ rfl
      cases hoffset
      exact ⟨hless, .inl (by omega)⟩
    · obtain ⟨hless, _, hoffset, hend⟩ := hfault.shortage needed available _ rfl
      cases hoffset
      exact ⟨hless, .inr ⟨attr, hrefused, hstands, hend⟩⟩

/-- The bytes of `sample` up to the code in its method, and code that says to have nine bytes where
the payload has five left. -/
def sampleStarved : Bytes :=
  sample.take 63 ++ [0, 3, 0, 0, 0, 13, 0, 0, 0, 1, 0, 0, 0, 9, 0xB1, 0, 0, 0, 0, 0, 0]

/-- The bytes are missing before the end of the payload, which is two bytes before that of the
file. -/
theorem offset_of_refusal_sampleStarved :
    (parse sampleStarved false).outcome.1 = .error (.format (.truncated 9 5) (some 77)) ∧
    sampleStarved.length = 84 ∧
    ∃ attr, CodeRefused sampleStarved false attr (.format (.truncated 9 5) (some 77)) ∧
      sampleStarved.StandsAt attr.offset attr.data ∧ attr.offset + attr.data.length = 82 := by
  have hparse : (parse sampleStarved false).outcome.1 =
      .error (.format (.truncated 9 5) (some 77)) := by
    decide +kernel
  obtain ⟨-, -, hshort⟩ := offset_of_refusal hparse rfl
  obtain ⟨needed, available, hfault, -, -, hend⟩ := hshort rfl
  cases hfault
  refine ⟨hparse, by decide, ?_⟩
  rcases hend with hfile | ⟨attr, hrefused, hstands, hpayload⟩
  · exact absurd hfile (by decide)
  · exact ⟨attr, hrefused, hstands, hpayload.symm⟩

end ClassFile

end ClassInspect
