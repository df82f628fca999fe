import ClassInspect.Proofs.Descriptor
import ClassInspect.Proofs.Scan.Stepwise
import ClassInspect.Proofs.Text.ModifiedUtf8

/-!
# The readers of class files are stepwise

Every reader of a part of a class file is made of elementary steps, and the faults it was made
with are reports about the format, of five families (`ReaderFault`). A breach is none of them, so
the steps on the way that rely on something are the ones that need an argument:

* a number always gets all its bytes (`Scan.unsigned_eq`), and no length is negative, since lengths
  are read as unsigned numbers;
* a slot is looked up only if its index is in range (`Pool.guarded_item`), and a kind of constant
  in the table of references only if it is there (`Pool.checkConstant_eq`);
* no code point of a descriptor is taken behind its end (`Descriptor.guarded_field`,
  `Descriptor.guarded_method`);
* a text that is UTF-8 has units, and these are whole (`ModifiedUtf8.exists_error_of_decode`);
* the kind that is left to the last branch is that of method handles
  (`Constant.readBody_methodHandle`);
* every bit of sixteen means something (`Flags.forM_checkBit`).

The check of the magic number and the end of the file stay outside; `ClassFile.read` is made of
them and of two stepwise scans.
-/

namespace ClassInspect

/-- A report about the format of the families that the reader uses behind the magic number. -/
def ReaderFault : Fault → Prop
  | .format problem _ =>
    problem.kind ∈ [FormatKind.classFormat, .truncatedData, .invalidPoolIndex, .unsupportedTag,
      .malformedDescriptor]
  | _ => False

/-! ### Look-ups -/

namespace Pool

variable {α β : Type} {first : Except PoolProblem α} {next : α → Except PoolProblem β}

/-- If this outcome is a failure, it is one of an index and not a breach. -/
def Guarded (outcome : Except PoolProblem α) : Prop :=
  ∀ cause, outcome ≠ .error (.breach cause)

theorem Guarded.bind (hfirst : Guarded first) (hnext : ∀ value, Guarded (next value)) :
    Guarded (first >>= next) := by
  intro cause h
  rcases bind_eq_error_iff.1 h with herror | ⟨value, -, herror⟩
  · exact hfirst cause herror
  · exact hnext value cause herror

/-- An index in range has a slot. -/
theorem guarded_item (pool : Pool) (index : Int) : Guarded (pool.item index) := by
  unfold item
  split
  · rename_i inside
    have hlt : (index - 1).toNat < pool.slots.size := by
      rw [count] at inside
      omega
    rw [Array.getElem?_eq_getElem hlt]
    cases pool.slots[(index - 1).toNat] <;> exact nofun
  · exact nofun

theorem guarded_get (pool : Pool) (index : Int) (tags : List Tag) :
    Guarded (pool.get index tags) := by
  refine (pool.guarded_item index).bind fun constant ↦ ?_
  split <;> exact nofun

theorem guarded_utf8 (pool : Pool) (index : Int) : Guarded (pool.utf8 index) := by
  refine (pool.guarded_item index).bind fun constant ↦ ?_
  cases constant <;> exact nofun

theorem guarded_className (pool : Pool) (index : Int) : Guarded (pool.className index) := by
  refine (pool.guarded_item index).bind fun constant ↦ ?_
  cases constant with
  | classRef name => exact pool.guarded_utf8 name
  | _ => exact nofun

/-- A reference that is refused is refused for its index. -/
theorem checkReference_of_error {pool : Pool} {reference : Int × List Tag} {cause : PoolProblem}
    (h : pool.get reference.1 reference.2 = .error cause) (holder : Nat) (tag : Tag) :
    pool.checkReference holder tag reference = .error (.badReference holder tag cause) := by
  unfold checkReference
  rw [h]
  cases cause with
  | breach cause => exact absurd h (pool.guarded_get _ _ cause)
  | _ => rfl

theorem guarded_checkReference (pool : Pool) (holder : Nat) (tag : Tag)
    (reference : Int × List Tag) : Guarded (pool.checkReference holder tag reference) := by
  rcases hget : pool.get reference.1 reference.2 with cause | constant
  · rw [checkReference_of_error hget]
    exact nofun
  · rw [checkReference, hget]
    exact nofun

theorem guarded_forM {check : α → Except PoolProblem Unit} (h : ∀ item, Guarded (check item))
    (items : List α) : Guarded (items.forM check) := by
  induction items with
  | nil => exact nofun
  | cons item items ih => exact (h item).bind fun _ ↦ ih

theorem guarded_check (pool : Pool) : Guarded pool.check := by
  rw [check_eq_forM_references]
  exact guarded_forM (fun _ ↦ guarded_forM (pool.guarded_checkReference _ _) _) _

/-- What is lifted then is the problem itself. -/
theorem ofPool_of_guarded {outcome : Except PoolProblem α} (hguarded : Guarded outcome)
    {problem : PoolProblem} (h : outcome = .error problem) :
    Fault.ofPool problem = .nowhere (.pool problem) := by
  cases problem with
  | breach cause => exact absurd h (hguarded cause)
  | _ => rfl

end Pool

namespace Scan

open Stepwise

theorem stepwise_lift {α : Type} {outcome : Except PoolProblem α} (h : Pool.Guarded outcome) :
    Stepwise ReaderFault (ofExcept (Pool.lift outcome)) := by
  refine .ofExcept fun fault hfault ↦ ?_
  rcases houtcome : outcome with problem | value
  · rw [houtcome] at hfault
    cases hfault
    rw [Pool.ofPool_of_guarded h houtcome]
    show (Problem.pool problem).kind ∈ [FormatKind.classFormat, .truncatedData, .invalidPoolIndex,
      .unsupportedTag, .malformedDescriptor]
    simp [Problem.kind]
  · rw [houtcome] at hfault
    cases hfault

theorem stepwise_utf8 (pool : Pool) (index : Int) : Stepwise ReaderFault (utf8 pool index) :=
  stepwise_lift (pool.guarded_utf8 index)

theorem stepwise_className (pool : Pool) (index : Int) :
    Stepwise ReaderFault (className pool index) :=
  stepwise_lift (pool.guarded_className index)

theorem stepwise_className? (pool : Pool) (index : Nat) :
    Stepwise ReaderFault (className? pool index) := by
  unfold className?
  split
  · exact .pure none
  · exact (stepwise_className pool index).map some

theorem stepwise_descriptor {α : Type} {parse : Text → Except Descriptor.Failure α} {text : Text}
    (hguarded : Descriptor.Guarded (parse text)) :
    Stepwise ReaderFault (descriptor parse text) := by
  refine .ofExcept fun fault h ↦ ?_
  rcases hparse : parse text with failure | value
  · rw [hparse] at h
    cases h
    obtain ⟨problem, rfl⟩ := hguarded failure hparse
    show (Problem.descriptor text problem).kind ∈ _
    simp [Problem.kind]
  · rw [hparse] at h
    cases h

end Scan

open Scan (Stepwise)

/-- Every set bit of sixteen means something. -/
theorem Flags.forM_checkBit (flags : Flags) : flags.bits.forM checkBit = .ok () := by
  have hknown : ∀ index < 16, known.contains (Nat.pow 2 index) = true := by decide
  refine forM_eq_ok_iff.2 fun bit hbit ↦ ?_
  obtain ⟨index, hindex, rfl⟩ := List.mem_map.1 hbit
  have hlt : index < 16 := List.mem_range.1 (List.mem_filter.1 hindex).1
  rw [checkBit, if_pos (hknown index hlt)]

theorem Flags.stepwise_read : Stepwise ReaderFault Flags.read := by
  refine .bind (.unsigned 2) fun word ↦ .bind (.ofExcept fun fault h ↦ ?_) fun _ ↦ .pure _
  rw [forM_checkBit] at h
  cases h

/-! ### Constants -/

theorem Constant.stepwise_ofPayload (place : Int) (bytes : Bytes) :
    Stepwise ReaderFault (Constant.ofPayload place bytes) := by
  unfold ofPayload
  split
  · exact .pure _
  · rename_i failure hfailure
    obtain ⟨error, rfl⟩ := ModifiedUtf8.exists_error_of_decode hfailure
    exact .throw (by simp [ReaderFault, Fault.ofText, Problem.kind])

theorem Constant.stepwise_readBody (place : Int) (tag : Tag) :
    Stepwise ReaderFault (Constant.readBody place tag) := by
  cases tag with
  | utf8 =>
    exact .bind (.unsigned 2) fun length ↦ .bind (.take length) (stepwise_ofPayload place)
  | integer | long => exact .bind (.signed _) fun _ ↦ .pure _
  | float | double => exact .bind (.bind (.unsigned _) fun _ ↦ .pure _) fun _ ↦ .pure _
  | classRef | string | methodType | module | package =>
    exact .bind (.unsigned 2) fun _ ↦ .pure _
  | fieldRef | methodRef | interfaceMethodRef | nameAndType | dynamic | invokeDynamic =>
    exact .bind (.unsigned 2) fun _ ↦ .bind (.unsigned 2) fun _ ↦ .pure _
  | methodHandle =>
    rw [readBody_methodHandle]
    refine .bind (.unsigned 1) fun kind ↦ .bind (.unsigned 2) fun reference ↦ ?_
    split
    · exact .pure _
    · exact .fail (by simp [ReaderFault, Problem.kind])

theorem Constant.stepwise_read : Stepwise ReaderFault Constant.read := by
  refine .bind .place fun place ↦ .bind (.unsigned 1) fun code ↦ ?_
  unfold readRest
  split
  · exact .fail (by simp [ReaderFault, Problem.kind])
  · exact stepwise_readBody place _

namespace Pool

theorem stepwise_readEntry (verbose : Bool) (index : Nat) :
    Stepwise ReaderFault (readEntry verbose index) := by
  refine .bind Constant.stepwise_read fun constant ↦ ?_
  cases verbose with
  | true => exact .bind (.note _ _ _) fun _ ↦ .pure _
  | false => exact .pure _

theorem stepwise_readSlots (verbose : Bool) (left : Nat) (pool : Pool) :
    Stepwise ReaderFault (readSlots verbose left pool) := by
  induction left using Nat.strongRecOn generalizing pool with
  | ind left ih =>
    cases left with
    | zero => exact .pure _
    | succ left =>
      rw [readSlots]
      refine .bind (stepwise_readEntry verbose _) fun constant ↦ ?_
      split
      · -- a constant that takes two slots
        cases left with
        | zero => exact .throw (by simp [ReaderFault, Fault.nowhere, Problem.kind])
        | succ left => exact ih left (by omega) _
      · exact ih left (by omega) _

theorem stepwise_read (verbose : Bool) : Stepwise ReaderFault (Pool.read verbose) :=
  .bind (.unsigned 2) fun _ ↦ .bind (stepwise_readSlots verbose _ _) fun _ ↦
    .bind (Scan.stepwise_lift (guarded_check _)) fun _ ↦ .bind (.note _ _ _) fun _ ↦ .pure _

end Pool

/-! ### Attributes, code and members -/

theorem Attribute.stepwise_read (pool : Pool) : Stepwise ReaderFault (Attribute.read pool) :=
  .bind (.unsigned 2) fun _ ↦ .bind (Scan.stepwise_utf8 _ _) fun _ ↦ .bind (.unsigned 4) fun _ ↦
    .bind .place fun _ ↦ .bind (.take _) fun _ ↦ .pure _

theorem Attribute.stepwise_readAll (pool : Pool) :
    Stepwise ReaderFault (Attribute.readAll pool) :=
  (Attribute.stepwise_read pool).counted

theorem ExceptionHandler.stepwise_read (pool : Pool) :
    Stepwise ReaderFault (ExceptionHandler.read pool) :=
  .bind (.unsigned 2) fun _ ↦ .bind (.unsigned 2) fun _ ↦ .bind (.unsigned 2) fun _ ↦
    .bind (.unsigned 2) fun _ ↦ .bind (Scan.stepwise_className? pool _) fun _ ↦ .pure _

theorem Code.stepwise_readParts (pool : Pool) : Stepwise ReaderFault (Code.readParts pool) :=
  .bind (.unsigned 2) fun _ ↦ .bind (.unsigned 2) fun _ ↦ .bind (.unsigned 4) fun _ ↦
    .bind (.take _) fun _ ↦ .bind (ExceptionHandler.stepwise_read pool).counted fun _ ↦
      .bind (Attribute.stepwise_readAll pool) fun _ ↦ .pure _

theorem Field.stepwise_read (pool : Pool) : Stepwise ReaderFault (Field.read pool) := by
  refine .bind Flags.stepwise_read fun _ ↦ .bind (.unsigned 2) fun _ ↦
    .bind (Scan.stepwise_utf8 _ _) fun name ↦ .bind (.unsigned 2) fun _ ↦
    .bind (Scan.stepwise_utf8 _ _) fun _ ↦
    .bind (Scan.stepwise_descriptor (Descriptor.guarded_field _)) fun _ ↦
    .bind (Attribute.stepwise_readAll pool) fun attributes ↦ ?_
  split
  · exact .bind (.failHere fun _ ↦ by simp [ReaderFault, Problem.kind]) fun _ ↦ .pure _
  · exact .pure _

theorem Method.stepwise_readCode (pool : Pool) (name : Text) (found : Option Code)
    (attributes : List Attribute) :
    Stepwise ReaderFault (Method.readCode pool name found attributes) := by
  induction attributes generalizing found with
  | nil => exact .pure _
  | cons attr attributes ih =>
    rw [Method.readCode.eq_def]
    dsimp only
    split
    · cases found with
      | some code => exact .failHere fun _ ↦ by simp [ReaderFault, Problem.kind]
      | none =>
        exact .bind (.within _ _ _ (Code.stepwise_readParts pool)
          fun _ _ ↦ by simp [ReaderFault, Problem.kind]) fun _ ↦ ih _
    · exact ih _

theorem Method.stepwise_read (pool : Pool) : Stepwise ReaderFault (Method.read pool) :=
  .bind Flags.stepwise_read fun _ ↦ .bind (.unsigned 2) fun _ ↦
    .bind (Scan.stepwise_utf8 _ _) fun _ ↦ .bind (.unsigned 2) fun _ ↦
    .bind (Scan.stepwise_utf8 _ _) fun _ ↦
    .bind (Scan.stepwise_descriptor (Descriptor.guarded_method _)) fun _ ↦
    .bind (Attribute.stepwise_readAll pool) fun _ ↦
    .bind (Method.stepwise_readCode pool _ _ _) fun _ ↦ .pure _

/-! ### Class files -/

namespace ClassFile

theorem stepwise_readInterfaces (pool : Pool) :
    Stepwise ReaderFault (readInterfaces pool) :=
  .bind (Stepwise.counted (.bind (.unsigned 2) fun _ ↦ .bind (Scan.stepwise_className _ _) fun _ ↦
    .pure _)) fun _ ↦ .bind (.note _ _ _) fun _ ↦ .pure _

theorem stepwise_readFields (pool : Pool) : Stepwise ReaderFault (readFields pool) :=
  .bind (Field.stepwise_read pool).counted fun _ ↦ .bind (.note _ _ _) fun _ ↦ .pure _

theorem stepwise_readMethods (pool : Pool) : Stepwise ReaderFault (readMethods pool) :=
  .bind (Method.stepwise_read pool).counted fun _ ↦ .bind (.note _ _ _) fun _ ↦ .pure _

theorem stepwise_readPreamble (verbose : Bool) :
    Stepwise ReaderFault (readPreamble verbose) :=
  .bind (.unsigned 4) fun _ ↦ .bind (.note _ _ _) fun _ ↦ .bind (.unsigned 2) fun _ ↦
    .bind (.unsigned 2) fun _ ↦ .bind (.note _ _ _) fun _ ↦
    .bind (Pool.stepwise_read verbose) fun _ ↦ .pure _

theorem stepwise_readMembers (header : Header) : Stepwise ReaderFault (readMembers header) :=
  .bind Flags.stepwise_read fun _ ↦ .bind (.note _ _ _) fun _ ↦ .bind (.unsigned 2) fun _ ↦
    .bind (Scan.stepwise_className _ _) fun _ ↦ .bind (.unsigned 2) fun _ ↦
    .bind (Scan.stepwise_className? _ _) fun _ ↦ .bind (.note _ _ _) fun _ ↦
    .bind (stepwise_readInterfaces header.pool) fun _ ↦
    .bind (stepwise_readFields header.pool) fun _ ↦
    .bind (stepwise_readMethods header.pool) fun _ ↦
    .bind (Attribute.stepwise_readAll header.pool) fun _ ↦ .pure _

/-- Reads all parts of a class file in order. -/
def readParts (verbose : Bool) : Scan ClassFile := do
  readMembers (← readPreamble verbose)

theorem stepwise_readParts (verbose : Bool) : Stepwise ReaderFault (readParts verbose) :=
  .bind (stepwise_readPreamble verbose) stepwise_readMembers

/-- A class file is read by its parts, with a check before the first and one behind the last. -/
theorem read_eq (verbose : Bool) :
    read verbose = (do checkMagic; Scan.exhaust .extraBytes (readParts verbose)) := by
  simp only [read, readHeader, readBody, readParts, Scan.exhaust, bind_assoc]

/-- The check of the magic number looks at the data only. -/
theorem checkMagic_apply (s : Scan.State) :
    checkMagic s =
      if s.cursor.data.take 4 <+: magic then .ok () s
      else .error (.format (.badMagic (s.cursor.data.take 4)) (some 0)) s := by
  have hhead : (s.cursor.data.take 4).isPrefixOf magic = true ↔
      s.cursor.data.take 4 <+: magic := List.isPrefixOf_iff_prefix
  show (unless (s.cursor.data.take 4).isPrefixOf magic do
    Scan.fail (.badMagic (s.cursor.data.take 4)) 0 : Scan Unit) s = _
  by_cases h : (s.cursor.data.take 4).isPrefixOf magic = true
  · rw [if_pos (hhead.1 h), if_pos h]
    rfl
  · rw [if_neg fun hahead ↦ h (hhead.2 hahead), if_neg h]
    rfl

/-- Data that does not start like the magic number is refused. -/
theorem run_read_of_badMagic {data : Bytes} (h : ¬ data.take 4 <+: magic) (verbose : Bool)
    (log : Log) :
    Scan.run (read verbose) ⟨.start data 0, log⟩ =
      (.error (.format (.badMagic (data.take 4)) (some 0)), .start data 0) := by
  have hcheck := (checkMagic_apply ⟨.start data 0, log⟩).trans (if_neg h)
  rw [read_eq]
  exact Scan.run_bind_of_error (Scan.run_eq_error_iff.2 ⟨log, hcheck⟩) _

/-- Data that starts like the magic number is read by its parts. -/
theorem run_read_of_magic {data : Bytes} (h : data.take 4 <+: magic) (verbose : Bool)
    (log : Log) :
    Scan.run (read verbose) ⟨.start data 0, log⟩ =
      Scan.run (Scan.exhaust .extraBytes (readParts verbose)) ⟨.start data 0, log⟩ := by
  have hcheck := (checkMagic_apply ⟨.start data 0, log⟩).trans (if_pos h)
  rw [read_eq]
  simp only [Scan.run, bind, EStateM.bind, hcheck]

end ClassFile

end ClassInspect
