import ClassInspect.Proofs.ClassFile.Format
import ClassInspect.Proofs.ClassFile.Boundary

/-!
# The reader accepts exactly the class file format

A byte string is accepted if it is a well-formed description, written down, and then what is
returned is the one class that the description means (`ClassFile.parse_exact`).

## What the theorem rests on

* The parts of the file are put together from their formats. Flags, names and lists follow each
  other (`ClassFile.reads_readMembers`), and the preamble comes before them
  (`ClassFile.reads_readParts`). That the file ends there is what reading the whole input adds.
* Offsets in the class that is returned are places in the file. A description that is written down
  puts its lists behind what was written before, the reader behind what was read before;
  `ClassFile.place_fields`, `ClassFile.place_methods` and `ClassFile.place_attributes` say that
  these are the same.
* Two things happen only for the file as a whole (`ClassFile.outcome_eq_ok_iff`). The magic number,
  which is read as any four bytes, is known from the check before. And a pool without constants,
  which can also be announced by the number zero, is ruled out, since the name of the class must be
  found in the pool.
* A description means a class by a relation, because the code of a method is given by what it looks
  like written down. That there is such a class is proved part by part (`ClassFile.exists_denotes`).
  That there is only one needs no such proof: the reader returns each of them, and it returns one.
-/

namespace ClassInspect

open Scan (Reads Decodes placed writeCounted DenoteAll)

namespace ClassFile

theorem decodes_readFields (pool : RawPool) :
    Decodes (readFields pool.denote)
      (fun fields ↦ fields.length < 2 ^ 16 ∧ ∀ m ∈ fields, RawMember.IsField pool m)
      (writeCounted RawMember.write) fun place ↦
        DenoteAll RawMember.write (RawMember.DenotesField pool) (place + 2) :=
  (Field.decodes_read pool).counted.noted _ _ _

/-- The fields start behind the names of the class. -/
theorem place_fields (m : Mark) (d : RawClass) :
    ((((m.after (Bytes.ofU16 d.flags).length).after (Bytes.ofU16 d.thisIndex).length).after
      (Bytes.ofU16 d.superIndex).length).after
      (writeCounted Bytes.ofU16 d.interfaces).length).place = m.place + d.identity.length := by
  simp [RawClass.identity]
  omega

theorem place_methods (place : Int) (d : RawClass) :
    place + d.identity.length + (writeCounted RawMember.write d.fields).length =
      place + d.untilMethods.length := by
  rw [RawClass.untilMethods, List.length_append]
  omega

theorem place_attributes (place : Int) (d : RawClass) :
    place + d.untilMethods.length + (writeCounted RawMember.write d.methods).length =
      place + d.untilAttributes.length := by
  rw [RawClass.untilAttributes, List.length_append]
  omega

section

variable {pool : RawPool} (hpool : pool.WellFormed)

include hpool

theorem decodes_readInterfaces :
    Decodes (readInterfaces pool.denote)
      (fun indices ↦ indices.length < 2 ^ 16 ∧ ∀ index ∈ indices, pool.Holds index [.classRef])
      (writeCounted Bytes.ofU16) fun _ indices names ↦
        names = indices.map fun index ↦ displayName (pool.className index) := by
  have hname : Decodes (do return displayName (← Scan.className pool.denote (← Scan.u16)))
      (fun index ↦ pool.Holds index [.classRef]) Bytes.ofU16
      fun _ index name ↦ name = displayName (pool.className index) := by
    refine (Scan.decodes_u16.andThen fun _ index _ ↦
      (RawPool.reads_className hpool index).stillThen fun name ↦ .pure _).congr
      fun _ bytes name ↦ ?_
    constructor
    · rintro ⟨index, _, -, rfl, _, ⟨hholds, rfl⟩, rfl, rfl⟩
      exact ⟨index, hholds, List.append_nil _, rfl⟩
    · rintro ⟨index, hholds, rfl, rfl⟩
      exact ⟨index, [], trivial, (List.append_nil _).symm, _, ⟨hholds, rfl⟩, rfl, rfl⟩
  exact hname.counted_map.noted _ _ _

theorem decodes_readMethods :
    Decodes (readMethods pool.denote)
      (fun methods ↦ methods.length < 2 ^ 16 ∧ ∀ m ∈ methods, RawMember.IsMethod pool m)
      (writeCounted RawMember.write) fun place ↦
        DenoteAll RawMember.write (RawMember.DenotesMethod pool) (place + 2) :=
  (Method.decodes_read hpool).counted.noted _ _ _

/-- What stands behind the constants. -/
theorem reads_readMembers (minor major : UInt16) :
    Reads (readMembers ⟨minor.toNat, major.toNat, pool.denote⟩) fun m bytes file ↦
      ∃ d : RawClass, (d.minorVersion = minor ∧ d.majorVersion = major ∧ d.constants = pool) ∧
        d.WellFormed ∧ bytes = d.body ∧ d.DenotesAt m.place file := by
  refine (Flags.decodes_read.andThen fun _ flags _ ↦ .noteThen <|
    Scan.decodes_u16.andThen fun _ thisIndex _ ↦
    (RawPool.reads_className hpool thisIndex).stillThen fun thisClass ↦
    Scan.decodes_u16.andThen fun _ superIndex _ ↦
    (RawPool.reads_className? hpool superIndex).stillThen fun superClass ↦ .noteThen <|
    (decodes_readInterfaces hpool).andThen fun _ interfaces _ ↦
    (decodes_readFields pool).bind fun fields ↦ (decodes_readMethods hpool).bind fun methods ↦
    (Attribute.decodes_readAll pool).bind fun attributes ↦ .pure _).congr fun m bytes file ↦ ?_
  constructor
  · rintro ⟨flags, _, -, rfl, h⟩
    obtain ⟨thisIndex, _, -, rfl, _, ⟨hthis, rfl⟩, h⟩ := h
    obtain ⟨superIndex, _, -, rfl, _, ⟨hsuper, rfl⟩, h⟩ := h
    obtain ⟨interfaces, _, hinterfaces, rfl, h⟩ := h
    obtain ⟨_, _, _, rfl, ⟨fields, hfields, rfl, hfields'⟩, h⟩ := h
    obtain ⟨_, _, _, rfl, ⟨methods, hmethods, rfl, hmethods'⟩, h⟩ := h
    obtain ⟨_, _, _, rfl, ⟨attributes, hattributes, rfl, rfl⟩, rfl, rfl⟩ := h
    let d : RawClass := ⟨minor, major, pool, flags, thisIndex, superIndex, interfaces, fields,
      methods, attributes⟩
    have hplace := place_fields m d
    -- only the places of the three lists are left to compare
    refine ⟨d, ⟨rfl, rfl, rfl⟩,
      ⟨hpool, hthis, hsuper, hinterfaces, hfields, hmethods, hattributes⟩, ?_,
      ⟨rfl, rfl, rfl, rfl, rfl, rfl, rfl, ?_, ?_, ?_⟩⟩
    · simp [d, RawClass.body, RawClass.untilAttributes, RawClass.untilMethods, RawClass.identity]
    · rw [← hplace]
      exact hfields'
    · rw [← place_methods, ← hplace, ← Mark.place_after]
      exact hmethods'
    · rw [← place_attributes, ← place_methods, ← hplace, ← Mark.place_after, ← Mark.place_after]
  · rintro ⟨d, ⟨rfl, rfl, rfl⟩, hd, rfl, hdenotes⟩
    obtain ⟨_, _, _, _, _, _, _, fields, methods, _⟩ := file
    obtain ⟨rfl, rfl, rfl, rfl, rfl, rfl, rfl, hfields, hmethods, rfl⟩ := hdenotes
    have hplace := place_fields m d
    refine ⟨d.flags, _, trivial, ?_, d.thisIndex, _, trivial, rfl, _, ⟨hd.thisClass, rfl⟩,
      d.superIndex, _, trivial, rfl, _, ⟨hd.superClass, rfl⟩, d.interfaces, _, hd.interfaces, rfl,
      _, _, fields, rfl, ⟨d.fields, hd.fields, rfl, ?_⟩, _, _, methods, rfl,
      ⟨d.methods, hd.methods, rfl, ?_⟩, _, [], _, (List.append_nil _).symm,
      ⟨d.attributes, hd.attributes, rfl, rfl⟩, rfl, ?_⟩
    · simp [RawClass.body, RawClass.untilAttributes, RawClass.untilMethods, RawClass.identity]
    · rw [hplace]
      exact hfields
    · rw [Mark.place_after, hplace, place_methods]
      exact hmethods
    · rw [Mark.place_after, Mark.place_after, hplace, place_methods, place_attributes]

end

/-! ### The whole file -/

/-- What stands before the flags of a class as it is read: any four bytes for the magic number, and
the constants in one of their written forms. -/
structure RawPreamble where
  number : Nat
  minorVersion : UInt16
  majorVersion : UInt16
  constants : RawPool
  written : Bytes

namespace RawPreamble

def WellFormed (p : RawPreamble) : Prop :=
  p.number < 256 ^ 4 ∧ p.constants.WellFormed ∧
    (p.written = p.constants.write ∨ p.constants = [] ∧ p.written = .ofNat 2 0)

def write (p : RawPreamble) : Bytes :=
  .ofNat 4 p.number ++ .ofU16 p.minorVersion ++ .ofU16 p.majorVersion ++ p.written

def denote (p : RawPreamble) : Header :=
  ⟨p.minorVersion.toNat, p.majorVersion.toNat, p.constants.denote⟩

end RawPreamble

theorem decodes_readPreamble (verbose : Bool) :
    Decodes (readPreamble verbose) RawPreamble.WellFormed RawPreamble.write
      fun _ p header ↦ header = p.denote := by
  refine ((Reads.unsigned 4).bind fun number ↦ .noteThen <|
    Scan.decodes_u16.andThen fun _ minor _ ↦ Scan.decodes_u16.andThen fun _ major _ ↦ .noteThen <|
    (Pool.reads_read verbose).bind fun pool ↦ .pure _).congr fun m bytes header ↦ ?_
  constructor
  · rintro ⟨_, _, number, rfl, ⟨hnumber, rfl⟩, minor, _, -, rfl, major, _, -, rfl, written, _, _,
      rfl, ⟨pool, hpool, rfl, hwritten⟩, rfl, rfl⟩
    exact ⟨⟨number, minor, major, pool, written⟩, ⟨hnumber, hpool, hwritten⟩,
      by simp [RawPreamble.write], rfl⟩
  · rintro ⟨⟨number, minor, major, pool, written⟩, ⟨hnumber, hpool, hwritten⟩, rfl, rfl⟩
    exact ⟨.ofNat 4 number, _, number, by simp [RawPreamble.write], ⟨hnumber, rfl⟩, minor, _,
      trivial, rfl, major, _, trivial, rfl, written, [], _, (List.append_nil _).symm,
      ⟨pool, hpool, rfl, hwritten⟩, rfl, rfl⟩

/-- All parts of a file, but for the magic number. -/
theorem reads_readParts (verbose : Bool) :
    Reads (readParts verbose) fun m bytes file ↦ ∃ (p : RawPreamble) (d : RawClass),
      p.WellFormed ∧ (d.minorVersion = p.minorVersion ∧ d.majorVersion = p.majorVersion ∧
        d.constants = p.constants) ∧ d.WellFormed ∧ bytes = p.write ++ d.body ∧
        d.DenotesAt (m.place + p.write.length) file := by
  refine ((decodes_readPreamble verbose).andThen fun _ p hp ↦
    reads_readMembers hp.2.1 p.minorVersion p.majorVersion).congr fun m bytes file ↦ ?_
  constructor
  · rintro ⟨p, _, hp, rfl, d, hparts, hd, rfl, hdenotes⟩
    rw [Mark.place_after] at hdenotes
    exact ⟨p, d, hp, hparts, hd, rfl, hdenotes⟩
  · rintro ⟨p, d, hp, hparts, hd, rfl, hdenotes⟩
    rw [← Mark.place_after] at hdenotes
    exact ⟨p, d.body, hp, rfl, d, hparts, hd, rfl, hdenotes⟩

/-- A class has a name, so there are constants. -/
theorem constants_ne_nil {d : RawClass} (h : d.WellFormed) : d.constants ≠ [] := by
  intro hnil
  obtain ⟨constant, hfound, -⟩ := h.thisClass
  have hmem := RawPool.mem_of_at? hfound
  rw [hnil] at hmem
  cases hmem

/-- The magic number as it is read. -/
def magicNumber : Nat := 0xCAFEBABE

theorem ofNat_magicNumber : Bytes.ofNat 4 magicNumber = magic := by
  decide

/-- What is written starts with the magic number. -/
theorem take_serialize (d : RawClass) : d.serialize.take 4 = magic := by
  simp only [RawClass.serialize, RawClass.preamble, List.append_assoc]
  exact List.take_left' rfl

/-- What is read is what some description of the file means. -/
theorem outcome_eq_ok_iff (data : Bytes) (verbose : Bool) (file : ClassFile) :
    (parse data verbose).outcome.1 = .ok file ↔
      ∃ d : RawClass, d.WellFormed ∧ d.serialize = data ∧ d.Denotes file := by
  rw [outcome_parse]
  by_cases hmagic : data.take 4 <+: magic
  · rw [run_read_of_magic hmagic, (reads_readParts verbose).outcome_exhaust, Cursor.mark_start,
      Mark.place_start, Cursor.rest_start]
    constructor
    · rintro ⟨p, d, ⟨-, -, hwritten⟩, ⟨hminor, hmajor, hconstants⟩, hd, rfl, hdenotes⟩
      -- the number was read as any four bytes, but they were checked
      have hnumber : Bytes.ofNat 4 p.number = magic := by
        simp only [RawPreamble.write, List.append_assoc] at hmagic
        rw [List.take_left' (Bytes.length_ofNat 4 p.number)] at hmagic
        exact hmagic.eq_of_length (Bytes.length_ofNat 4 p.number)
      -- without constants the class would have no name
      have hwritten : p.written = d.constants.write := by
        rcases hwritten with hwritten | ⟨hnil, -⟩
        · rw [hwritten, hconstants]
        · exact absurd (hconstants.trans hnil) (constants_ne_nil hd)
      have hpreamble : p.write = d.preamble := by
        rw [RawPreamble.write, RawClass.preamble, hnumber, hwritten, hminor, hmajor]
      rw [hpreamble] at hdenotes ⊢
      rw [Int.zero_add] at hdenotes
      exact ⟨d, hd, rfl, hdenotes⟩
    · rintro ⟨d, hd, rfl, hdenotes⟩
      let p : RawPreamble :=
        ⟨magicNumber, d.minorVersion, d.majorVersion, d.constants, d.constants.write⟩
      have hpreamble : p.write = d.preamble := by
        rw [RawPreamble.write, RawClass.preamble, ofNat_magicNumber]
      have hnumber : magicNumber < 256 ^ 4 := by decide
      refine ⟨p, d, ⟨hnumber, hd.constants, .inl rfl⟩, ⟨rfl, rfl, rfl⟩, hd, ?_, ?_⟩
      · rw [hpreamble, RawClass.serialize]
      · rw [hpreamble, Int.zero_add]
        exact hdenotes
  · rw [run_read_of_badMagic hmagic]
    constructor
    · intro h
      cases h
    · rintro ⟨d, -, rfl, -⟩
      rw [take_serialize] at hmagic
      exact absurd (List.prefix_refl magic) hmagic

/-! ### Every description means a class -/

/-- If every item means something wherever it stands, so does a list of items. -/
theorem exists_denoteAll {δ α : Type} (write : δ → Bytes) {denotes : Int → δ → α → Prop}
    {items : List δ} (h : ∀ item ∈ items, ∀ place, ∃ value, denotes place item value)
    (place : Int) : ∃ values, DenoteAll write denotes place items values := by
  induction items generalizing place with
  | nil => exact ⟨[], .nil⟩
  | cons item items ih =>
    obtain ⟨hitem, hitems⟩ := List.forall_mem_cons.1 h
    obtain ⟨value, hvalue⟩ := hitem place
    obtain ⟨values, hvalues⟩ := ih hitems (place + (write item).length)
    exact ⟨value :: values, .cons hvalue hvalues⟩

theorem exists_denotesField {pool : RawPool} {m : RawMember} (h : m.IsField pool) (place : Int) :
    ∃ field, m.DenotesField pool place field := by
  obtain ⟨type, htype⟩ := h.type
  exact ⟨⟨_, _, _, type, _⟩, rfl, rfl, rfl, htype, rfl⟩

theorem exists_denotesMethod {pool : RawPool} {m : RawMember} (h : m.IsMethod pool) (place : Int) :
    ∃ method, m.DenotesMethod pool place method := by
  obtain ⟨type, htype⟩ := h.type
  -- the code is that of any attribute for it, and there is at most one
  by_cases hcode : ∃ a ∈ m.attributes, a.isCode pool = true
  · obtain ⟨a, ha, hisCode⟩ := hcode
    obtain ⟨raw, hraw, hwrite⟩ := h.code a ha hisCode
    obtain ⟨place', hmem⟩ := RawAttribute.exists_mem_denoteAll pool (place + 8) ha
    exact ⟨⟨_, _, _, type, _, some _⟩, rfl, rfl, rfl, htype, rfl, _, hmem,
      RawAttribute.isCode_iff.1 hisCode, raw, hraw, hwrite, rfl⟩
  · refine ⟨⟨_, _, _, type, _, none⟩, rfl, rfl, rfl, htype, rfl, fun attr hattr hname ↦ ?_⟩
    obtain ⟨a, ha, place', rfl⟩ := RawAttribute.mem_denoteAll hattr
    exact hcode ⟨a, ha, RawAttribute.isCode_iff.2 hname⟩

theorem exists_denotes {d : RawClass} (h : d.WellFormed) : ∃ file, d.Denotes file := by
  obtain ⟨fields, hfields⟩ := exists_denoteAll RawMember.write
    (fun m hm ↦ exists_denotesField (h.fields.2 m hm)) (d.preamble.length + d.identity.length + 2)
  obtain ⟨methods, hmethods⟩ := exists_denoteAll RawMember.write
    (fun m hm ↦ exists_denotesMethod (h.methods.2 m hm))
    (d.preamble.length + d.untilMethods.length + 2)
  exact ⟨⟨_, _, _, _, _, _, _, fields, methods, _⟩, rfl, rfl, rfl, rfl, rfl, rfl, rfl, hfields,
    hmethods, rfl⟩

/-- The reader accepts exactly the class file format: the byte strings that are well-formed
descriptions written down. Each of them means one class, and this class is returned. -/
theorem parse_exact (verbose : Bool) :
    (∀ data : Bytes, (∃ file, (parse data verbose).outcome.1 = .ok file) ↔
      ∃ d : RawClass, d.WellFormed ∧ d.serialize = data) ∧
    (∀ d : RawClass, d.WellFormed → ∃ file,
      (parse d.serialize verbose).outcome.1 = .ok file ∧
        ∀ file', d.Denotes file' ↔ file' = file) := by
  have haccepts (d : RawClass) (hd : d.WellFormed) (file : ClassFile) (hfile : d.Denotes file) :
      (parse d.serialize verbose).outcome.1 = .ok file :=
    (outcome_eq_ok_iff _ _ _).2 ⟨d, hd, rfl, hfile⟩
  refine ⟨fun data ↦ ⟨?_, ?_⟩, fun d hd ↦ ?_⟩
  · rintro ⟨file, hfile⟩
    obtain ⟨d, hd, hdata, -⟩ := (outcome_eq_ok_iff _ _ _).1 hfile
    exact ⟨d, hd, hdata⟩
  · rintro ⟨d, hd, rfl⟩
    obtain ⟨file, hfile⟩ := exists_denotes hd
    exact ⟨file, haccepts d hd file hfile⟩
  · obtain ⟨file, hfile⟩ := exists_denotes hd
    -- another class that is meant is returned as well, so it is the same
    refine ⟨file, haccepts d hd file hfile, fun file' ↦ ⟨fun hfile' ↦ ?_, fun h ↦ h ▸ hfile⟩⟩
    have hsame := (haccepts d hd file' hfile').symm.trans (haccepts d hd file hfile)
    exact Except.ok.inj hsame

/-- The description of `sample`. -/
def sampleClass : RawClass where
  minorVersion := 0
  majorVersion := 52
  constants := [.utf8 [0x41], .classRef 1, .utf8 [0x43, 0x6F, 0x64, 0x65], .utf8 [0x6D],
    .utf8 [0x28, 0x29, 0x56], .long 1]
  flags := 0x21
  thisIndex := 2
  superIndex := 0
  interfaces := []
  fields := []
  methods := [⟨1, 4, 5, [⟨3, [0, 0, 0, 1, 0, 0, 0, 1, 0xB1, 0, 0, 0, 0]⟩]⟩]
  attributes := []

theorem wellFormed_sampleClass : sampleClass.WellFormed := by
  have hname : sampleClass.constants.Holds 1 [.utf8] := ⟨.utf8 [0x41], by decide, by decide⟩
  have hcode : sampleClass.constants.Holds 3 [.utf8] :=
    ⟨.utf8 [0x43, 0x6F, 0x64, 0x65], by decide, by decide⟩
  refine ⟨⟨by decide, ?_, ?_⟩, ⟨.classRef 1, by decide, by decide⟩, .inl rfl,
    ⟨by decide, by simp [sampleClass]⟩, ⟨by decide, by simp [sampleClass]⟩, ⟨by decide, ?_⟩,
    ⟨by decide, by simp [sampleClass]⟩⟩
  · simp only [sampleClass, List.forall_mem_cons]
    exact ⟨⟨by decide, exists_eq_ok (by decide +kernel)⟩, trivial,
      ⟨by decide, exists_eq_ok (by decide +kernel)⟩, ⟨by decide, exists_eq_ok (by decide +kernel)⟩,
      ⟨by decide, exists_eq_ok (by decide +kernel)⟩, ⟨by decide, by decide⟩, by simp⟩
  · rintro constant hconstant reference hreference
    -- the class is the only constant that refers to another
    have hreference : reference = (1, [.utf8]) := by
      simp only [sampleClass, List.mem_cons, List.not_mem_nil, or_false] at hconstant
      rcases hconstant with rfl | rfl | rfl | rfl | rfl | rfl <;>
        simp_all [RawConstant.references]
    rw [hreference]
    exact hname
  · simp only [sampleClass, List.forall_mem_cons]
    refine ⟨⟨⟨.utf8 [0x6D], by decide, by decide⟩, ⟨.utf8 [0x28, 0x29, 0x56], by decide, by decide⟩,
      exists_eq_ok (by decide +kernel), ⟨by decide, ?_⟩, by decide +kernel, ?_⟩, by simp⟩
    · simp only [List.forall_mem_cons]
      exact ⟨⟨hcode, by decide⟩, by simp⟩
    · simp only [List.forall_mem_cons]
      refine ⟨fun _ ↦ ⟨⟨0, 1, [0xB1], [], []⟩, ⟨by decide, ⟨by decide, by simp⟩,
        ⟨by decide, by simp⟩⟩, by decide⟩, by simp⟩

/-- The sample is accepted as what its description means. -/
theorem parse_exact_sample :
    sampleClass.WellFormed ∧ sampleClass.serialize = sample ∧
      ∃ file, (parse sample false).outcome.1 = .ok file ∧ sampleClass.Denotes file := by
  have hwrite : sampleClass.serialize = sample := by decide
  obtain ⟨file, hfile, hdenotes⟩ := (parse_exact false).2 sampleClass wellFormed_sampleClass
  rw [hwrite] at hfile
  exact ⟨wellFormed_sampleClass, hwrite, file, hfile, (hdenotes file).2 rfl⟩

end ClassFile

end ClassInspect
