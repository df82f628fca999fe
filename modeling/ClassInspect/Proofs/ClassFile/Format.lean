import ClassInspect.Proofs.Pool.Format
import ClassInspect.Proofs.ClassFile.Stepwise

/-!
# The formats of the parts of a class file

Over a well-formed pool, each reader of a part accepts exactly the well-formed descriptions of it,
written down, and returns what they denote at the place they stand at. The pool that the readers
follow indices in is the one that the description of the pool denotes.

## What each part rests on

* An index is followed without reading any bytes, and succeeds if the description of the pool holds
  a constant of the right kind there (`RawPool.reads_utf8`, `RawPool.reads_className`). These two
  are all that the readers of parts know about the pool. The name of a class is found in two steps,
  and it is for the second that the pool has to be well-formed.
* Attributes, handlers and code are made of numbers, payloads and lists of each other. Their formats
  are those of their components, put together; what is left to prove is that the components stand
  at the places where their description puts them.
* Code is read by a scan of its own over the bytes of its attribute. Among the attributes of a
  method it is found by going through them (`Method.reads_readCode`, by induction on the
  attributes), which also is where a second one is refused. Once the code has been found only a
  failure can follow (`Method.reads_readCode_some`), so the induction needs no case for it.
* A field refuses code where a method looks for it. Both conditions are on attributes as they were
  read, and those of a description on attributes as they are written.
  `RawAttribute.mem_denoteAll`, `RawAttribute.exists_mem_denoteAll` and
  `RawAttribute.length_filter_denoteAll` go from one to the other.
-/

namespace ClassInspect

open Scan (Reads Decodes placed writeCounted DenoteAll)

/-! ### Indices that are followed -/

namespace RawPool

variable {pool : RawPool}

/-- Following an index to a text. -/
theorem reads_utf8 (pool : RawPool) (index : UInt16) :
    Reads (Scan.utf8 pool.denote index.toNat) fun _ bytes text ↦
      bytes = [] ∧ pool.Holds index [.utf8] ∧ text = pool.text index := by
  refine (Reads.ofExcept _).congr fun _ bytes text ↦ ?_
  rw [Pool.lift, mapError_eq_ok_iff, utf8_denote]

/-- Following an index to the name of a class. -/
theorem reads_className (hpool : pool.WellFormed) (index : UInt16) :
    Reads (Scan.className pool.denote index.toNat) fun _ bytes text ↦
      bytes = [] ∧ pool.Holds index [.classRef] ∧ text = pool.className index := by
  refine (Reads.ofExcept _).congr fun _ bytes text ↦ ?_
  rw [Pool.lift, mapError_eq_ok_iff, className_denote hpool]

/-- Following an index that may be zero. -/
theorem reads_className? (hpool : pool.WellFormed) (index : UInt16) :
    Reads (Scan.className? pool.denote index.toNat) fun _ bytes text ↦
      bytes = [] ∧ (index = 0 ∨ pool.Holds index [.classRef]) ∧ text = pool.className? index := by
  have hzero : index.toNat = 0 ↔ index = 0 := by
    rw [← UInt16.toNat_inj]
    rfl
  unfold Scan.className? RawPool.className?
  by_cases h : index = 0
  · rw [if_pos (hzero.2 h)]
    exact (Reads.pure none).congr fun _ _ _ ↦ by simp [h]
  · rw [if_neg fun h' ↦ h (hzero.1 h')]
    refine ((reads_className hpool index).map some).congr fun _ bytes text ↦ ?_
    constructor
    · rintro ⟨_, ⟨rfl, hholds, rfl⟩, rfl⟩
      exact ⟨rfl, .inr hholds, by rw [if_neg h]⟩
    · rintro ⟨rfl, hzero | hholds, rfl⟩
      · exact absurd hzero h
      · exact ⟨_, ⟨rfl, hholds, rfl⟩, by rw [if_neg h]⟩

end RawPool

/-- The type that a descriptor denotes. -/
theorem Scan.reads_descriptor {α : Type} (parse : Text → Except Descriptor.Failure α)
    (text : Text) :
    Reads (Scan.descriptor parse text) fun _ bytes type ↦
      bytes = [] ∧ parse text = .ok type := by
  refine (Reads.ofExcept _).congr fun _ bytes type ↦ ?_
  rw [mapError_eq_ok_iff]

/-- Access flags can be any two bytes. -/
theorem Flags.decodes_read :
    Decodes Flags.read (fun _ : UInt16 ↦ True) .ofU16 fun _ word flags ↦ flags = ⟨word⟩ := by
  refine (Scan.decodes_u16.andThen fun _ word _ ↦
    (Reads.ofExcept _).stillThen fun _ ↦ .pure _).congr fun _ bytes flags ↦ ?_
  constructor
  · rintro ⟨word, _, -, rfl, -, -, rfl, rfl⟩
    exact ⟨word, trivial, List.append_nil _, by rw [UInt16.ofNat_toNat]⟩
  · rintro ⟨word, -, rfl, rfl⟩
    exact ⟨word, [], trivial, (List.append_nil _).symm, (), forM_checkBit _, rfl,
      by rw [UInt16.ofNat_toNat]⟩

/-! ### Attributes and code -/

section

variable {pool : RawPool} (hpool : pool.WellFormed)

/-- An attribute is read from the index of its name, the length of its payload, and the payload. -/
theorem Attribute.decodes_read (pool : RawPool) :
    Decodes (Attribute.read pool.denote) (RawAttribute.WellFormed pool) RawAttribute.write
      fun place a value ↦ value = a.denote pool place := by
  refine (Scan.decodes_u16.andThen fun _ index _ ↦ (pool.reads_utf8 index).stillThen fun name ↦
    (Reads.unsigned 4).bind fun length ↦ Reads.place.stillThen fun offset ↦
    (Reads.take length).bind fun data ↦ .pure _).congr fun m bytes value ↦ ?_
  constructor
  · rintro ⟨index, _, -, rfl, _, ⟨hholds, rfl⟩, _, _, _, rfl, ⟨hlength, rfl⟩, _, rfl, _, _, payload,
      rfl, ⟨rfl, rfl⟩, rfl, rfl⟩
    exact ⟨⟨index, payload⟩, ⟨hholds, hlength⟩, by simp [RawAttribute.write],
      by simp [RawAttribute.denote]⟩
  · rintro ⟨⟨index, payload⟩, ⟨hholds, hlength⟩, rfl, rfl⟩
    exact ⟨index, .ofNat 4 payload.length ++ payload, trivial, by simp [RawAttribute.write], _,
      ⟨hholds, rfl⟩, _, payload, payload.length, rfl, ⟨hlength, rfl⟩, _, rfl, payload, [], payload,
      by simp, ⟨rfl, rfl⟩, rfl, by simp [RawAttribute.denote]⟩

/-- So is a list of attributes, each of which stands behind those before it. -/
theorem Attribute.decodes_readAll (pool : RawPool) :
    Decodes (Attribute.readAll pool.denote) (RawAttribute.AllWellFormed pool)
      (writeCounted RawAttribute.write)
      fun place attributes values ↦
        values = RawAttribute.denoteAll pool (place + 2) attributes := by
  refine (Attribute.decodes_read pool).counted.congr fun m bytes values ↦ ?_
  simp only [Scan.denoteAll_iff_eq_map]
  rfl

include hpool in
/-- A handler is four numbers, the last of which leads to the class that is caught, or nowhere. -/
theorem ExceptionHandler.decodes_read :
    Decodes (ExceptionHandler.read pool.denote) (RawHandler.WellFormed pool) RawHandler.write
      fun _ h value ↦ value = h.denote pool := by
  refine (Scan.decodes_u16.andThen fun _ start _ ↦ Scan.decodes_u16.andThen fun _ stop _ ↦
    Scan.decodes_u16.andThen fun _ target _ ↦ Scan.decodes_u16.andThen fun _ catchIndex _ ↦
    (RawPool.reads_className? hpool catchIndex).stillThen fun catchType ↦ .pure _).congr
    fun _ bytes value ↦ ?_
  constructor
  · rintro ⟨start, _, -, rfl, stop, _, -, rfl, target, _, -, rfl, catchIndex, _, -, rfl, _,
      ⟨hcatch, rfl⟩, rfl, rfl⟩
    exact ⟨⟨start, stop, target, catchIndex⟩, hcatch, by simp [RawHandler.write], rfl⟩
  · rintro ⟨⟨start, stop, target, catchIndex⟩, hcatch, rfl, rfl⟩
    exact ⟨start, _, trivial, by simp [RawHandler.write], stop, _, trivial, rfl, target, _, trivial,
      rfl, catchIndex, [], trivial, rfl, _, ⟨hcatch, rfl⟩, rfl, rfl⟩

include hpool in
/-- Code is two numbers, the instructions, the handlers and the attributes. Only the attributes
depend on where they stand. -/
theorem Code.decodes_readParts :
    Decodes (Code.readParts pool.denote) (RawCode.WellFormed pool) RawCode.write
      fun place c value ↦ value = c.denote pool place := by
  have hhandlers := (ExceptionHandler.decodes_read hpool).counted_map
  -- where the attributes of the code start
  have hplace (m : Mark) (c : RawCode) :
      (((((m.after (Bytes.ofU16 c.maxStack).length).after (Bytes.ofU16 c.maxLocals).length).after
        (Bytes.ofNat 4 c.code.length).length).after c.code.length).after
        (writeCounted RawHandler.write c.handlers).length).place = m.place + c.front.length := by
    simp [RawCode.front]
    omega
  refine (Scan.decodes_u16.andThen fun _ maxStack _ ↦ Scan.decodes_u16.andThen fun _ maxLocals _ ↦
    (Reads.unsigned 4).bind fun length ↦ (Reads.take length).bind fun code ↦
    hhandlers.andThen fun _ handlers _ ↦ (Attribute.decodes_readAll pool).bind
    fun attributes ↦ .pure _).congr fun m bytes value ↦ ?_
  constructor
  · rintro ⟨maxStack, _, -, rfl, maxLocals, _, -, rfl, h⟩
    obtain ⟨_, _, _, rfl, ⟨hlength, rfl⟩, _, _, code, rfl, ⟨rfl, rfl⟩, h⟩ := h
    obtain ⟨handlers, _, hhandlers, rfl, h⟩ := h
    obtain ⟨_, _, _, rfl, ⟨attributes, hattributes, rfl, rfl⟩, rfl, rfl⟩ := h
    refine ⟨⟨maxStack, maxLocals, code, handlers, attributes⟩, ⟨hlength, hhandlers, hattributes⟩,
      by simp [RawCode.write, RawCode.front], ?_⟩
    simp only [RawCode.denote, ← hplace]
  · rintro ⟨⟨maxStack, maxLocals, code, handlers, attributes⟩, ⟨hlength, hhandlers, hattributes⟩,
      rfl, rfl⟩
    refine ⟨maxStack, _, trivial, by simp [RawCode.write, RawCode.front], maxLocals, _, trivial,
      rfl, _, _, code.length, rfl, ⟨hlength, rfl⟩, code, _, code, rfl, ⟨rfl, rfl⟩, handlers, _,
      hhandlers, rfl, _, [], _, (List.append_nil _).symm, ⟨attributes, hattributes, rfl, rfl⟩, rfl,
      ?_⟩
    simp only [RawCode.denote, ← hplace]

/-! ### Fields and methods -/

namespace RawAttribute

/-- The attributes that are meant are those of the list, each at some place. -/
theorem mem_denoteAll {place : Int} {attributes : List RawAttribute} {attr : Attribute} :
    attr ∈ denoteAll pool place attributes →
      ∃ a ∈ attributes, ∃ place, attr = a.denote pool place := by
  intro h
  obtain ⟨⟨place, a⟩, hplaced, rfl⟩ := List.mem_map.1 h
  refine ⟨a, ?_, place, rfl⟩
  rw [← Scan.map_snd_placed write _ attributes]
  exact List.mem_map_of_mem hplaced

/-- Every attribute of the list is meant at some place. -/
theorem exists_mem_denoteAll (pool : RawPool) (place : Int) {attributes : List RawAttribute}
    {a : RawAttribute} (h : a ∈ attributes) :
    ∃ place', a.denote pool place' ∈ denoteAll pool place attributes := by
  rw [← Scan.map_snd_placed write place attributes] at h
  obtain ⟨⟨place', _⟩, hplaced, rfl⟩ := List.mem_map.1 h
  exact ⟨place', List.mem_map.2 ⟨_, hplaced, rfl⟩⟩

/-- An attribute for code is meant as one. -/
theorem isCode_iff {a : RawAttribute} {place : Int} :
    a.isCode pool = true ↔ (a.denote pool place).name = Code.attributeName :=
  decide_eq_true_iff

/-- As many attributes are for code as are meant to be. -/
theorem length_filter_denoteAll (place : Int) (attributes : List RawAttribute) :
    ((denoteAll pool place attributes).filter (·.name = Code.attributeName)).length =
      (attributes.filter (isCode pool)).length := by
  induction attributes generalizing place with
  | nil => rfl
  | cons a attributes ih =>
    have hrest := ih (place + a.write.length)
    rw [denoteAll] at hrest ⊢
    rw [placed, List.map_cons, List.filter_cons, List.filter_cons]
    simp only [decide_eq_true_eq, ← isCode_iff]
    split <;> simp [hrest]

end RawAttribute

/-- The attributes of a member start eight bytes behind it. -/
theorem RawMember.place_attributes (m : Mark) (member : RawMember) :
    (((m.after (Bytes.ofU16 member.flags).length).after
      (Bytes.ofU16 member.nameIndex).length).after
      (Bytes.ofU16 member.descriptorIndex).length).place + 2 = m.place + 8 := by
  simp
  omega

/-- The attributes of a field that was read hold no code. -/
theorem Field.reads_checkCode (field : Field) :
    Reads (do
      if field.attributes.any (·.name = Code.attributeName) then
        Scan.failHere (.fieldWithCode field.name)
      return field) fun _ bytes value ↦
        bytes = [] ∧ (∀ attr ∈ field.attributes, attr.name ≠ Code.attributeName) ∧
          value = field := by
  have hany : field.attributes.any (·.name = Code.attributeName) = true ↔
      ¬ ∀ attr ∈ field.attributes, attr.name ≠ Code.attributeName := by
    simp
  by_cases h : field.attributes.any (·.name = Code.attributeName) = true
  · rw [if_pos h]
    refine ((Reads.failHere _).bind fun _ ↦ .pure field).congr fun _ _ _ ↦ ?_
    simp [hany.1 h]
  · rw [if_neg h]
    refine (Reads.pure field).congr fun _ _ _ ↦ ?_
    have hnone := Classical.not_not.1 fun h' ↦ h (hany.2 h')
    exact ⟨fun ⟨hbytes, hvalue⟩ ↦ ⟨hbytes, hnone, hvalue⟩, fun ⟨hbytes, _, hvalue⟩ ↦
      ⟨hbytes, hvalue⟩⟩

/-- A field is read from a member that has a field type and no code. -/
theorem Field.decodes_read (pool : RawPool) :
    Decodes (Field.read pool.denote) (RawMember.IsField pool) RawMember.write
      (RawMember.DenotesField pool) := by
  refine (Flags.decodes_read.andThen fun _ flags _ ↦ Scan.decodes_u16.andThen fun _ nameIndex _ ↦
    (pool.reads_utf8 nameIndex).stillThen fun name ↦
    Scan.decodes_u16.andThen fun _ descriptorIndex _ ↦
    (pool.reads_utf8 descriptorIndex).stillThen fun descriptor ↦
    (Scan.reads_descriptor Descriptor.field descriptor).stillThen fun type ↦
    (Attribute.decodes_readAll pool).bind fun attributes ↦
    reads_checkCode ⟨⟨flags⟩, name, descriptor, type, attributes⟩).congr fun m bytes field ↦ ?_
  constructor
  · rintro ⟨flags, _, -, rfl, h⟩
    obtain ⟨nameIndex, _, -, rfl, _, ⟨hname, rfl⟩, h⟩ := h
    obtain ⟨descriptorIndex, _, -, rfl, _, ⟨hdescriptor, rfl⟩, type, htype, h⟩ := h
    obtain ⟨_, _, _, rfl, ⟨attributes, hattributes, rfl, rfl⟩, rfl, hcode, rfl⟩ := h
    refine ⟨⟨flags, nameIndex, descriptorIndex, attributes⟩,
      ⟨hname, hdescriptor, ⟨type, htype⟩, hattributes, fun a ha ↦ ?_⟩, by simp [RawMember.write],
      ⟨rfl, rfl, rfl, htype, ?_⟩⟩
    · -- an attribute for code would have been read as one
      obtain ⟨place, hmem⟩ := RawAttribute.exists_mem_denoteAll pool _ ha
      exact Bool.eq_false_iff.2 fun hisCode ↦ hcode _ hmem (RawAttribute.isCode_iff.1 hisCode)
    · rw [← RawMember.place_attributes m ⟨flags, nameIndex, descriptorIndex, attributes⟩]
  · rintro ⟨⟨flags, nameIndex, descriptorIndex, attributes⟩, hfield, rfl, hdenotes⟩
    obtain ⟨_, _, _, type, _⟩ := field
    obtain ⟨rfl, rfl, rfl, htype, rfl⟩ := hdenotes
    have hplace :=
      RawMember.place_attributes m ⟨flags, nameIndex, descriptorIndex, attributes⟩
    refine ⟨flags, _, trivial, by simp [RawMember.write], nameIndex, _, trivial, rfl, _,
      ⟨hfield.name, rfl⟩, descriptorIndex, _, trivial, rfl, _, ⟨hfield.descriptor, rfl⟩, type,
      htype, _, [], _, (List.append_nil _).symm, ⟨attributes, hfield.attributes, rfl, rfl⟩, rfl,
      ?_, ?_⟩
    · rintro attr hattr hname
      obtain ⟨a, ha, place, rfl⟩ := RawAttribute.mem_denoteAll hattr
      have hcode := RawAttribute.isCode_iff.2 hname
      rw [hfield.noCode a ha] at hcode
      cases hcode
    · rw [← hplace]

/-- A list of at most one element has no two. -/
theorem eq_of_mem_of_length_le_one {α : Type} {items : List α} (h : items.length ≤ 1) {a b : α}
    (ha : a ∈ items) (hb : b ∈ items) : a = b := by
  obtain ⟨i, hi, rfl⟩ := List.getElem_of_mem ha
  obtain ⟨j, hj, rfl⟩ := List.getElem_of_mem hb
  obtain rfl : i = j := by omega
  rfl

namespace RawMember

variable {attr : Attribute} {attributes : List Attribute} {value : Option Code}

/-- An attribute of another name does not matter for the code. -/
theorem denotesCode_cons_of_ne (h : attr.name ≠ Code.attributeName) :
    DenotesCode pool (attr :: attributes) value ↔ DenotesCode pool attributes value := by
  cases value with
  | none =>
    rw [DenotesCode, DenotesCode, List.forall_mem_cons]
    exact ⟨And.right, fun hrest ↦ ⟨h, hrest⟩⟩
  | some code =>
    rw [DenotesCode, DenotesCode]
    constructor
    · rintro ⟨a, ha, hname, hraw⟩
      rcases List.mem_cons.1 ha with rfl | ha
      · exact absurd hname h
      · exact ⟨a, ha, hname, hraw⟩
    · rintro ⟨a, ha, hname, hraw⟩
      exact ⟨a, List.mem_cons_of_mem attr ha, hname, hraw⟩

/-- The only attribute of the name holds the code. -/
theorem denotesCode_cons_of_eq (h : attr.name = Code.attributeName)
    (hrest : ∀ a ∈ attributes, a.name ≠ Code.attributeName) :
    DenotesCode pool (attr :: attributes) value ↔
      ∃ raw : RawCode, raw.WellFormed pool ∧ raw.write = attr.data ∧
        value = some (raw.denote pool attr.offset) := by
  cases value with
  | none =>
    rw [DenotesCode]
    constructor
    · intro hnone
      exact absurd h (hnone attr List.mem_cons_self)
    · rintro ⟨_, _, _, hvalue⟩
      cases hvalue
  | some code =>
    rw [DenotesCode]
    constructor
    · rintro ⟨a, ha, hname, raw, hraw, hwrite, rfl⟩
      rcases List.mem_cons.1 ha with rfl | ha
      · exact ⟨raw, hraw, hwrite, rfl⟩
      · exact absurd hname (hrest a ha)
    · rintro ⟨raw, hraw, hwrite, hvalue⟩
      exact ⟨attr, List.mem_cons_self, h, raw, hraw, hwrite, Option.some.inj hvalue⟩

/-- If code is meant, the payload of every attribute named for it is code written down: there is
only one such attribute. -/
theorem exists_rawCode {place : Int} {attributes : List RawAttribute}
    (hone : (attributes.filter (RawAttribute.isCode pool)).length ≤ 1)
    (hcode : DenotesCode pool (RawAttribute.denoteAll pool place attributes) value)
    {a : RawAttribute} (ha : a ∈ attributes) (hisCode : a.isCode pool = true) :
    ∃ code : RawCode, code.WellFormed pool ∧ code.write = a.payload := by
  cases value with
  | none =>
    obtain ⟨place', hmem⟩ := RawAttribute.exists_mem_denoteAll pool place ha
    exact absurd (RawAttribute.isCode_iff.1 hisCode) (hcode _ hmem)
  | some code =>
    obtain ⟨attr, hattr, hname, raw, hraw, hwrite, -⟩ := hcode
    obtain ⟨b, hb, place', rfl⟩ := RawAttribute.mem_denoteAll hattr
    -- both are found among at most one
    have hab : b = a := eq_of_mem_of_length_le_one hone
      (List.mem_filter.2 ⟨hb, RawAttribute.isCode_iff.2 hname⟩)
      (List.mem_filter.2 ⟨ha, hisCode⟩)
    exact ⟨raw, hraw, hab ▸ hwrite⟩

end RawMember

/-- Behind the code nothing more is read, and there is no other code. -/
theorem Method.reads_readCode_some (pool : Pool) (name : Text) (code : Code)
    (attributes : List Attribute) :
    Reads (Method.readCode pool name (some code) attributes) fun _ bytes value ↦
      bytes = [] ∧ (∀ attr ∈ attributes, attr.name ≠ Code.attributeName) ∧
        value = some code := by
  induction attributes with
  | nil => exact (Reads.pure _).congr fun _ _ _ ↦ by simp
  | cons attr attributes ih =>
    rw [Method.readCode.eq_def]
    dsimp only
    split
    · -- a second attribute for code
      rename_i hattr
      exact (Reads.failHere _).congr fun _ _ _ ↦ by simp [hattr]
    · rename_i hattr
      exact ih.congr fun _ _ _ ↦ by simp [hattr]

include hpool in
/-- The code is found if at most one attribute is named for it. -/
theorem Method.reads_readCode (name : Text) (attributes : List Attribute) :
    Reads (Method.readCode pool.denote name none attributes) fun _ bytes value ↦
      bytes = [] ∧ (attributes.filter (·.name = Code.attributeName)).length ≤ 1 ∧
        RawMember.DenotesCode pool attributes value := by
  induction attributes with
  | nil =>
    refine (Reads.pure _).congr fun _ bytes value ↦ ?_
    cases value <;> simp [RawMember.DenotesCode]
  | cons attr attributes ih =>
    rw [Method.readCode.eq_def]
    dsimp only
    split
    · -- the code is here, and the attributes behind must not be named for it
      rename_i hattr
      have hone : ((attr :: attributes).filter (·.name = Code.attributeName)).length ≤ 1 ↔
          ∀ a ∈ attributes, a.name ≠ Code.attributeName := by
        rw [List.filter_cons_of_pos (by simpa using hattr), List.length_cons,
          Nat.add_one_le_iff, Nat.lt_one_iff, List.length_eq_zero_iff, List.filter_eq_nil_iff]
        simp
      refine (((Code.decodes_readParts hpool).within _ attr.data attr.offset).stillThen fun code ↦
        reads_readCode_some pool.denote name code attributes).congr fun _ bytes value ↦ ?_
      rw [hone, Mark.place_start]
      constructor
      · rintro ⟨_, ⟨raw, hraw, hwrite, rfl⟩, rfl, hrest, rfl⟩
        exact ⟨rfl, hrest,
          (RawMember.denotesCode_cons_of_eq hattr hrest).2 ⟨raw, hraw, hwrite.symm, rfl⟩⟩
      · rintro ⟨rfl, hrest, hcode⟩
        obtain ⟨raw, hraw, hwrite, rfl⟩ :=
          (RawMember.denotesCode_cons_of_eq hattr hrest).1 hcode
        exact ⟨_, ⟨raw, hraw, hwrite.symm, rfl⟩, rfl, hrest, rfl⟩
    · rename_i hattr
      refine ih.congr fun _ bytes value ↦ ?_
      rw [List.filter_cons_of_neg (by simpa using hattr),
        RawMember.denotesCode_cons_of_ne hattr]

include hpool in
/-- A method is read from a member that has a method type and code at most once, which is decoded.
-/
theorem Method.decodes_read :
    Decodes (Method.read pool.denote) (RawMember.IsMethod pool) RawMember.write
      (RawMember.DenotesMethod pool) := by
  refine (Flags.decodes_read.andThen fun _ flags _ ↦ Scan.decodes_u16.andThen fun _ nameIndex _ ↦
    (pool.reads_utf8 nameIndex).stillThen fun name ↦
    Scan.decodes_u16.andThen fun _ descriptorIndex _ ↦
    (pool.reads_utf8 descriptorIndex).stillThen fun descriptor ↦
    (Scan.reads_descriptor Descriptor.method descriptor).stillThen fun type ↦
    (Attribute.decodes_readAll pool).bind fun attributes ↦
    (Method.reads_readCode hpool name attributes).stillThen fun code ↦ .pure _).congr
    fun m bytes method ↦ ?_
  constructor
  · rintro ⟨flags, _, -, rfl, h⟩
    obtain ⟨nameIndex, _, -, rfl, _, ⟨hname, rfl⟩, h⟩ := h
    obtain ⟨descriptorIndex, _, -, rfl, _, ⟨hdescriptor, rfl⟩, type, htype, h⟩ := h
    obtain ⟨_, _, _, rfl, ⟨attributes, hattributes, rfl, rfl⟩, code, ⟨hone, hcode⟩, rfl, rfl⟩ := h
    rw [RawAttribute.length_filter_denoteAll] at hone
    refine ⟨⟨flags, nameIndex, descriptorIndex, attributes⟩,
      ⟨hname, hdescriptor, ⟨type, htype⟩, hattributes, hone, fun a ha ↦ ?_⟩,
      by simp [RawMember.write], ⟨rfl, rfl, rfl, htype, ?_, hcode⟩⟩
    · exact RawMember.exists_rawCode hone hcode ha
    · rw [← RawMember.place_attributes m ⟨flags, nameIndex, descriptorIndex, attributes⟩]
  · rintro ⟨⟨flags, nameIndex, descriptorIndex, attributes⟩, hmethod, rfl, hdenotes⟩
    obtain ⟨_, _, _, type, _, code⟩ := method
    obtain ⟨rfl, rfl, rfl, htype, rfl, hcode⟩ := hdenotes
    have hplace :=
      RawMember.place_attributes m ⟨flags, nameIndex, descriptorIndex, attributes⟩
    refine ⟨flags, _, trivial, by simp [RawMember.write], nameIndex, _, trivial, rfl, _,
      ⟨hmethod.name, rfl⟩, descriptorIndex, _, trivial, rfl, _, ⟨hmethod.descriptor, rfl⟩, type,
      htype, _, [], _, (List.append_nil _).symm, ⟨attributes, hmethod.attributes, rfl, rfl⟩, code,
      ⟨?_, ?_⟩, rfl, ?_⟩
    · rw [RawAttribute.length_filter_denoteAll]
      exact hmethod.oneCode
    · rw [hplace]
      exact hcode
    · rw [← hplace]

end

end ClassInspect
