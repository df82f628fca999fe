import ClassInspect.Proofs.Bytes.Parts
import ClassInspect.Proofs.ClassFile.Exact

/-!
# Where attributes stand

An attribute keeps the position of its bytes in the file, also if it belongs to a member or to the
code of a method, which is read by a scan over a copy of its own. All these positions count from the
start of the file (`ClassFile.attributes_standAt`).

The description of a file says where everything is written. Each layer of the format holds the next
at a distance of its own, which is stated once for each layer as a swap (`Bytes.Swaps`): the layer
with one content and with another differ in just this part. From the description that a file was
read from, the positions in the model are sums of such distances.
-/

namespace ClassInspect

open Bytes (StandsAt Swaps)
open Scan (placed writeCounted DenoteAll)

/-! ### Layers of the format -/

namespace Scan

variable {α δ : Type}

/-- An item of a list stands behind the number of items and the items before it. -/
theorem swaps_item (write : δ → Bytes) (front : List δ) (item item' : δ) (back : List δ) :
    Swaps (2 + (front.flatMap write).length) (write item) (write item')
      (writeCounted write (front ++ item :: back)) (writeCounted write (front ++ item' :: back)) :=
  ⟨.ofNat 2 (front.length + (back.length + 1)) ++ front.flatMap write, back.flatMap write,
    by simp [writeCounted], by simp [writeCounted], by simp⟩

/-- What a value of a list was read from stands in the list, at the distance between the place of
the list and the place of the item. -/
theorem DenoteAll.exists_of_mem {write : δ → Bytes} {denotes : Int → δ → α → Prop} {place : Int}
    {items : List δ} {values : List α} (h : DenoteAll write denotes (place + 2) items values)
    {value : α} (hvalue : value ∈ values) :
    ∃ item ∈ items, ∃ distance, StandsAt (writeCounted write items) distance (write item) ∧
      denotes (place + distance) item value := by
  obtain ⟨before, after, rfl⟩ := List.append_of_mem hvalue
  obtain ⟨front, item, back, rfl, -, hitem, -⟩ := denoteAll_append_cons_iff.1 h
  rw [Int.add_assoc] at hitem
  exact ⟨item, by simp, _, (swaps_item write front item item back).standsAt, hitem⟩

end Scan

namespace RawAttribute

theorem length_write (a : RawAttribute) : a.write.length = 6 + a.payload.length := by
  simp only [write, List.length_append, Bytes.length_ofU16, Bytes.length_ofNat]

/-- The payload of an attribute stands behind its name and its length. -/
theorem swaps_payload (a : RawAttribute) {payload : Bytes}
    (hlength : payload.length = a.payload.length) :
    Swaps 6 a.payload payload a.write { a with payload := payload }.write :=
  ⟨.ofU16 a.nameIndex ++ .ofNat 4 a.payload.length, [], by simp [write],
    by simp [write, hlength], by simp⟩

end RawAttribute

/-- The attributes of a member stand behind its three numbers. -/
theorem RawMember.swaps_attributes (m : RawMember) (attributes : List RawAttribute) :
    Swaps 6 (writeCounted RawAttribute.write m.attributes)
      (writeCounted RawAttribute.write attributes) m.write
      { m with attributes := attributes }.write :=
  ⟨.ofU16 m.flags ++ .ofU16 m.nameIndex ++ .ofU16 m.descriptorIndex, [], by simp [write],
    by simp [write], by simp⟩

namespace RawCode

/-- The instructions stand behind the limits and their length. -/
theorem swaps_code (c : RawCode) {code : Bytes} (hlength : code.length = c.code.length) :
    Swaps 8 c.code code c.write { c with code := code }.write :=
  ⟨.ofU16 c.maxStack ++ .ofU16 c.maxLocals ++ .ofNat 4 c.code.length,
    writeCounted RawHandler.write c.handlers ++ writeCounted RawAttribute.write c.attributes,
    by simp [write, RawCode.front], by simp [write, RawCode.front, hlength], by simp⟩

theorem swaps_attributes (c : RawCode) (attributes : List RawAttribute) :
    Swaps c.front.length (writeCounted RawAttribute.write c.attributes)
      (writeCounted RawAttribute.write attributes) c.write
      { c with attributes := attributes }.write :=
  ⟨c.front, [], by simp [write], by simp [write, RawCode.front], rfl⟩

end RawCode

namespace RawClass

theorem swaps_fields (d : RawClass) (fields : List RawMember) :
    Swaps (d.preamble.length + d.identity.length) (writeCounted RawMember.write d.fields)
      (writeCounted RawMember.write fields) d.serialize { d with fields := fields }.serialize :=
  ⟨d.preamble ++ d.identity,
    writeCounted RawMember.write d.methods ++ writeCounted RawAttribute.write d.attributes,
    by simp [serialize, body, untilAttributes, untilMethods],
    by simp [serialize, preamble, body, untilAttributes, untilMethods, identity], by simp⟩

theorem swaps_methods (d : RawClass) (methods : List RawMember) :
    Swaps (d.preamble.length + d.untilMethods.length) (writeCounted RawMember.write d.methods)
      (writeCounted RawMember.write methods) d.serialize { d with methods := methods }.serialize :=
  ⟨d.preamble ++ d.untilMethods, writeCounted RawAttribute.write d.attributes,
    by simp [serialize, body, untilAttributes],
    by simp [serialize, preamble, body, untilAttributes, untilMethods, identity], by simp⟩

theorem swaps_attributes (d : RawClass) (attributes : List RawAttribute) :
    Swaps (d.preamble.length + d.untilAttributes.length)
      (writeCounted RawAttribute.write d.attributes) (writeCounted RawAttribute.write attributes)
      d.serialize { d with attributes := attributes }.serialize :=
  ⟨d.preamble ++ d.untilAttributes, [], by simp [serialize, body],
    by simp [serialize, preamble, body, untilAttributes, untilMethods, identity], by simp⟩

end RawClass

/-! ### Lists of attributes -/

/-- The attributes stand in the data where they say they do, one behind the other. -/
structure Attribute.AllPlaced (data : Bytes) (attributes : List Attribute) : Prop where
  stands : ∀ a ∈ attributes, data.StandsAt a.offset a.data
  apart : attributes.Pairwise fun (a b : Attribute) ↦ a.offset + a.data.length < b.offset

namespace RawAttribute

variable {pool : RawPool} {place : Int} {attributes : List RawAttribute} {attr : Attribute}

/-- An attribute in the middle of a list is meant by one in the middle, at the place behind those
before it. -/
theorem denoteAll_eq_append_cons_iff {before after : List Attribute} :
    denoteAll pool place attributes = before ++ attr :: after ↔
      ∃ front a back, attributes = front ++ a :: back ∧
        before = denoteAll pool place front ∧
        attr = a.denote pool (place + (front.flatMap write).length) ∧
        after = denoteAll pool (place + (front.flatMap write).length + a.write.length) back := by
  have hmap (place : Int) (attributes : List RawAttribute) (values : List Attribute) :
      DenoteAll write (fun place a value ↦ value = denote pool place a) place attributes values ↔
        values = denoteAll pool place attributes :=
    Scan.denoteAll_iff_eq_map
  rw [eq_comm, ← hmap, Scan.denoteAll_append_cons_iff]
  simp only [hmap]

/-- The bytes of an attribute stand in the list, at the distance between the place of the list and
their own. -/
theorem standsAt_of_mem (h : attr ∈ denoteAll pool (place + 2) attributes) :
    StandsAt (writeCounted write attributes) (attr.offset - place) attr.data := by
  obtain ⟨before, after, hattributes⟩ := List.append_of_mem h
  obtain ⟨front, a, back, rfl, -, rfl, -⟩ := denoteAll_eq_append_cons_iff.1 hattributes
  have hitem := (Scan.swaps_item write front a a back).standsAt
  have hpayload := hitem.trans (a.swaps_payload rfl).standsAt
  have hoffset : (a.denote pool (place + 2 + (front.flatMap write).length)).offset - place =
      2 + (front.flatMap write).length + 6 := by
    simp only [denote]
    omega
  rw [hoffset]
  exact hpayload

/-- No bytes of an attribute stand before the list or within its own name and length. -/
theorem le_offset_of_mem (h : attr ∈ denoteAll pool place attributes) :
    place + 6 ≤ attr.offset := by
  obtain ⟨before, after, hattributes⟩ := List.append_of_mem h
  obtain ⟨front, a, back, -, -, rfl, -⟩ := denoteAll_eq_append_cons_iff.1 hattributes
  simp only [denote]
  omega

theorem pairwise_denoteAll (pool : RawPool) (place : Int) (attributes : List RawAttribute) :
    (denoteAll pool place attributes).Pairwise
      fun (a b : Attribute) ↦ a.offset + a.data.length < b.offset := by
  induction attributes generalizing place with
  | nil => exact .nil
  | cons a attributes ih =>
    refine List.pairwise_cons.2 ⟨fun b hb ↦ ?_, ih (place + a.write.length)⟩
    have hoffset := le_offset_of_mem hb
    rw [length_write] at hoffset
    simp only [denote]
    omega

/-- A list that stands in the data has its attributes there. -/
theorem allPlaced {data : Bytes} (h : StandsAt data place (writeCounted write attributes)) :
    Attribute.AllPlaced data (denoteAll pool (place + 2) attributes) := by
  refine ⟨fun attr hattr ↦ ?_, pairwise_denoteAll pool (place + 2) attributes⟩
  have hstands := h.trans (standsAt_of_mem hattr)
  have hoffset : place + (attr.offset - place) = attr.offset := by omega
  rwa [hoffset] at hstands

end RawAttribute

/-! ### Members and code -/

/-- A member that stands in the data has its attributes there. -/
theorem RawMember.allPlaced {data : Bytes} {place : Int} {m : RawMember} (pool : RawPool)
    (h : StandsAt data place m.write) :
    Attribute.AllPlaced data (RawAttribute.denoteAll pool (place + 8) m.attributes) := by
  have hlist := h.trans (m.swaps_attributes m.attributes).standsAt
  have hplace : place + 6 + 2 = place + 8 := by omega
  exact hplace ▸ RawAttribute.allPlaced hlist

namespace RawCode

variable {pool : RawPool} {place : Int} (c : RawCode)

/-- Code that stands in the data has its attributes there. -/
theorem allPlaced {data : Bytes} (h : StandsAt data place c.write) :
    Attribute.AllPlaced data (c.denote pool place).attributes :=
  RawAttribute.allPlaced (h.trans (c.swaps_attributes c.attributes).standsAt)

/-- The bytes of an attribute stand within the code, at the distance between the place of the code
and their own. -/
theorem standsAt_of_mem {attr : Attribute} (h : attr ∈ (c.denote pool place).attributes) :
    StandsAt c.write (attr.offset - place) attr.data := by
  have hlist := (c.swaps_attributes c.attributes).standsAt
  have hstands := hlist.trans (RawAttribute.standsAt_of_mem h)
  have hoffset : c.front.length + (attr.offset - (place + c.front.length)) =
      attr.offset - place := by
    omega
  rwa [hoffset] at hstands

end RawCode

namespace RawClass

variable {d : RawClass} {file : ClassFile}

/-- A field was read from a member that stands in the file. -/
theorem Denotes.exists_field (h : d.Denotes file) {field : Field} (hfield : field ∈ file.fields) :
    ∃ m ∈ d.fields, ∃ place, StandsAt d.serialize place m.write ∧
      m.DenotesField d.constants place field := by
  obtain ⟨m, hm, distance, hstands, hdenotes⟩ := h.fields.exists_of_mem hfield
  exact ⟨m, hm, _, (d.swaps_fields d.fields).standsAt.trans hstands, hdenotes⟩

/-- A method was read from a member that stands in the file. -/
theorem Denotes.exists_method (h : d.Denotes file) {method : Method}
    (hmethod : method ∈ file.methods) :
    ∃ m ∈ d.methods, ∃ place, StandsAt d.serialize place m.write ∧
      m.DenotesMethod d.constants place method := by
  obtain ⟨m, hm, distance, hstands, hdenotes⟩ := h.methods.exists_of_mem hmethod
  exact ⟨m, hm, _, (d.swaps_methods d.methods).standsAt.trans hstands, hdenotes⟩

/-- The code of a method was read from the bytes of its only attribute for code, where these stand
in the file. -/
theorem Denotes.exists_code (hd : d.WellFormed) (h : d.Denotes file) {method : Method} {code : Code}
    (hmethod : method ∈ file.methods) (hcode : method.code = some code) :
    ∃ c ∈ method.attributes, c.name = Code.attributeName ∧
      (∀ other ∈ method.attributes, other.name = Code.attributeName → other = c) ∧
      StandsAt d.serialize c.offset c.data ∧
      ∃ raw : RawCode, raw.WellFormed d.constants ∧ raw.write = c.data ∧
        code = raw.denote d.constants c.offset := by
  obtain ⟨m, hm, place, hstands, hdenotes⟩ := h.exists_method hmethod
  have hplaced := RawMember.allPlaced d.constants hstands
  rw [← hdenotes.attributes] at hplaced
  have hdenotesCode := hdenotes.code
  rw [hcode] at hdenotesCode
  obtain ⟨c, hc, hname, hraw⟩ := hdenotesCode
  refine ⟨c, hc, hname, fun other hother hname' ↦ ?_, hplaced.stands c hc, hraw⟩
  -- at most one attribute has this name
  have hone := (hd.methods.2 m hm).oneCode
  rw [← RawAttribute.length_filter_denoteAll (place + 8), ← hdenotes.attributes] at hone
  exact eq_of_mem_of_length_le_one hone (List.mem_filter.2 ⟨hother, decide_eq_true hname'⟩)
    (List.mem_filter.2 ⟨hc, decide_eq_true hname⟩)

/-- So it was read from every attribute of this name. -/
theorem Denotes.code_of_name (hd : d.WellFormed) (h : d.Denotes file) {method : Method}
    {code : Code} (hmethod : method ∈ file.methods) (hcode : method.code = some code)
    {c : Attribute} (hc : c ∈ method.attributes) (hname : c.name = Code.attributeName) :
    StandsAt d.serialize c.offset c.data ∧
      ∃ raw : RawCode, raw.WellFormed d.constants ∧ raw.write = c.data ∧
        code = raw.denote d.constants c.offset := by
  obtain ⟨c', -, -, hunique, hread⟩ := h.exists_code hd hmethod hcode
  obtain rfl := hunique c hc hname
  exact hread

end RawClass

/-! ### The whole file -/

/-- The lists of attributes in a class: its own, and those of its fields, its methods and their
code. -/
inductive ClassFile.AttributeList (file : ClassFile) : List Attribute → Prop
  | ofClass : AttributeList file file.attributes
  | ofField {field : Field} (h : field ∈ file.fields) : AttributeList file field.attributes
  | ofMethod {method : Method} (h : method ∈ file.methods) :
    AttributeList file method.attributes
  | ofCode {method : Method} {code : Code} (h : method ∈ file.methods)
    (hcode : method.code = some code) : AttributeList file code.attributes

namespace RawClass

variable {d : RawClass} {file : ClassFile}

/-- The attributes of a class stand in the file where they say they do, at every level. -/
theorem Denotes.allPlaced (hd : d.WellFormed) (h : d.Denotes file) {attributes : List Attribute}
    (hlist : file.AttributeList attributes) : Attribute.AllPlaced d.serialize attributes := by
  cases hlist with
  | ofClass =>
    rw [h.attributes]
    exact RawAttribute.allPlaced (d.swaps_attributes d.attributes).standsAt
  | ofField hfield =>
    obtain ⟨m, -, place, hstands, hmeant⟩ := h.exists_field hfield
    rw [hmeant.attributes]
    exact RawMember.allPlaced d.constants hstands
  | ofMethod hmethod =>
    obtain ⟨m, -, place, hstands, hmeant⟩ := h.exists_method hmethod
    rw [hmeant.attributes]
    exact RawMember.allPlaced d.constants hstands
  | ofCode hmethod hcode =>
    obtain ⟨c, -, -, -, hstands, raw, -, hwrite, rfl⟩ := h.exists_code hd hmethod hcode
    rw [← hwrite] at hstands
    exact raw.allPlaced hstands

end RawClass

namespace ClassFile

/-- Every attribute of a class that was read stands in the file where it says it does, at every
level, and the attributes of one list stand one behind the other. The code of a method stands eight
bytes behind the start of the one attribute named for it, and the attributes of the code stand
within that attribute. -/
theorem attributes_standAt {data : Bytes} {verbose : Bool} {file : ClassFile}
    (h : (parse data verbose).outcome.1 = .ok file) :
    (∀ attributes, file.AttributeList attributes → Attribute.AllPlaced data attributes) ∧
    ∀ method ∈ file.methods, ∀ code, method.code = some code →
      ∃ c ∈ method.attributes, c.name = .lit "Code" ∧
        (∀ other ∈ method.attributes, other.name = .lit "Code" → other = c) ∧
        data.StandsAt (c.offset + 8) code.code ∧
        ∀ a ∈ code.attributes,
          c.offset ≤ a.offset ∧ a.offset + a.data.length ≤ c.offset + c.data.length := by
  obtain ⟨d, hd, rfl, hdenotes⟩ := (outcome_eq_ok_iff data verbose file).1 h
  refine ⟨fun attributes hlist ↦ hdenotes.allPlaced hd hlist, fun method hmethod code hcode ↦ ?_⟩
  obtain ⟨c, hc, hname, hunique, hstands, raw, -, hwrite, rfl⟩ :=
    hdenotes.exists_code hd hmethod hcode
  refine ⟨c, hc, hname, hunique, ?_, fun a ha ↦ ?_⟩
  · rw [← hwrite] at hstands
    exact hstands.trans (raw.swaps_code rfl).standsAt
  · obtain ⟨hlow, hhigh, -⟩ := raw.standsAt_of_mem ha
    rw [hwrite] at hhigh
    omega

/-- A class with attributes at every level. -/
def sampleLayers : ClassFile where
  minorVersion := 0
  majorVersion := 52
  pool := ⟨#[some (.utf8 (.lit "A")), some (.classRef 1), some (.utf8 (.lit "Code")),
    some (.utf8 (.lit "m")), some (.utf8 (.lit "()V")), some (.utf8 (.lit "I"))]⟩
  flags := ⟨0x21⟩
  thisClass := .lit "A"
  superClass := none
  interfaces := []
  fields := [⟨⟨0x1⟩, .lit "m", .lit "I", ⟨0, .base .int⟩, [⟨.lit "A", [8, 9], 62⟩]⟩]
  methods :=
    [⟨⟨0x1⟩, .lit "m", .lit "()V", ⟨[], .void⟩,
      [⟨.lit "A", [7], 80⟩,
        ⟨.lit "Code", [0, 1, 0, 1, 0, 0, 0, 1, 0xB1, 0, 0, 0, 1, 0, 1, 0, 0, 0, 3, 1, 2, 3], 87⟩],
      some ⟨1, 1, [0xB1], [], [⟨.lit "A", [1, 2, 3], 106⟩]⟩⟩]
  attributes := [⟨.lit "A", [], 117⟩]

/-- The bytes of the class with attributes at every level. -/
def sampleLayersBytes : Bytes :=
  [0xCA, 0xFE, 0xBA, 0xBE, 0, 0, 0, 52, 0, 7, 1, 0, 1, 0x41, 7, 0, 1,
    1, 0, 4, 0x43, 0x6F, 0x64, 0x65, 1, 0, 1, 0x6D, 1, 0, 3, 0x28, 0x29, 0x56, 1, 0, 1, 0x49,
    0, 0x21, 0, 2, 0, 0, 0, 0, 0, 1, 0, 1, 0, 4, 0, 6, 0, 1, 0, 1, 0, 0, 0, 2, 8, 9,
    0, 1, 0, 1, 0, 4, 0, 5, 0, 2, 0, 1, 0, 0, 0, 1, 7,
    0, 3, 0, 0, 0, 22, 0, 1, 0, 1, 0, 0, 0, 1, 0xB1, 0, 0, 0, 1, 0, 1, 0, 0, 0, 3, 1, 2, 3,
    0, 1, 0, 1, 0, 0, 0, 0]

theorem parse_sampleLayersBytes : (parse sampleLayersBytes false).outcome.1 = .ok sampleLayers := by
  decide +kernel

/-- In this class, the attribute within the code, the other attribute of the method and its only
instruction stand where they should. -/
theorem attributes_standAt_sampleLayers :
    (parse sampleLayersBytes false).outcome.1 = .ok sampleLayers ∧
    sampleLayersBytes.StandsAt 106 [1, 2, 3] ∧ sampleLayersBytes.StandsAt 80 [7] ∧
    sampleLayersBytes.StandsAt 95 [0xB1] := by
  have hplaced := attributes_standAt parse_sampleLayersBytes
  have hcode := hplaced.1 _ (.ofCode (.head _) rfl)
  have hmethod := hplaced.1 _ (.ofMethod (.head _))
  obtain ⟨c, -, -, hunique, hinstructions, -⟩ := hplaced.2 _ (.head _) _ rfl
  have hc := hunique _ (.tail _ (.head _)) rfl
  rw [← hc] at hinstructions
  exact ⟨parse_sampleLayersBytes, hcode.stands _ (.head _), hmethod.stands _ (.head _),
    hinstructions⟩

end ClassFile

end ClassInspect
