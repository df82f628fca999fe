import ClassInspect.Proofs.ClassFile.Placement

/-!
# Bytes that are not interpreted

The reader keeps the payloads of attributes and the instructions of code without looking into them,
save for the attribute of a method that holds its code. Such a part of a file is `Uninterpreted`: it
can be written over by any bytes of the same number, and the file is accepted as before, with the
new bytes in the place of the old and nothing else changed (`ClassFile.parse_overwrite`).

## What the theorem rests on

Both files are read from descriptions, and the second description is made from the first by an
exchange: an attribute for one of the same name and length, a member for one of the same length. An
exchange moves nothing, so all else is denoted as it was. One lemma for each layer says so, and the
bytes follow by the swaps of the layers.

* In a list, the item that denotes a given value is found and can be exchanged for any other of its
  length (`Scan.DenoteAll.exchange`, `RawAttribute.exchange`). The items behind it stay where they
  are, and so do all values.
* A member and code have such a list, and stay what they are with another payload in it
  (`RawMember.exchange`, `RawCode.exchange_attribute`). For the attribute of a method that holds its
  code this needs the new payload to be code as well, which is why it is no uninterpreted part.
* A class with other members is read as the class with these members, if they take as many bytes
  (`ClassFile.exchange_field`, `ClassFile.exchange_method`).
* A part of a method's code is two layers deeper: the code is exchanged, which changes the payload
  of its attribute, which changes the member (`ClassFile.exchange_code`).

That the bytes written over are the old payload is not assumed. An uninterpreted part is given by
the class that was read, and stands in the file at the offset that the class has for it
(`ClassFile.Uninterpreted.standsAt`).
-/

namespace ClassInspect

open Bytes (StandsAt Swaps)
open Scan (writeCounted DenoteAll)

/-! ### Exchanges in lists -/

/-- What holds of all items still does when one is exchanged for another of which it holds. -/
theorem forall_mem_exchange {α : Type} {property : α → Prop} {front back : List α} {item item' : α}
    (h : ∀ other ∈ front ++ item :: back, property other) (hitem : property item') :
    ∀ other ∈ front ++ item' :: back, property other := by
  simp only [List.forall_mem_append, List.forall_mem_cons] at h ⊢
  exact ⟨h.1, hitem, h.2.2⟩

/-- An item of a list may be exchanged for any other of the same length: the items behind it stay
where they are. -/
theorem Scan.DenoteAll.exchange {α δ : Type} {write : δ → Bytes} {denotes : Int → δ → α → Prop}
    {place : Int} {items : List δ} {before after : List α} {value : α}
    (h : DenoteAll write denotes (place + 2) items (before ++ value :: after)) :
    ∃ front item back distance, items = front ++ item :: back ∧
      denotes (place + distance) item value ∧
      ∀ item' value', (write item').length = (write item).length →
        denotes (place + distance) item' value' →
        Swaps distance (write item) (write item') (writeCounted write items)
          (writeCounted write (front ++ item' :: back)) ∧
        DenoteAll write denotes (place + 2) (front ++ item' :: back)
          (before ++ value' :: after) := by
  obtain ⟨front, item, back, rfl, hfront, hitem, hback⟩ := denoteAll_append_cons_iff.1 h
  have hplace : place + 2 + (front.flatMap write).length =
      place + (2 + (front.flatMap write).length) := by
    omega
  rw [hplace] at hitem
  refine ⟨front, item, back, _, rfl, hitem, fun item' value' hlength hitem' ↦ ?_⟩
  rw [← hplace] at hitem'
  rw [← hlength] at hback
  exact ⟨swaps_item write front item item' back,
    denoteAll_append_cons_iff.2 ⟨front, item', back, rfl, hfront, hitem', hback⟩⟩

namespace RawAttribute

variable {pool : RawPool} {place : Int} {front back : List RawAttribute} {a : RawAttribute}
  {payload : Bytes}

/-- The payload of an attribute may be exchanged for any other of the same length. -/
theorem exchange {attributes : List RawAttribute} {before after : List Attribute}
    {attr : Attribute} (h : denoteAll pool (place + 2) attributes = before ++ attr :: after) :
    ∃ front a back, attributes = front ++ a :: back ∧ a.payload = attr.data ∧
      (a.isCode pool = true ↔ attr.name = Code.attributeName) ∧
      ∀ payload : Bytes, payload.length = attr.data.length →
        Swaps (attr.offset - place) attr.data payload (writeCounted write attributes)
          (writeCounted write (front ++ { a with payload := payload } :: back)) ∧
        denoteAll pool (place + 2) (front ++ { a with payload := payload } :: back) =
          before ++ { attr with data := payload } :: after := by
  obtain ⟨front, a, back, rfl, rfl, rfl, rfl⟩ := denoteAll_eq_append_cons_iff.1 h
  refine ⟨front, a, back, rfl, rfl, isCode_iff, fun payload hlength ↦ ⟨?_, ?_⟩⟩
  · have hswaps := (Scan.swaps_item write front a _ back).trans (a.swaps_payload hlength)
    have hoffset : (a.denote pool (place + 2 + (front.flatMap write).length)).offset - place =
        2 + (front.flatMap write).length + 6 := by
      simp only [denote]
      omega
    rw [hoffset]
    exact hswaps
  · -- the attributes behind it are denoted at the places they had
    have hwrite : ({ a with payload := payload } : RawAttribute).write.length = a.write.length := by
      simp only [length_write, hlength, denote]
    rw [← hwrite]
    exact denoteAll_eq_append_cons_iff.2 ⟨front, _, back, rfl, rfl, rfl, rfl⟩

theorem AllWellFormed.exchange (h : AllWellFormed pool (front ++ a :: back))
    (hlength : payload.length = a.payload.length) :
    AllWellFormed pool (front ++ { a with payload := payload } :: back) := by
  obtain ⟨hcount, hall⟩ := h
  obtain ⟨hname, hsize⟩ := hall a (by simp)
  exact ⟨by simpa using hcount, forall_mem_exchange hall ⟨hname, hlength ▸ hsize⟩⟩

end RawAttribute

/-! ### Exchanges in members and code -/

namespace RawMember

variable {pool : RawPool} {m : RawMember} {front back : List RawAttribute} {a : RawAttribute}
  {payload : Bytes}

/-- The bytes of an attribute of a member may be exchanged for any other of the same number. -/
theorem exchange {place : Int} {before after : List Attribute} {attr : Attribute}
    (h : RawAttribute.denoteAll pool (place + 8) m.attributes = before ++ attr :: after) :
    ∃ front a back, m.attributes = front ++ a :: back ∧ a.payload = attr.data ∧
      (a.isCode pool = true ↔ attr.name = Code.attributeName) ∧
      ∀ bytes : Bytes, bytes.length = attr.data.length →
        Swaps (attr.offset - place) attr.data bytes m.write
          { m with attributes := front ++ { a with payload := bytes } :: back }.write ∧
        RawAttribute.denoteAll pool (place + 8) (front ++ { a with payload := bytes } :: back) =
          before ++ { attr with data := bytes } :: after := by
  have hplace : place + 8 = place + 6 + 2 := by omega
  rw [hplace] at h ⊢
  obtain ⟨front, a, back, hattributes, hpayload, hname, hexchange⟩ := RawAttribute.exchange h
  refine ⟨front, a, back, hattributes, hpayload, hname, fun bytes hlength ↦ ?_⟩
  obtain ⟨hlist, hdenote⟩ := hexchange bytes hlength
  have hswaps := (m.swaps_attributes _).trans hlist
  have hoffset : 6 + (attr.offset - (place + 6)) = attr.offset - place := by omega
  rw [hoffset] at hswaps
  exact ⟨hswaps, hdenote⟩

theorem IsField.exchange (h : m.IsField pool) (hattributes : m.attributes = front ++ a :: back)
    (hlength : payload.length = a.payload.length) :
    { m with attributes := front ++ { a with payload := payload } :: back }.IsField pool := by
  have hall := h.attributes
  have hnone := h.noCode
  rw [hattributes] at hall hnone
  have ha : a.isCode pool = false := hnone a (by simp)
  exact ⟨h.name, h.descriptor, h.type, hall.exchange hlength, forall_mem_exchange hnone ha⟩

/-- If the attribute is for code, the new payload must be code, too. -/
theorem IsMethod.exchange (h : m.IsMethod pool) (hattributes : m.attributes = front ++ a :: back)
    (hlength : payload.length = a.payload.length)
    (hcode : a.isCode pool = true → ∃ code : RawCode, code.WellFormed pool ∧ code.write = payload) :
    { m with attributes := front ++ { a with payload := payload } :: back }.IsMethod pool := by
  have hall := h.attributes
  have hone := h.oneCode
  have hcodes := h.code
  rw [hattributes] at hall hone hcodes
  refine ⟨h.name, h.descriptor, h.type, hall.exchange hlength, ?_, forall_mem_exchange hcodes hcode⟩
  -- as many attributes are for code as before, since the exchange keeps the name
  rw [← List.countP_eq_length_filter, List.countP_append, List.countP_cons] at hone ⊢
  exact hone

/-- The order of attributes does not matter for the code. -/
theorem denotesCode_perm {attributes attributes' : List Attribute} {value : Option Code}
    (h : attributes.Perm attributes') :
    DenotesCode pool attributes value ↔ DenotesCode pool attributes' value := by
  cases value with
  | none => simp only [DenotesCode, h.mem_iff]
  | some code => simp only [DenotesCode, h.mem_iff]

/-- Nor do the bytes of an attribute of another name. -/
theorem denotesCode_exchange {before after : List Attribute} {attr : Attribute}
    {value : Option Code} (hname : attr.name ≠ Code.attributeName)
    (h : DenotesCode pool (before ++ attr :: after) value) :
    DenotesCode pool (before ++ { attr with data := payload } :: after) value := by
  -- put in front, the attribute can be left out, before and after the exchange
  have hname' : ({ attr with data := payload } : Attribute).name ≠ Code.attributeName := hname
  rw [denotesCode_perm List.perm_middle, denotesCode_cons_of_ne hname] at h
  rw [denotesCode_perm List.perm_middle, denotesCode_cons_of_ne hname']
  exact h

end RawMember

namespace RawCode

variable {pool : RawPool} {place : Int} {c : RawCode}

/-- The instructions may be exchanged for any other bytes of the same number. -/
theorem exchange_code (h : c.WellFormed pool) {code : Bytes}
    (hlength : code.length = c.code.length) :
    { c with code := code }.WellFormed pool ∧
      { c with code := code }.denote pool place = { c.denote pool place with code := code } := by
  have hfront : ({ c with code := code } : RawCode).front.length = c.front.length := by
    simp only [RawCode.front, List.length_append, hlength, Bytes.length_ofNat]
  refine ⟨⟨hlength ▸ h.code, h.handlers, h.attributes⟩, ?_⟩
  rw [denote, hfront]
  rfl

/-- The bytes of an attribute of code may be exchanged for any other of the same number. -/
theorem exchange_attribute (h : c.WellFormed pool) {before after : List Attribute}
    {attr : Attribute} (hattributes : (c.denote pool place).attributes = before ++ attr :: after)
    {bytes : Bytes} (hlength : bytes.length = attr.data.length) :
    ∃ c' : RawCode, c'.WellFormed pool ∧
      Swaps (attr.offset - place) attr.data bytes c.write c'.write ∧
      c'.denote pool place = { c.denote pool place with
        attributes := before ++ { attr with data := bytes } :: after } := by
  obtain ⟨front, a, back, hsplit, hpayload, -, hexchange⟩ := RawAttribute.exchange hattributes
  obtain ⟨hswaps, hdenote⟩ := hexchange bytes hlength
  have hall := h.attributes
  rw [hsplit] at hall
  rw [← hpayload] at hlength
  refine ⟨{ c with attributes := front ++ { a with payload := bytes } :: back },
    ⟨h.code, h.handlers, hall.exchange hlength⟩, ?_, ?_⟩
  · have hcode := (c.swaps_attributes _).trans hswaps
    have hoffset : c.front.length + (attr.offset - (place + c.front.length)) =
        attr.offset - place := by
      omega
    rwa [hoffset] at hcode
  · rw [denote, denote, ← hdenote]
    rfl

end RawCode

/-! ### Exchanges in classes -/

namespace RawClass

variable {d : RawClass} {file : ClassFile}

/-- Other fields that take as many bytes leave the rest of a class where it is. -/
theorem Denotes.withFields (h : d.Denotes file) {fields : List RawMember} {values : List Field}
    (hlength : (writeCounted RawMember.write fields).length =
      (writeCounted RawMember.write d.fields).length)
    (hfields : DenoteAll RawMember.write (RawMember.DenotesField d.constants)
      (d.preamble.length + d.identity.length + 2) fields values) :
    { d with fields := fields }.Denotes { file with fields := values } := by
  have hmethods : ({ d with fields := fields } : RawClass).untilMethods.length =
      d.untilMethods.length := by
    simp only [untilMethods, identity, List.length_append, hlength]
  have hattributes : ({ d with fields := fields } : RawClass).untilAttributes.length =
      d.untilAttributes.length := by
    simp only [untilAttributes, List.length_append, hmethods]
  refine ⟨h.minorVersion, h.majorVersion, h.pool, h.flags, h.thisClass, h.superClass, h.interfaces,
    hfields, ?_, ?_⟩
  · rw [hmethods]
    exact h.methods
  · rw [hattributes]
    exact h.attributes

/-- Other methods that take as many bytes leave the rest of a class where it is. -/
theorem Denotes.withMethods (h : d.Denotes file) {methods : List RawMember}
    {values : List Method} (hlength : (writeCounted RawMember.write methods).length =
      (writeCounted RawMember.write d.methods).length)
    (hmethods : DenoteAll RawMember.write (RawMember.DenotesMethod d.constants)
      (d.preamble.length + d.untilMethods.length + 2) methods values) :
    { d with methods := methods }.Denotes { file with methods := values } := by
  have hattributes : ({ d with methods := methods } : RawClass).untilAttributes.length =
      d.untilAttributes.length := by
    simp only [untilAttributes, untilMethods, identity, List.length_append, hlength]
  refine ⟨h.minorVersion, h.majorVersion, h.pool, h.flags, h.thisClass, h.superClass, h.interfaces,
    h.fields, hmethods, ?_⟩
  rw [hattributes]
  exact h.attributes

end RawClass

namespace ClassFile

section

variable {d : RawClass} {file : ClassFile} (hd : d.WellFormed) (hdenotes : d.Denotes file)
  (verbose : Bool)

/-- If another class is written as this one with some bytes written over, then these bytes are read
as the other class. -/
theorem outcome_overwrite {d' : RawClass} {file' : ClassFile} (hd' : d'.WellFormed)
    (hdenotes' : d'.Denotes file') {place : Int} {old new : Bytes}
    (hswaps : Swaps place old new d.serialize d'.serialize) (hlength : new.length = old.length) :
    (parse (d.serialize.overwrite place new) verbose).outcome.1 = .ok file' := by
  rw [← hswaps.eq_overwrite hlength]
  exact (outcome_eq_ok_iff _ _ _).2 ⟨d', hd', rfl, hdenotes'⟩

include hd hdenotes

/-- A field may be exchanged for another that differs in one part of the same length. -/
theorem exchange_field {fields fields' : List Field} {field : Field}
    (hfile : file.fields = fields ++ field :: fields') :
    ∃ (m : RawMember) (place : Int), m.IsField d.constants ∧
      m.DenotesField d.constants place field ∧
      ∀ (m' : RawMember) field' offset old new, m'.IsField d.constants →
        m'.DenotesField d.constants place field' →
        Swaps (offset - place) old new m.write m'.write → new.length = old.length →
        (parse (d.serialize.overwrite offset new) verbose).outcome.1 =
          .ok { file with fields := fields ++ field' :: fields' } := by
  have hfields := hdenotes.fields
  rw [hfile] at hfields
  obtain ⟨front, m, back, distance, hsplit, hm, hexchange⟩ := hfields.exchange
  obtain ⟨hcount, hall⟩ := hd.fields
  rw [hsplit] at hcount hall
  refine ⟨m, _, hall m (by simp), hm, fun m' field' offset old new hm' hfield' hpart hlength ↦ ?_⟩
  obtain ⟨hlist, hvalues⟩ := hexchange m' field' (hpart.length_eq hlength) hfield'
  have hswaps := ((d.swaps_fields _).trans hlist).trans_sub hpart
  have hwell : { d with fields := front ++ m' :: back }.WellFormed :=
    ⟨hd.constants, hd.thisClass, hd.superClass, hd.interfaces,
      ⟨by simpa using hcount, forall_mem_exchange hall hm'⟩, hd.methods, hd.attributes⟩
  exact outcome_overwrite verbose hwell
    (hdenotes.withFields (hlist.length_eq (hpart.length_eq hlength)) hvalues) hswaps hlength

/-- A method may be exchanged for another that differs in one part of the same length. -/
theorem exchange_method {methods methods' : List Method} {method : Method}
    (hfile : file.methods = methods ++ method :: methods') :
    ∃ (m : RawMember) (place : Int), m.IsMethod d.constants ∧
      m.DenotesMethod d.constants place method ∧
      ∀ (m' : RawMember) method' offset old new, m'.IsMethod d.constants →
        m'.DenotesMethod d.constants place method' →
        Swaps (offset - place) old new m.write m'.write → new.length = old.length →
        (parse (d.serialize.overwrite offset new) verbose).outcome.1 =
          .ok { file with methods := methods ++ method' :: methods' } := by
  have hmethods := hdenotes.methods
  rw [hfile] at hmethods
  obtain ⟨front, m, back, distance, hsplit, hm, hexchange⟩ := hmethods.exchange
  obtain ⟨hcount, hall⟩ := hd.methods
  rw [hsplit] at hcount hall
  refine ⟨m, _, hall m (by simp), hm, fun m' method' offset old new hm' hmethod' hpart hlength ↦ ?_⟩
  obtain ⟨hlist, hvalues⟩ := hexchange m' method' (hpart.length_eq hlength) hmethod'
  have hswaps := ((d.swaps_methods _).trans hlist).trans_sub hpart
  have hwell : { d with methods := front ++ m' :: back }.WellFormed :=
    ⟨hd.constants, hd.thisClass, hd.superClass, hd.interfaces, hd.fields,
      ⟨by simpa using hcount, forall_mem_exchange hall hm'⟩, hd.attributes⟩
  exact outcome_overwrite verbose hwell
    (hdenotes.withMethods (hlist.length_eq (hpart.length_eq hlength)) hvalues) hswaps hlength

/-! ### Parts that may be written over -/

/-- The bytes of an attribute of the class may be written over. -/
theorem overwrite_class {before after : List Attribute} {a : Attribute}
    (hfile : file.attributes = before ++ a :: after) {bytes : Bytes}
    (hlength : bytes.length = a.data.length) :
    (parse (d.serialize.overwrite a.offset bytes) verbose).outcome.1 =
      .ok { file with attributes := before ++ { a with data := bytes } :: after } := by
  obtain ⟨front, r, back, hsplit, hpayload, -, hexchange⟩ :=
    RawAttribute.exchange (hdenotes.attributes.symm.trans hfile)
  obtain ⟨hlist, hdenote⟩ := hexchange bytes hlength
  have hswaps := (d.swaps_attributes _).trans_sub hlist
  have hall := hd.attributes
  rw [hsplit] at hall
  have hwell : { d with attributes := front ++ { r with payload := bytes } :: back }.WellFormed :=
    ⟨hd.constants, hd.thisClass, hd.superClass, hd.interfaces, hd.fields, hd.methods,
      hall.exchange (hpayload ▸ hlength)⟩
  refine outcome_overwrite verbose hwell ?_ hswaps hlength
  exact ⟨hdenotes.minorVersion, hdenotes.majorVersion, hdenotes.pool, hdenotes.flags,
    hdenotes.thisClass, hdenotes.superClass, hdenotes.interfaces, hdenotes.fields,
    hdenotes.methods, hdenote.symm⟩

/-- The bytes of an attribute of a field may be written over. -/
theorem overwrite_field {fields fields' : List Field} {field : Field}
    (hfile : file.fields = fields ++ field :: fields') {before after : List Attribute}
    {a : Attribute} (hfield : field.attributes = before ++ a :: after) {bytes : Bytes}
    (hlength : bytes.length = a.data.length) :
    (parse (d.serialize.overwrite a.offset bytes) verbose).outcome.1 =
      .ok { file with
        fields := fields ++
          { field with attributes := before ++ { a with data := bytes } :: after } ::
            fields' } := by
  obtain ⟨m, place, hm, hmeant, hparse⟩ := exchange_field hd hdenotes verbose hfile
  obtain ⟨front, r, back, hsplit, hpayload, -, hexchange⟩ :=
    RawMember.exchange (hmeant.attributes.symm.trans hfield)
  obtain ⟨hswaps, hdenote⟩ := hexchange bytes hlength
  have hm' := hm.exchange hsplit (hpayload ▸ hlength)
  have hmeant' : ({ m with attributes := front ++ { r with payload := bytes } :: back }
      : RawMember).DenotesField d.constants place
      { field with attributes := before ++ { a with data := bytes } :: after } :=
    ⟨hmeant.flags, hmeant.name, hmeant.descriptor, hmeant.type, hdenote.symm⟩
  exact hparse _ _ _ _ _ hm' hmeant' hswaps hlength

/-- The bytes of an attribute of a method may be written over, if it does not hold the code. -/
theorem overwrite_method {methods methods' : List Method} {method : Method}
    (hfile : file.methods = methods ++ method :: methods') {before after : List Attribute}
    {a : Attribute} (hmethod : method.attributes = before ++ a :: after)
    (hname : a.name ≠ Code.attributeName) {bytes : Bytes}
    (hlength : bytes.length = a.data.length) :
    (parse (d.serialize.overwrite a.offset bytes) verbose).outcome.1 =
      .ok { file with
        methods := methods ++
          { method with attributes := before ++ { a with data := bytes } :: after } ::
            methods' } := by
  obtain ⟨m, place, hm, hmeant, hparse⟩ := exchange_method hd hdenotes verbose hfile
  obtain ⟨front, r, back, hsplit, hpayload, hisCode, hexchange⟩ :=
    RawMember.exchange (hmeant.attributes.symm.trans hmethod)
  obtain ⟨hswaps, hdenote⟩ := hexchange bytes hlength
  have hm' := hm.exchange hsplit (hpayload ▸ hlength) fun hcode ↦ absurd (hisCode.1 hcode) hname
  have hcode := hmeant.code
  rw [hmethod] at hcode
  have hmeant' : ({ m with attributes := front ++ { r with payload := bytes } :: back }
      : RawMember).DenotesMethod d.constants place
      { method with attributes := before ++ { a with data := bytes } :: after } :=
    ⟨hmeant.flags, hmeant.name, hmeant.descriptor, hmeant.type, hdenote.symm,
      RawMember.denotesCode_exchange hname hcode⟩
  exact hparse _ _ _ _ _ hm' hmeant' hswaps hlength

/-- The code of a method may be exchanged for other code that differs in one part of the same
length. The bytes of the attribute that holds it change in this part. -/
theorem exchange_code {methods methods' : List Method} {method : Method}
    (hfile : file.methods = methods ++ method :: methods') {code : Code}
    (hcode : method.code = some code) {before after : List Attribute} {c : Attribute}
    (hmethod : method.attributes = before ++ c :: after) (hname : c.name = Code.attributeName) :
    ∃ raw : RawCode, raw.WellFormed d.constants ∧ code = raw.denote d.constants c.offset ∧
      ∀ (raw' : RawCode) distance old new, raw'.WellFormed d.constants →
        Swaps distance old new raw.write raw'.write → new.length = old.length →
        (parse (d.serialize.overwrite (c.offset + distance) new) verbose).outcome.1 =
          .ok { file with
            methods := methods ++
              { method with
                attributes := before ++ { c with data := c.data.overwrite distance new } :: after
                code := some (raw'.denote d.constants c.offset) } :: methods' } := by
  obtain ⟨m, place, hm, hmeant, hparse⟩ := exchange_method hd hdenotes verbose hfile
  obtain ⟨front, r, back, hsplit, hpayload, hisCode, hexchange⟩ :=
    RawMember.exchange (hmeant.attributes.symm.trans hmethod)
  have hmember : method ∈ file.methods := hfile ▸ List.mem_append_cons_self
  have hc : c ∈ method.attributes := hmethod ▸ List.mem_append_cons_self
  obtain ⟨-, raw, hraw, hwrite, hmeans⟩ := hdenotes.code_of_name hd hmember hcode hc hname
  refine ⟨raw, hraw, hmeans, fun raw' distance old new hraw' hpart hlength ↦ ?_⟩
  -- the member is exchanged for the one with the new code, of which only the part is new
  have hnew : raw'.write = c.data.overwrite distance new := by
    rw [← hwrite]
    exact hpart.eq_overwrite hlength
  have hlength' : raw'.write.length = c.data.length := by
    rw [← hwrite]
    exact hpart.length_eq hlength
  obtain ⟨hswaps, hdenote⟩ := hexchange raw'.write hlength'
  have hm' := hm.exchange hsplit (hpayload ▸ hlength') fun _ ↦ ⟨raw', hraw', rfl⟩
  have hmeant' : ({ m with attributes := front ++ { r with payload := raw'.write } :: back }
      : RawMember).DenotesMethod d.constants place
      { method with
        attributes := before ++ { c with data := raw'.write } :: after
        code := some (raw'.denote d.constants c.offset) } :=
    ⟨hmeant.flags, hmeant.name, hmeant.descriptor, hmeant.type, hdenote.symm,
      { c with data := raw'.write }, by simp, hname, raw', hraw', rfl, rfl⟩
  rw [← hnew]
  refine hparse _ _ _ old new hm' hmeant' ?_ hlength
  have hoffset : c.offset - place + distance = c.offset + distance - place := by omega
  rw [← hoffset]
  rw [← hwrite] at hswaps
  exact hswaps.trans hpart

end

/-- The parts of a class that are not interpreted, by the place they stand at, their bytes, and the
class with other bytes for them. Where the part is one of a method's code, the bytes of the
attribute around it change with it. -/
inductive Uninterpreted (file : ClassFile) : Int → Bytes → (Bytes → ClassFile) → Prop
  /-- An attribute of the class. -/
  | ofClass {before after : List Attribute} {a : Attribute}
    (hfile : file.attributes = before ++ a :: after) :
    Uninterpreted file a.offset a.data fun bytes ↦
      { file with attributes := before ++ { a with data := bytes } :: after }
  /-- An attribute of a field. -/
  | ofField {fields fields' : List Field} {field : Field}
    (hfile : file.fields = fields ++ field :: fields') {before after : List Attribute}
    {a : Attribute} (hfield : field.attributes = before ++ a :: after) :
    Uninterpreted file a.offset a.data fun bytes ↦
      { file with
        fields := fields ++
          { field with attributes := before ++ { a with data := bytes } :: after } :: fields' }
  /-- An attribute of a method, other than that for its code. -/
  | ofMethod {methods methods' : List Method} {method : Method}
    (hfile : file.methods = methods ++ method :: methods') {before after : List Attribute}
    {a : Attribute} (hmethod : method.attributes = before ++ a :: after)
    (hname : a.name ≠ .lit "Code") :
    Uninterpreted file a.offset a.data fun bytes ↦
      { file with
        methods := methods ++
          { method with attributes := before ++ { a with data := bytes } :: after } :: methods' }
  /-- An attribute of a method's code. -/
  | ofCode {methods methods' : List Method} {method : Method}
    (hfile : file.methods = methods ++ method :: methods') {code : Code}
    (hcode : method.code = some code) {before after : List Attribute} {c : Attribute}
    (hmethod : method.attributes = before ++ c :: after) (hname : c.name = .lit "Code")
    {inner inner' : List Attribute} {a : Attribute}
    (hinner : code.attributes = inner ++ a :: inner') :
    Uninterpreted file a.offset a.data fun bytes ↦
      { file with
        methods := methods ++
          { method with
            attributes := before ++
              { c with data := c.data.overwrite (a.offset - c.offset) bytes } :: after
            code := some
              { code with attributes := inner ++ { a with data := bytes } :: inner' } } ::
          methods' }
  /-- The instructions of a method. -/
  | instructions {methods methods' : List Method} {method : Method}
    (hfile : file.methods = methods ++ method :: methods') {code : Code}
    (hcode : method.code = some code) {before after : List Attribute} {c : Attribute}
    (hmethod : method.attributes = before ++ c :: after) (hname : c.name = .lit "Code") :
    Uninterpreted file (c.offset + 8) code.code fun bytes ↦
      { file with
        methods := methods ++
          { method with
            attributes := before ++ { c with data := c.data.overwrite 8 bytes } :: after
            code := some { code with code := bytes } } :: methods' }

namespace Uninterpreted

variable {d : RawClass} {file : ClassFile} {place : Int} {old : Bytes}
  {replaced : Bytes → ClassFile}

/-- An uninterpreted part stands in the file at its place. -/
theorem standsAt (h : file.Uninterpreted place old replaced) (hd : d.WellFormed)
    (hdenotes : d.Denotes file) : StandsAt d.serialize place old := by
  cases h with
  | ofClass hfile =>
    exact (hdenotes.allPlaced hd .ofClass).stands _ (hfile ▸ List.mem_append_cons_self)
  | ofField hfile hfield =>
    have hmember := hfile ▸ List.mem_append_cons_self
    exact (hdenotes.allPlaced hd (.ofField hmember)).stands _ (hfield ▸ List.mem_append_cons_self)
  | ofMethod hfile hmethod =>
    have hmember := hfile ▸ List.mem_append_cons_self
    exact (hdenotes.allPlaced hd (.ofMethod hmember)).stands _ (hmethod ▸ List.mem_append_cons_self)
  | ofCode hfile hcode hmethod hname hinner =>
    have hmember := hfile ▸ List.mem_append_cons_self
    exact (hdenotes.allPlaced hd (.ofCode hmember hcode)).stands _
      (hinner ▸ List.mem_append_cons_self)
  | @instructions _ _ method hfile code hcode _ _ c hmethod hname =>
    have hmember : method ∈ file.methods := hfile ▸ List.mem_append_cons_self
    have hc : c ∈ method.attributes := hmethod ▸ List.mem_append_cons_self
    obtain ⟨hstands, raw, -, hwrite, rfl⟩ := hdenotes.code_of_name hd hmember hcode hc hname
    rw [← hwrite] at hstands
    exact hstands.trans (raw.swaps_code rfl).standsAt

/-- An uninterpreted part can be written over. -/
theorem outcome_overwrite (h : file.Uninterpreted place old replaced) (hd : d.WellFormed)
    (hdenotes : d.Denotes file) (verbose : Bool) {bytes : Bytes}
    (hlength : bytes.length = old.length) :
    (parse (d.serialize.overwrite place bytes) verbose).outcome.1 = .ok (replaced bytes) := by
  cases h with
  | ofClass hfile => exact overwrite_class hd hdenotes verbose hfile hlength
  | ofField hfile hfield => exact overwrite_field hd hdenotes verbose hfile hfield hlength
  | ofMethod hfile hmethod hname =>
    exact overwrite_method hd hdenotes verbose hfile hmethod hname hlength
  | @ofCode _ _ _ hfile code hcode _ _ c hmethod hname _ _ a hinner =>
    obtain ⟨raw, hraw, rfl, hparse⟩ := exchange_code hd hdenotes verbose hfile hcode hmethod hname
    obtain ⟨raw', hraw', hswaps, hmeans⟩ := RawCode.exchange_attribute hraw hinner hlength
    have hoffset : c.offset + (a.offset - c.offset) = a.offset := by omega
    have hread := hparse raw' _ _ _ hraw' hswaps hlength
    rw [hmeans, hoffset] at hread
    exact hread
  | instructions hfile hcode hmethod hname =>
    obtain ⟨raw, hraw, rfl, hparse⟩ := exchange_code hd hdenotes verbose hfile hcode hmethod hname
    obtain ⟨hraw', hmeans⟩ := RawCode.exchange_code hraw hlength
    have hread := hparse _ _ _ _ hraw' (raw.swaps_code hlength) hlength
    rw [hmeans] at hread
    exact hread

end Uninterpreted

/-- Bytes that are not interpreted do not influence reading. In a file that is read, the payload of
every attribute of the class, of a field, of a method or of its code, and the instructions of every
method, stand where they are said to; with any other bytes of the same number written over them, the
file is read as the same class but for these bytes. This leaves out the attribute of a method that
holds its code, and a method with such an attribute has code. -/
theorem parse_overwrite {data : Bytes} {verbose : Bool} {file : ClassFile}
    (h : (parse data verbose).outcome.1 = .ok file) :
    (∀ place old replaced, file.Uninterpreted place old replaced →
      data.StandsAt place old ∧
      ∀ bytes : Bytes, bytes.length = old.length →
        (parse (data.overwrite place bytes) verbose).outcome.1 = .ok (replaced bytes)) ∧
    ∀ method ∈ file.methods, ∀ c ∈ method.attributes, c.name = .lit "Code" →
      ∃ code, method.code = some code := by
  obtain ⟨d, hd, rfl, hdenotes⟩ := (outcome_eq_ok_iff data verbose file).1 h
  refine ⟨fun place old replaced hpart ↦ ⟨hpart.standsAt hd hdenotes, fun bytes hlength ↦
    hpart.outcome_overwrite hd hdenotes verbose hlength⟩, fun method hmethod c hc hname ↦ ?_⟩
  obtain ⟨m, -, place, -, hmeant⟩ := hdenotes.exists_method hmethod
  rcases hcode : method.code with _ | code
  · have hnone := hmeant.code
    rw [hcode] at hnone
    exact absurd hname (hnone c hc)
  · exact ⟨code, rfl⟩

/-- In the class with attributes at every level, the only instruction is written over by another
one, and the attribute of the code by other bytes. -/
theorem parse_overwrite_sampleLayers :
    (parse sampleLayersBytes false).outcome.1 = .ok sampleLayers ∧
    (parse (sampleLayersBytes.overwrite 95 [0xFF]) false).outcome.1 =
      .ok { sampleLayers with
        methods :=
          [⟨⟨0x1⟩, .lit "m", .lit "()V", ⟨[], .void⟩,
            [⟨.lit "A", [7], 80⟩,
              ⟨.lit "Code",
                [0, 1, 0, 1, 0, 0, 0, 1, 0xFF, 0, 0, 0, 1, 0, 1, 0, 0, 0, 3, 1, 2, 3], 87⟩],
            some ⟨1, 1, [0xFF], [], [⟨.lit "A", [1, 2, 3], 106⟩]⟩⟩] } ∧
    (parse (sampleLayersBytes.overwrite 106 [0, 0, 0]) false).outcome.1 =
      .ok { sampleLayers with
        methods :=
          [⟨⟨0x1⟩, .lit "m", .lit "()V", ⟨[], .void⟩,
            [⟨.lit "A", [7], 80⟩,
              ⟨.lit "Code",
                [0, 1, 0, 1, 0, 0, 0, 1, 0xB1, 0, 0, 0, 1, 0, 1, 0, 0, 0, 3, 0, 0, 0], 87⟩],
            some ⟨1, 1, [0xB1], [], [⟨.lit "A", [0, 0, 0], 106⟩]⟩⟩] } := by
  have hparts := (parse_overwrite parse_sampleLayersBytes).1
  have hinstructions := hparts _ _ _
    (@Uninterpreted.instructions sampleLayers [] [] _ rfl _ rfl [_] [] _ rfl rfl)
  have hattribute := hparts _ _ _
    (@Uninterpreted.ofCode sampleLayers [] [] _ rfl _ rfl [_] [] _ rfl rfl [] [] _ rfl)
  exact ⟨parse_sampleLayersBytes, hinstructions.2 [0xFF] rfl, hattribute.2 [0, 0, 0] rfl⟩

end ClassFile

end ClassInspect
