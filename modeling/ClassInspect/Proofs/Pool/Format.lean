import ClassInspect.Proofs.ClassFile.Description
import ClassInspect.Proofs.Outcome

/-!
# The format of the constant pool

Reading a constant accepts exactly the well-formed ones, written down (`Constant.decodes_read`),
and reading a pool exactly the pools whose slots add up to the announced number and whose
references hold (`Pool.reads_read`). A pool without constants can be announced by the numbers zero
and one; only the second is how such a pool is written.

## What the two theorems rest on

* There are seventeen kinds of constants, and fifteen of them consist of one number, one index or
  two indices. `DecodesBody.single`, `DecodesBody.index` and `DecodesBody.indices` are about any
  such kind, given by its constructor; the other two, texts and method handles, can be refused for
  what they hold and have lemmas of their own. `DecodesBody.readBody` has one case for each kind.
* The byte in front decides the kind, and no byte is that of two kinds (`Tag.ofCode?_eq_some_iff`).
  So the format of a constant is that of its kind behind its byte.
* Slots are filled one constant at a time (`Pool.reads_readSlots`). The number of slots left is what
  the reader counts, and constants that take two are why it is a strong induction, and why a pool
  can fail to end where it should.
* References are checked on the pool that was read, while a description is well-formed by look-ups
  of its own. Between the two stands the agreement of look-ups: what is found in the pool that was
  read is what the description has at that index (`RawPool.item_denote`). From it follow the
  agreement on texts and class names, which the rest of the file is read with, and that of the
  checks (`RawPool.check_denote`).
-/

namespace ClassInspect

open Scan (Reads Decodes)

/-! ### Constants -/

/-- A byte announces the kind whose byte it is. -/
theorem Tag.ofCode?_eq_some_iff {code : Nat} {tag : Tag} :
    ofCode? code = some tag ↔ code = tag.code := by
  constructor
  · intro h
    simpa [eq_comm] using List.find?_some h
  · rintro rfl
    cases tag <;> rfl

/-- The kinds of method handles are numbered from one to nine. -/
theorem ReferenceKind.isSome_ofCode?_iff {kind : UInt8} :
    (ofCode? kind.toNat).isSome = true ↔ 1 ≤ kind ∧ kind ≤ 9 := by
  have hlow : 1 ≤ kind ↔ 1 ≤ kind.toNat := UInt8.le_iff_toNat_le
  have hhigh : kind ≤ 9 ↔ kind.toNat ≤ 9 := UInt8.le_iff_toNat_le
  rw [hlow, hhigh, ofCode?]
  split
  · rw [isSome_getElem?]
    simp only [all, List.length_cons, List.length_nil]
    omega
  · simp only [Option.isSome_none, Bool.false_eq_true, false_iff]
    omega

/-- A scan reads the components of the constants of one kind. -/
abbrev DecodesBody (tag : Tag) (scan : Scan Constant) : Prop :=
  Decodes scan (fun constant : RawConstant ↦ constant.tag = tag ∧ constant.WellFormed)
    RawConstant.body fun _ constant value ↦ value = constant.denote

namespace DecodesBody

variable {tag : Tag} {α β : Type} {scan : Scan β} {fits : α → Prop} {write : α → Bytes}
  {value : α → β}

/-- A kind of constants with one component. -/
theorem single (raw : α → RawConstant) (make : β → Constant)
    (h : Decodes scan fits write fun _ a found ↦ found = value a)
    (htag : ∀ constant : RawConstant, constant.tag = tag ↔ ∃ a, constant = raw a)
    (hraw : ∀ a, ((raw a).WellFormed ↔ fits a) ∧ (raw a).body = write a ∧
      (raw a).denote = make (value a)) :
    DecodesBody tag (do return make (← scan)) := by
  rw [← map_eq_pure_bind]
  refine Reads.congr (Reads.map h make) fun _ bytes constant ↦ ?_
  constructor
  · rintro ⟨_, ⟨a, ha, rfl, rfl⟩, rfl⟩
    obtain ⟨hwf, hbody, hdenote⟩ := hraw a
    exact ⟨raw a, ⟨(htag _).2 ⟨a, rfl⟩, hwf.2 ha⟩, hbody.symm, hdenote.symm⟩
  · rintro ⟨constant, ⟨hconstant, hwellFormed⟩, rfl, rfl⟩
    obtain ⟨a, rfl⟩ := (htag constant).1 hconstant
    obtain ⟨hwf, hbody, hdenote⟩ := hraw a
    exact ⟨value a, ⟨a, hwf.1 hwellFormed, hbody, rfl⟩, hdenote⟩

/-- Decoding the bytes of a text takes no more of them. -/
theorem reads_ofPayload (place : Int) (payload : Bytes) :
    Reads (Constant.ofPayload place payload) fun _ bytes constant ↦ bytes = [] ∧
      ∃ text, ModifiedUtf8.decode payload = .ok text ∧ constant = .utf8 text := by
  unfold Constant.ofPayload
  rcases hpayload : ModifiedUtf8.decode payload with error | text
  · exact (Reads.throw _).congr fun _ _ _ ↦ by simp
  · exact (Reads.pure _).congr fun _ _ _ ↦ by simp

/-- A text of a known length, decoded. -/
theorem utf8 (place : Int) : DecodesBody .utf8 (Constant.readBody place .utf8) := by
  refine ((Reads.unsigned 2).bind fun size ↦
    (Reads.take size).bind (reads_ofPayload place)).congr fun _ bytes constant ↦ ?_
  constructor
  · rintro ⟨_, _, _, rfl, ⟨hsize, rfl⟩, _, _, payload, rfl, ⟨rfl, rfl⟩, rfl, text, htext, rfl⟩
    refine ⟨.utf8 payload, ⟨rfl, hsize, text, htext⟩, by simp [RawConstant.body], ?_⟩
    simp [RawConstant.denote, decodedText, htext]
  · rintro ⟨constant, ⟨hconstant, hwellFormed⟩, rfl, rfl⟩
    cases constant with
    | utf8 payload =>
      obtain ⟨hsize, text, htext⟩ := hwellFormed
      refine ⟨_, payload, payload.length, rfl, ⟨hsize, rfl⟩, payload, [], payload, by simp,
        ⟨rfl, rfl⟩, rfl, text, htext, ?_⟩
      simp [RawConstant.denote, decodedText, htext]
    | _ => cases hconstant

/-- A method handle of a kind that exists. -/
theorem methodHandle (place : Int) :
    DecodesBody .methodHandle (Constant.readBody place .methodHandle) := by
  have hkind (kind reference : Nat) :
      Reads (if (ReferenceKind.ofCode? kind).isSome then
          (return .methodHandle kind reference : Scan Constant)
        else Scan.fail (.invalidHandleKind kind) place)
        fun _ bytes constant ↦ bytes = [] ∧ (ReferenceKind.ofCode? kind).isSome ∧
          constant = .methodHandle kind reference := by
    split
    · rename_i hsome
      exact (Reads.pure _).congr fun _ _ _ ↦ by simp [hsome]
    · rename_i hnone
      exact (Reads.throw _).congr fun _ _ _ ↦ by simp [hnone]
  refine (Scan.decodes_u8.bind fun kind ↦ Scan.decodes_u16.bind fun reference ↦
    hkind kind reference).congr fun _ bytes constant ↦ ?_
  constructor
  · rintro ⟨_, _, _, rfl, ⟨kind, -, rfl, rfl⟩, _, _, _, rfl, ⟨reference, -, rfl, rfl⟩, rfl, hsome,
      rfl⟩
    refine ⟨.methodHandle kind reference, ⟨rfl, ReferenceKind.isSome_ofCode?_iff.1 hsome⟩, ?_,
      rfl⟩
    simp [RawConstant.body]
  · rintro ⟨constant, ⟨hconstant, hwellFormed⟩, rfl, rfl⟩
    cases constant with
    | methodHandle kind reference =>
      exact ⟨_, _, kind.toNat, rfl, ⟨kind, trivial, rfl, rfl⟩, _, [], reference.toNat,
        (List.append_nil _).symm, ⟨reference, trivial, rfl, rfl⟩, rfl,
        ReferenceKind.isSome_ofCode?_iff.2 hwellFormed, rfl⟩
    | _ => cases hconstant

/-- A kind of constants with one index. -/
theorem index (raw : UInt16 → RawConstant) (make : Int → Constant)
    (htag : ∀ constant : RawConstant, constant.tag = tag ↔ ∃ a, constant = raw a)
    (hraw : ∀ a, (raw a).WellFormed ∧ (raw a).body = .ofU16 a ∧
      (raw a).denote = make a.toNat) :
    DecodesBody tag (do return make (← Scan.u16)) :=
  single raw (fun number : Nat ↦ make number) Scan.decodes_u16 htag fun a ↦
    ⟨iff_true_intro (hraw a).1, (hraw a).2⟩

/-- A kind of constants with two indices. -/
theorem indices (raw : UInt16 → UInt16 → RawConstant) (make : Int → Int → Constant)
    (htag : ∀ constant : RawConstant, constant.tag = tag ↔ ∃ a b, constant = raw a b)
    (hraw : ∀ a b, (raw a b).WellFormed ∧ (raw a b).body = .ofU16 a ++ .ofU16 b ∧
      (raw a b).denote = make a.toNat b.toNat) :
    DecodesBody tag (do return make (← Scan.u16) (← Scan.u16)) := by
  refine (Scan.decodes_u16.bind fun _ ↦ Scan.decodes_u16.bind fun _ ↦ .pure _).congr
    fun _ bytes constant ↦ ?_
  constructor
  · rintro ⟨_, _, _, rfl, ⟨a, -, rfl, rfl⟩, _, _, _, rfl, ⟨b, -, rfl, rfl⟩, rfl, rfl⟩
    obtain ⟨hwf, hbody, hdenote⟩ := hraw a b
    refine ⟨raw a b, ⟨(htag _).2 ⟨a, b, rfl⟩, hwf⟩, ?_, hdenote.symm⟩
    rw [hbody, List.append_nil]
  · rintro ⟨constant, ⟨hconstant, -⟩, rfl, rfl⟩
    obtain ⟨a, b, rfl⟩ := (htag constant).1 hconstant
    obtain ⟨-, hbody, hdenote⟩ := hraw a b
    exact ⟨_, _, a.toNat, hbody, ⟨a, trivial, rfl, rfl⟩, _, [], b.toNat,
      (List.append_nil _).symm, ⟨b, trivial, rfl, rfl⟩, rfl, hdenote⟩

/-- The components of a constant of any kind. -/
theorem readBody (place : Int) (tag : Tag) : DecodesBody tag (Constant.readBody place tag) := by
  cases tag
  case utf8 => exact utf8 place
  case methodHandle => exact methodHandle place
  case integer =>
    exact single .integer .integer (Scan.decodes_signed (by decide))
      (fun constant ↦ by cases constant <;> simp [RawConstant.tag]) fun _ ↦ ⟨Iff.rfl, rfl, rfl⟩
  case long =>
    exact single .long .long (Scan.decodes_signed (by decide))
      (fun constant ↦ by cases constant <;> simp [RawConstant.tag]) fun _ ↦ ⟨Iff.rfl, rfl, rfl⟩
  case float =>
    exact single .float .float Scan.decodes_f32
      (fun constant ↦ by cases constant <;> simp [RawConstant.tag]) fun _ ↦ ⟨Iff.rfl, rfl, rfl⟩
  case double =>
    exact single .double .double Scan.decodes_f64
      (fun constant ↦ by cases constant <;> simp [RawConstant.tag]) fun _ ↦ ⟨Iff.rfl, rfl, rfl⟩
  case classRef =>
    exact index .classRef .classRef
      (fun constant ↦ by cases constant <;> simp [RawConstant.tag]) fun _ ↦ ⟨trivial, rfl, rfl⟩
  case string =>
    exact index .string .string
      (fun constant ↦ by cases constant <;> simp [RawConstant.tag]) fun _ ↦ ⟨trivial, rfl, rfl⟩
  case methodType =>
    exact index .methodType .methodType
      (fun constant ↦ by cases constant <;> simp [RawConstant.tag]) fun _ ↦ ⟨trivial, rfl, rfl⟩
  case module =>
    exact index .module .module
      (fun constant ↦ by cases constant <;> simp [RawConstant.tag]) fun _ ↦ ⟨trivial, rfl, rfl⟩
  case package =>
    exact index .package .package
      (fun constant ↦ by cases constant <;> simp [RawConstant.tag]) fun _ ↦ ⟨trivial, rfl, rfl⟩
  case fieldRef =>
    exact indices .fieldRef .fieldRef
      (fun constant ↦ by cases constant <;> simp [RawConstant.tag]) fun _ _ ↦ ⟨trivial, rfl, rfl⟩
  case methodRef =>
    exact indices .methodRef .methodRef
      (fun constant ↦ by cases constant <;> simp [RawConstant.tag]) fun _ _ ↦ ⟨trivial, rfl, rfl⟩
  case interfaceMethodRef =>
    exact indices .interfaceMethodRef .interfaceMethodRef
      (fun constant ↦ by cases constant <;> simp [RawConstant.tag]) fun _ _ ↦ ⟨trivial, rfl, rfl⟩
  case nameAndType =>
    exact indices .nameAndType .nameAndType
      (fun constant ↦ by cases constant <;> simp [RawConstant.tag]) fun _ _ ↦ ⟨trivial, rfl, rfl⟩
  case dynamic =>
    exact indices .dynamic .dynamic
      (fun constant ↦ by cases constant <;> simp [RawConstant.tag]) fun _ _ ↦ ⟨trivial, rfl, rfl⟩
  case invokeDynamic =>
    exact indices .invokeDynamic .invokeDynamic
      (fun constant ↦ by cases constant <;> simp [RawConstant.tag]) fun _ _ ↦ ⟨trivial, rfl, rfl⟩

end DecodesBody

/-- Behind a byte stand the components of a constant of the kind that it announces. -/
theorem Constant.reads_readRest (place : Int) (code : Nat) :
    Reads (Constant.readRest place code) fun _ bytes value ↦ ∃ constant : RawConstant,
      code = constant.tag.code ∧ constant.WellFormed ∧ bytes = constant.body ∧
        value = constant.denote := by
  unfold Constant.readRest
  rcases hcode : Tag.ofCode? code with _ | tag
  · refine (Reads.throw _).congr fun _ bytes value ↦ ?_
    constructor
    · exact False.elim
    · rintro ⟨constant, htag, -⟩
      rw [Tag.ofCode?_eq_some_iff.2 htag] at hcode
      cases hcode
  · -- the kind that was found is the kind of the constant, since its byte is no other's
    refine (DecodesBody.readBody place tag).congr fun _ bytes value ↦ ?_
    constructor
    · rintro ⟨constant, ⟨rfl, hwellFormed⟩, hbytes, hvalue⟩
      exact ⟨constant, Tag.ofCode?_eq_some_iff.1 hcode, hwellFormed, hbytes, hvalue⟩
    · rintro ⟨constant, htag, hwellFormed, hbytes, hvalue⟩
      rw [Tag.ofCode?_eq_some_iff.2 htag] at hcode
      exact ⟨constant, ⟨Option.some.inj hcode, hwellFormed⟩, hbytes, hvalue⟩

/-- A constant is read from the byte of its kind and its components. -/
theorem Constant.decodes_read :
    Decodes Constant.read RawConstant.WellFormed RawConstant.write
      fun _ constant value ↦ value = constant.denote := by
  refine (Reads.place.stillThen fun place ↦
    (Reads.unsigned 1).bind (Constant.reads_readRest place)).congr fun m bytes value ↦ ?_
  constructor
  · rintro ⟨_, -, _, _, _, rfl, ⟨-, rfl⟩, constant, rfl, hwellFormed, rfl, rfl⟩
    exact ⟨constant, hwellFormed, rfl, rfl⟩
  · rintro ⟨constant, hwellFormed, rfl, rfl⟩
    refine ⟨m.place, rfl, _, _, constant.tag.code, rfl, ⟨?_, rfl⟩, constant, rfl, hwellFormed, rfl,
      rfl⟩
    cases constant.tag <;> decide

/-! ### Slots -/

/-- The slots of a constant. -/
def Constant.slots (constant : Constant) : Array (Option Constant) :=
  if constant.takesTwo then #[some constant, none] else #[some constant]

/-- A constant takes the slots of its description. -/
theorem RawConstant.slots_denote (constant : RawConstant) :
    constant.denote.slots = (constant.slots.map (Option.map denote)).toArray := by
  cases constant <;> rfl

namespace RawPool

theorem denote_cons (constant : RawConstant) (pool : RawPool) :
    (denote (constant :: pool)).slots = constant.denote.slots ++ pool.denote.slots := by
  simp [denote, slots, RawConstant.slots_denote]

theorem length_slots_cons (constant : RawConstant) (pool : RawPool) :
    (slots (constant :: pool)).length = constant.denote.slots.size + pool.slots.length := by
  simp [slots, RawConstant.slots_denote]

/-- Every constant takes a slot. -/
theorem eq_nil_of_slots {pool : RawPool} (h : pool.slots.length = 0) : pool = [] := by
  cases pool with
  | nil => rfl
  | cons constant pool =>
    rw [length_slots_cons, Constant.slots] at h
    split at h <;> simp at h

end RawPool

namespace Pool

/-- Logging does not change what is read. -/
theorem decodes_readEntry (verbose : Bool) (index : Nat) :
    Decodes (readEntry verbose index) RawConstant.WellFormed RawConstant.write
      fun _ constant value ↦ value = constant.denote := by
  have hnote (constant : Constant) :
      Reads (do
        if verbose then
          Scan.note .debug .reader (.lit s!"constant #{index}: " ++ constant.label)
        return constant) fun _ bytes value ↦ bytes = [] ∧ value = constant := by
    cases verbose
    · exact .pure constant
    · exact .noteThen (.pure constant)
  refine (Constant.decodes_read.bind hnote).congr fun _ bytes value ↦ ?_
  constructor
  · rintro ⟨_, _, _, rfl, ⟨constant, hwellFormed, rfl, rfl⟩, rfl, rfl⟩
    exact ⟨constant, hwellFormed, List.append_nil _, rfl⟩
  · rintro ⟨constant, hwellFormed, rfl, rfl⟩
    exact ⟨_, [], _, (List.append_nil _).symm, ⟨constant, hwellFormed, rfl, rfl⟩, rfl, rfl⟩

/-- The constants that fill `left` more slots of a pool. -/
def slotsFormat (left : Nat) (pool : Pool) : Scan.Format Pool := fun _ bytes value ↦
  ∃ constants : RawPool, (∀ constant ∈ constants, constant.WellFormed) ∧
    constants.slots.length = left ∧ bytes = constants.flatMap RawConstant.write ∧
    value = ⟨pool.slots ++ constants.denote.slots⟩

/-- What remains is filled behind a constant, if there is room for all its slots. -/
theorem reads_afterEntry {verbose : Bool} {left : Nat}
    (ih : ∀ rest ≤ left, ∀ pool, Reads (readSlots verbose rest pool) (slotsFormat rest pool))
    (pool : Pool) (constant : Constant) :
    Reads (if constant.takesTwo then
        match left with
        | 0 => throw (.nowhere (.pool .lastTakesTwo))
        | left + 1 => readSlots verbose left ((pool.append (some constant)).append none)
      else readSlots verbose left (pool.append (some constant)))
      fun m bytes value ↦ ∃ rest, constant.slots.size + rest = left + 1 ∧
        slotsFormat rest ⟨pool.slots ++ constant.slots⟩ m bytes value := by
  rcases htwo : constant.takesTwo with _ | _
  · -- one slot less remains
    have hslots : constant.slots = #[some constant] := by simp [Constant.slots, htwo]
    refine (ih left (Nat.le_refl left) (pool.append (some constant))).congr fun m bytes value ↦ ?_
    rw [hslots]
    constructor
    · intro hrest
      exact ⟨left, Nat.add_comm 1 left, hrest⟩
    · rintro ⟨rest, hrest, hformat⟩
      obtain rfl : rest = left := by simpa [Nat.add_comm] using hrest
      exact hformat
  · -- two slots less remain, if there are two
    have hslots : constant.slots = #[some constant, none] := by simp [Constant.slots, htwo]
    rw [hslots]
    cases left with
    | zero =>
      refine (Reads.throw _).congr fun m bytes value ↦ ?_
      constructor
      · exact False.elim
      · rintro ⟨rest, hrest, -⟩
        change 2 + rest = 0 + 1 at hrest
        omega
    | succ left =>
      have hpool : (pool.append (some constant)).append none =
          ⟨pool.slots ++ #[some constant, none]⟩ := by
        rw [append, append, Pool.mk.injEq, ← Array.toList_inj]
        simp
      refine (ih left (Nat.le_succ left) _).congr fun m bytes value ↦ ?_
      rw [hpool]
      constructor
      · intro hrest
        exact ⟨left, Nat.add_comm 2 left, hrest⟩
      · rintro ⟨rest, hrest, hformat⟩
        obtain rfl : rest = left := by
          change 2 + rest = left + 1 + 1 at hrest
          omega
        exact hformat

/-- The slots that remain are filled by constants that take as many. -/
theorem reads_readSlots (verbose : Bool) (left : Nat) (pool : Pool) :
    Reads (readSlots verbose left pool) (slotsFormat left pool) := by
  -- a long constant takes two slots at once, so the induction has to reach two back
  induction left using Nat.strongRecOn generalizing pool with
  | ind left ih =>
    cases left with
    | zero =>
      rw [readSlots]
      refine (Reads.pure pool).congr fun m bytes value ↦ ?_
      constructor
      · rintro ⟨rfl, rfl⟩
        exact ⟨[], by simp, rfl, rfl, by simp [RawPool.denote, RawPool.slots]⟩
      · rintro ⟨constants, -, hleft, rfl, rfl⟩
        obtain rfl := RawPool.eq_nil_of_slots hleft
        exact ⟨rfl, by simp [RawPool.denote, RawPool.slots]⟩
    | succ left =>
      rw [readSlots]
      refine ((decodes_readEntry verbose pool.count).bind
        (reads_afterEntry (fun rest hrest ↦ ih rest (Nat.lt_succ_of_le hrest)) pool)).congr
        fun m bytes value ↦ ?_
      constructor
      · rintro ⟨_, _, _, rfl, ⟨constant, hconstant, rfl, rfl⟩, rest, hrest, constants, hconstants,
          rfl, rfl, rfl⟩
        refine ⟨constant :: constants, List.forall_mem_cons.2 ⟨hconstant, hconstants⟩, ?_, rfl, ?_⟩
        · rw [RawPool.length_slots_cons]
          exact hrest
        · rw [RawPool.denote_cons, Array.append_assoc]
      · rintro ⟨constants, hconstants, hleft, rfl, rfl⟩
        cases constants with
        | nil => cases hleft
        | cons constant constants =>
          obtain ⟨hconstant, hconstants⟩ := List.forall_mem_cons.1 hconstants
          refine ⟨constant.write, _, constant.denote, rfl, ⟨constant, hconstant, rfl, rfl⟩,
            (RawPool.slots constants).length, ?_, constants, hconstants, rfl, rfl, ?_⟩
          · rw [← RawPool.length_slots_cons]
            exact hleft
          · rw [RawPool.denote_cons, Array.append_assoc]

end Pool

/-! ### Look-ups -/

/-- A look-up finds what stands in the slot of its number. -/
theorem Pool.item_eq_ok_iff {pool : Pool} {index : Nat} {constant : Constant} :
    pool.item index = .ok constant ↔
      (none :: pool.slots.toList)[index]? = some (some constant) := by
  unfold item
  cases index with
  | zero => simp
  | succ index =>
    -- numbers start at one, so the slot of number `index + 1` stands at position `index`
    have hindex : (((index + 1 : Nat) : Int) - 1).toNat = index := by omega
    simp only [hindex, List.getElem?_cons_succ, Array.getElem?_toList]
    split
    · rename_i inside
      have hlt : index < pool.slots.size := by
        rw [count] at inside
        omega
      rw [Array.getElem?_eq_getElem hlt]
      split <;> rename_i hslot <;> simp [hslot]
    · rename_i outside
      have hle : pool.slots.size ≤ index := by
        rw [count] at outside
        omega
      simp [hle]

/-- The pool indices of a constant are those of its description. -/
theorem RawConstant.references_denote (constant : RawConstant) :
    constant.denote.references =
      constant.references.map fun reference ↦ ((reference.1.toNat : Int), reference.2) := by
  cases constant <;> rfl

theorem RawConstant.tag_denote (constant : RawConstant) : constant.denote.tag = constant.tag := by
  cases constant <;> rfl

/-- Some kind is allowed at every reference. -/
theorem RawConstant.references_ne_nil {constant : RawConstant} {reference : UInt16 × List Tag}
    (h : reference ∈ constant.references) : reference.2 ≠ [] := by
  cases constant <;> simp [references] at h <;> grind

/-- The constants with indices are those in the slots. -/
theorem Pool.exists_mem_entries_iff {pool : Pool} {constant : Constant} :
    (∃ index, (index, constant) ∈ pool.entries) ↔ some constant ∈ pool.slots.toList := by
  simp only [entries, List.mem_filterMap, Option.map_eq_some_iff, Prod.mk.injEq]
  constructor
  · rintro ⟨index, ⟨slot, number⟩, hmem, other, hslot, rfl, rfl⟩
    rw [← hslot]
    exact List.fst_mem_of_mem_zipIdx hmem
  · intro hmem
    obtain ⟨number, hnumber, hslot⟩ := List.getElem_of_mem hmem
    refine ⟨1 + number, (some constant, 1 + number), ?_, constant, rfl, rfl, rfl⟩
    rw [List.mk_add_mem_zipIdx_iff_getElem?, List.getElem?_eq_getElem hnumber, hslot]

/-- A reference passes if the look-up behind it succeeds. -/
theorem Pool.checkReference_eq_ok_iff {pool : Pool} {holder : Nat} {tag : Tag}
    {reference : Int × List Tag} :
    pool.checkReference holder tag reference = .ok () ↔
      ∃ constant, pool.get reference.1 reference.2 = .ok constant := by
  unfold checkReference
  split <;> simp_all

namespace RawPool

variable {pool : RawPool} {index : UInt16}

theorem some_mem_slots {constant : RawConstant} :
    some constant ∈ pool.slots ↔ constant ∈ pool := by
  rw [slots, List.mem_flatMap]
  constructor
  · rintro ⟨other, hother, hslot⟩
    cases other <;> simp [RawConstant.slots] at hslot <;> exact hslot ▸ hother
  · intro hconstant
    refine ⟨constant, hconstant, ?_⟩
    cases constant <;> simp [RawConstant.slots]

/-- What stands at an index is a constant of the pool. -/
theorem mem_of_at? {constant : RawConstant} (h : pool.at? index = some constant) :
    constant ∈ pool := by
  rw [at?, Option.join_eq_some_iff] at h
  rcases List.mem_cons.1 (List.mem_of_getElem? h) with hnone | hslot
  · cases hnone
  · exact some_mem_slots.1 hslot

/-- The constant found at an index is the one that the description has there. -/
theorem item_denote {constant : Constant} :
    pool.denote.item index.toNat = .ok constant ↔
      ∃ raw, pool.at? index = some raw ∧ constant = raw.denote := by
  rw [Pool.item_eq_ok_iff, at?]
  generalize index.toNat = n
  cases n with
  | zero => simp
  | succ n =>
    simp only [denote, List.getElem?_cons_succ, List.getElem?_map]
    rcases pool.slots[n]? with _ | _ | raw <;> simp [eq_comm]

/-- A look-up among given kinds succeeds if the description holds one of them there. -/
theorem get_denote {tags : List Tag} (htags : tags ≠ []) :
    (∃ constant, pool.denote.get index.toNat tags = .ok constant) ↔ pool.Holds index tags := by
  constructor
  · rintro ⟨constant, hget⟩
    obtain ⟨found, hitem, hfound⟩ := bind_eq_ok_iff.1 hget
    obtain ⟨raw, hraw, rfl⟩ := item_denote.1 hitem
    refine ⟨raw, hraw, ?_⟩
    split at hfound
    · rename_i hmem
      simpa [htags, RawConstant.tag_denote] using hmem
    · cases hfound
  · rintro ⟨raw, hraw, htag⟩
    refine ⟨raw.denote, bind_eq_ok_iff.2 ⟨raw.denote, item_denote.2 ⟨raw, hraw, rfl⟩, ?_⟩⟩
    rw [if_pos (by simp [RawConstant.tag_denote, htag])]
    rfl

/-- The text found at an index is the one that the description has there. -/
theorem utf8_denote {text : Text} :
    pool.denote.utf8 index.toNat = .ok text ↔
      pool.Holds index [.utf8] ∧ text = pool.text index := by
  rw [Pool.utf8, bind_eq_ok_iff]
  constructor
  · rintro ⟨found, hitem, hfound⟩
    obtain ⟨raw, hraw, rfl⟩ := item_denote.1 hitem
    cases raw <;> cases hfound
    exact ⟨⟨_, hraw, by simp [RawConstant.tag]⟩, by rw [RawPool.text, hraw]⟩
  · rintro ⟨⟨raw, hraw, htag⟩, rfl⟩
    refine ⟨raw.denote, item_denote.2 ⟨raw, hraw, rfl⟩, ?_⟩
    cases raw <;> simp [RawConstant.tag] at htag
    rw [RawPool.text, hraw]
    rfl

/-- The class name found at an index is the one that the description has there, if the
references of the description hold. -/
theorem className_denote (hpool : pool.WellFormed) {text : Text} :
    pool.denote.className index.toNat = .ok text ↔
      pool.Holds index [.classRef] ∧ text = pool.className index := by
  rw [Pool.className, bind_eq_ok_iff]
  constructor
  · rintro ⟨found, hitem, hfound⟩
    obtain ⟨raw, hraw, rfl⟩ := item_denote.1 hitem
    cases raw with
    | classRef name =>
      refine ⟨⟨_, hraw, by simp [RawConstant.tag]⟩, ?_⟩
      rw [RawPool.className, hraw]
      exact (utf8_denote.1 hfound).2
    | _ => cases hfound
  · rintro ⟨⟨raw, hraw, htag⟩, rfl⟩
    refine ⟨raw.denote, item_denote.2 ⟨raw, hraw, rfl⟩, ?_⟩
    cases raw with
    | classRef name =>
      -- the class refers to a text, which the pool was checked for
      have hname : pool.Holds name [.utf8] :=
        hpool.references _ (mem_of_at? hraw) (name, [.utf8]) (by simp [RawConstant.references])
      rw [RawPool.className, hraw]
      exact utf8_denote.2 ⟨hname, rfl⟩
    | _ => simp [RawConstant.tag] at htag

/-! ### The whole pool -/

/-- The constants of the pool that is meant are those that the description's constants mean. -/
theorem mem_entries_denote {constant : Constant} :
    (∃ index, (index, constant) ∈ pool.denote.entries) ↔
      ∃ raw ∈ pool, constant = raw.denote := by
  rw [Pool.exists_mem_entries_iff, denote, List.mem_map]
  constructor
  · rintro ⟨slot, hslot, hmap⟩
    obtain ⟨raw, rfl, rfl⟩ := Option.map_eq_some_iff.1 hmap
    exact ⟨raw, some_mem_slots.1 hslot, rfl⟩
  · rintro ⟨raw, hraw, rfl⟩
    exact ⟨some raw, some_mem_slots.2 hraw, rfl⟩

/-- The check of a pool passes if the references of the description hold. -/
theorem check_denote :
    pool.denote.check = .ok () ↔
      ∀ constant ∈ pool, ∀ reference ∈ constant.references,
        pool.Holds reference.1 reference.2 := by
  -- for one constant, whatever index it is reported under
  have hreferences (index : Nat) (raw : RawConstant) :
      raw.denote.references.forM (pool.denote.checkReference index raw.denote.tag) = .ok () ↔
        ∀ reference ∈ raw.references, pool.Holds reference.1 reference.2 := by
    rw [forM_eq_ok_iff, RawConstant.references_denote, List.forall_mem_map]
    refine forall₂_congr fun reference hreference ↦ ?_
    rw [Pool.checkReference_eq_ok_iff, get_denote (RawConstant.references_ne_nil hreference)]
  rw [Pool.check_eq_forM_references, forM_eq_ok_iff]
  constructor
  · intro hcheck raw hraw
    obtain ⟨index, hentry⟩ := mem_entries_denote.2 ⟨raw, hraw, rfl⟩
    exact (hreferences index raw).1 (hcheck (index, raw.denote) hentry)
  · rintro hholds ⟨index, constant⟩ hentry
    obtain ⟨raw, hraw, rfl⟩ := mem_entries_denote.1 ⟨index, hentry⟩
    exact (hreferences index raw).2 (hholds raw hraw)

end RawPool

/-- Checking a pool that was read reads nothing more. -/
theorem Pool.reads_check (pool : Pool) :
    Reads (do
      Scan.ofExcept (lift pool.check)
      Scan.note .debug .reader (.lit s!"Read constant pool with {pool.count} items")
      return pool) fun _ bytes value ↦ bytes = [] ∧ pool.check = .ok () ∧ value = pool := by
  refine ((Reads.ofExcept _).stillThen fun _ ↦ .noteThen (.pure pool)).congr
    fun _ bytes value ↦ ?_
  have hlift : lift pool.check = .ok () ↔ pool.check = .ok () := mapError_eq_ok_iff
  rw [← hlift]
  constructor
  · rintro ⟨_, hcheck, rfl, rfl⟩
    exact ⟨rfl, hcheck, rfl⟩
  · rintro ⟨rfl, hcheck, rfl⟩
    exact ⟨(), hcheck, rfl, rfl⟩

/-- Reading a pool accepts the well-formed pools, written down. The pool without constants is also
read from a count of zero. -/
theorem Pool.reads_read (verbose : Bool) :
    Reads (read verbose) fun _ bytes value ↦ ∃ pool : RawPool, pool.WellFormed ∧
      value = pool.denote ∧ (bytes = pool.write ∨ pool = [] ∧ bytes = .ofNat 2 0) := by
  have hempty (pool : RawPool) : (⟨empty.slots ++ pool.denote.slots⟩ : Pool) = pool.denote := by
    simp [empty]
  refine ((Reads.unsigned 2).bind fun count ↦
    (reads_readSlots verbose (count - 1) empty).bind reads_check).congr fun _ bytes value ↦ ?_
  constructor
  · rintro ⟨_, _, count, rfl, ⟨hcount, rfl⟩, _, _, _, rfl, ⟨pool, hconstants, hslots, rfl, rfl⟩,
      rfl, hcheck, rfl⟩
    rw [hempty] at hcheck ⊢
    rw [List.append_nil]
    refine ⟨pool, ⟨by omega, hconstants, RawPool.check_denote.1 hcheck⟩, rfl, ?_⟩
    -- a count of zero leaves as many slots as a count of one
    cases count with
    | zero =>
      obtain rfl := RawPool.eq_nil_of_slots hslots
      exact .inr ⟨rfl, rfl⟩
    | succ count =>
      rw [Nat.add_sub_cancel] at hslots
      exact .inl (by rw [RawPool.write, hslots])
  · rintro ⟨pool, hpool, rfl, hbytes⟩
    have hcheck := RawPool.check_denote.2 hpool.references
    rw [← hempty] at hcheck ⊢
    rcases hbytes with rfl | ⟨rfl, rfl⟩
    · exact ⟨_, _, pool.slots.length + 1, rfl, ⟨hpool.count, rfl⟩, _, [], _,
        (List.append_nil _).symm, ⟨pool, hpool.constants, rfl, rfl, rfl⟩, rfl, hcheck, rfl⟩
    · exact ⟨_, [], 0, rfl, ⟨by decide, rfl⟩, [], [], _, rfl,
        ⟨[], by simp, rfl, rfl, rfl⟩, rfl, hcheck, rfl⟩

end ClassInspect
