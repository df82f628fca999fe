import ClassInspect.Proofs.Instruction.Cut
import ClassInspect.Proofs.Scan.Relocation

/-!
# Code behind code

Code that follows other code is decoded as it is by itself, save that all positions are moved by the
length of what stands in front of it (`Instruction.decodeAll_append`). The positions are those of
the instructions and of all targets of branches and switches; every other operand is what it was. A
fault is the same one, found as much further on.

The length must be a multiple of four: the padding in front of a switch table depends on the
position of the table, and nothing but the remainder by four matters to it (`padding_add`).
-/

namespace ClassInspect

open Scan (Relocates)

/-! ### Moved instructions -/

/-- The same table in an instruction that stands `distance` bytes further on. The numbers that are
looked up stay what they are. -/
def SwitchTable.relocate (distance : Nat) (table : SwitchTable) : SwitchTable where
  fallback := table.fallback + distance
  bounds := table.bounds
  pairs := table.pairs.map fun pair ↦ (pair.1, pair.2 + distance)

/-- The same operand in an instruction that stands `distance` bytes further on. -/
def Operand.relocate (distance : Nat) : Operand → Operand
  | target address => target (address + distance)
  | table value => table (value.relocate distance)
  | operand => operand

/-- The same instruction `distance` bytes further on. -/
def Instruction.relocate (distance : Nat) (i : Instruction) : Instruction :=
  { i with
    offset := i.offset + distance
    operands := i.operands.map (Operand.relocate distance) }

/-! ### Decoding in another place -/

variable {distance : Nat}

/-- Padding is the same at positions that are a multiple of four apart. -/
theorem padding_add (h : 4 ∣ distance) (pos : Nat) : padding (pos + distance) = padding pos := by
  obtain ⟨quarter, rfl⟩ := h
  unfold padding
  omega

/-- An instruction that is moved has its targets moved with it. -/
theorem moved_target (offset : Nat) (target : Int) :
    ((offset + distance : Nat) : Int) + target = offset + target + distance := by
  omega

theorem Scan.relocates_align (h : 4 ∣ distance) :
    Relocates distance id Scan.align Scan.align := by
  refine Relocates.pos.bind fun pos ↦ ?_
  show Relocates distance id (Scan.skip (padding pos)) (Scan.skip (padding (pos + distance)))
  rw [padding_add h]
  exact .skip _

namespace SwitchTable

/-- A table of consecutive numbers is read with its targets moved. -/
theorem relocates_readTable (h : 4 ∣ distance) (offset : Nat) :
    Relocates distance (relocate distance) (readTable offset) (readTable (offset + distance)) := by
  refine (Scan.relocates_align h).andThen fun _ ↦ (Relocates.signed 4).andThen fun fallback ↦
    (Relocates.signed 4).andThen fun low ↦ (Relocates.signed 4).andThen fun high ↦ ?_
  split
  · exact .fail _ _ (Int.natCast_add _ _)
  · refine ((Relocates.signed 4).times _).bind fun targets ↦ .pure ?_
    simp only [relocate, List.map_id, moved_target, mk.injEq, true_and]
    apply List.ext_getElem <;> simp

theorem relocates_readPair (offset : Nat) :
    Relocates distance (fun pair : Int × Int ↦ (pair.1, pair.2 + (distance : Int)))
      (readPair offset) (readPair (offset + distance)) := by
  refine (Relocates.signed 4).andThen fun number ↦ (Relocates.signed 4).andThen fun target ↦
    .pure ?_
  rw [moved_target]

/-- A table of listed numbers is read with its targets moved. -/
theorem relocates_readLookup (h : 4 ∣ distance) (offset : Nat) :
    Relocates distance (relocate distance) (readLookup offset)
      (readLookup (offset + distance)) := by
  refine (Scan.relocates_align h).andThen fun _ ↦ (Relocates.signed 4).andThen fun fallback ↦
    (Relocates.signed 4).andThen fun count ↦ ?_
  split
  · exact .fail _ _ (Int.natCast_add _ _)
  · refine ((relocates_readPair offset).times _).bind fun pairs ↦ .pure ?_
    rw [relocate, moved_target]

end SwitchTable

namespace Instruction

theorem relocates_readArrayType (offset : Nat) :
    Relocates distance id (readArrayType offset) (readArrayType (offset + distance)) := by
  refine (Relocates.unsigned 1).andThen fun code ↦ ?_
  unfold arrayType
  split
  · exact .pure rfl
  · exact .fail _ _ (Int.natCast_add _ _)

/-- An operand is read with the positions in it moved. -/
theorem relocates_readOperand (h : 4 ∣ distance) (offset : Nat) {kind : OperandKind}
    (hkind : kind ≠ .wide) :
    Relocates distance (Option.map (Operand.relocate distance)) (readOperand offset kind)
      (readOperand (offset + distance) kind) := by
  cases kind with
  | i8 => exact (Relocates.signed 1).andThen fun _ ↦ .pure rfl
  | i16 => exact (Relocates.signed 2).andThen fun _ ↦ .pure rfl
  | count | localVariable | constant8 => exact (Relocates.unsigned 1).andThen fun _ ↦ .pure rfl
  | constant16 => exact (Relocates.unsigned 2).andThen fun _ ↦ .pure rfl
  | reserved => exact (Relocates.skip 1).andThen fun _ ↦ .pure rfl
  | arrayType => exact (relocates_readArrayType offset).bind fun _ ↦ .pure rfl
  | tableSwitch => exact (SwitchTable.relocates_readTable h offset).bind fun _ ↦ .pure rfl
  | lookupSwitch => exact (SwitchTable.relocates_readLookup h offset).bind fun _ ↦ .pure rfl
  | wide => exact absurd rfl hkind
  | branch16 =>
    refine (Relocates.signed 2).andThen fun target ↦ .pure ?_
    rw [moved_target]
    rfl
  | branch32 =>
    refine (Relocates.signed 4).andThen fun target ↦ .pure ?_
    rw [moved_target]
    rfl

theorem relocates_readOperands (h : 4 ∣ distance) (offset : Nat) {kinds : List OperandKind}
    (hkinds : .wide ∉ kinds) :
    Relocates distance (List.map (Operand.relocate distance)) (readOperands offset kinds)
      (readOperands (offset + distance) kinds) := by
  induction kinds with
  | nil => exact .pure rfl
  | cons kind kinds ih =>
    rw [List.mem_cons, not_or] at hkinds
    refine (relocates_readOperand h offset (Ne.symm hkinds.1)).bind fun operand ↦
      (ih hkinds.2).bind fun operands ↦ .pure ?_
    cases operand <;> rfl

theorem relocates_readWidened (offset : Nat) (opcode : Opcode) :
    Relocates distance (relocate distance) (readWidened offset opcode)
      (readWidened (offset + distance) opcode) := by
  refine (Relocates.unsigned 2).andThen fun index ↦ ?_
  split
  · exact (Relocates.signed 2).andThen fun _ ↦ .pure rfl
  · exact .pure rfl

theorem relocates_readWide (offset : Nat) :
    Relocates distance (relocate distance) (readWide offset) (readWide (offset + distance)) := by
  refine (Relocates.unsigned 1).andThen fun code ↦ ?_
  unfold readWideRest
  split
  · refine .fail _ _ ?_
    omega
  · exact relocates_readWidened offset _

theorem relocates_readRest (h : 4 ∣ distance) (offset code : Nat) :
    Relocates distance (relocate distance) (readRest offset code)
      (readRest (offset + distance) code) := by
  unfold readRest
  split
  · exact .fail _ _ (Int.natCast_add _ _)
  · rename_i opcode hopcode
    split
    · exact relocates_readWide offset
    · rename_i hoperands
      have hwide := (Opcode.regular (Opcode.ofCode?_eq_some_iff.1 hopcode).1).wide_not_mem
        hoperands
      exact (relocates_readOperands h offset hwide).bind fun _ ↦ .pure rfl

/-- An instruction is decoded alike at positions that are a multiple of four apart. -/
theorem relocates_decode (h : 4 ∣ distance) :
    Relocates distance (relocate distance) decode decode :=
  Relocates.pos.bind fun offset ↦ (Relocates.unsigned 1).andThen fun code ↦
    relocates_readRest h offset code

/-! ### Code behind code -/

/-- Behind code that can be decoded and whose length is a multiple of four, other code is decoded to
the same instructions with their positions and targets moved by that length. If it cannot be decoded
by itself, then neither can it there, for the same problem as much further on. -/
theorem decodeAll_append {front back : Bytes} {instructions : List Instruction}
    (h : decodeAll front = .ok instructions) (haligned : 4 ∣ front.length) :
    (∀ others, decodeAll back = .ok others →
      decodeAll (front ++ back) = .ok (instructions ++ others.map (relocate front.length))) ∧
    (∀ fault, decodeAll back = .error fault → ∃ problem offset,
      fault = .format problem (some offset) ∧
        decodeAll (front ++ back) = .error (.format problem (some (offset + front.length)))) := by
  obtain ⟨hconsecutive, hmatches⟩ := (decodeAll_eq_ok_iff _ _).1 h
  obtain ⟨t, ht, htrace⟩ := mapM_trace_append (s := .start (front ++ back) 0) hconsecutive
    (List.prefix_append _ _) hmatches
  -- behind the front, decoding stands as it does at the start of the back, but further on
  have hmoved : (Scan.State.start back 0).cursor.Relocated front.length t.cursor := by
    rw [ht]
    exact ⟨rfl, rfl, List.drop_left⟩
  rw [decodeAll_eq, decodeAll_eq (front ++ back), htrace]
  rcases (relocates_decode haligned).mapM_trace progresses_decode hmoved with
    ⟨others, hothers, hothers'⟩ | ⟨problem, offset, hfault, hfault'⟩
  · rw [hothers, hothers']
    refine ⟨?_, ?_⟩
    · rintro _ ⟨⟩
      rfl
    · rintro _ ⟨⟩
  · rw [hfault, hfault']
    refine ⟨?_, ?_⟩
    · rintro _ ⟨⟩
    · rintro _ ⟨⟩
      exact ⟨problem, offset, rfl, rfl⟩

/-- Behind its first two instructions, which take 24 bytes, the sample is decoded with its positions
and targets moved; and a branch that lacks its second byte is missed one byte later than the moved
opcode. -/
theorem decodeAll_append_sample :
    decodeAll (sampleCode.take 24) = .ok (sampleInstructions.take 2) ∧
      4 ∣ (sampleCode.take 24).length ∧
      decodeAll (sampleCode.take 24 ++ sampleCode) =
        .ok (sampleInstructions.take 2 ++ sampleInstructions.map (relocate 24)) ∧
      decodeAll [0xA7, 0x00] = .error (.format (.truncated 2 1) (some 1)) ∧
      decodeAll (sampleCode.take 24 ++ [0xA7, 0x00]) =
        .error (.format (.truncated 2 1) (some 25)) := by
  have hfront : decodeAll (sampleCode.take 24) = .ok (sampleInstructions.take 2) := by
    decide +kernel
  have haligned : 4 ∣ (sampleCode.take 24).length := by decide
  have hback : decodeAll sampleCode = .ok sampleInstructions := by decide +kernel
  have hbranch : decodeAll [0xA7, 0x00] = .error (.format (.truncated 2 1) (some 1)) := by
    decide +kernel
  refine ⟨hfront, haligned, (decodeAll_append hfront haligned).1 _ hback, hbranch, ?_⟩
  obtain ⟨_, _, hfault, hmoved⟩ := (decodeAll_append hfront haligned).2 _ hbranch
  cases hfault
  exact hmoved

end Instruction

end ClassInspect
