import ClassInspect.Proofs.Instruction.RoundTrip
import ClassInspect.Proofs.Scan.Stepwise

/-!
# The decoder is stepwise

Decoding an instruction is made of elementary steps, as reading a class file is. The faults it was
made with are about an opcode, or about an operand that has no meaning: an unknown element type, or
a switch whose table cannot be. Together with missing bytes these are all faults of the decoder
(`Instruction.reports_of_decodeAll`).

An operand that announces another instruction is not read as an operand, which would be a breach.
Only the wide mark has such an operand, and what follows it is read in its own way
(`Opcode.Regular.wide_not_mem`).
-/

namespace ClassInspect

open Scan (Stepwise)

/-- A fault is a report about the format, of one of the given families. -/
def Fault.Reports (kinds : List FormatKind) (fault : Fault) : Prop :=
  ∃ report, fault.formatError? = some report ∧ report.kind ∈ kinds

/-- A report about an opcode or an operand. -/
def DecoderFault : Fault → Prop :=
  Fault.Reports [.classFormat, .unsupportedOpcode]

theorem DecoderFault.of_kind {problem : Problem}
    (h : problem.kind ∈ [FormatKind.classFormat, .unsupportedOpcode]) (offset : Option Int) :
    DecoderFault (.format problem offset) :=
  ⟨_, rfl, h⟩

theorem Scan.stepwise_align : Stepwise DecoderFault Scan.align :=
  .bind .pos fun _ ↦ .skip _

namespace SwitchTable

theorem stepwise_readTable (offset : Nat) : Stepwise DecoderFault (readTable offset) := by
  refine .bind Scan.stepwise_align fun _ ↦ .bind (.signed 4) fun _ ↦ .bind (.signed 4) fun _ ↦
    .bind (.signed 4) fun _ ↦ ?_
  split
  · exact .fail (.of_kind (by simp [Problem.kind]) _)
  · exact .bind (.times (.signed 4) _) fun _ ↦ .pure _

theorem stepwise_readPair (offset : Nat) : Stepwise DecoderFault (readPair offset) :=
  .bind (.signed 4) fun _ ↦ .bind (.signed 4) fun _ ↦ .pure _

theorem stepwise_readLookup (offset : Nat) : Stepwise DecoderFault (readLookup offset) := by
  refine .bind Scan.stepwise_align fun _ ↦ .bind (.signed 4) fun _ ↦ .bind (.signed 4) fun _ ↦ ?_
  split
  · exact .fail (.of_kind (by simp [Problem.kind]) _)
  · exact .bind (.times (stepwise_readPair offset) _) fun _ ↦ .pure _

end SwitchTable

namespace Instruction

theorem stepwise_readArrayType (offset : Nat) : Stepwise DecoderFault (readArrayType offset) := by
  refine .bind (.unsigned 1) fun code ↦ ?_
  unfold arrayType
  split
  · exact .pure _
  · exact .fail (.of_kind (by simp [Problem.kind]) _)

theorem stepwise_readOperand (offset : Nat) {kind : OperandKind} (h : kind ≠ .wide) :
    Stepwise DecoderFault (readOperand offset kind) := by
  cases kind with
  | i8 => exact .bind (.signed 1) fun _ ↦ .pure _
  | i16 | branch16 => exact .bind (.signed 2) fun _ ↦ .pure _
  | branch32 => exact .bind (.signed 4) fun _ ↦ .pure _
  | count | localVariable | constant8 => exact .bind (.unsigned 1) fun _ ↦ .pure _
  | constant16 => exact .bind (.unsigned 2) fun _ ↦ .pure _
  | reserved => exact .bind (.skip 1) fun _ ↦ .pure _
  | arrayType => exact .bind (stepwise_readArrayType offset) fun _ ↦ .pure _
  | tableSwitch => exact .bind (SwitchTable.stepwise_readTable offset) fun _ ↦ .pure _
  | lookupSwitch => exact .bind (SwitchTable.stepwise_readLookup offset) fun _ ↦ .pure _
  | wide => exact absurd rfl h

theorem stepwise_readOperands (offset : Nat) {kinds : List OperandKind} (h : .wide ∉ kinds) :
    Stepwise DecoderFault (readOperands offset kinds) := by
  induction kinds with
  | nil => exact .pure _
  | cons kind kinds ih =>
    rw [List.mem_cons, not_or] at h
    exact .bind (stepwise_readOperand offset (Ne.symm h.1)) fun _ ↦ .bind (ih h.2) fun _ ↦ .pure _

theorem stepwise_readWidened (offset : Nat) (opcode : Opcode) :
    Stepwise DecoderFault (readWidened offset opcode) := by
  refine .bind (.unsigned 2) fun _ ↦ ?_
  split
  · exact .bind (.signed 2) fun _ ↦ .pure _
  · exact .pure _

theorem stepwise_readWide (offset : Nat) : Stepwise DecoderFault (readWide offset) := by
  refine .bind (.unsigned 1) fun code ↦ ?_
  unfold readWideRest
  split
  · exact .fail (.of_kind (by simp [Problem.kind]) _)
  · exact stepwise_readWidened offset _

theorem stepwise_readRest (offset code : Nat) : Stepwise DecoderFault (readRest offset code) := by
  unfold readRest
  split
  · exact .fail (.of_kind (by simp [Problem.kind]) _)
  · rename_i opcode hopcode
    split
    · exact stepwise_readWide offset
    · rename_i hoperands
      -- in other rows of the table, no operand announces an instruction
      have hwide := (Opcode.regular (Opcode.ofCode?_eq_some_iff.1 hopcode).1).wide_not_mem
        hoperands
      exact .bind (stepwise_readOperands offset hwide) fun _ ↦ .pure _

theorem stepwise_decode : Stepwise DecoderFault decode :=
  .bind .pos fun offset ↦ .bind (.unsigned 1) fun code ↦ stepwise_readRest offset code

/-- Code that cannot be decoded lacks bytes, or has an opcode or an operand without meaning. -/
theorem reports_of_decodeAll {code : Bytes} {fault : Fault} (h : decodeAll code = .error fault) :
    fault.Reports [.truncatedData, .unsupportedOpcode, .classFormat] := by
  rw [decodeAll_eq] at h
  obtain ⟨s, c, hrun⟩ := Scan.exists_run_of_mapM_trace progresses_decode h
  rcases stepwise_decode.fault hrun with ⟨report, hreport, hkind⟩ | ⟨_, _, _, rfl⟩
  · refine ⟨report, hreport, ?_⟩
    simp only [List.mem_cons, List.not_mem_nil, or_false] at hkind ⊢
    exact .inr hkind.symm
  · exact ⟨_, rfl, .head _⟩

end Instruction

end ClassInspect
