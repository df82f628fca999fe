import ClassInspect.Proofs.Instruction.Format
import ClassInspect.Proofs.Outcome

/-!
# Disassembling and assembling

Code and lists of instructions determine each other up to the bytes without meaning. Decoding code
to its end accepts exactly the bytes that match the cells of consecutive instructions
(`Instruction.decodeAll_eq_ok_iff`), by following the trace of single decodings. Assembled code
matches, so it is decoded to what it was made of; and code that was decoded agrees with what is
assembled from the result, save where a cell is empty.

Where this is can be told from the instructions alone (`Instruction.ignores_of_blank`): few rows
of the instruction set have empty cells.
-/

namespace ClassInspect

namespace Instruction

/-! ### Decoding to the end -/

/-- A trace of decodings succeeds on the bytes of consecutive instructions. -/
theorem mapM_trace_eq_ok_iff (s : Scan.State) (instructions : List Instruction) :
    (Scan.trace decode progresses_decode s).mapM Prod.fst = .ok instructions ↔
      Consecutive s.cursor.pos instructions ∧
        Cells.Matches (instructions.flatMap cells) s.cursor.rest := by
  induction instructions generalizing s with
  | nil =>
    rw [Scan.mapM_trace_eq_nil_iff, List.flatMap_nil, Cells.matches_nil]
    exact (and_iff_right trivial).symm
  | cons i instructions ih =>
    rw [Scan.mapM_trace_eq_cons_iff, List.flatMap_cons, Cells.matches_append, Consecutive]
    constructor
    · rintro ⟨t, hscan, hrest⟩
      have hrun : Scan.run decode s = (.ok i, t.cursor) := Scan.run_eq_ok_iff.2 ⟨t.log, hscan⟩
      obtain ⟨front, ⟨back, hback⟩, hcursor, hoffset, hi, hfront⟩ := (reads_decode s i _).1 hrun
      obtain ⟨hconsecutive, hmatches⟩ := (ih t).1 hrest
      -- the rest of the trace starts where the cells of `i` end
      have hahead : t.cursor.rest = back := by
        rw [hcursor, Cursor.rest_advance, ← hback, List.drop_left]
      rw [hahead] at hmatches
      rw [hcursor, Cursor.pos_advance, ← hfront.length_eq] at hconsecutive
      exact ⟨⟨hoffset, hi, hconsecutive⟩, front, back, hback.symm, hfront, hmatches⟩
    · rintro ⟨⟨hoffset, hi, hconsecutive⟩, front, back, hrest, hfront, hmatches⟩
      have hrun : Scan.run decode s = (.ok i, s.cursor.advance front.length) :=
        (reads_decode s i _).2 ⟨front, ⟨back, hrest.symm⟩, rfl, hoffset, hi, hfront⟩
      obtain ⟨log, hscan⟩ := Scan.run_eq_ok_iff.1 hrun
      refine ⟨⟨s.cursor.advance front.length, log⟩, hscan, (ih _).2 ⟨?_, ?_⟩⟩
      · rw [Cursor.pos_advance, ← hfront.length_eq]
        exact hconsecutive
      · rw [Cursor.rest_advance, hrest, List.drop_left]
        exact hmatches

theorem decodeAll_eq (code : Bytes) :
    decodeAll code = (Scan.trace decode progresses_decode (.start code 0)).mapM Prod.fst := by
  rw [decodeAll, steps, List.mapM_map]
  rfl

/-- Code is decoded to consecutive instructions whose cells it matches. -/
theorem decodeAll_eq_ok_iff (code : Bytes) (instructions : List Instruction) :
    decodeAll code = .ok instructions ↔
      Consecutive 0 instructions ∧ Cells.Matches (instructions.flatMap cells) code := by
  rw [decodeAll_eq, mapM_trace_eq_ok_iff]
  rfl

/-! ### Bytes without meaning -/

/-- Operands other than switch tables have no empty cells. -/
theorem none_not_mem_cells {offset pos : Nat} {kind : OperandKind} {operand : Operand}
    (htable : kind ≠ .tableSwitch) (hlookup : kind ≠ .lookupSwitch) :
    none ∉ operand.cells offset pos kind := by
  cases kind <;> cases operand <;>
    first
      | exact Cells.none_not_mem_exact _
      | exact List.not_mem_nil
      | exact absurd rfl htable
      | exact absurd rfl hlookup

/-- Without reserved bytes and switch tables there are no empty cells. -/
theorem none_not_mem_allCells {offset pos : Nat} {kinds : List OperandKind}
    {operands : List Operand}
    (h : ∀ kind ∈ kinds, kind ≠ .reserved ∧ kind ≠ .tableSwitch ∧ kind ≠ .lookupSwitch) :
    none ∉ Operand.allCells offset pos kinds operands := by
  induction kinds generalizing pos operands with
  | nil => simp [Operand.allCells]
  | cons kind kinds ih =>
    obtain ⟨⟨hreserved, htable, hlookup⟩, hkinds⟩ := List.forall_mem_cons.1 h
    cases operands with
    | nil => simp [Operand.allCells, hreserved]
    | cons operand operands =>
      rw [Operand.allCells_cons _ _ _ hreserved, List.mem_append, not_or]
      exact ⟨none_not_mem_cells htable hlookup, ih hkinds⟩

/-- A switch table has empty cells in front only. -/
theorem allCells_switch {offset pos : Nat} {kind : OperandKind} {operands : List Operand}
    (hkind : kind = .tableSwitch ∨ kind = .lookupSwitch)
    (h : Operand.AllFit offset [kind] operands) :
    ∃ bytes, Operand.allCells offset pos [kind] operands =
      .blank (padding pos) ++ .exact bytes := by
  have hreserved : kind ≠ .reserved := by
    rintro rfl
    simp at hkind
  obtain ⟨operand, rest, rfl, hfits, -⟩ := (Operand.allFit_cons_iff hreserved).1 h
  rw [Operand.allCells_cons _ _ _ hreserved, Operand.allCells_nil, List.append_nil]
  rcases hkind with rfl | rfl <;> cases operand <;>
    first | exact hfits.elim | exact ⟨_, rfl⟩

/-- The empty cells of an instruction with a switch table are its padding. -/
theorem padding_of_blank {offset : Nat} (code : Nat) {kind : OperandKind} {operands : List Operand}
    (hkind : kind = .tableSwitch ∨ kind = .lookupSwitch)
    (hfits : Operand.AllFit offset [kind] operands) {k : Nat}
    (hk : (.exact (.ofNat 1 code) ++
      Operand.allCells offset (offset + 1) [kind] operands : Cells)[k]? = some none) :
    offset + 1 ≤ offset + k ∧ offset + k < offset + 1 + padding (offset + 1) := by
  obtain ⟨bytes, hbytes⟩ := allCells_switch hkind hfits
  rw [hbytes] at hk
  have hplace := Cells.blank_between hk
  rw [Bytes.length_ofNat] at hplace
  omega

/-- A pool index of two bytes holds two bytes. -/
theorem cells_constant16 {offset : Nat} (pos : Nat) {operand : Operand}
    (h : operand.Fits offset .constant16) :
    ∃ bytes : Bytes, bytes.length = 2 ∧ operand.cells offset pos .constant16 = .exact bytes := by
  cases operand <;> first | exact h.elim | exact ⟨_, Bytes.length_ofNat _ _, rfl⟩

/-- A call through an interface ends with an empty cell. -/
theorem allCells_interface {offset pos : Nat} {operands : List Operand}
    (h : Operand.AllFit offset [.constant16, .count, .reserved] operands) :
    ∃ bytes : Bytes, bytes.length = 3 ∧
      Operand.allCells offset pos [.constant16, .count, .reserved] operands =
        .exact bytes ++ (.blank 1 ++ .exact []) := by
  obtain ⟨method, _, rfl, hmethod, h⟩ := (Operand.allFit_cons_iff (by decide)).1 h
  obtain ⟨count, rest, rfl, hcount, -⟩ := (Operand.allFit_cons_iff (by decide)).1 h
  obtain ⟨bytes, hlength, hbytes⟩ := cells_constant16 pos hmethod
  have hcells (pos : Nat) : ∃ bytes : Bytes, bytes.length = 1 ∧
      count.cells offset pos .count = .exact bytes := by
    cases count <;> first | exact hcount.elim | exact ⟨_, Bytes.length_ofNat _ _, rfl⟩
  obtain ⟨bytes', hlength', hbytes'⟩ := hcells (pos + (Cells.exact bytes).length)
  refine ⟨bytes ++ bytes', by rw [List.length_append, hlength, hlength'], ?_⟩
  rw [Operand.allCells_cons _ _ _ (by decide), Operand.allCells_cons _ _ _ (by decide),
    Operand.allCells_reserved, Operand.allCells_nil, hbytes, hbytes', Cells.exact_append,
    List.append_assoc]
  rfl

/-- A dynamic call ends with two empty cells. -/
theorem allCells_dynamic {offset pos : Nat} {operands : List Operand}
    (h : Operand.AllFit offset [.constant16, .reserved, .reserved] operands) :
    ∃ bytes : Bytes, bytes.length = 2 ∧
      Operand.allCells offset pos [.constant16, .reserved, .reserved] operands =
        .exact bytes ++ (.blank 2 ++ .exact []) := by
  obtain ⟨site, rest, rfl, hsite, -⟩ := (Operand.allFit_cons_iff (by decide)).1 h
  obtain ⟨bytes, hlength, hbytes⟩ := cells_constant16 pos hsite
  refine ⟨bytes, hlength, ?_⟩
  rw [Operand.allCells_cons _ _ _ (by decide), Operand.allCells_reserved,
    Operand.allCells_reserved, Operand.allCells_nil, hbytes]
  rfl

/-- The empty cells of a well-formed instruction are at the positions it ignores. -/
theorem ignores_of_blank {i : Instruction} (hi : i.WellFormed) {k : Nat}
    (hk : i.cells[k]? = some none) : i.Ignores (i.offset + k) := by
  rcases Bool.eq_false_or_eq_true i.wide with hwide | hnarrow
  · rw [cells_of_wide hwide] at hk
    exact absurd (List.mem_of_getElem? hk) (Cells.none_not_mem_exact _)
  · obtain ⟨hopcode, hfits⟩ := (wellFormed_of_narrow hnarrow).1 hi
    rw [cells_of_narrow hnarrow] at hk
    rcases (Opcode.regular hopcode).layout with hplain | ⟨hname, hkinds⟩ | ⟨hname, hkinds⟩ |
      ⟨hname, hkinds⟩ | ⟨hname, hkinds⟩
    · -- most rows have no empty cell at all
      rcases List.mem_append.1 (List.mem_of_getElem? hk) with hcode | hoperand
      · exact absurd hcode (Cells.none_not_mem_exact _)
      · exact absurd hoperand (none_not_mem_allCells hplain)
    · rw [hkinds] at hfits hk
      exact .inl ⟨.inl hname, padding_of_blank _ (.inl rfl) hfits hk⟩
    · rw [hkinds] at hfits hk
      exact .inl ⟨.inr hname, padding_of_blank _ (.inr rfl) hfits hk⟩
    · rw [hkinds] at hfits hk
      obtain ⟨bytes, hlength, hbytes⟩ := allCells_interface hfits
      rw [hbytes, ← List.append_assoc, ← Cells.exact_append] at hk
      have hplace := Cells.blank_between hk
      rw [List.length_append, Bytes.length_ofNat, hlength] at hplace
      exact .inr (.inl ⟨hname, by omega⟩)
    · rw [hkinds] at hfits hk
      obtain ⟨bytes, hlength, hbytes⟩ := allCells_dynamic hfits
      rw [hbytes, ← List.append_assoc, ← Cells.exact_append] at hk
      have hplace := Cells.blank_between hk
      rw [List.length_append, Bytes.length_ofNat, hlength] at hplace
      exact .inr (.inr ⟨hname, by omega⟩)

/-- An empty cell in a list of instructions belongs to one of them. -/
theorem exists_ignores {start : Nat} {instructions : List Instruction}
    (h : Consecutive start instructions) {k : Nat}
    (hk : (instructions.flatMap cells)[k]? = some none) :
    ∃ i ∈ instructions, i.Ignores (start + k) := by
  induction instructions generalizing start k with
  | nil => cases hk
  | cons i instructions ih =>
    obtain ⟨rfl, hi, hrest⟩ := h
    rw [List.flatMap_cons] at hk
    rcases Nat.lt_or_ge k i.cells.length with hlt | hge
    · rw [List.getElem?_append_left hlt] at hk
      exact ⟨i, List.mem_cons_self, ignores_of_blank hi hk⟩
    · rw [List.getElem?_append_right hge] at hk
      obtain ⟨j, hj, hignores⟩ := ih hrest hk
      have hplace : i.offset + i.cells.length + (k - i.cells.length) = i.offset + k := by omega
      rw [hplace] at hignores
      exact ⟨j, List.mem_cons_of_mem i hj, hignores⟩

/-- Disassembling and assembling undo each other up to bytes without meaning. Every list of
well-formed consecutive instructions is what its assembled code is decoded to. Code that is decoded
gives such a list, and what is assembled from it is as long as the code and has the same byte at
every position that no instruction ignores. -/
theorem decodeAll_assemble_inverse :
    (∀ instructions, Consecutive 0 instructions →
      decodeAll (assemble instructions) = .ok instructions) ∧
    (∀ code instructions, decodeAll code = .ok instructions →
      Consecutive 0 instructions ∧ (assemble instructions).length = code.length ∧
        ∀ k, (∀ i ∈ instructions, ¬ i.Ignores k) →
          (assemble instructions)[k]? = code[k]?) := by
  constructor
  · intro instructions h
    exact (decodeAll_eq_ok_iff _ _).2 ⟨h, Cells.matches_fill _⟩
  · intro code instructions h
    obtain ⟨hconsecutive, hmatches⟩ := (decodeAll_eq_ok_iff _ _).1 h
    refine ⟨hconsecutive, ?_, fun k hk ↦ hmatches.getElem?_fill fun hblank ↦ ?_⟩
    · rw [assemble, Cells.length_fill, hmatches.length_eq]
    · obtain ⟨i, hi, hignores⟩ := exists_ignores hconsecutive hblank
      rw [Nat.zero_add] at hignores
      exact hk i hi hignores

/-- Code with a padded table, a wide increment and a call through an interface. The bytes without
meaning are not zero. -/
def sampleCode : Bytes :=
  [0x00, 0xAA, 7, 7, 0, 0, 0, 0x1F, 0xFF, 0xFF, 0xFF, 0xFF, 0, 0, 0, 0, 0, 0, 0, 0x19,
    0xFF, 0xFF, 0xFF, 0xFF, 0xC4, 0x84, 1, 0, 0xFF, 0xFE, 0xB9, 0, 9, 2, 7]

def sampleInstructions : List Instruction :=
  [⟨0, ⟨"nop", 0x00, []⟩, false, []⟩,
    ⟨1, ⟨"tableswitch", 0xAA, [.tableSwitch]⟩, false,
      [.table ⟨32, some (-1, 0), [(-1, 26), (0, 0)]⟩]⟩,
    ⟨24, ⟨"iinc", 0x84, [.localVariable, .i8]⟩, true, [.localVariable 256, .immediate (-2)]⟩,
    ⟨30, ⟨"invokeinterface", 0xB9, [.constant16, .count, .reserved]⟩, false,
      [.constant 9, .count 2]⟩]

/-- The sample is decoded, assembled with zeros and decoded again. -/
theorem decodeAll_assemble_inverse_sample :
    decodeAll sampleCode = .ok sampleInstructions ∧ Consecutive 0 sampleInstructions ∧
      decodeAll (assemble sampleInstructions) = .ok sampleInstructions ∧
      (assemble sampleInstructions).length = 35 := by
  have hdecode : decodeAll sampleCode = .ok sampleInstructions := by decide +kernel
  obtain ⟨hconsecutive, hlength, -⟩ := decodeAll_assemble_inverse.2 _ _ hdecode
  exact ⟨hdecode, hconsecutive, decodeAll_assemble_inverse.1 _ hconsecutive, hlength⟩

end Instruction

end ClassInspect
