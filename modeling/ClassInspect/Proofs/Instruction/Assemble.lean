import Mathlib.Data.List.Forall2
import ClassInspect.Instruction.Decode
import ClassInspect.Proofs.Bytes

/-!
# Assembling instructions

The way back from instructions to code. An instruction is laid out in cells (`Instruction.cells`):
a cell is a byte, or it is empty where any byte would do. Empty cells are the padding in front of a
switch table and the reserved bytes behind some operands; `Cells.fill` writes zeros there.

`Instruction.WellFormed` says which instructions can be written: the opcode is in the table, only
an instruction that can be widened is wide, and every operand is in the range of its kind. In a list
of instructions each one starts where the one before it ends (`Instruction.Consecutive`).
-/

namespace ClassInspect

/-- A layout of bytes, in which an empty cell stands for any byte. -/
abbrev Cells := List (Option UInt8)

namespace Cells

/-- Cells that hold given bytes. -/
def exact (bytes : Bytes) : Cells :=
  bytes.map some

/-- Empty cells. -/
def blank (count : Nat) : Cells :=
  List.replicate count none

/-- The bytes with a zero in every empty cell. -/
def fill (cells : Cells) : Bytes :=
  cells.map (·.getD 0)

/-- The bytes agree with all cells that are not empty, and are as many. -/
def Matches (cells : Cells) (bytes : Bytes) : Prop :=
  List.Forall₂ (fun cell byte ↦ ∀ b ∈ cell, b = byte) cells bytes

variable {cells : Cells} {bytes : Bytes}

@[simp] theorem exact_append (front back : Bytes) :
    exact (front ++ back) = exact front ++ exact back :=
  List.map_append

@[simp] theorem length_exact (bytes : Bytes) : (exact bytes).length = bytes.length :=
  List.length_map _

@[simp] theorem length_blank (count : Nat) : (blank count).length = count :=
  List.length_replicate

theorem Matches.length_eq (h : Matches cells bytes) : cells.length = bytes.length :=
  List.Forall₂.length_eq h

@[simp] theorem matches_nil : Matches [] bytes ↔ bytes = [] :=
  List.forall₂_nil_left_iff

/-- Cells that hold bytes match these bytes only. -/
@[simp] theorem matches_exact {held : Bytes} : Matches (exact held) bytes ↔ bytes = held := by
  rw [Matches, exact, List.forall₂_map_left_iff, eq_comm, ← List.forall₂_eq_eq_eq]
  simp

/-- Empty cells match any bytes of their number. -/
@[simp] theorem matches_blank {count : Nat} :
    Matches (blank count) bytes ↔ bytes.length = count := by
  constructor
  · intro h
    rw [← h.length_eq, length_blank]
  · rintro rfl
    induction bytes with
    | nil => exact .nil
    | cons byte bytes ih => exact .cons (by simp) ih

/-- Cells in a row match bytes in a row. -/
theorem matches_append {back : Cells} :
    Matches (cells ++ back) bytes ↔
      ∃ first second, bytes = first ++ second ∧ Matches cells first ∧ Matches back second := by
  constructor
  · intro h
    induction cells generalizing bytes with
    | nil => exact ⟨[], bytes, rfl, .nil, h⟩
    | cons cell cells ih =>
      cases h with
      | cons hcell h =>
        obtain ⟨first, second, rfl, hfirst, hsecond⟩ := ih h
        exact ⟨_ :: first, second, rfl, .cons hcell hfirst, hsecond⟩
  · rintro ⟨first, second, rfl, hfirst, hsecond⟩
    exact List.rel_append hfirst hsecond

/-- The bytes with zeros match. -/
theorem matches_fill (cells : Cells) : Matches cells (fill cells) := by
  rw [Matches, fill, List.forall₂_map_right_iff, List.forall₂_same]
  rintro (_ | byte) -
  · simp
  · simp

@[simp] theorem length_fill (cells : Cells) : (fill cells).length = cells.length :=
  List.length_map _

/-- Bytes that match agree with the filled ones, save where a cell is empty. -/
theorem Matches.getElem?_fill (h : Matches cells bytes) {k : Nat} (hk : cells[k]? ≠ some none) :
    (fill cells)[k]? = bytes[k]? := by
  induction h generalizing k with
  | nil => rfl
  | @cons cell byte _ _ hcell _ ih =>
    cases k with
    | zero =>
      cases cell with
      | none => exact absurd rfl hk
      | some held =>
        rw [hcell held rfl]
        rfl
    | succ k => exact ih hk

/-- Cells that hold bytes are not empty. -/
theorem none_not_mem_exact (bytes : Bytes) : none ∉ exact bytes := by
  simp [exact]

/-- Between cells that hold bytes, the empty ones are easily found. -/
theorem blank_between {front back : Bytes} {count k : Nat}
    (h : (exact front ++ (blank count ++ exact back))[k]? = some none) :
    front.length ≤ k ∧ k < front.length + count := by
  rcases Nat.lt_or_ge k front.length with hlt | hge
  · rw [List.getElem?_append_left (by simpa using hlt)] at h
    exact absurd (List.mem_of_getElem? h) (none_not_mem_exact front)
  · refine ⟨hge, ?_⟩
    rw [List.getElem?_append_right (by simpa using hge), length_exact] at h
    rcases Nat.lt_or_ge (k - front.length) count with hlt | hge'
    · omega
    · rw [List.getElem?_append_right (by simpa using hge')] at h
      exact absurd (List.mem_of_getElem? h) (none_not_mem_exact back)

end Cells

/-- The number of bytes up to the next multiple of four. -/
def padding (pos : Nat) : Nat :=
  (4 - pos % 4) % 4

/-! ### Switch tables -/

namespace SwitchTable

/-- A table of consecutive numbers: the bounds are in order, the numbers are those between them,
and all distances fit. -/
def IsTable (offset : Nat) (table : SwitchTable) : Prop :=
  ∃ low high, table.bounds = some (low, high) ∧ low ≤ high ∧ Bytes.FitsSigned 4 low ∧
    Bytes.FitsSigned 4 high ∧ Bytes.FitsSigned 4 (table.fallback - offset) ∧
    table.pairs.map Prod.fst =
      (List.range (high - low + 1).toNat).map (fun index : Nat ↦ low + index) ∧
    ∀ pair ∈ table.pairs, Bytes.FitsSigned 4 (pair.2 - offset)

/-- A table of listed numbers: they can be counted and fit, and all distances fit. -/
def IsLookup (offset : Nat) (table : SwitchTable) : Prop :=
  table.bounds = none ∧ Bytes.FitsSigned 4 table.pairs.length ∧
    Bytes.FitsSigned 4 (table.fallback - offset) ∧
    ∀ pair ∈ table.pairs, Bytes.FitsSigned 4 pair.1 ∧ Bytes.FitsSigned 4 (pair.2 - offset)

/-- A table of consecutive numbers: distances to the fallback, the bounds, and the distances to the
targets. -/
def writeTable (offset : Nat) (table : SwitchTable) : Bytes :=
  match table.bounds with
  | some (low, high) =>
    Bytes.ofInt 4 (table.fallback - offset) ++ Bytes.ofInt 4 low ++ Bytes.ofInt 4 high ++
      table.pairs.flatMap fun pair ↦ Bytes.ofInt 4 (pair.2 - offset)
  | none => []

/-- A table of listed numbers: the distance to the fallback, how many there are, and each number
with the distance to its target. -/
def writeLookup (offset : Nat) (table : SwitchTable) : Bytes :=
  Bytes.ofInt 4 (table.fallback - offset) ++ Bytes.ofInt 4 table.pairs.length ++
    table.pairs.flatMap fun pair ↦ Bytes.ofInt 4 pair.1 ++ Bytes.ofInt 4 (pair.2 - offset)

end SwitchTable

/-! ### Operands -/

namespace Operand

/-- An operand of the instruction at `offset` is in the range of its kind. -/
def Fits (offset : Nat) : OperandKind → Operand → Prop
  | .i8, immediate value => Bytes.FitsSigned 1 value
  | .i16, immediate value => Bytes.FitsSigned 2 value
  | .count, count value => value < 2 ^ 8
  | .localVariable, localVariable index => index < 2 ^ 8
  | .constant8, constant index => index < 2 ^ 8
  | .constant16, constant index => index < 2 ^ 16
  | .branch16, target address => Bytes.FitsSigned 2 (address - offset)
  | .branch32, target address => Bytes.FitsSigned 4 (address - offset)
  | .arrayType, arrayType _ => True
  | .tableSwitch, table value => value.IsTable offset
  | .lookupSwitch, table value => value.IsLookup offset
  | _, _ => False

/-- The cells of an operand at `pos` of the instruction at `offset`. -/
def cells (offset pos : Nat) : OperandKind → Operand → Cells
  | .i8, immediate value => .exact (.ofInt 1 value)
  | .i16, immediate value => .exact (.ofInt 2 value)
  | .count, count value => .exact (.ofNat 1 value)
  | .localVariable, localVariable index => .exact (.ofNat 1 index)
  | .constant8, constant index => .exact (.ofNat 1 index)
  | .constant16, constant index => .exact (.ofNat 2 index)
  | .branch16, target address => .exact (.ofInt 2 (address - offset))
  | .branch32, target address => .exact (.ofInt 4 (address - offset))
  | .arrayType, arrayType type => .exact (.ofNat 1 type.arrayCode)
  | .tableSwitch, table value => .blank (padding pos) ++ .exact (value.writeTable offset)
  | .lookupSwitch, table value => .blank (padding pos) ++ .exact (value.writeLookup offset)
  | _, _ => []

/-- The operands are those of the kinds, of which a reserved byte has none. -/
def AllFit (offset : Nat) : List OperandKind → List Operand → Prop
  | [], [] => True
  | .reserved :: kinds, operands => AllFit offset kinds operands
  | kind :: kinds, operand :: operands => operand.Fits offset kind ∧ AllFit offset kinds operands
  | _, _ => False

/-- The cells of operands that start at `pos`. -/
def allCells (offset pos : Nat) : List OperandKind → List Operand → Cells
  | .reserved :: kinds, operands => none :: allCells offset (pos + 1) kinds operands
  | kind :: kinds, operand :: operands =>
    let front := operand.cells offset pos kind
    front ++ allCells offset (pos + front.length) kinds operands
  | _, _ => []

section

variable {offset pos : Nat} {kind : OperandKind} {kinds : List OperandKind}
  {operands : List Operand}

@[simp] theorem allCells_nil : allCells offset pos [] operands = [] := by
  cases operands <;> rfl

theorem allFit_reserved :
    AllFit offset (.reserved :: kinds) operands ↔ AllFit offset kinds operands := by
  rw [AllFit]

theorem allCells_reserved :
    allCells offset pos (.reserved :: kinds) operands =
      .blank 1 ++ allCells offset (pos + 1) kinds operands := by
  rw [allCells]
  rfl

theorem allFit_cons_iff (h : kind ≠ .reserved) :
    AllFit offset (kind :: kinds) operands ↔ ∃ operand rest, operands = operand :: rest ∧
      operand.Fits offset kind ∧ AllFit offset kinds rest := by
  cases operands with
  | nil => simp [AllFit, h]
  | cons operand rest => simp [AllFit]

/-- An operand is in the range of one of the kinds. -/
theorem AllFit.exists_fits (h : AllFit offset kinds operands) {operand : Operand}
    (hmem : operand ∈ operands) : ∃ kind ∈ kinds, operand.Fits offset kind := by
  induction kinds generalizing operands with
  | nil =>
    cases operands with
    | nil => cases hmem
    | cons other operands => exact h.elim
  | cons kind kinds ih =>
    by_cases hreserved : kind = .reserved
    · subst hreserved
      obtain ⟨found, hfound, hfits⟩ := ih (allFit_reserved.1 h) hmem
      exact ⟨found, .tail _ hfound, hfits⟩
    · obtain ⟨other, rest, rfl, hfits, hrest⟩ := (allFit_cons_iff hreserved).1 h
      rcases List.mem_cons.1 hmem with rfl | hmem
      · exact ⟨kind, .head _, hfits⟩
      · obtain ⟨found, hfound, hfits⟩ := ih hrest hmem
        exact ⟨found, .tail _ hfound, hfits⟩

/-- Nothing fits behind the wide mark: it announces an instruction, not an operand. -/
theorem not_allFit_wide : ¬ AllFit offset [.wide] operands := by
  rw [allFit_cons_iff (by decide)]
  rintro ⟨operand, rest, -, hfits, -⟩
  cases operand <;> exact hfits

theorem allCells_cons (kinds : List OperandKind) (operand : Operand) (operands : List Operand)
    (h : kind ≠ .reserved) :
    allCells offset pos (kind :: kinds) (operand :: operands) =
      operand.cells offset pos kind ++
        allCells offset (pos + (operand.cells offset pos kind).length) kinds operands := by
  simp [allCells]

end

/-- The operands of a wide instruction: a variable in two bytes, and only for the increment a
number in two bytes as well. -/
def WideFit (mnemonic : String) : List Operand → Prop
  | [localVariable index] => mnemonic ≠ "iinc" ∧ index < 2 ^ 16
  | [localVariable index, immediate value] =>
    mnemonic = "iinc" ∧ index < 2 ^ 16 ∧ Bytes.FitsSigned 2 value
  | _ => False

theorem wideFit_iff_of_increment {mnemonic : String} {operands : List Operand}
    (h : mnemonic = "iinc") :
    WideFit mnemonic operands ↔ ∃ index value,
      operands = [localVariable index, immediate value] ∧ index < 2 ^ 16 ∧
        Bytes.FitsSigned 2 value := by
  constructor
  · intro hfit
    unfold WideFit at hfit
    split at hfit
    · exact absurd h hfit.1
    · exact ⟨_, _, rfl, hfit.2⟩
    · exact hfit.elim
  · rintro ⟨index, value, rfl, hfit⟩
    exact ⟨h, hfit⟩

theorem wideFit_iff_of_ne {mnemonic : String} {operands : List Operand} (h : mnemonic ≠ "iinc") :
    WideFit mnemonic operands ↔ ∃ index, operands = [localVariable index] ∧ index < 2 ^ 16 := by
  constructor
  · intro hfit
    unfold WideFit at hfit
    split at hfit
    · exact ⟨_, rfl, hfit.2⟩
    · exact absurd hfit.1 h
    · exact hfit.elim
  · rintro ⟨index, rfl, hfit⟩
    exact ⟨h, hfit⟩

/-- The bytes of the operands of a wide instruction. -/
def writeWide : List Operand → Bytes
  | [localVariable index] => .ofNat 2 index
  | [localVariable index, immediate value] => .ofNat 2 index ++ .ofInt 2 value
  | _ => []

end Operand

/-! ### Instructions -/

namespace Instruction

/-- The byte of the wide mark. -/
def wideMark : Nat := 0xC4

/-- An instruction that can be written. -/
def WellFormed (i : Instruction) : Prop :=
  i.opcode ∈ Opcode.all ∧
    if i.wide then i.opcode.isWidened = true ∧ Operand.WideFit i.opcode.mnemonic i.operands
    else Operand.AllFit i.offset i.opcode.operands i.operands

/-- The cells of an instruction. -/
def cells (i : Instruction) : Cells :=
  if i.wide then
    .exact (.ofNat 1 wideMark ++ .ofNat 1 i.opcode.code ++ Operand.writeWide i.operands)
  else .exact (.ofNat 1 i.opcode.code) ++
    Operand.allCells i.offset (i.offset + 1) i.opcode.operands i.operands

theorem wellFormed_of_wide {i : Instruction} (h : i.wide = true) :
    i.WellFormed ↔ i.opcode ∈ Opcode.all ∧ i.opcode.isWidened = true ∧
      Operand.WideFit i.opcode.mnemonic i.operands := by
  rw [WellFormed, if_pos h]

theorem wellFormed_of_narrow {i : Instruction} (h : i.wide = false) :
    i.WellFormed ↔ i.opcode ∈ Opcode.all ∧
      Operand.AllFit i.offset i.opcode.operands i.operands := by
  rw [WellFormed, if_neg (by simp [h])]

theorem cells_of_wide {i : Instruction} (h : i.wide = true) :
    i.cells = .exact (.ofNat 1 wideMark ++ .ofNat 1 i.opcode.code ++
      Operand.writeWide i.operands) := by
  rw [cells, if_pos h]

theorem cells_of_narrow {i : Instruction} (h : i.wide = false) :
    i.cells = .exact (.ofNat 1 i.opcode.code) ++
      Operand.allCells i.offset (i.offset + 1) i.opcode.operands i.operands := by
  rw [cells, if_neg (by simp [h])]

/-- Well-formed instructions, the first of which starts at `start` and each other where the one
before it ends. -/
def Consecutive : (start : Nat) → List Instruction → Prop
  | _, [] => True
  | start, i :: rest => i.offset = start ∧ i.WellFormed ∧ Consecutive (start + i.cells.length) rest

/-- The code of instructions, with zeros in the bytes without meaning. -/
def assemble (instructions : List Instruction) : Bytes :=
  Cells.fill (instructions.flatMap cells)

/-- The positions without meaning that belong to an instruction: the padding of a switch table, the
last byte of a call through an interface and the last two bytes of a dynamic call. -/
def Ignores (i : Instruction) (k : Nat) : Prop :=
  (i.opcode.mnemonic = "tableswitch" ∨ i.opcode.mnemonic = "lookupswitch") ∧
      i.offset + 1 ≤ k ∧ k < i.offset + 1 + padding (i.offset + 1) ∨
    i.opcode.mnemonic = "invokeinterface" ∧ k = i.offset + 4 ∨
    i.opcode.mnemonic = "invokedynamic" ∧ (k = i.offset + 3 ∨ k = i.offset + 4)

end Instruction

end ClassInspect
