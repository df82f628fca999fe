import ClassInspect.Instruction.Render
import ClassInspect.Proofs.Instruction.Assemble
import ClassInspect.Proofs.Opcode

/-!
# Instructions are rendered by what their operands mean

`Instruction.render` knows of an argument only what the opcode table says it is for. An operand
knows by itself: `Instruction.text` writes each operand by its form, and `Instruction.annotated`
adds a comment on the pool index among them. For a well-formed instruction the two agree
(`Instruction.render_none`, `Instruction.render_some`), so that rendering can fail for a description
that a pool does not have and for nothing else.

What links them is that operands and kinds come in pairs (`Instruction.WellFormed.suits`). Operands
that were decoded fit the kinds of their row, with the bytes left out that have no meaning, and the
wide forms differ from that in the range of their numbers only. Given such pairs, every argument
has what its kind asks for: an element type has its number, and a switch its table.

The comment is made for each constant that is met, and a switch takes the place of what was written
before it. Both make no difference: a constant is the first operand and the only one, and a switch
has no other operand (`Opcode.meaningful_cases`).
-/

namespace ClassInspect

/-! ### Texts by the form of operands -/

/-- An operand in a listing. Constants are marked, and types given by name. -/
def Operand.text : Operand → String
  | constant index => s!"#{index}"
  | arrayType type => type.name
  | operand => operand.label

namespace SwitchTable

/-- What a switch covers: its bounds, or the number of its cases. -/
def summary (table : SwitchTable) : String :=
  match table.bounds with
  | some (low, high) => s!"{low} to {high}"
  | none => toString table.pairs.length

/-- The lines of a switch whose first line starts as given. -/
def lines (table : SwitchTable) (head : String) : List String :=
  table.linesOf head table.summary

end SwitchTable

namespace Instruction

/-- The instruction in a listing. -/
def text (i : Instruction) : String :=
  match i.operands with
  | [] => i.head
  | [.table table] => "\n".intercalate (table.lines i.head)
  | operands => i.head ++ " " ++ ", ".intercalate (operands.map Operand.text)

/-- The instruction in a listing, with a comment on the constant it refers to. -/
def annotated (i : Instruction) (pool : Pool) : Except Fault Text :=
  match i.constant? with
  | none => pure (.lit i.text)
  | some index => do return .lit i.text ++ .lit " // " ++ (← pool.describe index)

end Instruction

/-! ### Operands of a kind -/

/-- Arguments of such a kind are written without a look at anything else. -/
def OperandKind.IsPlain (kind : OperandKind) : Prop :=
  kind ∉ [OperandKind.constant8, .constant16, .tableSwitch, .lookupSwitch]

instance : DecidablePred OperandKind.IsPlain := fun _ ↦ inferInstanceAs (Decidable (_ ∉ _))

/-- The forms of operands that a kind asks for, of any size. -/
inductive Operand.Suits : OperandKind → Operand → Prop
  | i8 (value : Int) : Suits .i8 (.immediate value)
  | i16 (value : Int) : Suits .i16 (.immediate value)
  | count (value : Nat) : Suits .count (.count value)
  | localVariable (index : Nat) : Suits .localVariable (.localVariable index)
  | constant8 (index : Nat) : Suits .constant8 (.constant index)
  | constant16 (index : Nat) : Suits .constant16 (.constant index)
  | branch16 (address : Int) : Suits .branch16 (.target address)
  | branch32 (address : Int) : Suits .branch32 (.target address)
  | arrayType (type : BaseType) : Suits .arrayType (.arrayType type)
  | tableSwitch {table : SwitchTable} {bounds : Int × Int} (h : table.bounds = some bounds) :
      Suits .tableSwitch (.table table)
  | lookupSwitch {table : SwitchTable} (h : table.bounds = none) :
      Suits .lookupSwitch (.table table)

namespace Operand

variable {offset : Nat} {kind : OperandKind} {kinds : List OperandKind} {operand : Operand}
  {operands : List Operand}

/-- An operand in the range of a kind has the form that the kind asks for. -/
theorem Fits.suits (h : operand.Fits offset kind) : Suits kind operand := by
  cases kind with
  | i8 =>
    cases operand with
    | immediate value => exact .i8 value
    | _ => exact h.elim
  | i16 =>
    cases operand with
    | immediate value => exact .i16 value
    | _ => exact h.elim
  | count =>
    cases operand with
    | count value => exact .count value
    | _ => exact h.elim
  | localVariable =>
    cases operand with
    | localVariable index => exact .localVariable index
    | _ => exact h.elim
  | constant8 =>
    cases operand with
    | constant index => exact .constant8 index
    | _ => exact h.elim
  | constant16 =>
    cases operand with
    | constant index => exact .constant16 index
    | _ => exact h.elim
  | branch16 =>
    cases operand with
    | target address => exact .branch16 address
    | _ => exact h.elim
  | branch32 =>
    cases operand with
    | target address => exact .branch32 address
    | _ => exact h.elim
  | arrayType =>
    cases operand with
    | arrayType type => exact .arrayType type
    | _ => exact h.elim
  | tableSwitch =>
    cases operand with
    | table value =>
      obtain ⟨low, high, hbounds, -⟩ := h
      exact .tableSwitch hbounds
    | _ => exact h.elim
  | lookupSwitch =>
    cases operand with
    | table value => exact .lookupSwitch h.1
    | _ => exact h.elim
  | reserved | wide => cases operand <;> exact h.elim

/-- Without the bytes that have no meaning, kinds and operands come in pairs. -/
theorem AllFit.suits (h : AllFit offset kinds operands) :
    List.Forall₂ Suits (kinds.filter (· ≠ .reserved)) operands := by
  induction kinds generalizing operands with
  | nil =>
    cases operands with
    | nil => exact .nil
    | cons operand operands => exact h.elim
  | cons kind kinds ih =>
    by_cases hreserved : kind = .reserved
    · subst hreserved
      rw [List.filter_cons_of_neg (by simp)]
      exact ih (allFit_reserved.1 h)
    · obtain ⟨operand, rest, rfl, hfits, hrest⟩ := (allFit_cons_iff hreserved).1 h
      rw [List.filter_cons_of_pos (by simp [hreserved])]
      exact .cons hfits.suits (ih hrest)

end Operand

/-! ### Rows of the table -/

namespace Opcode

/-- The row of an opcode of the table is found. -/
theorem lookup_code {opcode : Opcode} (h : opcode ∈ all) : lookup opcode.code = .ok opcode := by
  rw [lookup, ofCode?_eq_some_iff.2 ⟨h, rfl⟩]

/-- An instruction has plain operands, or a pool index in front of them, or nothing but a table. -/
theorem meaningful_cases : ∀ opcode ∈ all,
    (∀ kind ∈ opcode.meaningful, kind.IsPlain) ∨
    (opcode.meaningful.head? ∈ [some OperandKind.constant8, some .constant16] ∧
      ∀ kind ∈ opcode.meaningful.tail, kind.IsPlain) ∨
    opcode.meaningful = [.tableSwitch] ∨ opcode.meaningful = [.lookupSwitch] := by
  decide +kernel

end Opcode

/-! ### Rendering -/

namespace Instruction

open Operand (Suits)

variable {i : Instruction} {pool? : Option Pool} {head : String} {done : List String}
  {before : Option Text} {kind : OperandKind} {kinds : List OperandKind} {operand : Operand}
  {operands : List Operand}

/-- The kinds of the row and the operands come in pairs. -/
theorem WellFormed.suits (hi : i.WellFormed) :
    List.Forall₂ Suits i.opcode.meaningful i.operands := by
  rcases hwide : i.wide with _ | _
  · exact ((wellFormed_of_narrow hwide).1 hi).2.suits
  · obtain ⟨hopcode, hwidened, hfit⟩ := (wellFormed_of_wide hwide).1 hi
    rw [Opcode.meaningful_of_isWidened hopcode hwidened]
    by_cases hmnemonic : i.opcode.mnemonic = "iinc"
    · obtain ⟨index, value, hoperands, -⟩ := (Operand.wideFit_iff_of_increment hmnemonic).1 hfit
      rw [if_pos hmnemonic, hoperands]
      exact .cons (.localVariable index) (.cons (.i8 value) .nil)
    · obtain ⟨index, hoperands, -⟩ := (Operand.wideFit_iff_of_ne hmnemonic).1 hfit
      rw [if_neg hmnemonic, hoperands]
      exact .cons (.localVariable index) .nil

/-- The number of an element type is that of the type. -/
theorem elementName_arrayCode (type : BaseType) :
    (Operand.arrayType type).argument.elementName = .ok type.name := by
  cases type <;> rfl

/-- A plain argument is written as its operand. -/
theorem renderArguments_cons (h : Suits kind operand) (hplain : kind.IsPlain)
    (rest : List (OperandKind × Argument)) :
    renderArguments pool? head done before ((kind, operand.argument) :: rest) =
      renderArguments pool? head (done ++ [operand.text]) before rest := by
  cases h with
  | arrayType type =>
    rw [renderArguments, elementName_arrayCode]
    rfl
  | constant8 | constant16 | tableSwitch | lookupSwitch => exact absurd hplain (by decide)
  | _ => rfl

/-- Plain arguments are written as their operands, behind those that were written before. -/
theorem renderArguments_of_plain (h : List.Forall₂ Suits kinds operands)
    (hplain : ∀ kind ∈ kinds, kind.IsPlain) :
    renderArguments pool? head done before (kinds.zip (operands.map Operand.argument)) =
      .ok (lineOf head (done ++ operands.map Operand.text) before) := by
  induction h generalizing done with
  | nil =>
    rw [List.map_nil, List.map_nil, List.append_nil]
    rfl
  | @cons kind operand kinds operands hfirst _ ih =>
    obtain ⟨hkind, hkinds⟩ := List.forall_mem_cons.1 hplain
    rw [List.map_cons, List.zip_cons_cons, renderArguments_cons hfirst hkind, ih hkinds,
      List.append_assoc]
    rfl

/-- Rendering goes through the kinds of the instruction's own row. -/
theorem render_eq (h : i.opcode ∈ Opcode.all) (pool? : Option Pool) :
    i.render pool? = renderArguments pool? i.head [] none
      (i.opcode.meaningful.zip (i.operands.map Operand.argument)) := by
  rw [render, Opcode.lookup_code h]
  rfl

/-- Operands without a table stand in one line. -/
theorem lit_text_of_forall_ne (h : ∀ table, .table table ∉ i.operands) :
    .lit i.text = lineOf i.head (i.operands.map Operand.text) none := by
  unfold text lineOf
  rcases hoperands : i.operands with _ | ⟨first, rest⟩
  · simp
  · cases first with
    | table table => exact absurd (hoperands ▸ List.mem_cons_self) (h table)
    | _ => simp

/-- The line with a comment is the line without, and the comment behind it. -/
theorem lineOf_some (head : String) (operands : List String) (comment : Text) :
    lineOf head operands (some comment) = lineOf head operands none ++ .lit " // " ++ comment := by
  simp [lineOf]

/-- Operands of plain kinds are neither tables nor pool indices. -/
theorem not_mem_of_plain (h : List.Forall₂ Suits kinds operands)
    (hplain : ∀ kind ∈ kinds, kind.IsPlain) :
    (∀ table, .table table ∉ operands) ∧ ∀ index, .constant index ∉ operands := by
  induction h with
  | nil => simp
  | @cons kind operand kinds operands hfirst _ ih =>
    obtain ⟨hkind, hkinds⟩ := List.forall_mem_cons.1 hplain
    obtain ⟨htables, hconstants⟩ := ih hkinds
    cases hfirst with
    | constant8 | constant16 | tableSwitch | lookupSwitch => exact absurd hkind (by decide)
    | _ => simp [htables, hconstants]

/-- The forms that the operands of a well-formed instruction can have: none that is a table or a
pool index, a pool index in front of such, or one table of the kind that its row has. -/
inductive Shape (i : Instruction) : Prop
  | plain (hplain : ∀ kind ∈ i.opcode.meaningful, kind.IsPlain)
      (hsuits : List.Forall₂ Suits i.opcode.meaningful i.operands)
  | constant {kind : OperandKind} {kinds : List OperandKind} {index : Nat} {rest : List Operand}
      (hmeaningful : i.opcode.meaningful = kind :: kinds)
      (hkind : kind = .constant8 ∨ kind = .constant16)
      (hoperands : i.operands = .constant index :: rest)
      (hplain : ∀ kind ∈ kinds, kind.IsPlain) (hsuits : List.Forall₂ Suits kinds rest)
  | tableSwitch {table : SwitchTable} {bounds : Int × Int}
      (hmeaningful : i.opcode.meaningful = [.tableSwitch]) (hoperands : i.operands = [.table table])
      (hbounds : table.bounds = some bounds)
  | lookupSwitch {table : SwitchTable} (hmeaningful : i.opcode.meaningful = [.lookupSwitch])
      (hoperands : i.operands = [.table table]) (hbounds : table.bounds = none)

theorem WellFormed.shape (hi : i.WellFormed) : i.Shape := by
  have hsuits := hi.suits
  rcases Opcode.meaningful_cases i.opcode hi.1 with hplain | ⟨hhead, hplain⟩ | hkinds | hkinds
  · exact .plain hplain hsuits
  · rcases hkinds : i.opcode.meaningful with _ | ⟨kind, kinds⟩
    · rw [hkinds] at hhead
      exact absurd hhead (by decide)
    · rw [hkinds] at hhead hplain hsuits
      rcases hoperands : i.operands with _ | ⟨operand, rest⟩
      · rw [hoperands] at hsuits
        cases hsuits
      · rw [hoperands] at hsuits
        obtain ⟨hfirst, hrest⟩ := List.forall₂_cons.1 hsuits
        have hkind : kind = .constant8 ∨ kind = .constant16 := by simpa using hhead
        rcases hkind with rfl | rfl
        · cases hfirst
          exact .constant hkinds (.inl rfl) hoperands hplain hrest
        · cases hfirst
          exact .constant hkinds (.inr rfl) hoperands hplain hrest
  · rw [hkinds] at hsuits
    obtain ⟨operand, rest, hfirst, hrest, hoperands⟩ := List.forall₂_cons_left_iff.1 hsuits
    cases hfirst with
    | tableSwitch hbounds =>
      rw [List.forall₂_nil_left_iff.1 hrest] at hoperands
      exact .tableSwitch hkinds hoperands hbounds
  · rw [hkinds] at hsuits
    obtain ⟨operand, rest, hfirst, hrest, hoperands⟩ := List.forall₂_cons_left_iff.1 hsuits
    cases hfirst with
    | lookupSwitch hbounds =>
      rw [List.forall₂_nil_left_iff.1 hrest] at hoperands
      exact .lookupSwitch hkinds hoperands hbounds

/-- A constant is marked, and its description is the comment on what follows. -/
theorem renderArguments_constant (hkind : kind = .constant8 ∨ kind = .constant16) (index : Nat)
    (rest : List (OperandKind × Argument)) :
    renderArguments pool? head done before ((kind, (Operand.constant index).argument) :: rest) =
      comment pool? (.number index) before >>= fun after ↦
        renderArguments pool? head (done ++ [(Operand.constant index).text]) after rest := by
  rcases hkind with rfl | rfl <;> rfl

theorem constant?_eq_none (h : ∀ index, .constant index ∉ i.operands) : i.constant? = none := by
  rw [constant?, List.findSome?_eq_none_iff]
  intro operand hoperand
  cases operand with
  | constant index => exact absurd hoperand (h index)
  | _ => rfl

/-- Without a pool, a well-formed instruction is written by the forms of its operands. -/
theorem render_none (hi : i.WellFormed) : i.render none = .ok (.lit i.text) := by
  rw [render_eq hi.1]
  cases hi.shape with
  | plain hplain hsuits =>
    rw [renderArguments_of_plain hsuits hplain, List.nil_append,
      lit_text_of_forall_ne (not_mem_of_plain hsuits hplain).1]
  | constant hmeaningful hkind hoperands hplain hsuits =>
    have hno : ∀ table, .table table ∉ i.operands := by
      simpa [hoperands] using (not_mem_of_plain hsuits hplain).1
    rw [hmeaningful, hoperands, List.map_cons, List.zip_cons_cons, renderArguments_constant hkind,
      lit_text_of_forall_ne hno, hoperands]
    exact renderArguments_of_plain hsuits hplain
  | tableSwitch hmeaningful hoperands hbounds =>
    rw [hmeaningful, hoperands, text, hoperands]
    simp only [SwitchTable.lines, SwitchTable.summary, hbounds]
    simp only [List.map_cons, List.map_nil, List.zip_cons_cons, List.zip_nil_left, renderArguments]
    simp only [Operand.argument, Argument.tableLines, SwitchTable.boundsText, hbounds]
    rfl
  | lookupSwitch hmeaningful hoperands hbounds =>
    rw [hmeaningful, hoperands, text, hoperands]
    simp only [SwitchTable.lines, SwitchTable.summary, hbounds]
    rfl

/-- With a pool, the comment on the instruction is the description of the one constant it refers
to. -/
theorem render_some (hi : i.WellFormed) (pool : Pool) :
    i.render (some pool) = i.annotated pool := by
  have hnone := render_none hi
  rw [render_eq hi.1] at hnone ⊢
  cases hi.shape with
  | plain hplain hsuits =>
    obtain ⟨-, hconstants⟩ := not_mem_of_plain hsuits hplain
    rw [renderArguments_of_plain hsuits hplain] at hnone ⊢
    rw [annotated, constant?_eq_none hconstants]
    exact hnone
  | @constant kind kinds index rest hmeaningful hkind hoperands hplain hsuits =>
    have hconstant : i.constant? = some index := by
      rw [constant?, hoperands]
      rfl
    rw [hmeaningful, hoperands, List.map_cons, List.zip_cons_cons,
      renderArguments_constant hkind] at hnone ⊢
    have htext :
        lineOf i.head ([] ++ [(Operand.constant index).text] ++ rest.map Operand.text) none =
          .lit i.text :=
      Except.ok.inj ((renderArguments_of_plain hsuits hplain).symm.trans hnone)
    rw [annotated, hconstant]
    show (pool.describe index >>= fun description ↦ pure (some description)) >>= _ = _
    rw [bind_assoc]
    refine bind_congr fun description ↦ ?_
    show renderArguments _ _ _ (some description) _ = _
    rw [renderArguments_of_plain hsuits hplain, lineOf_some, htext]
    rfl
  | tableSwitch hmeaningful hoperands hbounds =>
    have hconstant : i.constant? = none := by
      rw [constant?, hoperands]
      rfl
    rw [hmeaningful, hoperands] at hnone ⊢
    rw [annotated, hconstant]
    exact hnone
  | lookupSwitch hmeaningful hoperands hbounds =>
    have hconstant : i.constant? = none := by
      rw [constant?, hoperands]
      rfl
    rw [hmeaningful, hoperands] at hnone ⊢
    rw [annotated, hconstant]
    exact hnone

-- what is rendered is decided by the table: a number that is no element type is not written
example : (⟨0, ⟨"newarray", 0xBC, [.arrayType]⟩, false, [.immediate 3]⟩ : Instruction).render none =
    .error (.breach (.noElementType "3")) := by
  decide +kernel

end Instruction

end ClassInspect
