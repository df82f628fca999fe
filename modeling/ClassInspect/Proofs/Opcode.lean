import Mathlib.Data.List.Chain
import Mathlib.Data.List.Nodup
import Mathlib.Tactic.MkIffOfInductiveProp
import ClassInspect.Opcode

/-!
# The instruction set as a table

What the rows of the instruction set have in common. The table is in the order of the opcodes, so
each opcode has one row and a row is found by its opcode (`Opcode.ofCode?_eq_some_iff`). What can be
said of each row by itself is said in `Opcode.Regular`, such as that the kinds of operands that are
laid out in a special way stand in few rows.

No two rows have the same mnemonic, not even if one of them is wide, and no mnemonic is one of the
other words of a listing (`Opcode.nodup_words`). So a row is also found by its mnemonic: what holds
of some row with a mnemonic holds of every row with it (`Opcode.of_mnemonic`).
-/

namespace ClassInspect.Opcode

/-- The table is in the order of the opcodes. -/
theorem pairwise_code_lt : (all.map code).Pairwise (· < ·) :=
  List.isChain_iff_pairwise.1 (by decide +kernel)

/-- In rows that are in order, each one is found by its opcode. -/
theorem find?_code {rows : List Opcode} (hrows : (rows.map code).Pairwise (· < ·))
    {opcode : Opcode} (h : opcode ∈ rows) :
    rows.find? (fun row ↦ (row.code : Int) = opcode.code) = some opcode := by
  induction rows with
  | nil => cases h
  | cons row rows ih =>
    rw [List.map_cons, List.pairwise_cons] at hrows
    rcases List.mem_cons.1 h with rfl | h
    · exact List.find?_cons_of_pos (by simp)
    · have hlt : row.code < opcode.code := hrows.1 _ (List.mem_map_of_mem h)
      rw [List.find?_cons_of_neg (by simp; omega)]
      exact ih hrows.2 h

/-- The row of an opcode is the one row of the table with this opcode. -/
theorem ofCode?_eq_some_iff {number : Nat} {opcode : Opcode} :
    ofCode? number = some opcode ↔ opcode ∈ all ∧ opcode.code = number := by
  constructor
  · intro h
    have hcode : (opcode.code : Int) = number := by simpa using List.find?_some h
    exact ⟨List.mem_of_find?_eq_some h, Int.ofNat.inj hcode⟩
  · rintro ⟨hmem, rfl⟩
    exact find?_code pairwise_code_lt hmem

/-- What all rows of the table have in common. -/
@[mk_iff]
structure Regular (opcode : Opcode) : Prop where
  code_lt : opcode.code < 256
  /-- The wide mark is the only instruction that announces another one. -/
  wide_iff : opcode.operands = [.wide] ↔ opcode.code = 0xC4
  wide_not_mem : opcode.operands ≠ [.wide] → .wide ∉ opcode.operands
  /-- The increment is the only instruction that adds a number to a variable. -/
  increment : opcode.operands = [.localVariable, .i8] → opcode.mnemonic = "iinc"
  /-- A pool index stands in front of all other operands, and no instruction has two. -/
  constant_not_mem_tail :
    .constant8 ∉ opcode.operands.tail ∧ .constant16 ∉ opcode.operands.tail
  /-- The kinds of operands with bytes that have no meaning stand in four rows. -/
  layout :
    (∀ kind ∈ opcode.operands,
      kind ≠ .reserved ∧ kind ≠ .tableSwitch ∧ kind ≠ .lookupSwitch) ∨
    (opcode.mnemonic = "tableswitch" ∧ opcode.operands = [.tableSwitch]) ∨
    (opcode.mnemonic = "lookupswitch" ∧ opcode.operands = [.lookupSwitch]) ∨
    (opcode.mnemonic = "invokeinterface" ∧ opcode.operands = [.constant16, .count, .reserved]) ∨
    (opcode.mnemonic = "invokedynamic" ∧
      opcode.operands = [.constant16, .reserved, .reserved])

instance : DecidablePred Regular := fun opcode ↦ decidable_of_iff _ (regular_iff opcode).symm

/-- All rows are regular. They are gone through once for everything that is said about them. -/
theorem regular {opcode : Opcode} (h : opcode ∈ all) : opcode.Regular := by
  have hall : ∀ opcode ∈ all, opcode.Regular := by decide +kernel
  exact hall opcode h

/-! ### Spellings -/

/-- An opcode, narrow or wide, as it is spelled. -/
def spelling (form : Opcode × Bool) : String :=
  if form.2 then form.1.mnemonic ++ "_w" else form.1.mnemonic

/-- Whether the instruction is about a variable. These are the ones that can be wide. -/
def hasVariable (opcode : Opcode) : Bool :=
  opcode.meaningful.head? = some .localVariable

/-- The narrow forms of all opcodes, and the wide forms that there are. -/
def forms : List (Opcode × Bool) :=
  all.map (·, false) ++ (all.filter hasVariable).map (·, true)

/-- The words of a listing that are not mnemonics. -/
def otherWords : List String :=
  "default" :: BaseType.all.map BaseType.name

/-- A small number made of the bytes of a word. The divisor is such that no two words of a listing
come to the same number. -/
def fingerprint (word : String) : Nat :=
  word.toByteArray.data.toList.foldl (fun number byte ↦ number * 256 + byte.toNat) 0 % 2475

/-- Whether no two numbers of a list are the same, and none is among those that were met before it.
The bits of `met` stand for these, so that every number is looked at once. -/
def distinctFrom (met : Nat) : List Nat → Bool
  | [] => true
  | number :: numbers => !met.testBit number && distinctFrom (met ||| 1 <<< number) numbers

theorem nodup_of_distinctFrom {met : Nat} {numbers : List Nat}
    (h : distinctFrom met numbers = true) :
    numbers.Nodup ∧ ∀ number ∈ numbers, met.testBit number = false := by
  induction numbers generalizing met with
  | nil => exact ⟨.nil, List.forall_mem_nil _⟩
  | cons number numbers ih =>
    obtain ⟨hfirst, hrest⟩ := Bool.and_eq_true_iff.1 h
    obtain ⟨hnodup, hnew⟩ := ih hrest
    simp only [Nat.testBit_or, Bool.or_eq_false_iff] at hnew
    refine ⟨List.nodup_cons.2 ⟨fun hmem ↦ ?_, hnodup⟩,
      List.forall_mem_cons.2 ⟨by simpa using hfirst, fun other hother ↦ (hnew other hother).1⟩⟩
    have hbit := (hnew number hmem).2
    rw [Nat.one_shiftLeft, Nat.testBit_two_pow_self] at hbit
    cases hbit

/-- No word of a listing stands for two things. In particular no opcode has the name that another
one has when it is wide. -/
theorem nodup_words : (forms.map spelling ++ otherWords).Nodup := by
  have hdistinct : distinctFrom 0 ((forms.map spelling ++ otherWords).map fingerprint) = true := by
    decide +kernel
  exact (nodup_of_distinctFrom hdistinct).1.of_map fingerprint

theorem spelling_inj {form other : Opcode × Bool} (hform : form ∈ forms) (hother : other ∈ forms)
    (h : spelling form = spelling other) : form = other :=
  List.inj_on_of_nodup_map (List.nodup_append.1 nodup_words).1 hform hother h

theorem narrow_mem_forms {opcode : Opcode} (h : opcode ∈ all) : (opcode, false) ∈ forms :=
  List.mem_append_left _ (List.mem_map_of_mem h)

theorem mnemonic_inj {opcode other : Opcode} (h : opcode ∈ all) (hother : other ∈ all)
    (hsame : opcode.mnemonic = other.mnemonic) : opcode = other :=
  congrArg Prod.fst (spelling_inj (narrow_mem_forms h) (narrow_mem_forms hother) hsame)

theorem mnemonic_not_mem_otherWords {opcode : Opcode} (h : opcode ∈ all) :
    opcode.mnemonic ∉ otherWords := fun hmem ↦
  (List.nodup_append.1 nodup_words).2.2 opcode.mnemonic
    (List.mem_map.2 ⟨(opcode, false), narrow_mem_forms h, rfl⟩) _ hmem rfl

/-- What holds of some row with a mnemonic holds of the one row that has it. -/
theorem of_mnemonic {property : Opcode → Prop} {mnemonic : String}
    (hrow : ∃ row ∈ all, property row ∧ row.mnemonic = mnemonic) {opcode : Opcode}
    (h : opcode ∈ all) (hsame : opcode.mnemonic = mnemonic) : property opcode := by
  obtain ⟨row, hrow, hproperty, rfl⟩ := hrow
  rw [mnemonic_inj h hrow hsame]
  exact hproperty

/-! ### Rows by mnemonic -/

theorem operands_eq_increment_iff {opcode : Opcode} (h : opcode ∈ all) :
    opcode.operands = [.localVariable, .i8] ↔ opcode.mnemonic = "iinc" := by
  have hrow : ∃ row ∈ all, row.operands = [.localVariable, .i8] ∧ row.mnemonic = "iinc" := by
    decide +kernel
  exact ⟨(regular h).increment, of_mnemonic hrow h⟩

/-- The two switches. -/
def switches : List String :=
  ["tableswitch", "lookupswitch"]

theorem operands_of_switch {opcode : Opcode} (h : opcode ∈ all)
    (hswitch : opcode.mnemonic ∈ switches) :
    opcode.operands = [.tableSwitch] ∨ opcode.operands = [.lookupSwitch] := by
  have hrows : ∀ mnemonic ∈ switches, ∃ row ∈ all,
      (row.operands = [.tableSwitch] ∨ row.operands = [.lookupSwitch]) ∧
        row.mnemonic = mnemonic := by decide +kernel
  exact of_mnemonic (hrows _ hswitch) h rfl

theorem switch_not_mem_operands {opcode : Opcode} (h : opcode ∈ all)
    (hswitch : opcode.mnemonic ∉ switches) :
    .tableSwitch ∉ opcode.operands ∧ .lookupSwitch ∉ opcode.operands := by
  rcases (regular h).layout with hplain | ⟨hname, -⟩ | ⟨hname, -⟩ | ⟨-, hkinds⟩ | ⟨-, hkinds⟩
  · exact ⟨fun hmem ↦ (hplain _ hmem).2.1 rfl, fun hmem ↦ (hplain _ hmem).2.2 rfl⟩
  · exact absurd (hname ▸ .head _) hswitch
  · exact absurd (hname ▸ .tail _ (.head _)) hswitch
  · rw [hkinds]
    decide
  · rw [hkinds]
    decide

/-- Each instruction that may follow the wide mark is about a variable. -/
theorem hasVariable_of_isWidened {opcode : Opcode} (h : opcode ∈ all)
    (hwidened : opcode.isWidened = true) : opcode.hasVariable = true := by
  have hrows : ∀ mnemonic ∈ widenedMnemonics, ∃ row ∈ all,
      row.hasVariable = true ∧ row.mnemonic = mnemonic := by decide +kernel
  exact of_mnemonic (hrows _ (List.contains_iff_mem.1 hwidened)) h rfl

/-- An instruction that can be widened has a variable, and for the increment a number. -/
theorem meaningful_of_isWidened {opcode : Opcode} (h : opcode ∈ all)
    (hwidened : opcode.isWidened = true) :
    opcode.meaningful =
      if opcode.mnemonic = "iinc" then [.localVariable, .i8] else [.localVariable] := by
  have hrows : ∀ row ∈ all.filter hasVariable, row.meaningful =
      if row.mnemonic = "iinc" then [.localVariable, .i8] else [.localVariable] := by
    decide +kernel
  exact hrows opcode (List.mem_filter.2 ⟨h, hasVariable_of_isWidened h hwidened⟩)

end ClassInspect.Opcode
