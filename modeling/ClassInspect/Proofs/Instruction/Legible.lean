import Mathlib.Data.List.Nodup
import ClassInspect.Proofs.Descriptor
import ClassInspect.Proofs.Highlight.Listing
import ClassInspect.Proofs.Text.Boundary

/-!
# Listings can be read back

The lines of instructions determine the instructions (`Instruction.listing_determines_code`). They
are taken apart from the left, two listings at a time: every lemma here is about two texts that are
equal, and says that their first parts are equal and so are the texts behind them.

## What each step rests on

* Numbers, mnemonics and names of types are legible (`IsLegible`): none of the marks that may follow
  them occurs in them, so they end where the first mark stands (`IsLegible.inj`). That what follows
  does start with a mark is a condition of every lemma (`Breaks`), and has to be known of all that
  can follow, the end of the listing included.
* A mnemonic tells the opcode and whether it is wide (`Instruction.opcode_of_mnemonic`). This rests
  on the table of opcodes as a whole: no opcode is called like the wide form of another one.
* The opcode tells the kinds of the operands, and operands of one kind are of one form
  (`Operand.Suits.alike`). Without the opcode they could not be read: a pool index and a count, or a
  number and a target, look the same.
* The lines of a switch are read one by one (`SwitchTable.pairs_inj`), which works only for as many
  lines on both sides. How many there are is written in the first line, as the bounds of the numbers
  or as their count (`SwitchTable.IsTable.bodyText_inj`, `SwitchTable.IsLookup.bodyText_inj`).

## Comments

Comments are not legible. They hold any text of the constant pool, line feeds included, and can look
like lines of instructions. But a comment is determined by the instruction in front of it, so by the
time it is reached it is known, and is taken off as a whole (`Instruction.line_inj`). This is why
both listings must have been made with the same pool.
-/

namespace ClassInspect

open Text (lit)

/-! ### What can be told from what follows it -/

/-- The marks behind the words and numbers of a listing. -/
def breakMarks : List Char :=
  [' ', '\n', ',', ':']

/-- A text that is not empty and holds none of the marks. -/
structure IsLegible (string : String) : Prop where
  ne_nil : string.toList ≠ []
  not_mem : ∀ c ∈ string.toList, c ∉ breakMarks

/-- Nothing follows, or one of the marks. -/
def Breaks (rest : Text) : Prop :=
  ∀ c ∈ rest.head?, c ∈ breakMarks.map CodePoint.char

variable {string other : String} {rest rest' : Text}

/-- At the end of the text, whatever stands before it is over. -/
theorem breaks_nil : Breaks [] :=
  fun _ hc ↦ absurd hc (by simp)

/-- A string that starts with a mark ends the part before it, whatever follows the string. -/
theorem breaks_lit (h : string.toList.head?.any breakMarks.contains = true) (rest : Text) :
    Breaks (lit string ++ rest) := by
  obtain ⟨c, hc, hmark⟩ := (Option.any_eq_true _ _).1 h
  obtain ⟨more, hchars⟩ := List.head?_eq_some_iff.1 hc
  rw [lit, hchars]
  intro point hpoint
  rw [← Option.mem_some_iff.1 hpoint]
  exact List.mem_map_of_mem (List.contains_iff_mem.1 hmark)

/-- A part is legible if its characters have something in common that no mark has. This is how all
parts are shown to be legible. -/
theorem isLegible_of_forall (condition : Char → Bool) (hne : string.toList ≠ [])
    (h : ∀ c ∈ string.toList, condition c = true) (hmarks : breakMarks.any condition = false) :
    IsLegible string := by
  refine ⟨hne, fun c hc hmark ↦ ?_⟩
  exact List.any_eq_false.1 hmarks c hmark (h c hc)

/-- Words are made of word characters. -/
theorem isLegible_of_isSpelling (h : Lexer.IsSpelling string.toList) : IsLegible string :=
  isLegible_of_forall _ h.ne_nil h.all (by decide)

/-- Numbers are made of digits and a sign. -/
theorem Lexer.IsNumeral.all {chars : List Char} (h : IsNumeral chars) :
    ∀ c ∈ chars, (c.isDigit || c == '-') = true := by
  have hdigits : ∀ {digits : List Char}, IsDigits digits →
      ∀ c ∈ digits, (c.isDigit || c == '-') = true :=
    fun hdigits c hc ↦ Bool.or_eq_true_iff.2 (.inl (hdigits.all c hc))
  cases h with
  | digits h => exact hdigits h
  | negative h => exact List.forall_mem_cons.2 ⟨by decide, hdigits h⟩

/-- Numbers can be told from the marks behind them, with or without a sign. -/
theorem isLegible_number (number : Int) : IsLegible (toString number) :=
  isLegible_of_forall _ (isNumeral_toString number).ne_nil (isNumeral_toString number).all
    (by decide)

/-- What is legible ends where the first mark stands. -/
theorem IsLegible.inj (hstring : IsLegible string) (hother : IsLegible other) (hrest : Breaks rest)
    (hrest' : Breaks rest') (h : lit string ++ rest = lit other ++ rest') :
    string = other ∧ rest = rest' := by
  have hrun : ∀ {string : String}, IsLegible string →
      ∀ c ∈ lit string, decide (c ∉ breakMarks.map CodePoint.char) = true := by
    intro string hstring point hpoint
    obtain ⟨c, hc, rfl⟩ := List.mem_map.1 hpoint
    refine decide_eq_true fun hmark ↦ hstring.not_mem c hc ?_
    obtain ⟨mark, hmark, heq⟩ := List.mem_map.1 hmark
    exact CodePoint.char.inj heq ▸ hmark
  have htail : ∀ {rest : Text}, Breaks rest →
      ∀ c ∈ rest.head?, decide (c ∉ breakMarks.map CodePoint.char) = false :=
    fun hrest c hc ↦ decide_eq_false fun hmark ↦ hmark (hrest c hc)
  obtain ⟨hsame, hrests⟩ := append_inj_of_boundary _ (hrun hstring) (hrun hother) (htail hrest)
    (htail hrest') h
  exact ⟨Text.lit_inj hsame, hrests⟩

/-- The blanks in front of a text that is moved to the right of a column are taken off first. -/
theorem IsLegible.right_inj (hstring : IsLegible string) (hother : IsLegible other)
    (hrest : Breaks rest) (hrest' : Breaks rest') {width : Nat}
    (h : lit (Layout.right width string) ++ rest = lit (Layout.right width other) ++ rest') :
    string = other ∧ rest = rest' := by
  have hright : ∀ string : String, lit (Layout.right width string) =
      List.replicate (width - string.toList.length) (.char ' ') ++ lit string := by
    intro string
    rw [lit, toList_right, Text.ofChars, List.map_append, List.map_replicate]
    rfl
  have hhead : ∀ {string : String}, IsLegible string → ∀ rest : Text,
      ∀ c ∈ (lit string ++ rest).head?, decide (c = .char ' ') = false := by
    intro string hstring rest c hc
    obtain ⟨first, more, hchars⟩ := List.exists_cons_of_ne_nil hstring.ne_nil
    have hfirst := hstring.not_mem first (by rw [hchars]; exact .head _)
    rw [lit, hchars] at hc
    rw [← Option.mem_some_iff.1 hc]
    refine decide_eq_false fun hblank ↦ hfirst ?_
    rw [CodePoint.char.inj hblank]
    exact .head _
  rw [hright, hright, List.append_assoc, List.append_assoc] at h
  -- the numbers of blanks are not compared: both runs of them end at the first other character
  obtain ⟨-, h⟩ := append_inj_of_boundary (fun c ↦ decide (c = CodePoint.char ' '))
    (fun c hc ↦ decide_eq_true (List.eq_of_mem_replicate hc))
    (fun c hc ↦ decide_eq_true (List.eq_of_mem_replicate hc)) (hhead hstring rest)
    (hhead hother rest') h
  exact hstring.inj hother hrest hrest' h

/-! ### Numbers -/

/-- Numbers with the same digits are the same. -/
theorem toString_nat_inj {m n : Nat} (h : toString m = toString n) : m = n := by
  have hdigits : Nat.toDigits 10 m = Nat.toDigits 10 n := by
    rw [← toList_toString, ← toList_toString, h]
  rw [← Nat.ofDigitChars_ten_toDigits (n := m), hdigits, Nat.ofDigitChars_ten_toDigits]

/-- Numbers with the same text are the same, below zero and above it. -/
theorem toString_int_inj {m n : Int} (h : toString m = toString n) : m = n := by
  -- Only the numbers below zero have a sign.
  have hsign : ∀ m n : Nat, toString (Int.ofNat m) ≠ toString (Int.negSucc n) := by
    intro m n heq
    have hmem : '-' ∈ (toString m).toList := by
      show '-' ∈ (toString (Int.ofNat m)).toList
      rw [heq, toList_toString_negSucc]
      exact .head _
    exact absurd ((isDigits_toString m).all '-' hmem) (by decide)
  cases m with
  | ofNat m =>
    cases n with
    | ofNat n => rw [toString_nat_inj h]
    | negSucc n => exact absurd h (hsign m n)
  | negSucc m =>
    cases n with
    | ofNat n => exact absurd h.symm (hsign n m)
    | negSucc n =>
      have hchars := congrArg String.toList h
      rw [toList_toString_negSucc, toList_toString_negSucc] at hchars
      have hsame := toString_nat_inj (String.toList_inj.1 (List.tail_eq_of_cons_eq hchars))
      rw [Nat.succ.inj hsame]

/-- Two texts that start with numbers, each of which ends at a mark, start with the same number if
they are the same. -/
theorem number_inj {number number' : Int} (hrest : Breaks rest) (hrest' : Breaks rest')
    (h : lit (toString number) ++ rest = lit (toString number') ++ rest') :
    number = number' ∧ rest = rest' := by
  obtain ⟨hsame, hrests⟩ := (isLegible_number _).inj (isLegible_number _) hrest hrest' h
  exact ⟨toString_int_inj hsame, hrests⟩

/-! ### Operands in a line -/

namespace Operand

/-- Operands of one form, which take no line of their own. -/
inductive Alike : Operand → Operand → Prop
  | immediate (value value' : Int) : Alike (.immediate value) (.immediate value')
  | count (value value' : Nat) : Alike (.count value) (.count value')
  | localVariable (index index' : Nat) : Alike (.localVariable index) (.localVariable index')
  | constant (index index' : Nat) : Alike (.constant index) (.constant index')
  | target (address address' : Int) : Alike (.target address) (.target address')
  | arrayType (type type' : BaseType) : Alike (.arrayType type) (.arrayType type')

variable {operand operand' : Operand} {operands operands' : List Operand}

/-- Operands of one form are told apart by their texts. -/
theorem Alike.text_inj (h : Alike operand operand') (hrest : Breaks rest) (hrest' : Breaks rest')
    (htext : lit operand.text ++ rest = lit operand'.text ++ rest') :
    operand = operand' ∧ rest = rest' := by
  cases h with
  | immediate value value' =>
    obtain ⟨rfl, hrests⟩ := number_inj hrest hrest' htext
    exact ⟨rfl, hrests⟩
  | count value value' =>
    obtain ⟨hsame, hrests⟩ := number_inj hrest hrest' htext
    exact ⟨congrArg _ (Int.ofNat.inj hsame), hrests⟩
  | localVariable index index' =>
    obtain ⟨hsame, hrests⟩ := number_inj hrest hrest' htext
    exact ⟨congrArg _ (Int.ofNat.inj hsame), hrests⟩
  | constant index index' =>
    have hconstant : ∀ index : Nat, lit (Operand.constant index).text =
        .char '#' :: lit (toString (index : Int)) := by
      intro index
      show lit ("#" ++ toString (index : Int)) = _
      rw [Text.lit_append]
      rfl
    rw [hconstant, hconstant] at htext
    obtain ⟨hsame, hrests⟩ := number_inj hrest hrest' (List.tail_eq_of_cons_eq htext)
    exact ⟨congrArg _ (Int.ofNat.inj hsame), hrests⟩
  | target address address' =>
    obtain ⟨rfl, hrests⟩ := number_inj hrest hrest' htext
    exact ⟨rfl, hrests⟩
  | arrayType type type' =>
    obtain ⟨hsame, hrests⟩ := (isLegible_of_isSpelling (isSpelling_typeName type)).inj
      (isLegible_of_isSpelling (isSpelling_typeName type')) hrest hrest' htext
    exact ⟨congrArg _ (BaseType.name_inj hsame), hrests⟩

/-- The texts of the operands behind the first one. -/
def moreText (operands : List Operand) : Text :=
  operands.flatMap fun operand ↦ lit ", " ++ lit operand.text

/-- The texts of the operands in a line. -/
def lineText : List Operand → Text
  | [] => []
  | operand :: operands => lit " " ++ lit operand.text ++ moreText operands

/-- The text of further operands starts with a comma, or is that of what follows. -/
theorem breaks_moreText (operands : List Operand) (hrest : Breaks rest) :
    Breaks (moreText operands ++ rest) := by
  cases operands with
  | nil => exact hrest
  | cons operand operands =>
    simp only [moreText, List.flatMap_cons, List.append_assoc]
    exact breaks_lit (by decide) _

/-- Operands of the same kinds with the same text are the same. By induction on the operands: each
of them ends where the next comma, or what follows all of them, starts. -/
theorem moreText_inj (h : List.Forall₂ Alike operands operands') (hrest : Breaks rest)
    (hrest' : Breaks rest')
    (htext : moreText operands ++ rest = moreText operands' ++ rest') :
    operands = operands' ∧ rest = rest' := by
  induction h with
  | nil => exact ⟨rfl, htext⟩
  | @cons operand operand' operands operands' hfirst _ ih =>
    simp only [moreText, List.flatMap_cons, List.append_assoc] at htext
    obtain ⟨rfl, htexts⟩ := hfirst.text_inj (breaks_moreText operands hrest)
      (breaks_moreText operands' hrest') (List.append_cancel_left htext)
    obtain ⟨rfl, hrests⟩ := ih htexts
    exact ⟨rfl, hrests⟩

/-- Operands of the same forms are told apart by their line. -/
theorem lineText_inj (h : List.Forall₂ Alike operands operands') (hrest : Breaks rest)
    (hrest' : Breaks rest')
    (htext : lineText operands ++ rest = lineText operands' ++ rest') :
    operands = operands' ∧ rest = rest' := by
  cases h with
  | nil => exact ⟨rfl, htext⟩
  | @cons operand operand' operands operands' hfirst hmore =>
    simp only [lineText, List.append_assoc] at htext
    obtain ⟨rfl, htexts⟩ := hfirst.text_inj (breaks_moreText operands hrest)
      (breaks_moreText operands' hrest') (List.append_cancel_left htext)
    obtain ⟨rfl, hrests⟩ := moreText_inj hmore hrest hrest' htexts
    exact ⟨rfl, hrests⟩

/-- Operands of one kind are of one form, unless they are tables. -/
theorem Suits.alike {kind : OperandKind} (h : Suits kind operand) (h' : Suits kind operand')
    (htable : kind ≠ .tableSwitch) (hlookup : kind ≠ .lookupSwitch) : Alike operand operand' := by
  cases h with
  | i8 value =>
    cases h' with
    | i8 value' => exact .immediate value value'
  | i16 value =>
    cases h' with
    | i16 value' => exact .immediate value value'
  | count value =>
    cases h' with
    | count value' => exact .count value value'
  | localVariable index =>
    cases h' with
    | localVariable index' => exact .localVariable index index'
  | constant8 index =>
    cases h' with
    | constant8 index' => exact .constant index index'
  | constant16 index =>
    cases h' with
    | constant16 index' => exact .constant index index'
  | branch16 address =>
    cases h' with
    | branch16 address' => exact .target address address'
  | branch32 address =>
    cases h' with
    | branch32 address' => exact .target address address'
  | arrayType type =>
    cases h' with
    | arrayType type' => exact .arrayType type type'
  | tableSwitch => exact absurd rfl htable
  | lookupSwitch => exact absurd rfl hlookup

/-- Operands that suit the same kinds are of the same forms, one by one. -/
theorem alike_of_suits {kinds : List OperandKind} (h : List.Forall₂ Suits kinds operands)
    (h' : List.Forall₂ Suits kinds operands') (htable : .tableSwitch ∉ kinds)
    (hlookup : .lookupSwitch ∉ kinds) : List.Forall₂ Alike operands operands' := by
  induction h generalizing operands' with
  | nil =>
    rw [List.forall₂_nil_left_iff.1 h']
    exact .nil
  | @cons kind operand kinds operands hfirst _ ih =>
    obtain ⟨operand', operands', hfirst', hmore', rfl⟩ := List.forall₂_cons_left_iff.1 h'
    rw [List.mem_cons, not_or] at htable hlookup
    exact .cons (hfirst.alike hfirst' (Ne.symm htable.1) (Ne.symm hlookup.1))
      (ih hmore' htable.2 hlookup.2)

/-- Operands that are alike are no tables. -/
theorem table_not_mem_of_alike (h : List.Forall₂ Alike operands operands') (table : SwitchTable) :
    .table table ∉ operands ∧ .table table ∉ operands' := by
  induction h with
  | nil => simp
  | cons hfirst _ ih =>
    rw [List.mem_cons, List.mem_cons, not_or, not_or]
    refine ⟨⟨?_, ih.1⟩, ⟨?_, ih.2⟩⟩
    · rintro rfl
      cases hfirst
    · rintro rfl
      cases hfirst

/-- A kind has one operand. -/
theorem AllFit.eq_singleton {offset : Nat} {kind : OperandKind}
    (h : AllFit offset [kind] operands) (hreserved : kind ≠ .reserved) :
    ∃ operand : Operand, operands = [operand] ∧ operand.Fits offset kind := by
  obtain ⟨operand, rest, rfl, hfits, hrest⟩ := (allFit_cons_iff hreserved).1 h
  cases rest with
  | nil => exact ⟨operand, rfl, hfits⟩
  | cons other rest => exact hrest.elim

/-- What fits a switch by range is one table, given by its bounds. -/
theorem AllFit.exists_isTable {offset : Nat} (h : AllFit offset [.tableSwitch] operands) :
    ∃ table : SwitchTable, operands = [.table table] ∧ table.IsTable offset := by
  obtain ⟨operand, rfl, hfits⟩ := h.eq_singleton (by decide)
  cases operand with
  | table table => exact ⟨table, rfl, hfits⟩
  | _ => exact hfits.elim

/-- What fits a switch by numbers is one table, given by its numbers. -/
theorem AllFit.exists_isLookup {offset : Nat} (h : AllFit offset [.lookupSwitch] operands) :
    ∃ table : SwitchTable, operands = [.table table] ∧ table.IsLookup offset := by
  obtain ⟨operand, rfl, hfits⟩ := h.eq_singleton (by decide)
  cases operand with
  | table table => exact ⟨table, rfl, hfits⟩
  | _ => exact hfits.elim

end Operand

/-! ### Switches -/

namespace SwitchTable

variable {table table' : SwitchTable} {offset offset' : Nat}

/-- The line of a number, or of all other numbers, behind another line. -/
def caseText (label : String) (target : Int) : Text :=
  lit "\n" ++ lit (Layout.right 18 label) ++ lit ": " ++ lit (toString target)

/-- The lines of a switch behind its first one. -/
def casesText (table : SwitchTable) : Text :=
  (table.pairs.flatMap fun pair ↦ caseText (toString pair.1) pair.2) ++
    caseText "default" table.fallback ++ (lit "\n" ++ lit (Layout.right 7 "\x7d"))

/-- A switch behind its mnemonic. -/
def bodyText (table : SwitchTable) : Text :=
  lit " \x7b // " ++ lit table.summary ++ table.casesText

/-- A switch is written as its first line and the others behind it. -/
theorem lit_lines (table : SwitchTable) (head : String) :
    lit ("\n".intercalate (table.lines head)) = lit head ++ table.bodyText := by
  have hcase : ∀ (label : String) (target : Int),
      lit "\n" ++ lit (Layout.right 18 label ++ s!": {target}") = caseText label target := by
    intro label target
    show lit "\n" ++ lit (Layout.right 18 label ++ (": " ++ toString target)) = _
    rw [Text.lit_append, Text.lit_append, caseText, List.append_assoc, List.append_assoc]
  rw [lines, linesOf, List.cons_append, lit_intercalate_cons, List.flatMap_append, List.flatMap_map,
    List.flatMap_cons, List.flatMap_singleton, hcase, Text.lit_append, Text.lit_append]
  simp only [hcase, bodyText, casesText, List.append_assoc]

/-- A line is told from others by its label and its target. -/
theorem caseText_inj {label label' : String} {target target' : Int} (hlabel : IsLegible label)
    (hlabel' : IsLegible label') (hrest : Breaks rest) (hrest' : Breaks rest')
    (h : caseText label target ++ rest = caseText label' target' ++ rest') :
    label = label' ∧ target = target' ∧ rest = rest' := by
  simp only [caseText, List.append_assoc] at h
  obtain ⟨hlabels, h⟩ := hlabel.right_inj hlabel' (breaks_lit (by decide) _)
    (breaks_lit (by decide) _) (List.append_cancel_left h)
  obtain ⟨htargets, hrests⟩ := number_inj hrest hrest' (List.append_cancel_left h)
  exact ⟨hlabels, htargets, hrests⟩

/-- The line of a case starts with a line feed. -/
theorem breaks_caseText (label : String) (target : Int) (rest : Text) :
    Breaks (caseText label target ++ rest) := by
  simp only [caseText, List.append_assoc]
  exact breaks_lit (by decide) _

/-- So do the lines of all cases, and without any of them what follows does. -/
theorem breaks_pairs (pairs : List (Int × Int)) (hrest : Breaks rest) :
    Breaks ((pairs.flatMap fun pair ↦ caseText (toString pair.1) pair.2) ++ rest) := by
  cases pairs with
  | nil => exact hrest
  | cons pair pairs =>
    rw [List.flatMap_cons, List.append_assoc]
    exact breaks_caseText _ _ _

/-- As many lines are told apart one by one. -/
theorem pairs_inj {pairs pairs' : List (Int × Int)} (hlength : pairs.length = pairs'.length)
    (hrest : Breaks rest) (hrest' : Breaks rest')
    (h : (pairs.flatMap fun pair ↦ caseText (toString pair.1) pair.2) ++ rest =
      (pairs'.flatMap fun pair ↦ caseText (toString pair.1) pair.2) ++ rest') :
    pairs = pairs' ∧ rest = rest' := by
  induction pairs generalizing pairs' with
  | nil =>
    rw [List.eq_nil_of_length_eq_zero hlength.symm] at h ⊢
    exact ⟨rfl, h⟩
  | cons pair pairs ih =>
    cases pairs' with
    | nil => cases hlength
    | cons pair' pairs' =>
      rw [List.flatMap_cons, List.flatMap_cons, List.append_assoc, List.append_assoc] at h
      obtain ⟨hnumbers, htargets, h⟩ := caseText_inj (isLegible_number _) (isLegible_number _)
        (breaks_pairs pairs hrest) (breaks_pairs pairs' hrest') h
      obtain ⟨hpairs, hrests⟩ := ih (Nat.succ.inj hlength) h
      have hpair : pair = pair' := Prod.ext (toString_int_inj hnumbers) htargets
      rw [hpair, hpairs]
      exact ⟨rfl, hrests⟩

/-- Switches with as many numbers are told apart by the lines behind the first one. -/
theorem casesText_inj (hlength : table.pairs.length = table'.pairs.length)
    (h : table.casesText ++ rest = table'.casesText ++ rest') :
    table.pairs = table'.pairs ∧ table.fallback = table'.fallback ∧ rest = rest' := by
  have hdefault : IsLegible "default" := isLegible_of_isSpelling Lexer.isSpelling_default
  simp only [casesText, List.append_assoc] at h
  obtain ⟨hpairs, h⟩ := pairs_inj hlength (breaks_caseText _ _ _) (breaks_caseText _ _ _) h
  obtain ⟨-, hfallback, h⟩ := caseText_inj hdefault hdefault (breaks_lit (by decide) _)
    (breaks_lit (by decide) _) h
  exact ⟨hpairs, hfallback, List.append_cancel_left (List.append_cancel_left h)⟩

/-- The cases of a switch start with a line feed, as there is always the last one. -/
theorem breaks_casesText (table : SwitchTable) (rest : Text) :
    Breaks (table.casesText ++ rest) := by
  simp only [casesText, List.append_assoc]
  exact breaks_pairs table.pairs (breaks_caseText _ _ _)

/-- The bounds of a table of consecutive numbers say how many lines follow. -/
theorem IsTable.bodyText_inj (htable : table.IsTable offset) (htable' : table'.IsTable offset')
    (h : table.bodyText ++ rest = table'.bodyText ++ rest') : table = table' ∧ rest = rest' := by
  obtain ⟨low, high, hbounds, -, -, -, -, hnumbers, -⟩ := htable
  obtain ⟨low', high', hbounds', -, -, -, -, hnumbers', -⟩ := htable'
  have hsummary : ∀ {table : SwitchTable} {low high : Int}, table.bounds = some (low, high) →
      lit table.summary = lit (toString low) ++ (lit " to " ++ lit (toString high)) := by
    intro table low high hbounds
    rw [summary, hbounds]
    show lit (toString low ++ " to " ++ toString high) = _
    rw [Text.lit_append, Text.lit_append, List.append_assoc]
  simp only [bodyText, hsummary hbounds, hsummary hbounds', List.append_assoc] at h
  obtain ⟨hlow, h⟩ := number_inj (breaks_lit (by decide) _) (breaks_lit (by decide) _)
    (List.append_cancel_left h)
  obtain ⟨hhigh, h⟩ := number_inj (breaks_casesText table rest) (breaks_casesText table' rest')
    (List.append_cancel_left h)
  -- the numbers of such a table are those between its bounds
  have hlength : table.pairs.length = table'.pairs.length := by
    have hsame := congrArg List.length (hnumbers.trans (hlow ▸ hhigh ▸ hnumbers'.symm))
    rwa [List.length_map, List.length_map] at hsame
  obtain ⟨hpairs, hfallback, hrests⟩ := casesText_inj hlength h
  refine ⟨?_, hrests⟩
  show SwitchTable.mk table.fallback table.bounds table.pairs = _
  rw [hfallback, hpairs, hbounds, hlow, hhigh, ← hbounds']

/-- A table of listed numbers says how many lines follow. -/
theorem IsLookup.bodyText_inj (htable : table.IsLookup offset) (htable' : table'.IsLookup offset')
    (h : table.bodyText ++ rest = table'.bodyText ++ rest') : table = table' ∧ rest = rest' := by
  have hsummary : ∀ {table : SwitchTable}, table.bounds = none →
      lit table.summary = lit (toString (table.pairs.length : Int)) := by
    intro table hbounds
    rw [summary, hbounds]
    rfl
  simp only [bodyText, hsummary htable.1, hsummary htable'.1, List.append_assoc] at h
  obtain ⟨hlength, h⟩ := number_inj (breaks_casesText table rest) (breaks_casesText table' rest')
    (List.append_cancel_left h)
  obtain ⟨hpairs, hfallback, hrests⟩ := casesText_inj (Int.ofNat.inj hlength) h
  refine ⟨?_, hrests⟩
  show SwitchTable.mk table.fallback table.bounds table.pairs = _
  rw [hfallback, hpairs, htable.1, ← htable'.1]

end SwitchTable

/-! ### Instructions -/

namespace Instruction

variable {i j : Instruction}

/-- A well-formed instruction has one of the forms of the table: narrow, or wide if its opcode can
be widened. -/
theorem mem_forms (hi : i.WellFormed) : (i.opcode, i.wide) ∈ Opcode.forms := by
  rcases hwide : i.wide with _ | _
  · exact List.mem_append_left _ (List.mem_map_of_mem hi.1)
  · obtain ⟨hopcode, hwidened, -⟩ := (wellFormed_of_wide hwide).1 hi
    have hvariable := Opcode.hasVariable_of_isWidened hopcode hwidened
    exact List.mem_append_right _ (List.mem_map_of_mem (List.mem_filter.2 ⟨hopcode, hvariable⟩))

/-- The mnemonic determines the opcode and whether the instruction is wide. -/
theorem opcode_of_mnemonic (hi : i.WellFormed) (hj : j.WellFormed)
    (h : i.mnemonic = j.mnemonic) : i.opcode = j.opcode ∧ i.wide = j.wide :=
  Prod.mk.inj (Opcode.spelling_inj (mem_forms hi) (mem_forms hj) h)

/-- The text of an instruction behind its mnemonic. -/
def bodyText (i : Instruction) : Text :=
  match i.operands with
  | [.table table] => table.bodyText
  | operands => Operand.lineText operands

/-- The text of a switch behind its mnemonic. -/
theorem bodyText_of_table {table : SwitchTable} (h : i.operands = [.table table]) :
    i.bodyText = table.bodyText := by
  rw [bodyText, h]

/-- The text of any other instruction behind its mnemonic. -/
theorem bodyText_of_line (htable : ∀ table, .table table ∉ i.operands) :
    i.bodyText = Operand.lineText i.operands := by
  unfold bodyText
  split
  · rename_i table hoperands
    exact absurd (hoperands ▸ .head _) (htable table)
  · rfl

/-- An instruction is written as its position, its mnemonic and what is behind it. -/
theorem lit_text (hi : i.WellFormed) :
    lit i.text = lit (Layout.right 5 (toString i.offset)) ++ (lit ": " ++
      (lit i.mnemonic ++ i.bodyText)) := by
  have hhead : lit i.head = lit (Layout.right 5 (toString i.offset)) ++ (lit ": " ++
      lit i.mnemonic) := by
    rw [head, Text.lit_append, Text.lit_append, List.append_assoc]
  have hbody : lit i.text = lit i.head ++ i.bodyText := by
    rcases hi.switch_cases with ⟨table, hoperands, -⟩ | htable
    · rw [bodyText_of_table hoperands, text, hoperands]
      exact table.lit_lines i.head
    · rw [bodyText_of_line htable]
      rcases hoperands : i.operands with _ | ⟨operand, operands⟩
      · rw [text, hoperands]
        exact (List.append_nil _).symm
      · rw [text_of_line htable (by rw [hoperands]; exact List.cons_ne_nil _ _), hoperands,
          Text.lit_append, Text.lit_append, List.map_cons, lit_intercalate_cons, List.flatMap_map]
        simp only [Operand.lineText, Operand.moreText, List.append_assoc]
  rw [hbody, hhead]
  simp only [List.append_assoc]

/-- Two instructions without tables and with operands of the same forms have the same operands if
they have the same text. -/
theorem bodyText_inj_of_alike (halike : List.Forall₂ Operand.Alike i.operands j.operands)
    (hrest : Breaks rest) (hrest' : Breaks rest')
    (h : i.bodyText ++ rest = j.bodyText ++ rest') : i.operands = j.operands ∧ rest = rest' := by
  have htable := Operand.table_not_mem_of_alike halike
  rw [bodyText_of_line fun table ↦ (htable table).1,
    bodyText_of_line fun table ↦ (htable table).2] at h
  exact Operand.lineText_inj halike hrest hrest' h

/-- Two switches of the same kind have the same table if they have the same text. -/
theorem bodyText_inj_of_table {table table' : SwitchTable} (hoperands : i.operands = [.table table])
    (hoperands' : j.operands = [.table table'])
    (hinj : table.bodyText ++ rest = table'.bodyText ++ rest' → table = table' ∧ rest = rest')
    (h : i.bodyText ++ rest = j.bodyText ++ rest') : i.operands = j.operands ∧ rest = rest' := by
  rw [bodyText_of_table hoperands, bodyText_of_table hoperands'] at h
  obtain ⟨hsame, hrests⟩ := hinj h
  exact ⟨by rw [hoperands, hoperands', hsame], hrests⟩

/-- Two instructions with one opcode are told apart by what is behind their mnemonics. -/
theorem bodyText_inj (hi : i.WellFormed) (hj : j.WellFormed) (hopcode : i.opcode = j.opcode)
    (hwide : i.wide = j.wide) (hrest : Breaks rest) (hrest' : Breaks rest')
    (h : i.bodyText ++ rest = j.bodyText ++ rest') : i.operands = j.operands ∧ rest = rest' := by
  -- one row of the table is for both, so without a switch in it their operands are alike
  have hline (htable : .tableSwitch ∉ i.opcode.meaningful)
      (hlookup : .lookupSwitch ∉ i.opcode.meaningful) :
      i.operands = j.operands ∧ rest = rest' := by
    have hsuits := hj.suits
    rw [← hopcode] at hsuits
    exact bodyText_inj_of_alike (Operand.alike_of_suits hi.suits hsuits htable hlookup) hrest
      hrest' h
  rcases hnarrow : i.wide with _ | _
  · obtain ⟨hrow, hfit⟩ := (wellFormed_of_narrow hnarrow).1 hi
    obtain ⟨-, hfit'⟩ := (wellFormed_of_narrow (hwide ▸ hnarrow)).1 hj
    rw [← hopcode] at hfit'
    rcases (Opcode.regular hrow).layout with hplain | ⟨-, hkinds⟩ | ⟨-, hkinds⟩ |
      ⟨-, hkinds⟩ | ⟨-, hkinds⟩
    · exact hline (fun hmem ↦ (hplain _ (List.mem_of_mem_filter hmem)).2.1 rfl)
        fun hmem ↦ (hplain _ (List.mem_of_mem_filter hmem)).2.2 rfl
    · rw [hkinds] at hfit hfit'
      obtain ⟨table, hoperands, htable⟩ := hfit.exists_isTable
      obtain ⟨table', hoperands', htable'⟩ := hfit'.exists_isTable
      exact bodyText_inj_of_table hoperands hoperands' (htable.bodyText_inj htable') h
    · rw [hkinds] at hfit hfit'
      obtain ⟨table, hoperands, htable⟩ := hfit.exists_isLookup
      obtain ⟨table', hoperands', htable'⟩ := hfit'.exists_isLookup
      exact bodyText_inj_of_table hoperands hoperands' (htable.bodyText_inj htable') h
    · rw [Opcode.meaningful, hkinds] at hline
      exact hline (by decide) (by decide)
    · rw [Opcode.meaningful, hkinds] at hline
      exact hline (by decide) (by decide)
  · obtain ⟨hrow, hwidened, -⟩ := (wellFormed_of_wide hnarrow).1 hi
    rw [Opcode.meaningful_of_isWidened hrow hwidened] at hline
    split at hline
    · exact hline (by decide) (by decide)
    · exact hline (by decide) (by decide)

/-- Behind the mnemonic there is a blank, or what follows the instruction. -/
theorem breaks_bodyText (hi : i.WellFormed) (hrest : Breaks rest) :
    Breaks (i.bodyText ++ rest) := by
  rcases hi.switch_cases with ⟨table, hoperands, -⟩ | htable
  · rw [bodyText_of_table hoperands]
    simp only [SwitchTable.bodyText, List.append_assoc]
    exact breaks_lit (by decide) _
  · rw [bodyText_of_line htable]
    rcases i.operands with _ | ⟨operand, operands⟩
    · exact hrest
    · simp only [Operand.lineText, List.append_assoc]
      exact breaks_lit (by decide) _

/-- An instruction is read back from its text, whatever follows. -/
theorem text_inj (hi : i.WellFormed) (hj : j.WellFormed) (hrest : Breaks rest)
    (hrest' : Breaks rest') (h : lit i.text ++ rest = lit j.text ++ rest') :
    i = j ∧ rest = rest' := by
  have hmnemonic : ∀ {i : Instruction}, i.WellFormed → IsLegible i.mnemonic :=
    fun hi ↦ isLegible_of_isSpelling (Lexer.isSpelling_of_mem (mem_mnemonics hi))
  rw [lit_text hi, lit_text hj] at h
  simp only [List.append_assoc] at h
  -- from the left: the position, the mnemonic, and then the operands of the opcode that it tells
  obtain ⟨hoffset, h⟩ := (isLegible_number i.offset).right_inj (isLegible_number j.offset)
    (breaks_lit (by decide) _) (breaks_lit (by decide) _) h
  obtain ⟨hmnemonics, h⟩ := (hmnemonic hi).inj (hmnemonic hj) (breaks_bodyText hi hrest)
    (breaks_bodyText hj hrest') (List.append_cancel_left h)
  obtain ⟨hopcode, hwide⟩ := opcode_of_mnemonic hi hj hmnemonics
  obtain ⟨hoperands, hrests⟩ := bodyText_inj hi hj hopcode hwide hrest hrest' h
  refine ⟨?_, hrests⟩
  show Instruction.mk i.offset i.opcode i.wide i.operands = _
  rw [Int.ofNat.inj (toString_int_inj hoffset), hopcode, hwide, hoperands]

/-! ### Lines with comments -/

/-- The comment on an instruction, of which nothing is known but how it starts. -/
def IsComment (comment : Text) : Prop :=
  ∀ c ∈ comment.head?, c = .char ' '

/-- A comment starts with a blank, and without one what follows ends the instruction. -/
theorem IsComment.breaks {comment : Text} (h : IsComment comment) (hrest : Breaks rest) :
    Breaks (comment ++ rest) := by
  cases comment with
  | nil => exact hrest
  | cons c comment =>
    intro c' hc'
    rw [← Option.mem_some_iff.1 hc', h c rfl]
    decide

/-- The line of an instruction with its comment. -/
def line (comment : Instruction → Text) (i : Instruction) : Text :=
  lit i.text ++ comment i

variable {comment : Instruction → Text} {instructions instructions' : List Instruction}

/-- The lines that follow start with a line feed, if there are any. -/
theorem breaks_lines (lines : List Text) : Breaks (lines.flatMap (lit "\n" ++ ·)) := by
  cases lines with
  | nil => exact breaks_nil
  | cons line lines =>
    rw [List.flatMap_cons, List.append_assoc]
    exact breaks_lit (by decide) _

/-- A line is read back together with its comment. Once the instruction is known, so is the
comment. -/
theorem line_inj (hcomment : ∀ i, IsComment (comment i)) (hi : i.WellFormed) (hj : j.WellFormed)
    (hrest : Breaks rest) (hrest' : Breaks rest')
    (h : i.line comment ++ rest = j.line comment ++ rest') : i = j ∧ rest = rest' := by
  rw [line, line, List.append_assoc, List.append_assoc] at h
  -- a comment starts with a blank, so it is a mark behind the instruction
  obtain ⟨rfl, hrests⟩ := text_inj hi hj ((hcomment i).breaks hrest) ((hcomment j).breaks hrest') h
  exact ⟨rfl, List.append_cancel_left hrests⟩

/-- The lines behind the first one are read back one by one. -/
theorem moreLines_inj (hcomment : ∀ i, IsComment (comment i))
    (hall : ∀ i ∈ instructions, i.WellFormed) (hall' : ∀ i ∈ instructions', i.WellFormed)
    (h : (instructions.map (line comment)).flatMap (lit "\n" ++ ·) =
      (instructions'.map (line comment)).flatMap (lit "\n" ++ ·)) :
    instructions = instructions' := by
  -- a line feed stands in front of each of these lines, so their number need not be known
  induction instructions generalizing instructions' with
  | nil =>
    cases instructions' with
    | nil => rfl
    | cons j instructions' => cases h
  | cons i instructions ih =>
    cases instructions' with
    | nil => cases h
    | cons j instructions' =>
      rw [List.forall_mem_cons] at hall hall'
      simp only [List.map_cons, List.flatMap_cons, List.append_assoc] at h
      obtain ⟨rfl, hrests⟩ := line_inj hcomment hall.1 hall'.1 (breaks_lines _) (breaks_lines _)
        (List.append_cancel_left h)
      rw [ih hall.2 hall'.2 hrests]

/-- The line of an instruction is not empty, so a listing with one line is not that of no
instructions. -/
theorem line_ne_nil (hi : i.WellFormed) : i.line comment ≠ [] := by
  intro hnil
  rw [line, lit_text hi] at hnil
  have hbehind := (List.append_eq_nil_iff.1 (List.append_eq_nil_iff.1 hnil).1).2
  exact absurd (List.append_eq_nil_iff.1 hbehind).1 (by decide)

/-- The instructions are read back from their lines. -/
theorem lines_inj (hcomment : ∀ i, IsComment (comment i))
    (hall : ∀ i ∈ instructions, i.WellFormed) (hall' : ∀ i ∈ instructions', i.WellFormed)
    (h : Text.lines (instructions.map (line comment)) =
      Text.lines (instructions'.map (line comment))) :
    instructions = instructions' := by
  cases instructions with
  | nil =>
    cases instructions' with
    | nil => rfl
    | cons j instructions' =>
      rw [Text.lines, Text.lines, List.map_cons, Text.join_cons] at h
      exact absurd (List.append_eq_nil_iff.1 h.symm).1 (line_ne_nil (hall' j (.head _)))
  | cons i instructions =>
    cases instructions' with
    | nil =>
      rw [Text.lines, Text.lines, List.map_cons, Text.join_cons] at h
      exact absurd (List.append_eq_nil_iff.1 h).1 (line_ne_nil (hall i (.head _)))
    | cons j instructions' =>
      rw [List.forall_mem_cons] at hall hall'
      rw [Text.lines, Text.lines, List.map_cons, List.map_cons, Text.join_cons, Text.join_cons] at h
      obtain ⟨rfl, hrests⟩ := line_inj hcomment hall.1 hall'.1 (breaks_lines _) (breaks_lines _) h
      rw [moreLines_inj hcomment hall.2 hall'.2 hrests]

/-! ### Listings -/

/-- The comment that a pool gives on an instruction. -/
def poolComment (pool : Pool) (i : Instruction) : Text :=
  match i.constant? with
  | none => []
  | some index => lit " // " ++ (pool.describe index).toOption.getD []

/-- The comments in a listing. Without a pool there are none. -/
def comments (pool? : Option Pool) : Instruction → Text :=
  pool?.elim (fun _ ↦ []) poolComment

/-- What is written behind an instruction is a comment in the sense above. -/
theorem isComment_comments (pool? : Option Pool) (i : Instruction) :
    IsComment (comments pool? i) := by
  cases pool? with
  | none => exact fun _ hc ↦ absurd hc (by simp [comments])
  | some pool =>
    show IsComment (poolComment pool i)
    unfold poolComment
    split
    · exact fun _ hc ↦ absurd hc (by simp)
    · intro c hc
      exact (Option.mem_some_iff.1 hc).symm

/-- An annotated instruction is its line with the comment of the pool. -/
theorem annotated_eq {pool : Pool} {text : Text} (h : i.annotated pool = .ok text) :
    text = i.line (poolComment pool) := by
  unfold annotated at h
  rw [line, poolComment]
  cases hconstant : i.constant? with
  | none =>
    rw [hconstant] at h
    cases h
    exact (List.append_nil _).symm
  | some index =>
    rw [hconstant] at h
    obtain ⟨description, hdescription, hpure⟩ := bind_eq_ok_iff.1 h
    cases hpure
    show _ = lit i.text ++ (lit " // " ++ (pool.describe index).toOption.getD [])
    rw [hdescription, List.append_assoc]
    rfl

/-- What is rendered is the line of the instruction with its comment. -/
theorem eq_line_of_render {pool? : Option Pool} {text : Text} (hi : i.WellFormed)
    (h : i.render pool? = .ok text) : text = i.line (comments pool?) := by
  cases pool? with
  | none =>
    rw [render_none hi] at h
    cases h
    exact (List.append_nil _).symm
  | some pool =>
    rw [render_some hi] at h
    exact annotated_eq h

/-- Instructions that can be rendered are rendered as their lines, each with its own comment. -/
theorem eq_map_line_of_mapM_render {pool? : Option Pool} {texts : List Text}
    (hall : ∀ i ∈ instructions, i.WellFormed)
    (h : instructions.mapM (·.render pool?) = .ok texts) :
    texts = instructions.map (line (comments pool?)) := by
  induction instructions generalizing texts with
  | nil =>
    cases h
    rfl
  | cons i instructions ih =>
    rw [List.forall_mem_cons] at hall
    rw [List.mapM_cons] at h
    obtain ⟨text, htext, hmore⟩ := bind_eq_ok_iff.1 h
    obtain ⟨texts, htexts, hpure⟩ := bind_eq_ok_iff.1 hmore
    cases hpure
    rw [eq_line_of_render hall.1 htext, ih hall.2 htexts]
    rfl

/-- A listing determines its code. If two codes are disassembled and the lines of their instructions
agree, be it without comments or with those of one constant pool, the instructions are the same.
Without comments there always are such lines. -/
theorem listing_determines_code {code code' : Bytes}
    (hcode : decodeAll code = .ok instructions) (hcode' : decodeAll code' = .ok instructions') :
    (∃ texts, instructions.mapM (·.render none) = .ok texts) ∧
    ∀ (pool? : Option Pool) (texts texts' : List Text),
      instructions.mapM (·.render pool?) = .ok texts →
      instructions'.mapM (·.render pool?) = .ok texts' →
      Text.lines texts = Text.lines texts' → instructions = instructions' := by
  have hall := ((decodeAll_eq_ok_iff code _).1 hcode).1.wellFormed
  have hall' := ((decodeAll_eq_ok_iff code' _).1 hcode').1.wellFormed
  constructor
  · exact exists_mapM_eq_ok_iff.2 fun i hi ↦ ⟨_, render_none (hall i hi)⟩
  · intro pool? texts texts' htexts htexts' h
    rw [eq_map_line_of_mapM_render hall htexts, eq_map_line_of_mapM_render hall' htexts'] at h
    exact lines_inj (isComment_comments pool?) hall hall' h

/-- A dynamic call at the start of a code. -/
def sampleCall : Instruction :=
  ⟨0, ⟨"invokedynamic", 0xBA, [.constant16, .reserved, .reserved]⟩, false, [.constant 1]⟩

/-- A pool with a text that looks like a line of instructions. -/
def samplePool : Pool :=
  ⟨#[some (.utf8 (lit "a\n    5: nop"))]⟩

/-- Two codes with one listing, of which the bytes without meaning differ. The comment looks like
another instruction. -/
theorem listing_determines_code_sample :
    ∃ instructions instructions' texts,
      decodeAll [0xBA, 0, 1, 0, 0] = .ok instructions ∧
      decodeAll [0xBA, 0, 1, 7, 9] = .ok instructions' ∧
      instructions.mapM (·.render (some samplePool)) = .ok texts ∧
      instructions'.mapM (·.render (some samplePool)) = .ok texts ∧
      Text.lines texts = lit "    0: invokedynamic #1 // a\n    5: nop" ∧
      instructions = instructions' := by
  have hcode : decodeAll [0xBA, 0, 1, 0, 0] = .ok [sampleCall] := by decide +kernel
  have hcode' : decodeAll [0xBA, 0, 1, 7, 9] = .ok [sampleCall] := by decide +kernel
  have htexts : [sampleCall].mapM (·.render (some samplePool)) =
      .ok [lit "    0: invokedynamic #1 // a\n    5: nop"] := by decide +kernel
  exact ⟨_, _, _, hcode, hcode', htexts, htexts, rfl,
    (listing_determines_code hcode hcode').2 (some samplePool) _ _ htexts htexts rfl⟩

end Instruction

end ClassInspect
