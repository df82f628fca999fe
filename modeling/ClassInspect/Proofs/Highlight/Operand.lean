import ClassInspect.Proofs.Highlight.Lexer
import ClassInspect.Proofs.Instruction.Render

/-!
# Tokens of operands

The text of an operand in a listing is one token, unless it is the table of a switch, which takes
lines of its own. All of these are indented, since a number of four bytes is shorter than its
column, and a line feed and the indentation of the next line are one token. So nothing in a switch
is taken for a left margin (`SwitchTable.continues_switchTokens`).

What is cut off depends on what follows, so each lemma is about the tokens up to the end of the text
(`Lexer.Continues`), and starts from tokens that begin with a line feed (`EndsLine`). A lemma about
operands that may be none at all also says that what is there now closes a word (`Lexer.Closes`);
the mnemonic in front of them needs to know.

For each list of tokens there is a second lemma that the text is the one of the listing
(`Operand.text_lineTokens`, `SwitchTable.text_switchTokens`). These do not mention the lexer, and
the others do not mention how a listing is written.
-/

namespace ClassInspect

open Lexer (Closes Continues IsDigits IsNumeral IsSpelling Lexes Opens)

/-! ### Numbers and joined texts -/

theorem toList_toString (n : Nat) : (toString n).toList = Nat.toDigits 10 n := by
  show n.repr.toList = _
  rw [Nat.repr_eq_ofList_toDigits, String.toList_ofList]

theorem toList_toString_negSucc (n : Nat) :
    (toString (Int.negSucc n)).toList = '-' :: (toString (n + 1)).toList := by
  show ("-" ++ (n + 1).repr).toList = _
  rw [String.toList_append]
  rfl

theorem isDigits_toString (n : Nat) : IsDigits (toString n).toList := by
  rw [toList_toString]
  exact ⟨Nat.toDigits_ne_nil, fun c hc ↦ Nat.isDigit_of_mem_toDigits (by decide) (by decide) hc⟩

theorem isNumeral_toString (n : Int) : IsNumeral (toString n).toList := by
  cases n with
  | ofNat n => exact .digits (isDigits_toString n)
  | negSucc n =>
    rw [toList_toString_negSucc]
    exact .negative (isDigits_toString (n + 1))

theorem length_toString_le_iff (n count : Nat) (h : 0 < count) :
    (toString n).toList.length ≤ count ↔ n < 10 ^ count := by
  rw [toList_toString]
  exact Nat.length_toDigits_le_iff (by decide) h

/-- Numbers in four bytes have at most ten digits and a sign. -/
theorem length_toString_of_fitsSigned {n : Int} (h : Bytes.FitsSigned 4 n) :
    (toString n).toList.length ≤ 11 := by
  rw [Bytes.FitsSigned] at h
  cases n with
  | ofNat n =>
    rw [Int.ofNat_eq_natCast] at h
    exact Nat.le_succ_of_le ((length_toString_le_iff n 10 (by decide)).2 (by omega))
  | negSucc n =>
    rw [toList_toString_negSucc]
    exact Nat.succ_le_succ ((length_toString_le_iff (n + 1) 10 (by decide)).2 (by omega))

theorem toList_intercalate_cons (separator first : String) (rest : List String) :
    (separator.intercalate (first :: rest)).toList =
      first.toList ++ rest.flatMap fun string ↦ separator.toList ++ string.toList := by
  induction rest generalizing first with
  | nil => rw [String.intercalate_singleton, List.flatMap_nil, List.append_nil]
  | cons second rest ih =>
    rw [String.intercalate_cons_cons, String.toList_append, String.toList_append, ih,
      List.flatMap_cons, List.append_assoc, List.append_assoc]

theorem lit_intercalate_cons (separator first : String) (rest : List String) :
    Text.lit (separator.intercalate (first :: rest)) =
      Text.lit first ++ rest.flatMap fun string ↦ Text.lit separator ++ Text.lit string := by
  rw [Text.lit, toList_intercalate_cons, Text.ofChars, List.map_append, List.map_flatMap]
  simp only [List.map_append]
  rfl

theorem toList_right (width : Nat) (string : String) :
    (Layout.right width string).toList =
      List.replicate (width - string.toList.length) ' ' ++ string.toList := by
  rw [Layout.right, String.toList_ofList]
  rfl

/-! ### Operands -/

namespace Operand

/-- The token of an operand. -/
def token : Operand → Token Char
  | constant index => ⟨.constant, '#' :: (toString index).toList⟩
  | arrayType type => ⟨.name, type.name.toList⟩
  | operand => ⟨.number, operand.label.toList⟩

theorem value_token (operand : Operand) : operand.token.value = operand.text.toList := by
  cases operand with
  | constant index =>
    show _ = ("#" ++ toString index).toList
    rw [String.toList_append]
    rfl
  | _ => rfl

variable {operand : Operand} {tokens : List (Token Char)}

theorem isSpelling_typeName (type : BaseType) : IsSpelling type.name.toList := by
  cases type <;> decide

/-- No operand but a table starts with a blank or takes more than a line. -/
theorem opens_token (htable : ∀ table, operand ≠ .table table) :
    Opens operand.token.value := by
  cases operand with
  | constant index => exact ⟨'#', rfl, by decide⟩
  | arrayType type => exact (isSpelling_typeName type).opens
  | table table => exact absurd rfl (htable table)
  | _ => exact (isNumeral_toString _).opens

theorem plain_token (htable : ∀ table, operand ≠ .table table) :
    Newline.Plain operand.token.value := by
  have hhash : Newline.Plain ['#'] := by decide
  cases operand with
  | constant index => exact hhash.append (isDigits_toString index).plain
  | arrayType type => exact (isSpelling_typeName type).plain
  | table table => exact absurd rfl (htable table)
  | _ => exact (isNumeral_toString _).plain

/-- No operand but a table is cut into several tokens. -/
theorem continues_token (htable : ∀ table, operand ≠ .table table)
    (hnext : Closes (Token.text tokens)) (h : Continues tokens) :
    Continues (operand.token :: tokens) := by
  cases operand with
  | constant index => exact h.constant (isDigits_toString index) hnext
  | arrayType type =>
    -- the name of a type is a word like a mnemonic, but none of them
    have hword : type.name ∈ BaseType.all.map BaseType.name :=
      List.mem_map_of_mem (by cases type <;> decide)
    exact h.name (isSpelling_typeName type) (Lexer.not_mem_wideMnemonics (.tail _ hword))
      (Lexer.not_mem_mnemonics (.tail _ hword)) (by cases type <;> decide) hnext
  | table table => exact absurd rfl (htable table)
  | _ => exact h.numeral (isNumeral_toString _) hnext

end Operand

/-! ### The end of a line -/

/-- The tokens from the end of a line on. -/
structure EndsLine (tokens : List (Token Char)) : Prop extends Continues tokens where
  head : (Token.text tokens).head? = some '\n'

theorem EndsLine.closes {tokens : List (Token Char)} (h : EndsLine tokens) :
    Closes (Token.text tokens) :=
  ⟨'\n', by decide, h.head⟩

/-- A line feed and the blanks in front of a text that is moved to the right of a column. -/
def Token.indent (width : Nat) (chars : List Char) : Token Char :=
  ⟨.text, '\n' :: List.replicate (width - chars.length) ' '⟩

/-- A line feed and blanks are one token. -/
theorem endsLine_indent {tokens : List (Token Char)} {width : Nat} {chars : List Char}
    (hwidth : chars.length < width) (hnext : Opens (Token.text tokens))
    (hlexes : Lexes (some ' ') tokens) (hreturn : '\r' ∉ Token.text tokens) :
    EndsLine (Token.indent width chars :: tokens) := by
  -- at least one blank stands in front of the text, which therefore does not start a line
  obtain ⟨count, hcount⟩ : ∃ count, width - chars.length = count + 1 :=
    Nat.exists_eq_add_one.2 (by omega)
  have hblanks : ∀ c ∈ '\n' :: List.replicate (width - chars.length) ' ', c = ' ' ∨ c = '\n' := by
    intro c hc
    rcases List.mem_cons.1 hc with rfl | hc
    · exact .inr rfl
    · exact .inl (List.eq_of_mem_replicate hc)
  have hlast : ('\n' :: List.replicate (width - chars.length) ' ').getLast? = some ' ' := by
    rw [hcount, List.replicate_succ', ← List.cons_append, List.getLast?_concat]
  exact ⟨.blanks hblanks hlast hnext hlexes hreturn, rfl⟩

theorem endsLine_feed {tokens : List (Token Char)}
    (hnext : ∀ c ∈ (Token.text tokens).head?, CharClass.isBlank c = false)
    (hlexes : Lexes (some '\n') tokens) (hreturn : '\r' ∉ Token.text tokens) :
    EndsLine (⟨.text, ['\n']⟩ :: tokens) := by
  refine ⟨⟨fun c hc ↦ .cons ?_ hlexes, Lexer.noReturn_cons (by decide) hreturn⟩, rfl⟩
  exact Lexer.choose_blanks hc (.inr rfl) (List.forall_mem_nil _) hnext

theorem endsLine_last : EndsLine [⟨.text, ['\n']⟩] :=
  endsLine_feed (fun _ hc ↦ by cases hc) (.nil _) List.not_mem_nil

namespace Operand

/-- The tokens of the operands behind the first one. -/
def moreTokens (operands : List Operand) : List (Token Char) :=
  operands.flatMap fun operand ↦ [⟨.punctuation, [',']⟩, ⟨.text, [' ']⟩, operand.token]

/-- The tokens of the operands in a line. -/
def lineTokens : List Operand → List (Token Char)
  | [] => []
  | operand :: operands => ⟨.text, [' ']⟩ :: operand.token :: moreTokens operands

variable {operand : Operand} {operands : List Operand} {tokens : List (Token Char)}

theorem continues_moreTokens (htable : ∀ table, .table table ∉ operands) (h : EndsLine tokens) :
    Continues (moreTokens operands ++ tokens) ∧
      Closes (Token.text (moreTokens operands ++ tokens)) := by
  induction operands with
  | nil => exact ⟨h.toContinues, h.closes⟩
  | cons operand operands ih =>
    have hoperand (table : SwitchTable) : operand ≠ .table table :=
      fun heq ↦ htable table (heq ▸ .head _)
    obtain ⟨hmore, hcloses⟩ := ih fun table hmem ↦ htable table (.tail _ hmem)
    refine ⟨.mark (by decide) (.space ((opens_token hoperand).append _) ?_), ⟨',', by decide, rfl⟩⟩
    exact continues_token hoperand hcloses hmore

theorem continues_lineTokens (htable : ∀ table, .table table ∉ operands) (h : EndsLine tokens) :
    Continues (lineTokens operands ++ tokens) ∧
      Closes (Token.text (lineTokens operands ++ tokens)) := by
  cases operands with
  | nil => exact ⟨h.toContinues, h.closes⟩
  | cons operand operands =>
    have hoperand (table : SwitchTable) : operand ≠ .table table :=
      fun heq ↦ htable table (heq ▸ .head _)
    obtain ⟨hmore, hcloses⟩ :=
      continues_moreTokens (fun table hmem ↦ htable table (.tail _ hmem)) h
    refine ⟨.space ((opens_token hoperand).append _) ?_, ⟨' ', by decide, rfl⟩⟩
    exact continues_token hoperand hcloses hmore

/-- The last token is that of an operand. -/
theorem getLast?_lineTokens (hne : operands ≠ []) :
    ∃ operand ∈ operands, (lineTokens operands).getLast? = some operand.token := by
  obtain ⟨first, rest, rfl⟩ := List.exists_cons_of_ne_nil hne
  rcases List.eq_nil_or_concat rest with rfl | ⟨init, last, rfl⟩
  · exact ⟨first, .head _, rfl⟩
  · have hlast : lineTokens (first :: init.concat last) = (⟨.text, [' ']⟩ :: first.token ::
        moreTokens init ++ [⟨.punctuation, [',']⟩, ⟨.text, [' ']⟩]) ++ [last.token] := by
      simp [lineTokens, moreTokens]
    exact ⟨last, by simp, by rw [hlast, List.getLast?_concat]⟩

theorem text_moreTokens (operands : List Operand) :
    Token.text (moreTokens operands) =
      operands.flatMap fun operand ↦ ", ".toList ++ operand.text.toList := by
  rw [Token.text, moreTokens, List.flatMap_assoc]
  refine List.flatMap_congr fun operand _ ↦ ?_
  rw [← value_token]
  exact congrArg (',' :: ' ' :: ·) (List.append_nil _)

/-- Operands are written as they are cut. -/
theorem text_lineTokens (operand : Operand) (operands : List Operand) :
    Token.text (lineTokens (operand :: operands)) =
      (" " ++ ", ".intercalate ((operand :: operands).map text)).toList := by
  rw [String.toList_append, List.map_cons, toList_intercalate_cons, List.flatMap_map,
    ← text_moreTokens, ← value_token]
  rfl

end Operand

/-! ### Switches -/

namespace SwitchTable

variable {table : SwitchTable} {tokens : List (Token Char)}

/-- The tokens of a line of a switch. -/
def caseTokens (token : Token Char) (target : Int) : List (Token Char) :=
  [Token.indent 18 token.value, token, ⟨.punctuation, [':']⟩, ⟨.text, [' ']⟩,
    ⟨.number, (toString target).toList⟩]

/-- The tokens of a switch behind its mnemonic. -/
def switchTokens (table : SwitchTable) : List (Token Char) :=
  [⟨.text, [' ']⟩, ⟨.punctuation, ['\x7b']⟩, ⟨.text, [' ']⟩,
      ⟨.comment, "// ".toList ++ table.summary.toList⟩] ++
    table.pairs.flatMap (fun pair ↦ caseTokens ⟨.number, (toString pair.1).toList⟩ pair.2) ++
    caseTokens ⟨.keyword, "default".toList⟩ table.fallback ++
    [Token.indent 7 ['\x7d'], ⟨.punctuation, ['\x7d']⟩]

/-- The end of a line of a switch. -/
theorem continues_target (target : Int) (h : EndsLine tokens) :
    Continues (⟨.punctuation, [':']⟩ :: ⟨.text, [' ']⟩ ::
      ⟨.number, (toString target).toList⟩ :: tokens) :=
  .mark (by decide) (.space ((isNumeral_toString target).opens.append _)
    (h.toContinues.numeral (isNumeral_toString target) h.closes))

/-- The line of a number. -/
theorem endsLine_number {number : Int} (hnumber : Bytes.FitsSigned 4 number) (target : Int)
    (h : EndsLine tokens) :
    EndsLine (caseTokens ⟨.number, (toString number).toList⟩ target ++ tokens) := by
  have hcontinues : Continues (⟨.number, (toString number).toList⟩ :: ⟨.punctuation, [':']⟩ ::
      ⟨.text, [' ']⟩ :: ⟨.number, (toString target).toList⟩ :: tokens) :=
    (continues_target target h).numeral (isNumeral_toString number) ⟨':', by decide, rfl⟩
  have hlength : (toString number).toList.length < 18 :=
    Nat.lt_of_le_of_lt (length_toString_of_fitsSigned hnumber) (by decide)
  exact endsLine_indent hlength ((isNumeral_toString number).opens.append _)
    (hcontinues.lexes ' ' (by decide)) hcontinues.noReturn

/-- The line of all other numbers. -/
theorem endsLine_default (target : Int) (h : EndsLine tokens) :
    EndsLine (caseTokens ⟨.keyword, "default".toList⟩ target ++ tokens) := by
  have hcontinues := continues_target target h
  have hlexes : Lexes (some ' ') (⟨.keyword, "default".toList⟩ :: ⟨.punctuation, [':']⟩ ::
      ⟨.text, [' ']⟩ :: ⟨.number, (toString target).toList⟩ :: tokens) :=
    .cons (Lexer.choose_default ⟨':', by decide, rfl⟩) (hcontinues.lexes 't' (by decide))
  exact endsLine_indent (by decide) ⟨'d', rfl, by decide⟩ hlexes
    (Lexer.noReturn_cons (by decide) hcontinues.noReturn)

/-- The last line of a switch. -/
theorem endsLine_close (h : EndsLine tokens) :
    EndsLine (Token.indent 7 ['\x7d'] :: ⟨.punctuation, ['\x7d']⟩ :: tokens) := by
  have hcontinues : Continues (⟨.punctuation, ['\x7d']⟩ :: tokens) :=
    h.toContinues.mark (by decide)
  exact endsLine_indent (by decide) ⟨'\x7d', rfl, by decide⟩
    (hcontinues.lexes ' ' (by decide)) hcontinues.noReturn

theorem endsLine_pairs {pairs : List (Int × Int)}
    (hpairs : ∀ pair ∈ pairs, Bytes.FitsSigned 4 pair.1) (h : EndsLine tokens) :
    EndsLine (pairs.flatMap (fun pair ↦
      caseTokens ⟨.number, (toString pair.1).toList⟩ pair.2) ++ tokens) := by
  induction pairs with
  | nil => exact h
  | cons pair pairs ih =>
    obtain ⟨hpair, hpairs⟩ := List.forall_mem_cons.1 hpairs
    rw [List.flatMap_cons, List.append_assoc]
    exact endsLine_number hpair pair.2 (ih hpairs)

theorem plain_summary (table : SwitchTable) : Newline.Plain table.summary.toList := by
  have hnumber (n : Int) : Newline.Plain (toString n).toList := (isNumeral_toString n).plain
  have hbetween : Newline.Plain " to ".toList := by decide
  unfold summary
  split
  · rename_i low high _
    show Newline.Plain (toString low ++ " to " ++ toString high).toList
    rw [String.toList_append, String.toList_append]
    exact ((hnumber low).append hbetween).append (hnumber high)
  · exact (isDigits_toString _).plain

theorem continues_switchTokens (hpairs : ∀ pair ∈ table.pairs, Bytes.FitsSigned 4 pair.1)
    (h : EndsLine tokens) :
    Continues (table.switchTokens ++ tokens) ∧
      Closes (Token.text (table.switchTokens ++ tokens)) := by
  -- the lines are put together from the last one, each in front of the end of a line
  have hlines := endsLine_pairs hpairs (endsLine_default table.fallback (endsLine_close h))
  have hspace : Newline.Plain [' '] := by decide
  have hcomment := hlines.toContinues.comment (hspace.append table.plain_summary) hlines.head
  refine ⟨?_, ⟨' ', by decide, rfl⟩⟩
  simp only [switchTokens, List.append_assoc]
  exact .space ⟨'\x7b', rfl, by decide⟩
    (.mark (by decide) (.space ⟨'/', rfl, by decide⟩ hcomment))

/-- The line of a case is written as it is cut. -/
theorem text_caseTokens (kind : TokenKind) (string : String) (target : Int) :
    Token.text (caseTokens ⟨kind, string.toList⟩ target) =
      "\n".toList ++ (Layout.right 18 string ++ s!": {target}").toList := by
  have htarget : (s!": {target}").toList = ':' :: ' ' :: (toString target).toList := by
    show (": " ++ toString target).toList = _
    rw [String.toList_append]
    rfl
  rw [String.toList_append, toList_right, htarget]
  simp [Token.text, caseTokens, Token.indent]

/-- A switch is written as it is cut. -/
theorem text_switchTokens (table : SwitchTable) (head : String) :
    head.toList ++ Token.text table.switchTokens =
      ("\n".intercalate (table.lines head)).toList := by
  have hpairs : Token.text (table.pairs.flatMap fun pair ↦
      caseTokens ⟨.number, (toString pair.1).toList⟩ pair.2) =
      (table.pairs.map fun pair ↦ Layout.right 18 (toString pair.1) ++ s!": {pair.2}").flatMap
        fun string ↦ "\n".toList ++ string.toList := by
    rw [Token.text, List.flatMap_assoc, List.flatMap_map]
    exact List.flatMap_congr fun pair _ ↦ text_caseTokens _ _ _
  have hclose : Token.text [Token.indent 7 ['\x7d'], ⟨.punctuation, ['\x7d']⟩] =
      "\n".toList ++ (Layout.right 7 "\x7d").toList := by
    decide
  have hopen : Token.text [⟨.text, [' ']⟩, ⟨.punctuation, ['\x7b']⟩, ⟨.text, [' ']⟩,
      ⟨.comment, "// ".toList ++ table.summary.toList⟩] =
      " \x7b // ".toList ++ table.summary.toList :=
    congrArg (" \x7b // ".toList ++ ·) (List.append_nil _)
  rw [lines, linesOf, List.cons_append, toList_intercalate_cons, List.flatMap_append, ← hpairs,
    List.flatMap_cons, List.flatMap_singleton, ← text_caseTokens .keyword, ← hclose,
    String.toList_append, String.toList_append, List.append_assoc head.toList, ← hopen,
    switchTokens]
  simp only [Token.text_append, List.append_assoc]

end SwitchTable

/-! ### Operands of one instruction -/

namespace SwitchTable

variable {table : SwitchTable} {offset : Nat}

/-- The numbers of a table are between its bounds. -/
theorem IsTable.fitsSigned (h : table.IsTable offset) :
    ∀ pair ∈ table.pairs, Bytes.FitsSigned 4 pair.1 := by
  obtain ⟨low, high, -, hle, hlow, hhigh, -, hnumbers, -⟩ := h
  intro pair hpair
  have hmem : pair.1 ∈ (List.range (high - low + 1).toNat).map (fun index : Nat ↦ low + index) :=
    hnumbers ▸ List.mem_map_of_mem hpair
  obtain ⟨index, hindex, heq⟩ := List.mem_map.1 hmem
  rw [List.mem_range] at hindex
  rw [Bytes.FitsSigned] at hlow hhigh ⊢
  omega

theorem IsLookup.fitsSigned (h : table.IsLookup offset) :
    ∀ pair ∈ table.pairs, Bytes.FitsSigned 4 pair.1 :=
  fun pair hpair ↦ (h.2.2.2 pair hpair).1

end SwitchTable

namespace Operand

variable {offset : Nat} {kind : OperandKind} {kinds : List OperandKind} {operands : List Operand}

/-- Kinds other than those of switches have no tables. -/
theorem AllFit.table_not_mem (h : AllFit offset kinds operands) (htable : .tableSwitch ∉ kinds)
    (hlookup : .lookupSwitch ∉ kinds) (table : SwitchTable) : .table table ∉ operands := by
  intro hmem
  obtain ⟨kind, hkind, hfits⟩ := h.exists_fits hmem
  cases kind with
  | tableSwitch => exact htable hkind
  | lookupSwitch => exact hlookup hkind
  | _ => exact hfits

/-- The kinds of switches have nothing but a table. -/
theorem AllFit.eq_table (h : AllFit offset [kind] operands)
    (hkind : kind = .tableSwitch ∨ kind = .lookupSwitch) :
    ∃ table : SwitchTable, operands = [.table table] ∧
      ∀ pair ∈ table.pairs, Bytes.FitsSigned 4 pair.1 := by
  have hreserved : kind ≠ .reserved := by
    rcases hkind with rfl | rfl <;> decide
  obtain ⟨operand, rest, rfl, hfits, hrest⟩ := (allFit_cons_iff hreserved).1 h
  have hnil : rest = [] := by
    cases rest with
    | nil => rfl
    | cons other rest => exact hrest.elim
  subst hnil
  rcases hkind with rfl | rfl
  · cases operand with
    | table table => exact ⟨table, rfl, SwitchTable.IsTable.fitsSigned hfits⟩
    | _ => exact hfits.elim
  · cases operand with
    | table table => exact ⟨table, rfl, SwitchTable.IsLookup.fitsSigned hfits⟩
    | _ => exact hfits.elim

end Operand

end ClassInspect
