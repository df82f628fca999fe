import ClassInspect.Proofs.Highlight.Operand
import ClassInspect.Proofs.Instruction.RoundTrip
import ClassInspect.Proofs.Report.Listing

/-!
# Tokens of a listing

A listing is cut into the tokens of its instructions (`Instruction.tokens_listing`): the left
margin, the mnemonic and the operands of each. White space is one token, line feeds included, so
where a line is indented its left margin is not found at the start of the line any more. A position
of five digits fills the margin, and is a label in every line; all others are labels in the first
line only (`Instruction.label_margin_iff`).

## What the two theorems rest on

* The tokens are written down first (`Instruction.listingTokens`), and then two things are shown of
  them, neither of which mentions the other. Put together they are the listing
  (`Instruction.text_listingTokens`), and their text is cut into them
  (`Instruction.lexes_listingTokens`).
* The first is a matter of how instructions are written. An instruction has a switch table and
  nothing else, or no table at all (`Instruction.WellFormed.switch_cases`), so there are two forms.
* The second goes from the end of the text to its start, by induction on the instructions, since a
  token depends on what follows. The invariant is `EndsLine`: from a line feed on, all is cut as it
  should be. That a position fills the margin or not decides which token the line feed is in.
* Before it is cut, line ends in a text are made uniform and it is trimmed, which leaves a listing
  alone: it has no carriage returns, starts with a margin and does not end with a line feed.
* A label cannot be hidden within other tokens: what stands at a position of the text belongs to one
  token (`Token.eq_of_overlap`). So where the position is a number by itself, there is no label.
-/

namespace ClassInspect

open Lexer (Closes Continues Lexes Opens)

namespace Instruction

variable {i : Instruction} {tokens : List (Token Char)}

/-- The left margin of an instruction. -/
def margin (i : Instruction) : List Char :=
  (Layout.right 5 (toString i.offset)).toList ++ [':']

/-- The tokens of the operands of an instruction. -/
def operandTokens (i : Instruction) : List (Token Char) :=
  match i.operands with
  | [.table table] => table.switchTokens
  | operands => Operand.lineTokens operands

/-- The tokens of an instruction behind its left margin. -/
def bodyTokens (i : Instruction) : List (Token Char) :=
  ⟨.text, [' ']⟩ :: ⟨.keyword, i.mnemonic.toList⟩ :: i.operandTokens

/-- The tokens of the left margin behind another line. White space at a line end is one token, so
only a position that fills the margin is still found at the start of its line. -/
def marginTokens (i : Instruction) : List (Token Char) :=
  if 10000 ≤ i.offset then [⟨.text, ['\n']⟩, ⟨.label, i.margin⟩]
  else [Token.indent 5 (toString i.offset).toList,
    ⟨.number, (toString i.offset).toList⟩, ⟨.punctuation, [':']⟩]

/-- The tokens of a listing. -/
def listingTokens : List Instruction → List (Token Char)
  | [] => [⟨.text, ['\n']⟩]
  | i :: rest => ⟨.label, i.margin⟩ :: i.bodyTokens ++
      rest.flatMap (fun other ↦ other.marginTokens ++ other.bodyTokens) ++ [⟨.text, ['\n']⟩]

/-- The lines of instructions without comments. -/
def listing (instructions : List Instruction) : List Char :=
  ("\n".intercalate (instructions.map text)).toList

/-- A switch has nothing but a table. -/
theorem WellFormed.exists_table (hi : i.WellFormed)
    (hswitch : i.opcode.mnemonic ∈ Opcode.switches) :
    ∃ table : SwitchTable, i.operands = [.table table] ∧
      ∀ pair ∈ table.pairs, Bytes.FitsSigned 4 pair.1 := by
  rcases hwide : i.wide with _ | _
  · obtain ⟨hopcode, hfit⟩ := (wellFormed_of_narrow hwide).1 hi
    rcases Opcode.operands_of_switch hopcode hswitch with hkinds | hkinds
    · exact (hkinds ▸ hfit).eq_table (.inl rfl)
    · exact (hkinds ▸ hfit).eq_table (.inr rfl)
  · have hnarrow : ∀ mnemonic ∈ Opcode.switches,
        Opcode.widenedMnemonics.contains mnemonic = false := by decide
    have hwidened : Opcode.widenedMnemonics.contains i.opcode.mnemonic = true :=
      ((wellFormed_of_wide hwide).1 hi).2.1
    exact absurd ((hnarrow _ hswitch).symm.trans hwidened) Bool.false_ne_true

/-- No other instruction has a table. -/
theorem WellFormed.table_not_mem (hi : i.WellFormed)
    (hswitch : i.opcode.mnemonic ∉ Opcode.switches) (table : SwitchTable) :
    .table table ∉ i.operands := by
  rcases hwide : i.wide with _ | _
  · obtain ⟨hopcode, hfit⟩ := (wellFormed_of_narrow hwide).1 hi
    obtain ⟨htable, hlookup⟩ := Opcode.switch_not_mem_operands hopcode hswitch
    exact hfit.table_not_mem htable hlookup table
  · obtain ⟨-, -, hfit⟩ := (wellFormed_of_wide hwide).1 hi
    by_cases hmnemonic : i.opcode.mnemonic = "iinc"
    · obtain ⟨_, _, hoperands, -⟩ := (Operand.wideFit_iff_of_increment hmnemonic).1 hfit
      simp [hoperands]
    · obtain ⟨_, hoperands, -⟩ := (Operand.wideFit_iff_of_ne hmnemonic).1 hfit
      simp [hoperands]

/-- The operands are a switch table, or none of them is one. -/
theorem WellFormed.switch_cases (hi : i.WellFormed) :
    (∃ table : SwitchTable, i.operands = [.table table] ∧
      ∀ pair ∈ table.pairs, Bytes.FitsSigned 4 pair.1) ∨
    ∀ table : SwitchTable, .table table ∉ i.operands := by
  by_cases hswitch : i.opcode.mnemonic ∈ Opcode.switches
  · exact .inl (hi.exists_table hswitch)
  · exact .inr (hi.table_not_mem hswitch)

theorem head_eq (i : Instruction) :
    i.head.toList = i.margin ++ ' ' :: i.mnemonic.toList := by
  rw [head, String.toList_append, String.toList_append, margin, List.append_assoc,
    List.append_assoc]
  rfl

theorem text_of_line (htable : ∀ table, .table table ∉ i.operands) (hne : i.operands ≠ []) :
    i.text = i.head ++ " " ++ ", ".intercalate (i.operands.map Operand.text) := by
  unfold text
  split
  · rename_i hnil
    exact absurd hnil hne
  · rename_i table hoperands
    exact absurd (hoperands ▸ .head _) (htable table)
  · rfl

theorem operandTokens_of_line (htable : ∀ table, .table table ∉ i.operands) :
    i.operandTokens = Operand.lineTokens i.operands := by
  unfold operandTokens
  split
  · rename_i table hoperands
    exact absurd (hoperands ▸ .head _) (htable table)
  · rfl

theorem text_operandTokens (hi : i.WellFormed) :
    i.text.toList = i.head.toList ++ Token.text i.operandTokens := by
  rcases hi.switch_cases with ⟨table, hoperands, -⟩ | htable
  · rw [text, operandTokens, hoperands]
    exact (table.text_switchTokens i.head).symm
  · rw [operandTokens_of_line htable]
    rcases hoperands : i.operands with _ | ⟨operand, operands⟩
    · rw [text, hoperands]
      exact (List.append_nil _).symm
    · rw [text_of_line htable (by rw [hoperands]; exact List.cons_ne_nil _ _), hoperands,
        String.append_assoc, String.toList_append, Operand.text_lineTokens]

/-- An instruction is written as it is cut. -/
theorem text_eq (hi : i.WellFormed) : i.text.toList = i.margin ++ Token.text i.bodyTokens := by
  rw [text_operandTokens hi, head_eq, List.append_assoc]
  rfl

theorem mem_mnemonics (hi : i.WellFormed) :
    i.mnemonic.toList ∈ Lexer.wideMnemonics ∨ i.mnemonic.toList ∈ Lexer.mnemonics := by
  have hmem : i.opcode.mnemonic.toList ∈ Lexer.mnemonics := List.mem_map_of_mem hi.1
  rw [mnemonic]
  split
  · rw [String.toList_append]
    exact .inl (List.mem_map_of_mem hmem)
  · exact .inr hmem

theorem continues_operandTokens (hi : i.WellFormed) (h : EndsLine tokens) :
    Continues (i.operandTokens ++ tokens) ∧ Closes (Token.text (i.operandTokens ++ tokens)) := by
  rcases hi.switch_cases with ⟨table, hoperands, hpairs⟩ | htable
  · rw [operandTokens, hoperands]
    exact SwitchTable.continues_switchTokens hpairs h
  · rw [operandTokens_of_line htable]
    exact Operand.continues_lineTokens htable h

theorem continues_bodyTokens (hi : i.WellFormed) (h : EndsLine tokens) :
    Continues (i.bodyTokens ++ tokens) := by
  obtain ⟨hcontinues, hcloses⟩ := continues_operandTokens hi h
  have hword := mem_mnemonics hi
  have hopens : Opens i.mnemonic.toList := (Lexer.isSpelling_of_mem hword).opens
  exact .space (hopens.append _) (hcontinues.mnemonic hword hcloses)

theorem margin_eq (i : Instruction) : i.margin =
    List.replicate (5 - (toString i.offset).toList.length) ' ' ++ (toString i.offset).toList ++
      [':'] := by
  rw [margin, toList_right]

theorem mem_margin {c : Char} (h : c ∈ i.margin) : c = ' ' ∨ c.isDigit = true ∨ c = ':' := by
  rw [margin_eq, List.mem_append, List.mem_append, List.mem_singleton] at h
  rcases h with (hblank | hdigit) | hcolon
  · exact .inl (List.mem_replicate.1 hblank).2
  · exact .inr (.inl ((isDigits_toString i.offset).all c hdigit))
  · exact .inr (.inr hcolon)

theorem not_mem_margin {c : Char} (hblank : c ≠ ' ') (hdigit : c.isDigit = false)
    (hcolon : c ≠ ':') : c ∉ i.margin := by
  intro hmem
  rcases mem_margin hmem with heq | hdigit' | heq
  · exact hblank heq
  · exact Bool.false_ne_true (hdigit.symm.trans hdigit')
  · exact hcolon heq

/-- A left margin at the start of a line is a label. -/
theorem lexes_label {before : Option Char} (hbefore : before.all (· = '\n') = true)
    (hi : i.WellFormed) (h : EndsLine tokens) :
    Lexes before (⟨.label, i.margin⟩ :: i.bodyTokens ++ tokens) := by
  obtain ⟨first, rest, hmargin⟩ : ∃ first rest, i.margin = first :: rest :=
    List.exists_cons_of_ne_nil (by simp [margin])
  have hlast : (first :: rest).getLast? = some ':' := by
    rw [← hmargin, margin, List.getLast?_concat]
  rw [hmargin]
  refine .cons (Lexer.choose_label hbefore (fun c hc ↦ (List.mem_replicate.1 hc).2)
    (isDigits_toString i.offset) (hmargin ▸ i.margin_eq) rfl) ?_
  rw [hlast]
  exact (continues_bodyTokens hi h).lexes ':' (by decide)

/-- The tokens of an instruction behind another line. -/
theorem endsLine_instruction (hi : i.WellFormed) (h : EndsLine tokens) :
    EndsLine (i.marginTokens ++ i.bodyTokens ++ tokens) := by
  have hbody := continues_bodyTokens hi h
  have hdigits := isDigits_toString i.offset
  have hlength := length_toString_le_iff i.offset 4 (by decide)
  rw [marginTokens]
  split
  · -- nothing is left of the margin, and the line feed stands alone
    have hmargin : Opens i.margin := by
      rw [margin_eq, Nat.sub_eq_zero_of_le (by omega)]
      exact hdigits.opens.append _
    exact endsLine_feed (hmargin.append _).head?_eq_false (lexes_label rfl hi h)
      (Lexer.noReturn_cons (not_mem_margin (by decide) (by decide) (by decide)) hbody.noReturn)
  · -- the blanks of the margin belong to the line feed, and the position is a number behind them
    have hnumber := Continues.numeral (.digits hdigits) ⟨':', by decide, rfl⟩
      (hbody.mark (c := ':') (by decide))
    exact endsLine_indent (by omega) (hdigits.opens.append _) (hnumber.lexes ' ' (by decide))
      hnumber.noReturn

theorem endsLine_instructions {instructions : List Instruction}
    (h : ∀ i ∈ instructions, i.WellFormed) :
    EndsLine (instructions.flatMap (fun i ↦ i.marginTokens ++ i.bodyTokens) ++
      [⟨.text, ['\n']⟩]) := by
  induction instructions with
  | nil => exact endsLine_last
  | cons i instructions ih =>
    obtain ⟨hi, hrest⟩ := List.forall_mem_cons.1 h
    rw [List.flatMap_cons, List.append_assoc]
    exact endsLine_instruction hi (ih hrest)

/-- The text of these tokens is cut into them. -/
theorem lexes_listingTokens {instructions : List Instruction}
    (h : ∀ i ∈ instructions, i.WellFormed) : Lexes none (listingTokens instructions) := by
  cases instructions with
  | nil =>
    have hchoose : Lexer.choose ⟨none, '\n', [] ++ Token.text []⟩ =
        (.text, ([] : List Char).length) := Lexer.choose_lastFeed
    exact .cons hchoose (.nil _)
  | cons i instructions =>
    obtain ⟨hi, hrest⟩ := List.forall_mem_cons.1 h
    rw [listingTokens, List.append_assoc]
    exact lexes_label rfl hi (endsLine_instructions hrest)

theorem noReturn_listingTokens {instructions : List Instruction}
    (h : ∀ i ∈ instructions, i.WellFormed) : '\r' ∉ Token.text (listingTokens instructions) := by
  cases instructions with
  | nil => decide
  | cons i instructions =>
    obtain ⟨hi, hrest⟩ := List.forall_mem_cons.1 h
    rw [listingTokens, List.append_assoc]
    exact Lexer.noReturn_cons (not_mem_margin (by decide) (by decide) (by decide))
      (continues_bodyTokens hi (endsLine_instructions hrest)).noReturn

/-- The last token of an instruction belongs to its last line. -/
theorem getLast?_bodyTokens (hi : i.WellFormed) :
    ∃ token, i.bodyTokens.getLast? = some token ∧ token.value ≠ [] ∧
      Newline.Plain token.value := by
  rcases hi.switch_cases with ⟨table, hoperands, -⟩ | htable
  · refine ⟨⟨.punctuation, ['\x7d']⟩, ?_, List.cons_ne_nil _ _, by decide⟩
    rw [bodyTokens, operandTokens, hoperands]
    show (_ :: _ :: (_ ++ [_, _])).getLast? = _
    rw [List.getLast?_cons, List.getLast?_cons, List.getLast?_append]
    rfl
  · rw [bodyTokens, operandTokens_of_line htable]
    by_cases hne : i.operands = []
    · have hspelling := Lexer.isSpelling_of_mem (mem_mnemonics hi)
      rw [hne]
      exact ⟨_, rfl, hspelling.ne_nil, hspelling.plain⟩
    · obtain ⟨operand, hoperand, hlast⟩ := Operand.getLast?_lineTokens hne
      have hnotable (table : SwitchTable) : operand ≠ .table table :=
        fun heq ↦ htable table (heq ▸ hoperand)
      refine ⟨operand.token, ?_, ?_, Operand.plain_token hnotable⟩
      · simp [List.getLast?_cons, hlast]
      · exact (Operand.opens_token hnotable).ne_nil

/-- An instruction does not end with a line feed. -/
theorem getLast?_text (hi : i.WellFormed) : ∃ c, i.text.toList.getLast? = some c ∧ c ≠ '\n' := by
  obtain ⟨token, hlast, hne, hplain⟩ := getLast?_bodyTokens hi
  obtain ⟨front, hfront⟩ := List.getLast?_eq_some_iff.1 hlast
  refine ⟨token.value.getLast hne, ?_, fun heq ↦ hplain.1 (heq ▸ List.getLast_mem hne)⟩
  rw [text_eq hi, hfront, Token.text_append, Token.text_singleton, ← List.append_assoc,
    List.getLast?_append, List.getLast?_eq_some_getLast hne]
  rfl

theorem text_marginTokens (i : Instruction) : Token.text i.marginTokens = '\n' :: i.margin := by
  rw [marginTokens]
  split
  · rw [Token.text_cons, Token.text_singleton, List.singleton_append]
  · rw [Token.text_cons, Token.text_cons, Token.text_singleton, margin_eq, List.append_assoc]
    rfl

/-- Texts as lines are the lines as a text. -/
theorem lines_map_lit (strings : List String) :
    Text.lines (strings.map .lit) = .lit ("\n".intercalate strings) := by
  cases strings with
  | nil => rfl
  | cons first rest =>
    rw [List.map_cons, Text.lines, Text.join_cons, lit_intercalate_cons, List.flatMap_map]

/-- Without a pool, instructions are rendered as their listing. -/
theorem lines_render {instructions : List Instruction} (h : ∀ i ∈ instructions, i.WellFormed) :
    ∃ texts, instructions.mapM (·.render none) = .ok texts ∧
      Text.lines texts = .ofChars (listing instructions) := by
  refine ⟨(instructions.map text).map .lit, ?_, lines_map_lit _⟩
  rw [mapM_render fun i hi ↦ render_none (h i hi), List.map_map]
  rfl

theorem listing_cons (i : Instruction) (rest : List Instruction) :
    listing (i :: rest) = i.text.toList ++ rest.flatMap fun other ↦ '\n' :: other.text.toList := by
  rw [listing, List.map_cons, toList_intercalate_cons, List.flatMap_map]
  rfl

/-- A listing is written as it is cut, but for the line feed at its end. -/
theorem text_listingTokens {instructions : List Instruction}
    (h : ∀ i ∈ instructions, i.WellFormed) :
    Token.text (listingTokens instructions) = listing instructions ++ ['\n'] := by
  cases instructions with
  | nil => rfl
  | cons i instructions =>
    have hrest : Token.text (instructions.flatMap fun i ↦ i.marginTokens ++ i.bodyTokens) =
        instructions.flatMap fun i ↦ '\n' :: i.text.toList := by
      rw [Token.text, List.flatMap_assoc]
      refine List.flatMap_congr fun other hother ↦ ?_
      rw [text_eq (h other (.tail _ hother)), ← List.cons_append, ← text_marginTokens]
      exact Token.text_append _ _
    rw [listing_cons, text_eq (h i (.head _)), ← hrest, listingTokens, Token.text_append,
      Token.text_append, Token.text_cons]
    rfl

/-- A listing does not end with a line feed. -/
theorem getLast?_listing {instructions : List Instruction}
    (h : ∀ i ∈ instructions, i.WellFormed) : (listing instructions).getLast? ≠ some '\n' := by
  cases instructions with
  | nil => exact nofun
  | cons i rest =>
    rw [listing_cons]
    rcases List.eq_nil_or_concat rest with rfl | ⟨init, last, rfl⟩
    · obtain ⟨c, hc, hne⟩ := getLast?_text (h i (.head _))
      rw [List.flatMap_nil, List.append_nil, hc]
      exact fun heq ↦ hne (Option.some.inj heq)
    · obtain ⟨c, hc, hne⟩ := getLast?_text (h last (by simp))
      rw [List.concat_eq_append, List.flatMap_append, List.flatMap_singleton,
        List.getLast?_append, List.getLast?_append, List.getLast?_cons, hc]
      exact fun heq ↦ hne (Option.some.inj heq)

/-- A listing starts with a left margin. -/
theorem head?_listing {instructions : List Instruction} (h : ∀ i ∈ instructions, i.WellFormed) :
    ∀ c ∈ (listing instructions).head?, c ≠ '\n' ∧ c ≠ '\ufeff' := by
  intro c hc
  cases instructions with
  | nil => cases hc
  | cons i rest =>
    have hmem : c ∈ i.margin := by
      obtain ⟨first, more, hmargin⟩ : ∃ first more, i.margin = first :: more :=
        List.exists_cons_of_ne_nil (by simp [margin])
      rw [listing_cons, text_eq (h i (.head _)), hmargin] at hc
      cases hc
      rw [hmargin]
      exact .head _
    constructor
    · rintro rfl
      exact not_mem_margin (by decide) (by decide) (by decide) hmem
    · rintro rfl
      exact not_mem_margin (by decide) (by decide) (by decide) hmem

/-- A listing is cut into the tokens of its instructions. -/
theorem tokens_listing {instructions : List Instruction} (h : ∀ i ∈ instructions, i.WellFormed) :
    Lexer.tokens (listing instructions) = listingTokens instructions := by
  -- no line end of the listing has to be rewritten
  have hreturn : '\r' ∉ listing instructions := by
    have hreturn := noReturn_listingTokens h
    rw [text_listingTokens h] at hreturn
    exact fun hmem ↦ hreturn (List.mem_append_left _ hmem)
  refine (lexes_listingTokens h).tokens_eq ?_
  rw [Lexer.normalize_eq hreturn (head?_listing h) (getLast?_listing h), text_listingTokens h]

/-! ### Labels -/

/-- Behind the text `before`, the margin is a label, to which white space in front of it may
belong. -/
def Labelled (tokens : List (Token Char)) (before margin : List Char) : Prop :=
  ∃ front blanks back, tokens = front ++ ⟨.label, blanks ++ margin⟩ :: back ∧
    (∀ c ∈ blanks, CharClass.isBlank c = true) ∧ Token.text front ++ blanks = before

/-- Instructions as lines, each with a line feed. -/
def linesOf (instructions : List Instruction) : List Char :=
  instructions.flatMap fun i ↦ i.text.toList ++ ['\n']

theorem listing_append_feed (i : Instruction) (rest : List Instruction) :
    listing (i :: rest) ++ ['\n'] = linesOf (i :: rest) := by
  induction rest generalizing i with
  | nil =>
    rw [listing_cons, List.flatMap_nil, List.append_nil, linesOf, List.flatMap_singleton]
  | cons other rest ih =>
    have hlisting : listing (i :: other :: rest) =
        i.text.toList ++ ['\n'] ++ listing (other :: rest) := by
      rw [listing_cons, listing_cons, List.flatMap_cons, List.append_assoc]
      rfl
    rw [hlisting, List.append_assoc _ _ ['\n'], ih]
    rfl

/-- Behind other lines, the tokens of an instruction follow those of the lines. -/
theorem listingTokens_append {first : Instruction} {front : List Instruction}
    (h : ∀ i ∈ first :: front, i.WellFormed) (i : Instruction) (back : List Instruction) :
    ∃ before after, listingTokens (first :: front ++ i :: back) =
      before ++ i.marginTokens ++ (i.bodyTokens ++ after) ∧
      Token.text before ++ ['\n'] = linesOf (first :: front) := by
  refine ⟨⟨.label, first.margin⟩ :: first.bodyTokens ++
    front.flatMap (fun other ↦ other.marginTokens ++ other.bodyTokens),
    back.flatMap (fun other ↦ other.marginTokens ++ other.bodyTokens) ++ [⟨.text, ['\n']⟩], ?_, ?_⟩
  · rw [List.cons_append, listingTokens, List.flatMap_append, List.flatMap_cons]
    simp only [List.append_assoc, List.cons_append]
  · rw [← listing_append_feed, ← text_listingTokens h, listingTokens, Token.text_append _ [_],
      Token.text_singleton]

/-- A left margin is a label in the first line, and in the others if its position fills it. -/
theorem labelled_listingTokens_iff {front back : List Instruction}
    (h : ∀ other ∈ front ++ i :: back, other.WellFormed) :
    Labelled (listingTokens (front ++ i :: back)) (linesOf front) i.margin ↔
      front = [] ∨ 10000 ≤ i.offset := by
  cases front with
  | nil =>
    refine iff_of_true ⟨[], [], i.bodyTokens ++ back.flatMap (fun other ↦
      other.marginTokens ++ other.bodyTokens) ++ [⟨.text, ['\n']⟩], ?_,
      List.forall_mem_nil _, rfl⟩ (.inl rfl)
    rw [List.nil_append, List.nil_append, List.nil_append, listingTokens, List.cons_append,
      List.cons_append]
  | cons first front =>
    have hfront : ∀ other ∈ first :: front, other.WellFormed :=
      fun other hother ↦ h other (List.mem_append_left _ hother)
    obtain ⟨before, after, htokens, hbefore⟩ := listingTokens_append hfront i back
    rw [htokens, ← hbefore, marginTokens]
    split
    · -- the line feed alone stands in front of the label
      refine iff_of_true ⟨before ++ [⟨.text, ['\n']⟩], [], i.bodyTokens ++ after, ?_,
        List.forall_mem_nil _, ?_⟩ (.inr ‹_›)
      · simp
      · rw [List.append_nil, Token.text_append, Token.text_singleton]
    · refine iff_of_false ?_ (by simp; omega)
      rintro ⟨labelFront, blanks, labelBack, hlabel, -, hplace⟩
      have hlength := congrArg List.length hplace
      have hdigits := List.length_pos_iff.2 (isDigits_toString i.offset).ne_nil
      have hnumber : before ++ [Token.indent 5 (toString i.offset).toList,
          ⟨.number, (toString i.offset).toList⟩, ⟨.punctuation, [':']⟩] ++ (i.bodyTokens ++ after) =
          (before ++ [Token.indent 5 (toString i.offset).toList]) ++
            ⟨.number, (toString i.offset).toList⟩ :: ⟨.punctuation, [':']⟩ ::
              (i.bodyTokens ++ after) := by
        simp only [List.append_assoc, List.cons_append, List.nil_append]
      -- the number within the margin would have to be a part of the label
      have hsame := Token.eq_of_overlap (hlabel.symm.trans hnumber) ?_ ?_
      · exact TokenKind.noConfusion (congrArg Token.kind hsame)
      · rw [Token.text_append, Token.text_singleton, Token.indent]
        simp only [List.length_append, List.length_cons, List.length_nil, List.length_replicate]
          at hlength ⊢
        omega
      · rw [Token.text_append, Token.text_singleton, Token.indent, margin_eq]
        simp only [List.length_append, List.length_cons, List.length_nil, List.length_replicate]
          at hlength ⊢
        omega

/-- In the tokens of a listing, a left margin is a label in the first line, and in the other lines
if and only if the position is not moved to the right. -/
theorem label_margin_iff {code : Bytes} {front back : List Instruction}
    (h : decodeAll code = .ok (front ++ i :: back)) :
    (∃ texts, (front ++ i :: back).mapM (·.render none) = .ok texts ∧
        Text.lines texts = .ofChars (listing (front ++ i :: back))) ∧
      (Labelled (Lexer.tokens (listing (front ++ i :: back))) (linesOf front) i.margin ↔
        front = [] ∨ 10000 ≤ i.offset) := by
  have hwellFormed := ((decodeAll_eq_ok_iff code _).1 h).1.wellFormed
  rw [tokens_listing hwellFormed, labelled_listingTokens_iff hwellFormed]
  exact ⟨lines_render hwellFormed, Iff.rfl⟩

/-- An instruction without operands. -/
def sampleNop (offset : Nat) : Instruction :=
  ⟨offset, ⟨"nop", 0x00, []⟩, false, []⟩

/-- Two lines, of which only the first has a label. -/
theorem label_margin_iff_sample :
    decodeAll [0x00, 0x00] = .ok ([sampleNop 0] ++ sampleNop 1 :: []) ∧
      Labelled (Lexer.tokens (listing [sampleNop 0, sampleNop 1])) [] (sampleNop 0).margin ∧
      ¬ Labelled (Lexer.tokens (listing [sampleNop 0, sampleNop 1])) (linesOf [sampleNop 0])
        (sampleNop 1).margin := by
  have hdecode : decodeAll [0x00, 0x00] = .ok ([sampleNop 0] ++ sampleNop 1 :: []) := by
    decide +kernel
  refine ⟨hdecode, ?_, ?_⟩
  · have hfirst : decodeAll [0x00, 0x00] = .ok ([] ++ sampleNop 0 :: [sampleNop 1]) := hdecode
    exact (label_margin_iff hfirst).2.2 (.inl rfl)
  · intro hlabelled
    exact absurd ((label_margin_iff hdecode).2.1 hlabelled) (by decide)

/-- Not every left margin is a label. -/
theorem margin_not_always_label :
    ¬ ∀ (code : Bytes) (front back : List Instruction) (i : Instruction),
        decodeAll code = .ok (front ++ i :: back) →
        Labelled (Lexer.tokens (listing (front ++ i :: back))) (linesOf front) i.margin := by
  intro h
  have hdecode : decodeAll [0x00, 0x00] = .ok ([sampleNop 0] ++ sampleNop 1 :: []) := by
    decide +kernel
  have hwellFormed := ((decodeAll_eq_ok_iff _ _).1 hdecode).1.wellFormed
  have hlabelled := h _ _ _ _ hdecode
  rw [tokens_listing hwellFormed, labelled_listingTokens_iff hwellFormed] at hlabelled
  exact absurd hlabelled (by decide)

end Instruction

end ClassInspect
