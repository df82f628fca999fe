import ClassInspect.Proofs.Highlight.Listing

/-!
# Keywords of a listing

The tokens of a listing are known (`Instruction.tokens_listing`), so its keywords can be read off
them: the mnemonic of each instruction, and behind that of a switch the word for all other numbers
(`Instruction.keywords_tokens_listing`). Which instructions are switches is a matter of their
mnemonic, and whether there are lines with targets is one of their operands; in a well-formed
instruction both agree (`Instruction.WellFormed.exists_table`, `WellFormed.table_not_mem`).
-/

namespace ClassInspect

/-! ### Keywords among tokens -/

namespace Token

/-- The keywords among tokens. -/
def keywords (tokens : List (Token Char)) : List (List Char) :=
  (tokens.filter (·.kind = .keyword)).map value

theorem keywords_append (tokens tokens' : List (Token Char)) :
    keywords (tokens ++ tokens') = keywords tokens ++ keywords tokens' := by
  rw [keywords, List.filter_append, List.map_append]
  rfl

theorem keywords_flatMap {α : Type} (items : List α) (tokens : α → List (Token Char)) :
    keywords (items.flatMap tokens) = items.flatMap fun item ↦ keywords (tokens item) := by
  rw [keywords, List.filter_flatMap, List.map_flatMap]
  rfl

theorem keywords_eq_nil {tokens : List (Token Char)} (h : ∀ token ∈ tokens, token.kind ≠ .keyword) :
    keywords tokens = [] := by
  rw [keywords, List.filter_eq_nil_iff.2 fun token hmem ↦ by simpa using h token hmem]
  rfl

end Token

namespace Operand

theorem kind_token_ne (operand : Operand) : operand.token.kind ≠ .keyword := by
  cases operand <;> exact nofun

theorem keywords_lineTokens (operands : List Operand) :
    Token.keywords (lineTokens operands) = [] := by
  refine Token.keywords_eq_nil fun token hmem ↦ ?_
  cases operands with
  | nil => cases hmem
  | cons operand operands =>
    simp only [lineTokens, moreTokens, List.mem_cons, List.mem_flatMap, List.not_mem_nil,
      or_false] at hmem
    rcases hmem with rfl | rfl | ⟨other, -, rfl | rfl | rfl⟩
    · decide
    · exact operand.kind_token_ne
    · decide
    · decide
    · exact other.kind_token_ne

end Operand

/-- Of the lines of a switch, only that of all other numbers has a keyword. -/
theorem SwitchTable.keywords_switchTokens (table : SwitchTable) :
    Token.keywords table.switchTokens = ["default".toList] := by
  have hpairs : Token.keywords (table.pairs.flatMap fun pair ↦
      caseTokens ⟨.number, (toString pair.1).toList⟩ pair.2) = [] := by
    rw [Token.keywords_flatMap]
    exact List.flatMap_eq_nil_iff.2 fun pair _ ↦ rfl
  rw [switchTokens, Token.keywords_append, Token.keywords_append, Token.keywords_append, hpairs]
  rfl

namespace Instruction

variable {i : Instruction}

/-! ### Keywords of an instruction -/

/-- The keywords of an instruction: its mnemonic, and one more for a switch. -/
def keywords (i : Instruction) : List (List Char) :=
  i.mnemonic.toList :: if i.opcode.mnemonic ∈ Opcode.switches then ["default".toList] else []

theorem keywords_operandTokens (hi : i.WellFormed) :
    Token.keywords i.operandTokens =
      if i.opcode.mnemonic ∈ Opcode.switches then ["default".toList] else [] := by
  split
  · obtain ⟨table, hoperands, -⟩ := hi.exists_table ‹_›
    rw [operandTokens, hoperands]
    exact table.keywords_switchTokens
  · rw [operandTokens_of_line (hi.table_not_mem ‹_›)]
    exact Operand.keywords_lineTokens i.operands

theorem keywords_bodyTokens (hi : i.WellFormed) : Token.keywords i.bodyTokens = i.keywords := by
  rw [keywords, ← keywords_operandTokens hi]
  rfl

theorem keywords_marginTokens (i : Instruction) : Token.keywords i.marginTokens = [] := by
  rw [marginTokens]
  split <;> rfl

/-! ### Keywords of a listing -/

theorem keywords_listingTokens {instructions : List Instruction}
    (h : ∀ i ∈ instructions, i.WellFormed) :
    Token.keywords (listingTokens instructions) = instructions.flatMap keywords := by
  cases instructions with
  | nil => rfl
  | cons i rest =>
    obtain ⟨hi, hrest⟩ := List.forall_mem_cons.1 h
    have hlines : Token.keywords (rest.flatMap fun other ↦ other.marginTokens ++ other.bodyTokens) =
        rest.flatMap keywords := by
      rw [Token.keywords_flatMap]
      refine List.flatMap_congr fun other hother ↦ ?_
      rw [Token.keywords_append, keywords_marginTokens, keywords_bodyTokens (hrest other hother)]
      rfl
    rw [listingTokens, Token.keywords_append, Token.keywords_append, hlines,
      ← List.singleton_append, Token.keywords_append, keywords_bodyTokens hi, List.flatMap_cons]
    exact List.append_nil _

/-- The mnemonic is one token, behind the left margin and a blank. -/
theorem exists_mnemonic_token {front back : List Instruction}
    (h : ∀ other ∈ front ++ i :: back, other.WellFormed) :
    ∃ before after, listingTokens (front ++ i :: back) =
      before ++ ⟨.keyword, i.mnemonic.toList⟩ :: after ∧
      Token.text before = linesOf front ++ i.margin ++ [' '] := by
  cases front with
  | nil =>
    refine ⟨[⟨.label, i.margin⟩, ⟨.text, [' ']⟩],
      i.operandTokens ++ back.flatMap (fun other ↦ other.marginTokens ++ other.bodyTokens) ++
        [⟨.text, ['\n']⟩], ?_, ?_⟩
    · rw [List.nil_append, listingTokens, bodyTokens]
      simp only [List.append_assoc, List.cons_append, List.nil_append]
    · rw [Token.text_cons, Token.text_singleton, linesOf, List.flatMap_nil, List.nil_append]
  | cons first front =>
    have hfront : ∀ other ∈ first :: front, other.WellFormed :=
      fun other hother ↦ h other (List.mem_append_left _ hother)
    obtain ⟨before, after, htokens, hbefore⟩ := listingTokens_append hfront i back
    refine ⟨before ++ i.marginTokens ++ [⟨.text, [' ']⟩], i.operandTokens ++ after, ?_, ?_⟩
    · rw [htokens, bodyTokens]
      simp only [List.append_assoc, List.cons_append, List.nil_append]
    · rw [Token.text_append, Token.text_append, text_marginTokens, Token.text_singleton, ← hbefore]
      simp only [List.append_assoc, List.cons_append, List.nil_append]

/-- The keywords of a listing are the mnemonics of its instructions, with one more behind each
switch. Each mnemonic is one token in its place. -/
theorem keywords_tokens_listing {code : Bytes} {instructions : List Instruction}
    (h : decodeAll code = .ok instructions) :
    (∃ texts, instructions.mapM (·.render none) = .ok texts ∧
        Text.lines texts = .ofChars (listing instructions)) ∧
      Token.keywords (Lexer.tokens (listing instructions)) = instructions.flatMap keywords ∧
      ∀ front i back, instructions = front ++ i :: back →
        ∃ before after, Lexer.tokens (listing instructions) =
          before ++ ⟨.keyword, i.mnemonic.toList⟩ :: after ∧
          Token.text before = linesOf front ++ i.margin ++ [' '] := by
  have hwellFormed := ((decodeAll_eq_ok_iff code _).1 h).1.wellFormed
  rw [tokens_listing hwellFormed]
  refine ⟨lines_render hwellFormed, keywords_listingTokens hwellFormed,
    fun front i back hplace ↦ ?_⟩
  subst hplace
  exact exists_mnemonic_token hwellFormed

/-- A new array, a wide form and a switch. -/
def sampleKeywords : List Instruction :=
  [⟨0, ⟨"newarray", 0xBC, [.arrayType]⟩, false, [.arrayType .int]⟩,
    ⟨2, ⟨"iload", 0x15, [.localVariable]⟩, true, [.localVariable 300]⟩,
    ⟨6, ⟨"lookupswitch", 0xAB, [.lookupSwitch]⟩, false, [.table ⟨6, none, [(-1, 2)]⟩]⟩]

/-- The type of the array and the numbers of the switch are no keywords. -/
theorem keywords_tokens_listing_sample :
    decodeAll [0xBC, 0x0A, 0xC4, 0x15, 0x01, 0x2C, 0xAB, 0x00, 0x00, 0x00, 0x00, 0x00,
      0x00, 0x00, 0x00, 0x01, 0xFF, 0xFF, 0xFF, 0xFF, 0xFF, 0xFF, 0xFF, 0xFC] =
        .ok sampleKeywords ∧
      Token.keywords (Lexer.tokens (listing sampleKeywords)) =
        ["newarray".toList, "iload_w".toList, "lookupswitch".toList, "default".toList] := by
  have hdecode : decodeAll [0xBC, 0x0A, 0xC4, 0x15, 0x01, 0x2C, 0xAB, 0x00, 0x00, 0x00, 0x00, 0x00,
      0x00, 0x00, 0x00, 0x01, 0xFF, 0xFF, 0xFF, 0xFF, 0xFF, 0xFF, 0xFF, 0xFC] =
        .ok sampleKeywords := by
    decide +kernel
  have hkeywords : sampleKeywords.flatMap keywords =
      ["newarray".toList, "iload_w".toList, "lookupswitch".toList, "default".toList] := by
    decide +kernel
  exact ⟨hdecode, (keywords_tokens_listing hdecode).2.1.trans hkeywords⟩

end Instruction

end ClassInspect
