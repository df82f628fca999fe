import Mathlib.Data.List.TakeWhile
import ClassInspect.Highlight.Lexer
import ClassInspect.Proofs.Opcode
import ClassInspect.Proofs.Text.Boundary
import ClassInspect.Proofs.Text.Newline

/-!
# Words and numbers

How the words and numbers of a listing are spelled, and what tells them apart: mnemonics and other
words start with a small letter (`Lexer.IsSpelling`), numbers with a digit or a sign
(`Lexer.IsNumeral`), and neither holds white space. Behind both stands one of a few characters that
belong to neither (`Lexer.Closes`).

White space and digits are those of all scripts, given by tables of ranges. What is needed of small
letters and plain digits is that no range comes near them, which is checked of the ranges and not of
the characters (`Lexer.isBlank_eq_false`, `Lexer.isDecimal_of_isLower`). In the same way, the
spelling of all mnemonics is checked of their bytes (`Lexer.isSpelling_of_bytes`): characters below
128 are single bytes, and a byte above belongs to no other.
-/

namespace ClassInspect

open CharClass (isBlank isDecimal isWord)
open Opcode (otherWords)

namespace Lexer

variable {first : Char} {rest tail : List Char}

/-! ### Characters -/

/-- A character that satisfies a condition is none that does not. -/
theorem ne_of_condition {condition : Char → Bool} {c c' : Char} (h : condition c = true)
    (h' : condition c' = false) : c ≠ c' := by
  rintro rfl
  exact Bool.false_ne_true (h'.symm.trans h)

theorem isLower_iff_toNat {c : Char} : c.isLower = true ↔ 97 ≤ c.toNat ∧ c.toNat ≤ 122 := by
  show (decide (c.val ≥ 97) && decide (c.val ≤ 122)) = true ↔ _
  rw [Bool.and_eq_true, decide_eq_true_eq, decide_eq_true_eq, ge_iff_le,
    UInt32.le_iff_toNat_le, UInt32.le_iff_toNat_le]
  rfl

/-- Characters of a range without white space. -/
theorem isBlank_eq_false {low high : Nat} (hranges : ∀ range ∈ CharClass.blanks,
    range.2 < low ∨ high < range.1) {c : Char} (hlow : low ≤ c.toNat) (hhigh : c.toNat ≤ high) :
    isBlank c = false := by
  rw [← Bool.not_eq_true, isBlank, CharClass.inRanges_iff]
  rintro ⟨range, hmem, hle, hge⟩
  have := hranges range hmem
  omega

theorem isBlank_of_isLower {c : Char} (h : c.isLower = true) : isBlank c = false :=
  isBlank_eq_false (by decide) (isLower_iff_toNat.1 h).1 (isLower_iff_toNat.1 h).2

theorem isBlank_of_isDigit {c : Char} (h : c.isDigit = true) : isBlank c = false :=
  isBlank_eq_false (by decide) (Char.isDigit_iff_toNat.1 h).1 (Char.isDigit_iff_toNat.1 h).2

/-- No script has its digits among the small letters. -/
theorem isDecimal_of_isLower {c : Char} (h : c.isLower = true) : isDecimal c = false := by
  have hrange := isLower_iff_toNat.1 h
  have hzeros : ∀ first ∈ CharClass.zeros, first + 10 ≤ 97 ∨ 122 < first := by decide
  have hnone : CharClass.zeros.find?
      (fun first ↦ decide (first ≤ c.toNat) && decide (c.toNat < first + 10)) = none := by
    rw [List.find?_eq_none]
    intro first hfirst
    rw [Bool.and_eq_true, decide_eq_true_eq, decide_eq_true_eq]
    have := hzeros first hfirst
    omega
  rw [isDecimal, CharClass.decimal?, hnone]
  rfl

theorem isDecimal_of_isDigit {c : Char} (h : c.isDigit = true) : isDecimal c = true := by
  have hrange : 48 ≤ c.toNat ∧ c.toNat ≤ 57 := Char.isDigit_iff_toNat.1 h
  rw [isDecimal, CharClass.decimal?, CharClass.zeros, List.find?_cons_of_pos]
  · rfl
  · rw [Bool.and_eq_true, decide_eq_true_eq, decide_eq_true_eq]
    omega

theorem isLower_of_isDigit {c : Char} (h : c.isDigit = true) : c.isLower = false := by
  cases hlower : c.isLower with
  | false => rfl
  | true =>
    exact absurd ((isDecimal_of_isLower hlower).symm.trans (isDecimal_of_isDigit h))
      Bool.false_ne_true

/-- Small letters, digits and the low line are word characters. -/
theorem isWord_of_small {c : Char} (h : c.isLower = true ∨ c.isDigit = true ∨ c = '_')
    (hsmall : c.toNat < 128) : isWord c = true := by
  rw [isWord, if_pos hsmall]
  show (c.isUpper || c.isLower || c.isDigit || c == '_') = true
  rcases h with h | h | rfl
  · rw [h, Bool.or_true, Bool.true_or, Bool.true_or]
  · rw [h, Bool.or_true, Bool.true_or]
  · rfl

/-! ### Where words and numbers start and end -/

/-- Text that does not start with white space. -/
def Opens (text : List Char) : Prop :=
  ∃ c ∈ text.head?, isBlank c = false

theorem Opens.ne_nil {text : List Char} (h : Opens text) : text ≠ [] := by
  rintro rfl
  obtain ⟨_, hc, -⟩ := h
  cases hc

theorem Opens.append {text : List Char} (h : Opens text) (more : List Char) :
    Opens (text ++ more) := by
  obtain ⟨c, hc, hblank⟩ := h
  refine ⟨c, ?_, hblank⟩
  rw [List.head?_append, Option.mem_def.1 hc]
  rfl

theorem Opens.head?_eq_false {text : List Char} (h : Opens text) :
    ∀ c ∈ text.head?, isBlank c = false := by
  obtain ⟨c, hc, hblank⟩ := h
  intro c' hc'
  rw [Option.mem_unique hc' hc]
  exact hblank

/-- Text that starts with a character that ends words, numbers and names. -/
def Closes (tail : List Char) : Prop :=
  ∃ c ∈ [' ', '\n', ',', ':'], tail.head? = some c

/-- The first character does not satisfy a condition that none of these characters satisfies. -/
theorem Closes.head?_eq_false {condition : Char → Bool} (h : Closes tail)
    (hcondition : [' ', '\n', ',', ':'].any condition = false) :
    ∀ c ∈ tail.head?, condition c = false := by
  obtain ⟨c, hc, hhead⟩ := h
  intro c' hc'
  rw [hhead] at hc'
  cases hc'
  exact Bool.eq_false_iff.2 (List.any_eq_false.1 hcondition c hc)

/-! ### Words -/

/-- A word that a rule is about. It consists of word characters and starts with a small letter. -/
structure IsSpelling (word : List Char) : Prop where
  head : ∃ c ∈ word.head?, c.isLower = true
  all : ∀ c ∈ word, isWord c = true

theorem isSpelling_iff {word : List Char} :
    word.head?.any Char.isLower = true ∧ word.all isWord = true ↔ IsSpelling word := by
  rw [Option.any_eq_true, List.all_eq_true]
  exact ⟨fun h ↦ ⟨h.1, h.2⟩, fun h ↦ ⟨h.head, h.all⟩⟩

-- Through the checks, only the characters of the word are tried, not all that there are.
instance (word : List Char) : Decidable (IsSpelling word) :=
  decidable_of_iff _ isSpelling_iff

theorem IsSpelling.isLower (h : IsSpelling (first :: rest)) : first.isLower = true := by
  obtain ⟨c, hc, hlower⟩ := h.head
  cases hc
  exact hlower

theorem IsSpelling.ne_nil {word : List Char} (h : IsSpelling word) : word ≠ [] := by
  rintro rfl
  obtain ⟨_, hc, -⟩ := h.head
  cases hc

theorem IsSpelling.opens {word : List Char} (h : IsSpelling word) : Opens word := by
  obtain ⟨c, hc, hlower⟩ := h.head
  exact ⟨c, hc, isBlank_of_isLower hlower⟩

theorem IsSpelling.plain {word : List Char} (h : IsSpelling word) : Newline.Plain word :=
  .of_forall h.all (by decide) (by decide)

/-! ### Mnemonics

The table has mnemonics as strings. To take a string apart into characters is much work, so what
holds of all mnemonics is checked of their bytes. -/

/-- A byte that stands for a small letter. -/
def isLowerByte (byte : UInt8) : Bool :=
  97 ≤ byte.toNat && byte.toNat ≤ 122

/-- A byte that stands for a small letter, a digit or a low line. -/
def isSpellingByte (byte : UInt8) : Bool :=
  isLowerByte byte || 48 ≤ byte.toNat && byte.toNat ≤ 57 || byte.toNat == 95

theorem isSpellingByte_iff {byte : UInt8} : isSpellingByte byte = true ↔
    (97 ≤ byte.toNat ∧ byte.toNat ≤ 122) ∨ (48 ≤ byte.toNat ∧ byte.toNat ≤ 57) ∨
      byte.toNat = 95 := by
  simp [isSpellingByte, isLowerByte, or_assoc]

theorem bytes_eq_flatMap (string : String) :
    string.toByteArray.data.toList = string.toList.flatMap String.utf8EncodeChar := by
  rw [← String.utf8Encode_toList, List.utf8Encode, List.toList_data_toByteArray]

/-- A character all of whose bytes are small has one byte, which is its number. -/
theorem utf8EncodeChar_of_forall_lt {c : Char}
    (h : ∀ byte ∈ String.utf8EncodeChar c, byte.toNat < 128) :
    ∃ byte, String.utf8EncodeChar c = [byte] ∧ byte.toNat = c.toNat := by
  unfold String.utf8EncodeChar at h ⊢
  dsimp only at h ⊢
  split at h
  · rename_i hsmall
    have hsmall : c.toNat ≤ 127 := hsmall
    refine ⟨.ofNat c.toNat, if_pos hsmall, ?_⟩
    rw [UInt8.toNat_ofNat']
    omega
  · -- the first of several bytes is a large one
    repeat' split at h
    all_goals
      have hfirst := h _ (.head _)
      rw [UInt8.toNat_ofNat'] at hfirst
      omega

/-- A string is spelled in the characters that its bytes stand for. -/
theorem isSpelling_of_bytes {string : String}
    (hhead : string.toByteArray.data.toList.head?.any isLowerByte = true)
    (hall : string.toByteArray.data.toList.all isSpellingByte = true) :
    IsSpelling string.toList := by
  rw [bytes_eq_flatMap] at hhead hall
  have hchar : ∀ c ∈ string.toList, ∃ byte, String.utf8EncodeChar c = [byte] ∧
      byte.toNat = c.toNat ∧ isSpellingByte byte = true := by
    intro c hc
    have hbytes : ∀ byte ∈ String.utf8EncodeChar c, isSpellingByte byte = true := fun byte hbyte ↦
      List.all_eq_true.1 hall byte (List.mem_flatMap.2 ⟨c, hc, hbyte⟩)
    have hsmall : ∀ byte ∈ String.utf8EncodeChar c, byte.toNat < 128 := by
      intro byte hbyte
      have := isSpellingByte_iff.1 (hbytes byte hbyte)
      omega
    obtain ⟨byte, hbyte, hnumber⟩ := utf8EncodeChar_of_forall_lt hsmall
    exact ⟨byte, hbyte, hnumber, hbytes byte (hbyte ▸ .head _)⟩
  constructor
  · rcases hstring : string.toList with _ | ⟨c, rest⟩
    · rw [hstring] at hhead
      cases hhead
    · obtain ⟨byte, hbyte, hnumber, -⟩ := hchar c (hstring ▸ .head _)
      rw [hstring, List.flatMap_cons, hbyte] at hhead
      have hlower : isLowerByte byte = true := hhead
      simp only [isLowerByte, hnumber, Bool.and_eq_true, decide_eq_true_eq] at hlower
      exact ⟨c, rfl, isLower_iff_toNat.2 hlower⟩
  · intro c hc
    obtain ⟨byte, -, hnumber, hspelling⟩ := hchar c hc
    rw [isSpellingByte_iff, hnumber] at hspelling
    refine isWord_of_small ?_ (by omega)
    rcases hspelling with hlower | hdigit | hline
    · exact .inl (isLower_iff_toNat.2 hlower)
    · exact .inr (.inl (Char.isDigit_iff_toNat.2 hdigit))
    · exact .inr (.inr (Char.toNat_inj.1 hline))

theorem isSpelling_of_mem_mnemonics {word : List Char} (h : word ∈ mnemonics) :
    IsSpelling word := by
  have hbytes : Opcode.all.all (fun opcode ↦
      opcode.mnemonic.toByteArray.data.toList.head?.any isLowerByte &&
        opcode.mnemonic.toByteArray.data.toList.all isSpellingByte) = true := by decide +kernel
  obtain ⟨opcode, hopcode, rfl⟩ := List.mem_map.1 h
  obtain ⟨hhead, hall⟩ := Bool.and_eq_true_iff.1 (List.all_eq_true.1 hbytes opcode hopcode)
  exact isSpelling_of_bytes hhead hall

theorem isSpelling_of_mem_wideMnemonics {word : List Char} (h : word ∈ wideMnemonics) :
    IsSpelling word := by
  obtain ⟨narrow, hnarrow, rfl⟩ := List.mem_map.1 h
  obtain ⟨⟨c, hc, hlower⟩, hall⟩ := isSpelling_of_mem_mnemonics hnarrow
  refine ⟨⟨c, ?_, hlower⟩, ?_⟩
  · rw [List.head?_append, Option.mem_def.1 hc]
    rfl
  · intro c' hc'
    rcases List.mem_append.1 hc' with hmem | hmark
    · exact hall c' hmem
    · have hmarks : ['_', 'w'].all isWord = true := by decide
      exact List.all_eq_true.1 hmarks c' hmark

theorem isSpelling_of_mem {word : List Char} (h : word ∈ wideMnemonics ∨ word ∈ mnemonics) :
    IsSpelling word :=
  h.elim isSpelling_of_mem_wideMnemonics isSpelling_of_mem_mnemonics

theorem isSpelling_default : IsSpelling "default".toList := by
  decide

theorem not_mem_mnemonics {word : String} (h : word ∈ otherWords) : word.toList ∉ mnemonics := by
  intro hmem
  obtain ⟨opcode, hopcode, heq⟩ := List.mem_map.1 hmem
  exact Opcode.mnemonic_not_mem_otherWords hopcode (String.toList_inj.1 heq ▸ h)

/-- No other word ends like a wide mnemonic. -/
theorem not_mem_wideMnemonics {word : String} (h : word ∈ otherWords) :
    word.toList ∉ wideMnemonics := by
  have hall : ∀ word ∈ otherWords, word.toList.getLast? ≠ some 'w' := by decide
  intro hmem
  obtain ⟨narrow, -, heq⟩ := List.mem_map.1 hmem
  refine hall word h ?_
  rw [← heq, List.getLast?_append]
  rfl

/-! ### Numbers -/

/-- Decimal digits, of which there is at least one. -/
structure IsDigits (digits : List Char) : Prop where
  ne_nil : digits ≠ []
  all : ∀ c ∈ digits, c.isDigit = true

theorem IsDigits.opens {digits : List Char} (h : IsDigits digits) : Opens digits := by
  obtain ⟨digit, rest, rfl⟩ := List.exists_cons_of_ne_nil h.ne_nil
  exact ⟨digit, rfl, isBlank_of_isDigit (h.all digit (.head _))⟩

theorem IsDigits.plain {digits : List Char} (h : IsDigits digits) : Newline.Plain digits :=
  .of_forall h.all (by decide) (by decide)

/-- Digits are taken up to the end of the number. -/
theorem takeWhile_digits {digits : List Char} (h : ∀ c ∈ digits, c.isDigit = true)
    (htail : Closes tail) : (digits ++ tail).takeWhile isDecimal = digits :=
  takeWhile_run (fun c hc ↦ isDecimal_of_isDigit (h c hc)) (htail.head?_eq_false (by decide))

/-- A number, which may have a minus sign. -/
inductive IsNumeral : List Char → Prop
  | digits {digits : List Char} (h : IsDigits digits) : IsNumeral digits
  | negative {digits : List Char} (h : IsDigits digits) : IsNumeral ('-' :: digits)

theorem IsNumeral.ne_nil {chars : List Char} (h : IsNumeral chars) : chars ≠ [] := by
  cases h with
  | digits h => exact h.ne_nil
  | negative h => exact List.cons_ne_nil _ _

theorem IsNumeral.opens {chars : List Char} (h : IsNumeral chars) : Opens chars := by
  cases h with
  | digits h => exact h.opens
  | negative h => exact ⟨'-', rfl, by decide⟩

theorem IsNumeral.plain {chars : List Char} (h : IsNumeral chars) : Newline.Plain chars := by
  have hsign : Newline.Plain ['-'] := by decide
  cases h with
  | digits h => exact h.plain
  | negative h => exact hsign.append h.plain

end Lexer

end ClassInspect
