import ClassInspect.Proofs.Highlight.Spelling

/-!
# Tokens of a text

Which rule of the table decides a token, for the tokens that listings consist of. A rule decides if
it applies and no rule before it does (`Lexer.choose_eq`), so for each kind of token it is shown
that the rules before its own decline (`Lexer.Declined`), mostly for the first character alone.

## How the rules are gone through

The rules are tried in the order of the table, and `Lexer.Declined` says how many of them have been
ruled out. Most positions in a listing are within a line, in front of something that is neither a
comment nor a constant, and what is known there is said once: the seven rules about comments, lines,
margins and constants decline (`Lexer.declined_of_plain`), then the three about words if no small
letter stands there (`Lexer.declined_of_not_isLower`), then those about numbers and names
(`Lexer.declined_of_isPlainMark`). Each `choose_…` lemma starts from one of these.

Words are the exception, as mnemonics, the word for the last case of a switch and names of types all
start with a small letter. Which of the rules takes a word is decided by the whole word, and rests
on the others being no mnemonics (`Lexer.not_mem_mnemonics`, `Lexer.not_mem_wideMnemonics`).

## From one token to all of them

What belongs to a token depends on the text behind it. So the tokens of a text are put together from
its end (`Lexer.Continues`), each in front of tokens whose text is known. Of the text before a token
only one character matters, and within a line only that it is no line feed, which is why
`Lexer.Continues` holds behind any other character.
-/

namespace ClassInspect

open CharClass (isBlank isDecimal)

/-- The text that tokens were cut from. -/
def Token.text {α : Type} (tokens : List (Token α)) : List α :=
  tokens.flatMap value

section Text

variable {α : Type}

theorem Token.text_cons (token : Token α) (tokens : List (Token α)) :
    Token.text (token :: tokens) = token.value ++ Token.text tokens := rfl

theorem Token.text_singleton (token : Token α) : Token.text [token] = token.value :=
  List.append_nil _

theorem Token.text_append (tokens tokens' : List (Token α)) :
    Token.text (tokens ++ tokens') = Token.text tokens ++ Token.text tokens' :=
  List.flatMap_append

end Text

/-- Two tokens of one text that share a position are the same. -/
theorem Token.eq_of_overlap {front back front' back' : List (Token Char)}
    {token token' : Token Char} (h : front ++ token :: back = front' ++ token' :: back')
    (hlt : (Token.text front).length < (Token.text front' ++ token'.value).length)
    (hlt' : (Token.text front').length < (Token.text front ++ token.value).length) :
    token = token' := by
  -- one of the two starts first; say the unprimed one
  have hfollows {front front' rest back back' : List (Token Char)} {token token' : Token Char}
      (hlt : (Token.text front').length < (Token.text front ++ token.value).length)
      (hfront : front' = front ++ rest) (hrest : token :: back = rest ++ token' :: back') :
      token = token' := by
    cases rest with
    | nil => exact (List.cons.inj hrest).1
    | cons other rest =>
      rw [← (List.cons.inj hrest).1] at hfront
      rw [hfront, Token.text_append, Token.text_cons] at hlt
      simp only [List.length_append] at hlt
      omega
  rcases List.append_eq_append_iff.1 h with ⟨rest, hfront, hrest⟩ | ⟨rest, hfront, hrest⟩
  · exact hfollows hlt' hfront hrest
  · exact (hfollows hlt hfront hrest).symm

namespace Lexer

variable {p : Position} {before : Option Char} {first : Char} {rest tail : List Char}
  {kind : TokenKind} {rule : Rule} {tokens : List (Token Char)}

/-! ### One token after the other -/

/-- Tokens that were found stand in front of all that follow. -/
theorem lexOnto_append (done earlier : List (Token Char)) (before : Option Char)
    (text : List Char) :
    lexOnto (done ++ earlier) before text = earlier.reverse ++ lexOnto done before text := by
  fun_induction lexOnto done before text with
  | case1 done before => rw [lexOnto, List.reverse_append]
  | case2 done before first rest kind count hchoose value ih =>
    rw [lexOnto, hchoose]
    exact ih

/-- Behind a character, the text of the tokens is cut into these tokens. -/
def Lexes (before : Option Char) (tokens : List (Token Char)) : Prop :=
  lexOnto [] before (Token.text tokens) = tokens

theorem Lexes.nil (before : Option Char) : Lexes before [] := by
  rw [Lexes, Token.text, List.flatMap_nil, lexOnto, List.reverse_nil]

theorem Lexes.cons
    (hchoose : choose ⟨before, first, rest ++ Token.text tokens⟩ = (kind, rest.length))
    (h : Lexes (first :: rest).getLast? tokens) :
    Lexes before (⟨kind, first :: rest⟩ :: tokens) := by
  rw [Lexes, Token.text_cons, List.cons_append, lexOnto, hchoose]
  dsimp only
  rw [List.take_left, List.drop_left, ← List.nil_append [_], lexOnto_append, h]
  rfl

/-- Cut as its tokens say, a text gives the tokens back. -/
theorem cutAs_text (tokens : List (Token Char)) : cutAs tokens (Token.text tokens) = tokens := by
  induction tokens with
  | nil => rfl
  | cons token tokens ih =>
    rw [cutAs, Token.text_cons, List.take_left, List.drop_left, ih]

/-- Of characters, the tokens are those that the rules find. -/
theorem Lexes.tokens_eq (h : Lexes none tokens) {text : List Char}
    (htext : normalize text = Token.text tokens) : Lexer.tokens text = tokens := by
  have hlook : (Token.text tokens).map Alphabet.look = Token.text tokens := List.map_id _
  rw [Lexer.tokens, htext]
  show cutAs (lexOnto [] none ((Token.text tokens).map Alphabet.look)) (Token.text tokens) = tokens
  rw [hlook, h, cutAs_text]

/-- Text that neither starts nor ends with a line feed only gets one at its end. -/
theorem normalize_eq {text : List Char} (hreturn : '\r' ∉ text)
    (hhead : ∀ c ∈ text.head?, c ≠ '\n' ∧ c ≠ '\ufeff') (hlast : text.getLast? ≠ some '\n') :
    normalize text = text ++ ['\n'] := by
  have hdrop {chars : List Char} (h : chars.head? ≠ some '\n') :
      chars.dropWhile (· = Alphabet.ofChar '\n') = chars := by
    cases chars with
    | nil => rfl
    | cons c chars =>
      exact List.dropWhile_cons_of_neg fun heq ↦ h (congrArg some (of_decide_eq_true heq))
  have htrim : trimFeeds text = text := by
    rw [trimFeeds, hdrop fun heq ↦ (hhead _ heq).1 rfl, hdrop, List.reverse_reverse]
    rwa [List.head?_reverse]
  have hmark : text.head? ≠ some (Alphabet.ofChar '\ufeff') := fun heq ↦ (hhead _ heq).2 rfl
  rw [normalize, if_neg hmark, Newline.normalize_eq_self hreturn, htrim]
  rfl

/-! ### The first rule that applies -/

/-- The first rules of the table do not apply. -/
def Declined (p : Position) (count : Nat) : Prop :=
  ∀ entry ∈ rules.take count, entry.2 p = none

theorem declined_zero (p : Position) : Declined p 0 :=
  List.forall_mem_nil _

theorem Declined.succ {count : Nat} (h : Declined p count)
    (hrule : rules[count]? = some (kind, rule)) (hdeclines : rule p = none) :
    Declined p (count + 1) := by
  intro entry hentry
  rw [List.take_add_one, hrule] at hentry
  rcases List.mem_append.1 hentry with hearlier | hlast
  · exact h entry hearlier
  · rw [List.mem_singleton.1 hlast]
    exact hdeclines

theorem choose_of_findSome? {count : Nat}
    (h : rules.findSome? (fun entry ↦ (entry.2 p).map (entry.1, ·)) = some (kind, count)) :
    choose p = (kind, count) := by
  show (rules.findSome? (fun entry ↦ (entry.2 p).map (entry.1, ·))).getD (.text, 0) = _
  rw [h]
  rfl

/-- A rule decides if it applies and none before it does. -/
theorem choose_eq {index count : Nat} (h : Declined p index)
    (hrule : rules[index]? = some (kind, rule)) (happlies : rule p = some count) :
    choose p = (kind, count) := by
  have hearlier : (rules.take index).findSome? (fun entry ↦ (entry.2 p).map (entry.1, ·)) =
      none := by
    rw [List.findSome?_eq_none_iff]
    intro entry hentry
    rw [h entry hentry]
    rfl
  have hsplit : rules = rules.take index ++ (kind, rule) :: rules.drop (index + 1) := by
    obtain ⟨hlt, hget⟩ := List.getElem?_eq_some_iff.1 hrule
    rw [← hget, List.getElem_cons_drop, List.take_append_drop]
  have hfind : rules.findSome? (fun entry ↦ (entry.2 p).map (entry.1, ·)) = some (kind, count) := by
    rw [hsplit, List.findSome?_append, hearlier, Option.none_or,
      List.findSome?_cons_of_isSome (by simp [happlies])]
    show (rule p).map _ = _
    rw [happlies]
    rfl
  exact choose_of_findSome? hfind

/-! ### Rules that do not apply -/

theorem comment_eq_none (h : p.first ≠ '/') : comment p = none := by
  refine if_neg fun htake ↦ ?_
  rw [Position.line, Position.text, List.takeWhile_cons] at htake
  split at htake
  · exact h (List.cons.inj htake).1
  · cases htake

theorem wholeLine_eq_none {accepts : List Char → Bool}
    (h : p.startsLine = true → accepts p.line = false) : wholeLine accepts p = none := by
  refine if_neg fun haccepts ↦ ?_
  rw [Bool.and_eq_true] at haccepts
  exact Bool.false_ne_true ((h haccepts.1).symm.trans haccepts.2)

theorem margin_eq_none (h : p.startsLine = false) : margin p = none := by
  unfold margin
  dsimp only
  split
  · rw [h]
    rfl
  · rfl

/-- Within a line, the rules about whole lines and the left margin do not apply. -/
theorem declined_of_within (hwithin : p.startsLine = false) (hfirst : p.first ≠ '/') :
    Declined p 6 := by
  have hline (accepts : List Char → Bool) : wholeLine accepts p = none :=
    wholeLine_eq_none fun hstart ↦ absurd (hwithin.symm.trans hstart) Bool.false_ne_true
  exact ((((((declined_zero p).succ rfl (comment_eq_none hfirst)).succ rfl (hline _)).succ rfl
    (hline _)).succ rfl (hline _)).succ rfl (hline _)).succ rfl (margin_eq_none hwithin)

/-- Only a small letter starts a word that a rule is about. -/
theorem not_isSpelling_word (h : p.first.isLower = false) : ¬ IsSpelling p.word := by
  rintro ⟨⟨c, hc, hlower⟩, -⟩
  rw [Position.word, Position.text, List.takeWhile_cons] at hc
  split at hc
  · cases hc
    exact Bool.false_ne_true (h.symm.trans hlower)
  · cases hc

theorem oneOf_eq_none {words : List (List Char)} (h : p.word ∉ words) : oneOf words p = none :=
  if_neg fun hcontains ↦ h (List.contains_iff_mem.1 hcontains)

theorem oneOf_eq_some {words : List (List Char)} (h : p.word ∈ words) :
    oneOf words p = some (p.word.length - 1) :=
  if_pos (List.contains_iff_mem.2 h)

theorem fallback_eq_none (h : p.word ≠ "default".toList) : fallback p = none := by
  rw [fallback, oneOf_eq_none fun hmem ↦ h (List.mem_singleton.1 hmem), ite_self]

theorem index_eq_none (h : p.first ≠ '#') : index p = none := by
  refine if_neg fun hhash ↦ ?_
  rw [Bool.and_eq_true, decide_eq_true_eq] at hhash
  exact h hhash.1

/-- Within a line, in front of something other than a constant or a comment. -/
theorem declined_of_plain (hwithin : p.startsLine = false) (hslash : p.first ≠ '/')
    (hhash : p.first ≠ '#') : Declined p 7 :=
  (declined_of_within hwithin hslash).succ rfl (index_eq_none hhash)

/-- The rules about words do not apply in front of other words. -/
theorem declined_of_word (h : Declined p 7) (hwide : p.word ∉ wideMnemonics)
    (hnarrow : p.word ∉ mnemonics) (hdefault : p.word ≠ "default".toList) : Declined p 10 :=
  ((h.succ rfl (oneOf_eq_none hwide)).succ rfl (oneOf_eq_none hnarrow)).succ rfl
    (fallback_eq_none hdefault)

/-- The rules about words do not apply where no small letter stands. -/
theorem declined_of_not_isLower (h : Declined p 7) (hfirst : p.first.isLower = false) :
    Declined p 10 :=
  declined_of_word h
    (fun hmem ↦ not_isSpelling_word hfirst (isSpelling_of_mem_wideMnemonics hmem))
    (fun hmem ↦ not_isSpelling_word hfirst (isSpelling_of_mem_mnemonics hmem))
    fun heq ↦ not_isSpelling_word hfirst (heq ▸ isSpelling_default)

/-- A character that no rule in front of the last three is about. -/
def IsPlainMark (c : Char) : Prop :=
  c ∉ ['/', '#', '-', '+'] ∧ c.isLower = false ∧ isDecimal c = false ∧ startsName c = false

instance (c : Char) : Decidable (IsPlainMark c) :=
  inferInstanceAs (Decidable (_ ∧ _))

theorem number_eq_none (hdecimal : isDecimal p.first = false) (hminus : p.first ≠ '-')
    (hplus : p.first ≠ '+') : number p = none := by
  simp [number, hdecimal, hminus, hplus]

theorem name_eq_none (h : startsName p.first = false) : name p = none := by
  simp [name, h]

theorem declined_of_isPlainMark (hwithin : p.startsLine = false) (h : IsPlainMark p.first) :
    Declined p 12 := by
  obtain ⟨hsigns, hlower, hdecimal, hname⟩ := h
  simp only [List.mem_cons, List.not_mem_nil, or_false, not_or] at hsigns
  obtain ⟨hslash, hhash, hminus, hplus⟩ := hsigns
  have hwords : Declined p 10 :=
    declined_of_not_isLower (declined_of_plain hwithin hslash hhash) hlower
  exact (hwords.succ rfl (number_eq_none hdecimal hminus hplus)).succ rfl (name_eq_none hname)

/-! ### Tokens within a line -/

theorem startsLine_eq_false {c : Char} (hc : c ≠ '\n') :
    Position.startsLine ⟨some c, first, rest⟩ = false := by
  simp [Position.startsLine, hc]

/-- White space. -/
theorem choose_blanks {c : Char} (hc : c ≠ '\n') (hfirst : first = ' ' ∨ first = '\n')
    (hrest : ∀ c ∈ rest, isBlank c = true) (htail : ∀ c ∈ tail.head?, isBlank c = false) :
    choose ⟨some c, first, rest ++ tail⟩ = (.text, rest.length) := by
  have hmark : IsPlainMark first ∧ marks.contains first = false ∧ isBlank first = true := by
    rcases hfirst with rfl | rfl <;> decide
  have hdeclined : Declined ⟨some c, first, rest ++ tail⟩ 13 :=
    (declined_of_isPlainMark (startsLine_eq_false hc) hmark.1).succ rfl
      (if_neg (Bool.not_eq_true _ ▸ hmark.2.1))
  refine choose_eq hdeclined rfl ?_
  rw [blanks, if_pos hmark.2.2, takeWhile_run hrest htail]

theorem isPlainMark_of_mem {c : Char} (h : c ∈ [',', ':', '\x7b', '\x7d']) :
    IsPlainMark c ∧ marks.contains c = true ∧ Newline.Plain [c] := by
  simp only [List.mem_cons, List.not_mem_nil, or_false] at h
  rcases h with rfl | rfl | rfl | rfl <;> decide

/-- A mark. -/
theorem choose_mark {c : Char} (hc : c ≠ '\n') (hfirst : first ∈ [',', ':', '\x7b', '\x7d'])
    (tail : List Char) : choose ⟨some c, first, tail⟩ = (.punctuation, 0) := by
  obtain ⟨hplain, hmark, -⟩ := isPlainMark_of_mem hfirst
  exact choose_eq (declined_of_isPlainMark (startsLine_eq_false hc) hplain) rfl (if_pos hmark)

/-- The line feed of an empty text. -/
theorem choose_lastFeed : choose ⟨none, '\n', []⟩ = (.text, 0) := by
  have hlines : Declined ⟨none, '\n', []⟩ 7 :=
    (((((((declined_zero _).succ rfl rfl).succ rfl rfl).succ rfl rfl).succ rfl rfl).succ rfl
      rfl).succ rfl rfl).succ rfl rfl
  exact choose_eq ((((declined_of_not_isLower hlines rfl).succ rfl rfl).succ rfl rfl).succ rfl rfl)
    rfl rfl

/-- A comment up to the end of the line. -/
theorem choose_comment (before : Option Char) (hrest : '\n' ∉ rest)
    (htail : tail.head? = some '\n') :
    choose ⟨before, '/', '/' :: rest ++ tail⟩ = (.comment, rest.length + 1) := by
  have hline : Position.line ⟨before, '/', '/' :: rest ++ tail⟩ = '/' :: '/' :: rest := by
    have hslashes : '\n' ∉ '/' :: '/' :: rest := by simpa using hrest
    show (('/' :: '/' :: rest) ++ tail).takeWhile _ = _
    refine takeWhile_run (fun c hc ↦ ?_) fun c hc ↦ ?_
    · exact decide_eq_true fun heq ↦ hslashes (heq ▸ hc)
    · rw [htail] at hc
      cases hc
      rfl
  refine choose_eq (declined_zero _) rfl ?_
  rw [comment, hline]
  rfl

/-- A word that stands alone is found. -/
theorem word_eq (hword : IsSpelling (first :: rest)) (htail : Closes tail) :
    Position.word ⟨before, first, rest ++ tail⟩ = first :: rest :=
  takeWhile_run hword.all (htail.head?_eq_false (by decide))

theorem declined_of_isLower {c : Char} (hc : c ≠ '\n') (hfirst : first.isLower = true) :
    Declined ⟨some c, first, rest⟩ 7 :=
  declined_of_plain (startsLine_eq_false hc) (ne_of_condition hfirst (by decide))
    (ne_of_condition hfirst (by decide))

/-- A mnemonic. -/
theorem choose_mnemonic {c : Char} (hc : c ≠ '\n')
    (hword : first :: rest ∈ wideMnemonics ∨ first :: rest ∈ mnemonics) (htail : Closes tail) :
    choose ⟨some c, first, rest ++ tail⟩ = (.keyword, rest.length) := by
  have hspelling : IsSpelling (first :: rest) := isSpelling_of_mem hword
  have hfound : Position.word ⟨some c, first, rest ++ tail⟩ = first :: rest :=
    word_eq hspelling htail
  have hdeclined : Declined ⟨some c, first, rest ++ tail⟩ 7 :=
    declined_of_isLower hc hspelling.isLower
  -- the two rules give tokens of one kind, so whether a word is in both lists does not matter
  by_cases hwide : first :: rest ∈ wideMnemonics
  · refine choose_eq hdeclined rfl ?_
    rw [oneOf_eq_some (hfound ▸ hwide), hfound]
    rfl
  · refine choose_eq (hdeclined.succ rfl (oneOf_eq_none (hfound ▸ hwide))) rfl ?_
    rw [oneOf_eq_some (hfound ▸ hword.resolve_left hwide), hfound]
    rfl

/-- The word for the last case of a switch. -/
theorem choose_default (htail : Closes tail) :
    choose ⟨some ' ', 'd', ['e', 'f', 'a', 'u', 'l', 't'] ++ tail⟩ = (.keyword, 6) := by
  have hfound : Position.word ⟨some ' ', 'd', ['e', 'f', 'a', 'u', 'l', 't'] ++ tail⟩ =
      "default".toList :=
    word_eq isSpelling_default htail
  have hword : "default" ∈ Opcode.otherWords := .head _
  have hdeclined : Declined ⟨some ' ', 'd', ['e', 'f', 'a', 'u', 'l', 't'] ++ tail⟩ 7 :=
    declined_of_isLower (by decide) (by decide)
  refine choose_eq ((hdeclined.succ rfl (oneOf_eq_none (hfound ▸ not_mem_wideMnemonics hword))).succ
    rfl (oneOf_eq_none (hfound ▸ not_mem_mnemonics hword))) rfl ?_
  rw [fallback, oneOf_eq_some (hfound ▸ List.mem_singleton_self _), hfound]
  rfl

/-- Any other word is a name. -/
theorem choose_name {c : Char} (hc : c ≠ '\n') (hspelling : IsSpelling (first :: rest))
    (hwide : first :: rest ∉ wideMnemonics) (hnarrow : first :: rest ∉ mnemonics)
    (hdefault : first :: rest ≠ "default".toList) (htail : Closes tail) :
    choose ⟨some c, first, rest ++ tail⟩ = (.name, rest.length) := by
  have hfound : Position.word ⟨some c, first, rest ++ tail⟩ = first :: rest :=
    word_eq hspelling htail
  have hlower := hspelling.isLower
  have hdeclined : Declined ⟨some c, first, rest ++ tail⟩ 11 :=
    (declined_of_word (declined_of_isLower hc hlower) (hfound ▸ hwide) (hfound ▸ hnarrow)
      (hfound ▸ hdefault)).succ rfl
      (number_eq_none (isDecimal_of_isLower hlower) (ne_of_condition hlower (by decide))
        (ne_of_condition hlower (by decide)))
  have hstarts : startsName first = true := by
    have halpha : first.isAlpha = true := by
      show (first.isUpper || first.isLower) = true
      rw [hlower, Bool.or_true]
    rw [startsName, halpha]
    rfl
  have hcontinues : (rest ++ tail).takeWhile continuesName = rest := by
    refine takeWhile_run (fun c' hc' ↦ ?_) (htail.head?_eq_false (by decide))
    rw [continuesName, hspelling.all c' (.tail _ hc')]
    rfl
  have hbrackets : brackets tail = 0 := by
    obtain ⟨c', hc', hhead⟩ := htail
    rw [brackets]
    rintro rest' rfl
    cases hhead
    exact absurd hc' (by decide)
  refine choose_eq hdeclined rfl ?_
  rw [name, if_pos hstarts]
  dsimp only
  rw [hcontinues, List.drop_left, hbrackets]
  rfl

/-- A constant. -/
theorem choose_constant {c : Char} (hc : c ≠ '\n') (hdigits : IsDigits rest) (htail : Closes tail) :
    choose ⟨some c, '#', rest ++ tail⟩ = (.constant, rest.length) := by
  refine choose_eq (declined_of_within (startsLine_eq_false hc) (by simp)) rfl ?_
  rw [index]
  dsimp only
  rw [takeWhile_digits hdigits.all htail, List.isEmpty_eq_false_iff.2 hdigits.ne_nil]
  rfl

/-- A number. -/
theorem choose_numeral {c : Char} (hc : c ≠ '\n') (hnumeral : IsNumeral (first :: rest))
    (htail : Closes tail) : choose ⟨some c, first, rest ++ tail⟩ = (.number, rest.length) := by
  have hwithin : Position.startsLine ⟨some c, first, rest ++ tail⟩ = false :=
    startsLine_eq_false hc
  cases hnumeral with
  | digits h =>
    have hfirst : first.isDigit = true := h.all first (.head _)
    have hplain := declined_of_plain hwithin (ne_of_condition hfirst (by decide))
      (ne_of_condition hfirst (by decide))
    refine choose_eq (declined_of_not_isLower hplain (isLower_of_isDigit hfirst)) rfl ?_
    rw [number, if_pos (isDecimal_of_isDigit hfirst),
      takeWhile_digits (fun c hc ↦ h.all c (.tail _ hc)) htail]
  | negative h =>
    have hplain := declined_of_plain hwithin (by simp) (by simp)
    refine choose_eq (declined_of_not_isLower hplain rfl) rfl ?_
    rw [number, if_neg (by simp; decide), takeWhile_digits h.all htail,
      List.isEmpty_eq_false_iff.2 h.ne_nil]
    rfl

/-! ### The left margin -/

/-- A space and digits are at the left margin, and other lines do not start with them. -/
theorem declined_of_margin (hfirst : p.first = ' ' ∨ p.first.isDigit = true) : Declined p 5 := by
  have hne {c : Char} (hspace : c ≠ ' ') (hdigit : c.isDigit = false) : p.first ≠ c := by
    rcases hfirst with hfirst | hfirst
    · rw [hfirst]
      exact hspace.symm
    · exact ne_of_condition hfirst hdigit
  obtain ⟨more, hline⟩ : ∃ more, p.line = p.first :: more :=
    ⟨_, List.takeWhile_cons_of_pos (decide_eq_true (hne (by decide) (by decide)))⟩
  -- headings, banners, rulers and remarks are told from the first character
  have hheading : headings.any (fun start ↦ start.toList.isPrefixOf p.line) = false := by
    have hstarts : ∀ start ∈ headings,
        start.toList.head?.any (fun c ↦ c ≠ ' ' ∧ c.isDigit = false) = true := by
      decide
    rw [List.any_eq_false]
    intro start hstart hfollows
    obtain ⟨c, hc, hother⟩ := (Option.any_eq_true _ _).1 (hstarts start hstart)
    obtain ⟨hspace, hdigit⟩ := of_decide_eq_true hother
    obtain ⟨behind, hbehind⟩ := List.isPrefixOf_iff_prefix.1 hfollows
    obtain ⟨rest, hrest⟩ := List.head?_eq_some_iff.1 hc
    rw [hline, hrest] at hbehind
    exact hne hspace hdigit (List.cons.inj hbehind).1.symm
  have hbanner : isBanner p.line = false := by
    simp [isBanner, hline, hne (c := '-') (by decide) (by decide)]
  have hruler : (!p.line.isEmpty && p.line.all (· = '-')) = false := by
    simp [hline, hne (c := '-') (by decide) (by decide)]
  have hremark : (p.line.head? = some '(' && p.line.tail.getLast? = some ')') = false := by
    simp [hline, hne (c := '(') (by decide) (by decide)]
  exact (((((declined_zero p).succ rfl (comment_eq_none (hne (by decide) (by decide)))).succ rfl
    (wholeLine_eq_none fun _ ↦ hheading)).succ rfl (wholeLine_eq_none fun _ ↦ hbanner)).succ rfl
    (wholeLine_eq_none fun _ ↦ hruler)).succ rfl (wholeLine_eq_none fun _ ↦ hremark)

/-- A position at the left margin. -/
theorem choose_label {before : Option Char} (hbefore : before.all (· = '\n') = true)
    {blanks digits : List Char} (hblanks : ∀ c ∈ blanks, c = ' ') (hdigits : IsDigits digits)
    (hvalue : first :: rest = blanks ++ digits ++ [':']) (htail : tail.head? = some ' ') :
    choose ⟨before, first, rest ++ tail⟩ = (.label, rest.length) := by
  obtain ⟨digit, digits', rfl⟩ := List.exists_cons_of_ne_nil hdigits.ne_nil
  obtain ⟨more, rfl⟩ := List.head?_eq_some_iff.1 htail
  have hdigit : digit.isDigit = true := hdigits.all digit (.head _)
  have hfirst : first = ' ' ∨ first.isDigit = true := by
    cases blanks with
    | nil => exact .inr ((List.cons.inj hvalue).1 ▸ hdigit)
    | cons blank blanks => exact .inl ((List.cons.inj hvalue).1 ▸ hblanks blank (.head _))
  have htext : Position.text ⟨before, first, rest ++ ' ' :: more⟩ =
      blanks ++ (digit :: digits' ++ (':' :: ' ' :: more)) := by
    rw [Position.text, ← List.cons_append, hvalue]
    simp
  have htakeBlanks : (blanks ++ (digit :: digits' ++ (':' :: ' ' :: more))).takeWhile isBlank =
      blanks := by
    refine takeWhile_run (fun c hc ↦ ?_) fun c hc ↦ ?_
    · rw [hblanks c hc]
      decide
    · cases hc
      exact isBlank_of_isDigit hdigit
  have htakeDigits : (digit :: digits' ++ (':' :: ' ' :: more)).takeWhile isDecimal =
      digit :: digits' :=
    takeWhile_digits hdigits.all ⟨':', by decide, rfl⟩
  refine choose_eq (declined_of_margin hfirst) rfl ?_
  unfold margin
  dsimp only
  rw [htext, htakeBlanks, List.drop_left, htakeDigits, List.drop_left]
  have hlength : rest.length = blanks.length + (digit :: digits').length := by
    have hlength := congrArg List.length hvalue
    simp only [List.length_cons, List.length_append, List.length_nil] at hlength ⊢
    omega
  rw [hlength]
  exact if_pos (by simp [Position.startsLine, hbefore]; decide)

/-! ### Tokens up to the end of the text -/

/-- Behind any character but a line feed, the text of the tokens is cut into these tokens. No line
end in it has to be rewritten. -/
structure Continues (tokens : List (Token Char)) : Prop where
  lexes : ∀ c, c ≠ '\n' → Lexes (some c) tokens
  noReturn : '\r' ∉ Token.text tokens

theorem noReturn_cons {token : Token Char} (htoken : '\r' ∉ token.value)
    (h : '\r' ∉ Token.text tokens) : '\r' ∉ Token.text (token :: tokens) :=
  fun hmem ↦ (List.mem_append.1 hmem).elim htoken h

namespace Continues

/-- A token within a line. -/
theorem cons {value : List Char} (hne : value ≠ []) (hplain : Newline.Plain value)
    (hchoose : ∀ c first rest, c ≠ '\n' → value = first :: rest →
      choose ⟨some c, first, rest ++ Token.text tokens⟩ = (kind, rest.length))
    (h : Continues tokens) : Continues (⟨kind, value⟩ :: tokens) := by
  obtain ⟨first, rest, rfl⟩ := List.exists_cons_of_ne_nil hne
  refine ⟨fun c hc ↦ .cons (hchoose c first rest hc rfl) ?_, noReturn_cons hplain.2 h.noReturn⟩
  rw [List.getLast?_eq_some_getLast hne]
  exact h.lexes _ fun heq ↦ hplain.1 (heq ▸ List.getLast_mem hne)

/-- White space that ends with a space. -/
theorem blanks {blanks : List Char} (hblanks : ∀ c ∈ blanks, c = ' ' ∨ c = '\n')
    (hlast : blanks.getLast? = some ' ') (hnext : Opens (Token.text tokens))
    (hlexes : Lexes (some ' ') tokens) (hreturn : '\r' ∉ Token.text tokens) :
    Continues (⟨.text, blanks⟩ :: tokens) := by
  obtain ⟨first, rest, rfl⟩ : ∃ first rest, blanks = first :: rest :=
    List.exists_cons_of_ne_nil fun heq ↦ by rw [heq] at hlast; cases hlast
  have hblank (c : Char) (hc : c ∈ first :: rest) : isBlank c = true := by
    rcases hblanks c hc with rfl | rfl <;> decide
  refine ⟨fun c hc ↦ .cons ?_ (hlast ▸ hlexes), noReturn_cons (fun hmem ↦ ?_) hreturn⟩
  · exact choose_blanks hc (hblanks first (.head _)) (fun c hc ↦ hblank c (.tail _ hc))
      hnext.head?_eq_false
  · rcases hblanks _ hmem with heq | heq <;> cases heq

/-- A space. -/
theorem space (hnext : Opens (Token.text tokens)) (h : Continues tokens) :
    Continues (⟨.text, [' ']⟩ :: tokens) :=
  blanks (fun _ hc ↦ .inl (List.mem_singleton.1 hc)) rfl hnext (h.lexes ' ' (by decide)) h.noReturn

/-- A mark. -/
theorem mark {c : Char} (hmark : c ∈ [',', ':', '\x7b', '\x7d']) (h : Continues tokens) :
    Continues (⟨.punctuation, [c]⟩ :: tokens) := by
  have hplain : Newline.Plain [c] := (isPlainMark_of_mem hmark).2.2
  refine cons (List.cons_ne_nil _ _) hplain (fun c' first rest hc' heq ↦ ?_) h
  cases heq
  exact choose_mark hc' hmark _

/-- A comment. -/
theorem comment {value : List Char} (hplain : Newline.Plain value)
    (hnext : (Token.text tokens).head? = some '\n') (h : Continues tokens) :
    Continues (⟨.comment, '/' :: '/' :: value⟩ :: tokens) := by
  have hslashes : Newline.Plain ['/', '/'] := by decide
  refine cons (List.cons_ne_nil _ _) (hslashes.append hplain) (fun c first rest _ heq ↦ ?_) h
  cases heq
  exact choose_comment _ hplain.1 hnext

/-- A number. -/
theorem numeral {value : List Char} (hnumeral : IsNumeral value)
    (hnext : Closes (Token.text tokens)) (h : Continues tokens) :
    Continues (⟨.number, value⟩ :: tokens) := by
  refine cons hnumeral.ne_nil hnumeral.plain (fun c first rest hc heq ↦ ?_) h
  exact choose_numeral hc (heq ▸ hnumeral) hnext

/-- A constant. -/
theorem constant {digits : List Char} (hdigits : IsDigits digits)
    (hnext : Closes (Token.text tokens)) (h : Continues tokens) :
    Continues (⟨.constant, '#' :: digits⟩ :: tokens) := by
  have hhash : Newline.Plain ['#'] := by decide
  refine cons (List.cons_ne_nil _ _) (hhash.append hdigits.plain) (fun c first rest hc heq ↦ ?_) h
  cases heq
  exact choose_constant hc hdigits hnext

/-- A mnemonic. -/
theorem mnemonic {word : List Char} (hword : word ∈ wideMnemonics ∨ word ∈ mnemonics)
    (hnext : Closes (Token.text tokens)) (h : Continues tokens) :
    Continues (⟨.keyword, word⟩ :: tokens) := by
  have hspelling : IsSpelling word := isSpelling_of_mem hword
  refine cons hspelling.ne_nil hspelling.plain (fun c first rest hc heq ↦ ?_) h
  exact choose_mnemonic hc (heq ▸ hword) hnext

/-- A name. -/
theorem name {word : List Char} (hspelling : IsSpelling word) (hwide : word ∉ wideMnemonics)
    (hnarrow : word ∉ mnemonics) (hdefault : word ≠ "default".toList)
    (hnext : Closes (Token.text tokens)) (h : Continues tokens) :
    Continues (⟨.name, word⟩ :: tokens) := by
  refine cons hspelling.ne_nil hspelling.plain (fun c first rest hc heq ↦ ?_) h
  subst heq
  exact choose_name hc hspelling hwide hnarrow hdefault hnext

end Continues

end Lexer

end ClassInspect
