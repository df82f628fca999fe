import Mathlib.Data.List.Forall2
import ClassInspect.Proofs.Highlight.Lexer

/-!
# Patterns of tokens

What the tokens of a report look like, as patterns without a matcher: a pattern is a list of parts,
and that it matches is a relation (`Lexer.Pattern.Matches`). The rules of the lexer are matchers
without patterns: each looks at a position and says how much it takes. Here the two are laid beside
each other, rule by rule (`Lexer.forall₂_takes`).

## What it means for a rule to take a pattern

A rule says how many characters it takes behind the first one, or that it does not apply. It takes a
pattern (`Lexer.Takes`) if what it takes is matched (`sound`), and if it applies wherever anything
is matched and never takes less than that (`longest`). Together they determine the rule: it takes
the longest match, and none only if there is none. That a match is not empty follows from the
patterns alone (`Lexer.ne_nil_of_matches`), so to count behind the first character is no loss.

## How the rules are dealt with

* Rules about lines take the whole rest of a line or nothing, and differ in a condition on it.
  `Lexer.takes_line` is about any condition, and what is left for each rule is that its pattern,
  without the end of the line, says the same as the condition: `Lexer.matches_rest`,
  `Lexer.matches_banner`, `Lexer.matches_ruler`, `Lexer.matches_remark`.
* Rules about words rest on how words are spelled. A word of the list is a whole run of word
  characters, so there is at most one match (`Lexer.matches_words`), and the order in which words
  stand in the list does not matter, although many of them start like others.
* The rules for the left margin, for numbers and for names try the parts of their patterns from the
  left, each as far as it goes. This is the longest match because no character can belong to two
  parts that stand side by side: a digit is not white space (`Lexer.isBlank_of_isDecimal`), a sign
  is no digit, and a bracket does not go on with a name.

Patterns are over any alphabet, since texts may hold symbols that are no characters. Rules only see
characters, so they are compared with the patterns over characters; `Lexer.mirrors_patterns` takes
them to the other alphabet.
-/

namespace ClassInspect

open CharClass (isBlank isDecimal isWord)

/-- Characters are spelled by themselves. -/
theorem Alphabet.spell_chars (chars : List Char) : (spell chars : List Char) = chars :=
  List.map_id chars

namespace Lexer

open Alphabet (is ofChar spell)

/-- A part of a pattern. -/
inductive Element (α : Type) where
  /-- A symbol of a class. -/
  | one (accepts : α → Bool)
  /-- Any number of symbols of a class. -/
  | run (accepts : α → Bool)
  /-- One of some texts. -/
  | anyOf (texts : List (List α))
  /-- A text any number of times. -/
  | repeated (text : List α)
  /-- No text, but a condition on the symbols before and behind. -/
  | place (holds : Option α → Option α → Bool)

namespace Element

variable {α : Type}

/-- A given text. -/
abbrev text (text : List α) : Element α :=
  .anyOf [text]

/-- In front of a symbol of a class. -/
abbrev ahead (accepts : α → Bool) : Element α :=
  .place fun _ next ↦ next.any accepts

/-- Between a symbol and a text, a part of a pattern matches a value. -/
def Matches : Element α → Option α → List α → List α → Prop
  | one accepts, _, value, _ => ∃ c, accepts c = true ∧ value = [c]
  | run accepts, _, value, _ => ∀ c ∈ value, accepts c = true
  | anyOf texts, _, value, _ => value ∈ texts
  | repeated text, _, value, _ => ∃ count, value = (List.replicate count text).flatten
  | place holds, before, value, behind => value = [] ∧ holds before behind.head? = true

variable [Alphabet α]

/-- Either end of a word. -/
abbrev boundary : Element α :=
  .place fun before next ↦ before.any (is isWord) != next.any (is isWord)

variable [DecidableEq α]

/-- The start of a line. -/
abbrev lineStart : Element α :=
  .place fun before _ ↦ before.all (· = ofChar '\n')

/-- The end of a line. -/
abbrev lineEnd : Element α :=
  .place fun _ next ↦ next.all (· = ofChar '\n')

end Element

/-- What a token looks like: parts, one behind the other. -/
abbrev Pattern (α : Type) := List (Element α)

/-- Between a symbol and a text, a pattern matches a value. -/
def Pattern.Matches {α : Type} : Pattern α → Option α → List α → List α → Prop
  | [], _, value, _ => value = []
  | element :: elements, before, value, behind =>
    ∃ front rest, value = front ++ rest ∧ element.Matches before front (rest ++ behind) ∧
      Matches elements (front.getLast?.or before) rest behind

/-- The patterns of the tokens, in the order in which they are tried. A symbol that is no character
belongs to no class that a pattern names. Where a pattern takes anything but a line feed, it takes
such symbols too. -/
def patterns (α : Type) [DecidableEq α] [Alphabet α] : List (TokenKind × Pattern α) :=
  [(.comment, [.text (spell ['/', '/']), .run (· ≠ ofChar '\n'), .lineEnd]),
    (.heading, [.lineStart, .anyOf ((headings.map String.toList).map spell),
      .run (· ≠ ofChar '\n'), .lineEnd]),
    (.subheading, [.lineStart, .text (spell ['-', '-', '-', ' ']), .one (is isWord),
      .run (is isWord), .text (spell [' ', '-', '-', '-']), .lineEnd]),
    (.subheading, [.lineStart, .one (is (· = '-')), .run (is (· = '-')), .lineEnd]),
    (.emphasis, [.lineStart, .text (spell ['(']), .run (· ≠ ofChar '\n'), .text (spell [')']),
      .lineEnd]),
    (.label, [.lineStart, .run (is isBlank), .one (is isDecimal), .run (is isDecimal),
      .text (spell [':']), .ahead (is isBlank)]),
    (.constant, [.text (spell ['#']), .one (is isDecimal), .run (is isDecimal)]),
    (.keyword, [.anyOf (wideMnemonics.map spell), .boundary]),
    (.keyword, [.anyOf (mnemonics.map spell), .boundary]),
    (.keyword, [.boundary, .text (spell "default".toList), .boundary]),
    (.number, [.anyOf ([['-'], ['+'], []].map spell), .one (is isDecimal), .run (is isDecimal)]),
    (.name, [.one (is startsName), .run (is continuesName), .repeated (spell ['[', ']'])]),
    (.punctuation, [.one (is marks.contains)]),
    (.text, [.one (is isBlank), .run (is isBlank)]),
    (.text, [.one (· ≠ ofChar '\n')])]

/-! ### Parts of patterns -/

namespace Pattern

variable {α : Type} {elements : Pattern α} {before : Option α} {value behind : List α}
variable {accepts : α → Bool} {holds : Option α → Option α → Bool}

/-- A part that is one symbol takes it off the front. -/
theorem matches_one :
    Matches (.one accepts :: elements) before value behind ↔
      ∃ c rest, value = c :: rest ∧ accepts c = true ∧ Matches elements (some c) rest behind := by
  constructor
  · rintro ⟨_, rest, rfl, ⟨c, hc, rfl⟩, hrest⟩
    exact ⟨c, rest, rfl, hc, hrest⟩
  · rintro ⟨c, rest, rfl, hc, hrest⟩
    exact ⟨[c], rest, rfl, ⟨c, hc, rfl⟩, hrest⟩

/-- A part that is a text takes it off the front. -/
theorem matches_text {text : List α} :
    Matches (.text text :: elements) before value behind ↔
      ∃ rest, value = text ++ rest ∧ Matches elements (text.getLast?.or before) rest behind := by
  constructor
  · rintro ⟨_, rest, rfl, hfront, hrest⟩
    obtain rfl := List.mem_singleton.1 hfront
    exact ⟨rest, rfl, hrest⟩
  · rintro ⟨rest, rfl, hrest⟩
    exact ⟨text, rest, rfl, List.mem_singleton_self text, hrest⟩

/-- A part about the place takes nothing, and looks at the symbols on both sides. -/
theorem matches_place :
    Matches (.place holds :: elements) before value behind ↔
      holds before (value ++ behind).head? = true ∧ Matches elements before value behind := by
  constructor
  · rintro ⟨_, rest, rfl, ⟨rfl, hholds⟩, hrest⟩
    exact ⟨hholds, hrest⟩
  · rintro ⟨hholds, hrest⟩
    exact ⟨[], value, rfl, ⟨rfl, hholds⟩, hrest⟩

/-- A class of characters that has to occur, any number of times. -/
theorem matches_some :
    Matches (.one accepts :: .run accepts :: elements) before value behind ↔
      ∃ run rest, value = run ++ rest ∧ run ≠ [] ∧ (∀ c ∈ run, accepts c = true) ∧
        Matches elements run.getLast? rest behind := by
  have hlast (c : α) (run : List α) : run.getLast?.or (some c) = (c :: run).getLast? := by
    rw [← List.singleton_append, List.getLast?_append]
    rfl
  rw [matches_one]
  constructor
  · rintro ⟨c, _, rfl, hc, run, rest, rfl, hrun, hrest⟩
    exact ⟨c :: run, rest, rfl, List.cons_ne_nil c run, List.forall_mem_cons.2 ⟨hc, hrun⟩,
      hlast c run ▸ hrest⟩
  · rintro ⟨run, rest, rfl, hne, hrun, hrest⟩
    obtain ⟨c, run, rfl⟩ := List.exists_cons_of_ne_nil hne
    obtain ⟨hc, hrun⟩ := List.forall_mem_cons.1 hrun
    exact ⟨c, run ++ rest, rfl, hc, run, rest, rfl, hrun, (hlast c run).symm ▸ hrest⟩

/-- A condition behind a pattern is about the last character of the value. -/
theorem matches_concat_place :
    Matches (elements ++ [.place holds]) before value behind ↔
      Matches elements before value behind ∧
        holds (value.getLast?.or before) behind.head? = true := by
  induction elements generalizing before value with
  | nil =>
    rw [List.nil_append, matches_place]
    constructor
    · rintro ⟨hholds, rfl⟩
      exact ⟨rfl, hholds⟩
    · rintro ⟨rfl, hholds⟩
      exact ⟨hholds, rfl⟩
  | cons element elements ih =>
    have hlast (front rest : List α) : rest.getLast?.or (front.getLast?.or before) =
        (front ++ rest).getLast?.or before := by
      rw [List.getLast?_append, Option.or_assoc]
    constructor
    · rintro ⟨front, rest, rfl, hfront, hrest⟩
      obtain ⟨hrest, hholds⟩ := ih.1 hrest
      exact ⟨⟨front, rest, rfl, hfront, hrest⟩, hlast front rest ▸ hholds⟩
    · rintro ⟨⟨front, rest, rfl, hfront, hrest⟩, hholds⟩
      exact ⟨front, rest, rfl, hfront, ih.2 ⟨hrest, (hlast front rest).symm ▸ hholds⟩⟩

end Pattern

/-! ### No pattern matches the empty text -/

/-- Whether a part of a pattern may match the empty text. -/
def Element.isNullable : Element Char → Bool
  | one _ => false
  | anyOf texts => texts.contains []
  | _ => true

/-- Only a part that is nullable matches the empty text. -/
theorem Element.isNullable_of_matches {element : Element Char} {before : Option Char}
    {behind : List Char} (h : element.Matches before [] behind) : element.isNullable = true := by
  cases element with
  | one accepts =>
    obtain ⟨c, -, hc⟩ := h
    cases hc
  | anyOf texts => exact List.contains_iff_mem.2 h
  | _ => rfl

/-- Only a pattern of such parts does. -/
theorem all_isNullable_of_matches {pattern : Pattern Char} {before : Option Char}
    {behind : List Char} (h : Pattern.Matches pattern before [] behind) :
    pattern.all Element.isNullable = true := by
  induction pattern generalizing before with
  | nil => rfl
  | cons element elements ih =>
    obtain ⟨front, rest, happend, hfront, hrest⟩ := h
    obtain ⟨rfl, rfl⟩ := List.append_eq_nil_iff.1 happend.symm
    rw [List.all_cons, Element.isNullable_of_matches hfront, ih hrest]
    rfl

/-- No pattern of the table matches the empty text. -/
theorem ne_nil_of_matches {entry : TokenKind × Pattern Char} (hentry : entry ∈ patterns Char)
    {before : Option Char} {value behind : List Char}
    (h : Pattern.Matches entry.2 before value behind) : value ≠ [] := by
  -- each pattern has a part that takes something
  have hpatterns : ∀ entry ∈ patterns Char, entry.2.all Element.isNullable = false := by
    have hheadings : "" ∉ headings := by decide
    have hwide : [] ∉ wideMnemonics := fun hmem ↦ (isSpelling_of_mem_wideMnemonics hmem).ne_nil rfl
    have hmnemonics : [] ∉ mnemonics := fun hmem ↦ (isSpelling_of_mem_mnemonics hmem).ne_nil rfl
    simp [patterns, Element.isNullable, Alphabet.spell_chars, hheadings, hwide, hmnemonics]
  rintro rfl
  exact Bool.false_ne_true ((hpatterns entry hentry).symm.trans (all_isNullable_of_matches h))

/-! ### Rules and patterns -/

/-- A rule takes what a pattern matches at a position, and of that the longest. -/
structure Takes (rule : Rule) (pattern : Pattern Char) : Prop where
  sound : ∀ {p count}, rule p = some count → ∃ value behind, p.text = value ++ behind ∧
    value.length = count + 1 ∧ pattern.Matches p.before value behind
  longest : ∀ {p value behind}, p.text = value ++ behind → pattern.Matches p.before value behind →
    ∃ count, rule p = some count ∧ value.length ≤ count + 1

/-- A condition in front of a pattern. -/
theorem Takes.place {rule : Rule} {pattern : Pattern Char} (h : Takes rule pattern)
    (holds : Option Char → Option Char → Bool) :
    Takes (fun p ↦ if holds p.before (some p.first) then rule p else none)
      (.place holds :: pattern) where
  sound := by
    intro p count hrule
    obtain ⟨hholds, hrule⟩ := Option.ite_none_right_eq_some.1 hrule
    obtain ⟨value, behind, htext, hlength, hmatches⟩ := h.sound hrule
    refine ⟨value, behind, htext, hlength, Pattern.matches_place.2 ⟨?_, hmatches⟩⟩
    rw [← htext]
    exact hholds
  longest := by
    intro p value behind htext hmatches
    obtain ⟨hholds, hmatches⟩ := Pattern.matches_place.1 hmatches
    obtain ⟨count, hrule, hle⟩ := h.longest htext hmatches
    rw [← htext] at hholds
    exact ⟨count, (if_pos hholds).trans hrule, hle⟩

/-- A single character. -/
theorem takes_one (accepts : Char → Bool) :
    Takes (fun p ↦ if accepts p.first then some 0 else none) [.one accepts] where
  sound := by
    intro p count hrule
    obtain ⟨hfirst, hcount⟩ := Option.ite_none_right_eq_some.1 hrule
    cases hcount
    exact ⟨[p.first], p.rest, rfl, rfl, Pattern.matches_one.2 ⟨p.first, [], rfl, hfirst, rfl⟩⟩
  longest := by
    intro p value behind htext hmatches
    obtain ⟨c, rest, rfl, hc, rfl⟩ := Pattern.matches_one.1 hmatches
    obtain ⟨rfl, -⟩ := List.cons.inj htext
    exact ⟨0, if_pos hc, le_rfl⟩

/-- A run of accepted characters at the front is not longer than the longest one. -/
theorem length_le_takeWhile {accepts : Char → Bool} {run : List Char}
    (h : ∀ c ∈ run, accepts c = true) (behind : List Char) :
    run.length ≤ ((run ++ behind).takeWhile accepts).length := by
  rw [List.takeWhile_append_of_pos h, List.length_append]
  exact Nat.le_add_right _ _

/-- As many characters of a class as there are. -/
theorem takes_some (accepts : Char → Bool) :
    Takes (fun p ↦ if accepts p.first then some (p.rest.takeWhile accepts).length else none)
      [.one accepts, .run accepts] where
  sound := by
    intro p count hrule
    obtain ⟨hfirst, hcount⟩ := Option.ite_none_right_eq_some.1 hrule
    cases hcount
    refine ⟨p.first :: p.rest.takeWhile accepts, p.rest.dropWhile accepts, ?_, rfl,
      Pattern.matches_some.2 ⟨_, [], (List.append_nil _).symm, List.cons_ne_nil _ _,
        List.forall_mem_cons.2 ⟨hfirst, fun c ↦ List.mem_takeWhile_imp⟩, rfl⟩⟩
    rw [List.cons_append, List.takeWhile_append_dropWhile, Position.text]
  longest := by
    intro p value behind htext hmatches
    obtain ⟨run, _, rfl, hne, hrun, rfl⟩ := Pattern.matches_some.1 hmatches
    obtain ⟨c, run, rfl⟩ := List.exists_cons_of_ne_nil hne
    rw [List.append_nil] at htext ⊢
    obtain ⟨rfl, hrest⟩ := List.cons.inj htext
    obtain ⟨hfirst, hrun⟩ := List.forall_mem_cons.1 hrun
    refine ⟨_, if_pos hfirst, Nat.succ_le_succ ?_⟩
    rw [hrest]
    exact length_le_takeWhile hrun behind

/-! ### Rules about lines -/

/-- What stands in front of the end of a line is the line. -/
theorem takeWhile_line {value behind : List Char} (hvalue : '\n' ∉ value)
    (hbehind : behind.head?.all (· = '\n') = true) :
    (value ++ behind).takeWhile (· ≠ '\n') = value := by
  refine takeWhile_run (fun c hc ↦ decide_eq_true fun heq ↦ hvalue (heq ▸ hc)) fun c hc ↦ ?_
  have heq : c = '\n' := of_decide_eq_true ((Option.all_eq_true _ _).1 hbehind c hc)
  exact decide_eq_false fun hne ↦ hne heq

/-- A line holds no line feed. -/
theorem not_mem_line (p : Position) : '\n' ∉ p.line := by
  intro hmem
  have hne := List.mem_takeWhile_imp hmem
  exact of_decide_eq_true hne rfl

/-- Behind a line is its end. -/
theorem head?_dropWhile_line (text : List Char) :
    (text.dropWhile (· ≠ '\n')).head?.all (· = '\n') = true := by
  rw [Option.all_eq_true]
  intro c hc
  have hnot := List.head?_dropWhile_not (fun c ↦ decide (c ≠ '\n')) text
  rw [Option.mem_def.1 hc] at hnot
  exact decide_eq_true (not_not.1 (of_decide_eq_false hnot))

/-- The rest of a line that satisfies a condition. -/
theorem takes_line {accepts : List Char → Bool} {pattern : Pattern Char} (hnil : accepts [] = false)
    (hpattern : ∀ before value behind, pattern.Matches before value behind ↔
      '\n' ∉ value ∧ accepts value = true) :
    Takes (fun p ↦ if accepts p.line then some (p.line.length - 1) else none)
      (pattern ++ [.lineEnd]) where
  sound := by
    intro p count hrule
    obtain ⟨haccepts, hcount⟩ := Option.ite_none_right_eq_some.1 hrule
    have hne : p.line ≠ [] := fun hline ↦
      Bool.false_ne_true (hnil.symm.trans (hline ▸ haccepts))
    refine ⟨p.line, p.text.dropWhile (· ≠ '\n'), List.takeWhile_append_dropWhile.symm, ?_, ?_⟩
    · have := List.length_pos_iff.2 hne
      have := Option.some.inj hcount
      omega
    · exact Pattern.matches_concat_place.2
        ⟨(hpattern _ _ _).2 ⟨not_mem_line p, haccepts⟩, head?_dropWhile_line p.text⟩
  longest := by
    intro p value behind htext hmatches
    obtain ⟨hmatches, hend⟩ := Pattern.matches_concat_place.1 hmatches
    obtain ⟨hvalue, haccepts⟩ := (hpattern _ _ _).1 hmatches
    -- up to the end of the line there is no choice: every match is the rest of the line
    have hline : p.line = value := by rw [Position.line, htext, takeWhile_line hvalue hend]
    rw [hline]
    exact ⟨_, if_pos haccepts, by omega⟩

/-- A rule about whole lines, whose pattern starts with the start of a line. -/
theorem takes_wholeLine {accepts : List Char → Bool} {pattern : Pattern Char}
    (hnil : accepts [] = false)
    (hpattern : ∀ before value behind, pattern.Matches before value behind ↔
      '\n' ∉ value ∧ accepts value = true) :
    Takes (wholeLine accepts) (.lineStart :: (pattern ++ [.lineEnd])) := by
  have hrule : wholeLine accepts = fun p ↦ if p.startsLine then
      (if accepts p.line then some (p.line.length - 1) else none) else none := by
    funext p
    simp only [wholeLine, Bool.and_eq_true, ite_and]
  rw [hrule]
  exact (takes_line hnil hpattern).place fun before _ ↦ before.all (· = '\n')

/-- The rest of a line behind a given text. -/
theorem matches_rest {texts : List (List Char)} (hplain : texts.all (!·.contains '\n') = true)
    (before : Option Char) (value behind : List Char) :
    Pattern.Matches [.anyOf texts, .run (· ≠ '\n')] before value behind ↔
      '\n' ∉ value ∧ texts.any (·.isPrefixOf value) = true := by
  have hfeed {text : List Char} (hmem : text ∈ texts) : '\n' ∉ text := by
    simpa using List.all_eq_true.1 hplain text hmem
  rw [List.any_eq_true]
  constructor
  · rintro ⟨text, _, rfl, hmem, rest, _, rfl, hrest, rfl⟩
    refine ⟨?_, text, hmem, List.isPrefixOf_iff_prefix.2 (List.prefix_append _ _)⟩
    rw [List.append_nil, List.mem_append, not_or]
    exact ⟨hfeed hmem, fun h ↦ of_decide_eq_true (hrest _ h) rfl⟩
  · rintro ⟨hvalue, text, hmem, hstart⟩
    obtain ⟨rest, rfl⟩ := List.isPrefixOf_iff_prefix.1 hstart
    refine ⟨text, rest, rfl, hmem, rest, [], (List.append_nil _).symm, fun c hc ↦ ?_, rfl⟩
    exact decide_eq_true fun heq ↦ hvalue (heq ▸ List.mem_append_right text hc)

/-- Comments: two slashes and the rest of the line, wherever they stand. -/
theorem takes_comment : Takes comment [.text ['/', '/'], .run (· ≠ '\n'), .lineEnd] := by
  have hrule : comment = fun p ↦ if [['/', '/']].any (·.isPrefixOf p.line) then
      some (p.line.length - 1) else none := by
    funext p
    have hiff : [['/', '/']].any (·.isPrefixOf p.line) = true ↔
        p.line.take 2 = ['/', '/'] := by
      rw [List.any_cons, List.any_nil, Bool.or_false, List.isPrefixOf_iff_prefix,
        List.prefix_iff_eq_take]
      exact eq_comm
    simp only [comment, hiff]
  rw [hrule]
  exact takes_line rfl (matches_rest rfl)

/-- Headings: a line that starts with one of the words for them. -/
theorem takes_heading : Takes heading
    [.lineStart, .anyOf (headings.map String.toList), .run (· ≠ '\n'), .lineEnd] := by
  have hrule : heading =
      wholeLine fun line ↦ (headings.map String.toList).any (·.isPrefixOf line) := by
    simp only [List.any_map]
    rfl
  rw [hrule]
  exact takes_wholeLine rfl (matches_rest (by decide))

/-- The pattern of banners, without the end of the line, is the check that the rule makes. -/
theorem matches_banner (before : Option Char) (value behind : List Char) :
    Pattern.Matches [.text ['-', '-', '-', ' '], .one isWord, .run isWord,
        .text [' ', '-', '-', '-']] before value behind ↔
      '\n' ∉ value ∧ isBanner value = true := by
  rw [Pattern.matches_text, isBanner, Bool.and_eq_true, Bool.and_eq_true, decide_eq_true_eq,
    decide_eq_true_eq, Bool.not_eq_true', List.isEmpty_eq_false_iff]
  simp only [Pattern.matches_some, Pattern.matches_text]
  constructor
  · rintro ⟨_, rfl, word, _, rfl, hne, hword, _, rfl, rfl⟩
    have hfeed : '\n' ∉ word := fun hmem ↦ absurd (hword _ hmem) (by decide)
    have hinner : (word ++ [' ', '-', '-', '-']).takeWhile isWord = word :=
      takeWhile_run hword (by rintro _ ⟨⟩; decide)
    refine ⟨by simp [hfeed], ⟨rfl, ?_⟩, ?_⟩
    · exact hinner.symm ▸ hne
    · -- behind the word, which ends at the blank, stands the end of the banner
      rw [List.append_nil, ← List.drop_drop]
      exact List.drop_left' (congrArg List.length hinner.symm)
  · rintro ⟨-, ⟨hfront, hne⟩, hend⟩
    rw [← List.drop_drop] at hend
    refine ⟨value.drop 4, by rw [← hfront, List.take_append_drop], _, _, ?_, hne,
      fun c ↦ List.mem_takeWhile_imp, [], rfl, rfl⟩
    rw [List.append_nil, ← hend]
    exact (List.prefix_iff_eq_append.1 (List.takeWhile_prefix isWord)).symm

/-- The pattern of rulers is the check that the rule makes. -/
theorem matches_ruler (before : Option Char) (value behind : List Char) :
    Pattern.Matches [.one (· = '-'), .run (· = '-')] before value behind ↔
      '\n' ∉ value ∧ (!value.isEmpty && value.all (· = '-')) = true := by
  rw [Pattern.matches_some, Bool.and_eq_true, Bool.not_eq_true', List.isEmpty_eq_false_iff,
    List.all_eq_true]
  constructor
  · rintro ⟨run, _, rfl, hne, hrun, rfl⟩
    rw [List.append_nil]
    exact ⟨fun hmem ↦ absurd (hrun _ hmem) (by decide), hne, hrun⟩
  · rintro ⟨-, hne, hrun⟩
    exact ⟨value, [], (List.append_nil _).symm, hne, hrun, rfl⟩

/-- The pattern of remarks is the check that the rule makes. A single parenthesis is no remark, as
it cannot be both of its ends. -/
theorem matches_remark (before : Option Char) (value behind : List Char) :
    Pattern.Matches [.text ['('], .run (· ≠ '\n'), .text [')']] before value behind ↔
      '\n' ∉ value ∧
        (value.head? = some '(' && value.tail.getLast? = some ')') = true := by
  rw [Pattern.matches_text, Bool.and_eq_true, decide_eq_true_eq, decide_eq_true_eq]
  constructor
  · rintro ⟨_, rfl, inner, _, rfl, hinner, hclose⟩
    obtain ⟨_, rfl, rfl⟩ := Pattern.matches_text.1 hclose
    have hfeed : '\n' ∉ inner := fun hmem ↦ of_decide_eq_true (hinner _ hmem) rfl
    refine ⟨by simp [hfeed], rfl, ?_⟩
    rw [List.append_nil]
    exact List.getLast?_concat
  · rintro ⟨hfeed, hopen, hclose⟩
    obtain ⟨rest, rfl⟩ := List.head?_eq_some_iff.1 hopen
    obtain ⟨inner, hrest⟩ := List.getLast?_eq_some_iff.1 hclose
    rw [List.tail_cons] at hrest
    subst hrest
    refine ⟨inner ++ [')'], rfl, inner, [')'], rfl, fun c hc ↦ decide_eq_true ?_,
      Pattern.matches_text.2 ⟨[], rfl, rfl⟩⟩
    rintro rfl
    exact hfeed (List.mem_cons_of_mem _ (List.mem_append_left _ hc))

/-- No digit of any script is white space. Both are given by tables, which are compared range by
range. -/
theorem isBlank_of_isDecimal {c : Char} (h : isDecimal c = true) : isBlank c = false := by
  have hzeros : ∀ first ∈ CharClass.zeros, ∀ range ∈ CharClass.blanks,
      range.2 < first ∨ first + 9 < range.1 := by decide
  rw [isDecimal, CharClass.decimal?, Option.isSome_map, List.find?_isSome] at h
  obtain ⟨first, hfirst, hrange⟩ := h
  rw [Bool.and_eq_true, decide_eq_true_eq, decide_eq_true_eq] at hrange
  exact isBlank_eq_false (hzeros first hfirst) hrange.1 (by omega)

/-- What the pattern of a position at the left margin matches. -/
theorem matches_margin {before : Option Char} {value behind : List Char} :
    Pattern.Matches [.lineStart, .run isBlank, .one isDecimal, .run isDecimal, .text [':'],
        .ahead isBlank] before value behind ↔
      before.all (· = '\n') = true ∧ ∃ blanks digits, value = blanks ++ (digits ++ [':']) ∧
        (∀ c ∈ blanks, isBlank c = true) ∧ digits ≠ [] ∧ (∀ c ∈ digits, isDecimal c = true) ∧
        behind.head?.any isBlank = true := by
  rw [Pattern.matches_place]
  refine and_congr_right fun _ ↦ ?_
  constructor
  · rintro ⟨blanks, _, rfl, hblanks, hrest⟩
    obtain ⟨digits, _, rfl, hne, hdigits, hcolon⟩ := Pattern.matches_some.1 hrest
    obtain ⟨_, rfl, hend⟩ := Pattern.matches_text.1 hcolon
    obtain ⟨hahead, rfl⟩ := Pattern.matches_place.1 hend
    exact ⟨blanks, digits, rfl, hblanks, hne, hdigits, hahead⟩
  · rintro ⟨blanks, digits, rfl, hblanks, hne, hdigits, hahead⟩
    refine ⟨blanks, digits ++ [':'], rfl, hblanks, ?_⟩
    exact Pattern.matches_some.2 ⟨digits, [':'], rfl, hne, hdigits,
      Pattern.matches_text.2 ⟨[], rfl, Pattern.matches_place.2 ⟨hahead, rfl⟩⟩⟩

/-- Labels: white space, digits and a colon at the start of a line, in front of white space. White
space and digits are each taken as far as they go, and there is no other way to match. -/
theorem takes_margin : Takes margin [.lineStart, .run isBlank, .one isDecimal, .run isDecimal,
    .text [':'], .ahead isBlank] where
  sound := by
    intro p count hrule
    have hblanks := List.prefix_iff_eq_append.1 (List.takeWhile_prefix isBlank (l := p.text))
    have hdigits := List.prefix_iff_eq_append.1 (List.takeWhile_prefix isDecimal
      (l := p.text.drop (p.text.takeWhile isBlank).length))
    unfold margin at hrule
    dsimp only at hrule
    split at hrule
    case h_2 => cases hrule
    case h_1 next rest hcolon =>
      obtain ⟨hcondition, hcount⟩ := Option.ite_none_right_eq_some.1 hrule
      rw [Bool.and_eq_true, Bool.and_eq_true, Bool.not_eq_true', List.isEmpty_eq_false_iff]
        at hcondition
      obtain ⟨⟨hstart, hne⟩, hnext⟩ := hcondition
      rw [hcolon] at hdigits
      refine ⟨_, next :: rest, ?_, ?_, matches_margin.2 ⟨hstart, p.text.takeWhile isBlank, _, rfl,
        fun c ↦ List.mem_takeWhile_imp, hne, fun c ↦ List.mem_takeWhile_imp, hnext⟩⟩
      · rw [List.append_assoc, List.append_assoc]
        exact (hdigits.symm ▸ hblanks).symm
      · rw [← Option.some.inj hcount, List.length_append, List.length_append, List.length_singleton]
        omega
  longest := by
    intro p value behind htext hmatches
    obtain ⟨hstart, blanks, digits, rfl, hblanks, hne, hdigits, hahead⟩ :=
      matches_margin.1 hmatches
    obtain ⟨digit, digits, rfl⟩ := List.exists_cons_of_ne_nil hne
    obtain ⟨next, hnext, hblank⟩ := (Option.any_eq_true _ _).1 hahead
    obtain ⟨rest, rfl⟩ := List.head?_eq_some_iff.1 hnext
    rw [List.append_assoc, List.append_assoc] at htext
    -- no digit is white space, so the blanks end where the digits start
    have htakeBlanks : (blanks ++ (digit :: digits ++ ([':'] ++ next :: rest))).takeWhile isBlank =
        blanks := by
      refine takeWhile_run hblanks fun c hc ↦ ?_
      cases hc
      exact isBlank_of_isDecimal (hdigits _ (.head _))
    have htakeDigits : (digit :: digits ++ ([':'] ++ next :: rest)).takeWhile isDecimal =
        digit :: digits := by
      refine takeWhile_run hdigits fun c hc ↦ ?_
      cases hc
      decide
    refine ⟨blanks.length + (digit :: digits).length, ?_, ?_⟩
    · unfold margin
      dsimp only
      rw [htext, htakeBlanks, List.drop_left, htakeDigits, List.drop_left]
      exact if_pos (by rw [Position.startsLine, hstart, hblank]; rfl)
    · rw [List.length_append, List.length_append, List.length_singleton, Nat.add_assoc]

/-! ### Rules about words and numbers -/

/-- The common end of the patterns for constants and numbers: digits behind one of some texts. -/
theorem matches_digits {texts : List (List Char)} {before : Option Char}
    {value behind : List Char} :
    Pattern.Matches [.anyOf texts, .one isDecimal, .run isDecimal] before value behind ↔
      ∃ text ∈ texts, ∃ digits, value = text ++ digits ∧ digits ≠ [] ∧
        ∀ c ∈ digits, isDecimal c = true := by
  constructor
  · rintro ⟨text, _, rfl, hmem, hrest⟩
    obtain ⟨digits, _, rfl, hne, hdigits, rfl⟩ := Pattern.matches_some.1 hrest
    exact ⟨text, hmem, digits, by rw [List.append_nil], hne, hdigits⟩
  · rintro ⟨text, hmem, digits, rfl, hne, hdigits⟩
    exact ⟨text, digits, rfl, hmem, Pattern.matches_some.2
      ⟨digits, [], (List.append_nil _).symm, hne, hdigits, rfl⟩⟩

/-- Where digits stand, at least these are taken. -/
theorem takeWhile_isDecimal {rest digits behind : List Char} (hne : digits ≠ [])
    (hdigits : ∀ c ∈ digits, isDecimal c = true) (hrest : rest = digits ++ behind) :
    (rest.takeWhile isDecimal).isEmpty = false ∧
      digits.length ≤ (rest.takeWhile isDecimal).length := by
  have hle : digits.length ≤ (rest.takeWhile isDecimal).length :=
    hrest ▸ length_le_takeWhile hdigits behind
  have hpos : 0 < digits.length := List.length_pos_iff.2 hne
  exact ⟨List.isEmpty_eq_false_iff.2 (List.length_pos_iff.1 (hpos.trans_le hle)), hle⟩

/-- Constants: a hash sign and digits. -/
theorem takes_index : Takes index [.text ['#'], .one isDecimal, .run isDecimal] where
  sound := by
    intro p count hrule
    obtain ⟨hcondition, hcount⟩ := Option.ite_none_right_eq_some.1 hrule
    cases hcount
    rw [Bool.and_eq_true, decide_eq_true_eq, Bool.not_eq_true', List.isEmpty_eq_false_iff]
      at hcondition
    refine ⟨'#' :: p.rest.takeWhile isDecimal, p.rest.dropWhile isDecimal, ?_, rfl,
      matches_digits.2 ⟨['#'], List.mem_singleton_self _, _, rfl, hcondition.2,
        fun c ↦ List.mem_takeWhile_imp⟩⟩
    rw [List.cons_append, List.takeWhile_append_dropWhile, ← hcondition.1, Position.text]
  longest := by
    intro p value behind htext hmatches
    obtain ⟨_, hmem, digits, rfl, hne, hdigits⟩ := matches_digits.1 hmatches
    obtain rfl := List.mem_singleton.1 hmem
    obtain ⟨hfirst, hrest⟩ := List.cons.inj htext
    obtain ⟨hsome, hle⟩ := takeWhile_isDecimal hne hdigits hrest
    refine ⟨_, if_pos ?_, Nat.succ_le_succ hle⟩
    rw [hfirst, hsome]
    rfl

/-- Numbers: digits, with a sign in front or not. -/
theorem takes_number :
    Takes number [.anyOf [['-'], ['+'], []], .one isDecimal, .run isDecimal] where
  sound := by
    intro p count hrule
    have hrest : p.rest.takeWhile isDecimal ++ p.rest.dropWhile isDecimal = p.rest :=
      List.takeWhile_append_dropWhile
    rw [number] at hrule
    split_ifs at hrule with hfirst hsign
    · -- a number without a sign is a run of digits behind the empty text
      obtain ⟨value, behind, htext, hlength, hmatches⟩ :=
        (takes_some isDecimal).sound ((if_pos hfirst).trans hrule)
      exact ⟨value, behind, htext, hlength, [], value, rfl, .tail _ (.tail _ (.head _)), hmatches⟩
    · cases hrule
      rw [Bool.and_eq_true, Bool.or_eq_true, decide_eq_true_eq, decide_eq_true_eq,
        Bool.not_eq_true', List.isEmpty_eq_false_iff] at hsign
      refine ⟨p.first :: p.rest.takeWhile isDecimal, p.rest.dropWhile isDecimal, ?_, rfl,
        matches_digits.2 ⟨[p.first], ?_, _, rfl, hsign.2, fun c ↦ List.mem_takeWhile_imp⟩⟩
      · rw [List.cons_append, hrest, Position.text]
      · rcases hsign.1 with hminus | hplus
        · rw [hminus]
          decide
        · rw [hplus]
          decide
  longest := by
    intro p value behind htext hmatches
    obtain ⟨sign, hmem, digits, rfl, hne, hdigits⟩ := matches_digits.1 hmatches
    have hsigned {mark : Char} (hmark : mark = '-' ∨ mark = '+')
        (htext : p.text = mark :: digits ++ behind) :
        ∃ count, number p = some count ∧ (mark :: digits).length ≤ count + 1 := by
      obtain ⟨hfirst, hrest⟩ := List.cons.inj htext
      obtain ⟨hsome, hle⟩ := takeWhile_isDecimal hne hdigits hrest
      refine ⟨_, ?_, Nat.succ_le_succ hle⟩
      rw [number, hfirst, hsome]
      rcases hmark with rfl | rfl <;> rfl
    simp only [List.mem_cons, List.not_mem_nil, or_false] at hmem
    rcases hmem with rfl | rfl | rfl
    · exact hsigned (.inl rfl) htext
    · exact hsigned (.inr rfl) htext
    · obtain ⟨count, hrule, hle⟩ := (takes_some isDecimal).longest htext
        (Pattern.matches_some.2 ⟨digits, [], (List.append_nil _).symm, hne, hdigits, rfl⟩)
      refine ⟨count, ?_, hle⟩
      obtain ⟨hfirst, hcount⟩ := Option.ite_none_right_eq_some.1 hrule
      exact (if_pos hfirst).trans hcount

/-- Words up to their ends. -/
theorem matches_words {words : List (List Char)} (hwords : ∀ word ∈ words, IsSpelling word)
    {before : Option Char} {value behind : List Char} :
    Pattern.Matches [.anyOf words, .boundary] before value behind ↔
      value ∈ words ∧ ∀ c ∈ behind.head?, isWord c = false := by
  have hboundary (hspelling : IsSpelling value) :
      ((value.getLast?.or before).any isWord != behind.head?.any isWord) = true ↔
        ∀ c ∈ behind.head?, isWord c = false := by
    rw [List.getLast?_eq_some_getLast hspelling.ne_nil, Option.some_or, Option.any_some,
      hspelling.all _ (List.getLast_mem _), bne_iff_ne, ne_comm, ne_eq, Bool.not_eq_true,
      Option.any_eq_false]
    rfl
  rw [← List.singleton_append, Pattern.matches_concat_place]
  constructor
  · rintro ⟨⟨word, _, rfl, hmem, rfl⟩, hend⟩
    rw [List.append_nil] at hend hboundary ⊢
    exact ⟨hmem, (hboundary (hwords word hmem)).1 hend⟩
  · rintro ⟨hmem, hend⟩
    exact ⟨⟨value, [], (List.append_nil _).symm, hmem, rfl⟩, (hboundary (hwords value hmem)).2 hend⟩

/-- Words of a list: the whole word that stands there, if it is one of the list. -/
theorem takes_oneOf {words : List (List Char)} (hwords : ∀ word ∈ words, IsSpelling word) :
    Takes (oneOf words) [.anyOf words, .boundary] where
  sound := by
    intro p count hrule
    obtain ⟨hcontains, hcount⟩ := Option.ite_none_right_eq_some.1 hrule
    have hmem : p.word ∈ words := List.contains_iff_mem.1 hcontains
    refine ⟨p.word, p.text.dropWhile isWord, List.takeWhile_append_dropWhile.symm, ?_,
      (matches_words hwords).2 ⟨hmem, fun c hc ↦ ?_⟩⟩
    · have := List.length_pos_iff.2 (hwords p.word hmem).ne_nil
      have := Option.some.inj hcount
      omega
    · have hnot := List.head?_dropWhile_not isWord p.text
      rw [Option.mem_def.1 hc] at hnot
      exact hnot
  longest := by
    intro p value behind htext hmatches
    obtain ⟨hmem, hend⟩ := (matches_words hwords).1 hmatches
    -- the word goes on as long as there are word characters, so it is the one that was matched
    have hword : p.word = value := by
      rw [Position.word, htext, takeWhile_run (hwords value hmem).all hend]
    refine ⟨value.length - 1, ?_, by omega⟩
    rw [oneOf_eq_some (hword.symm ▸ hmem), hword]

/-- The word for the last case of a switch, which must not be the end of a longer word. -/
theorem takes_fallback :
    Takes fallback [.boundary, .text "default".toList, .boundary] := by
  have hwords : ∀ word ∈ ["default".toList], IsSpelling word := by
    intro word hword
    rw [List.mem_singleton.1 hword]
    exact isSpelling_default
  have hrule : fallback = fun p ↦ if p.before.any isWord != (some p.first).any isWord then
      oneOf ["default".toList] p else none := by
    funext p
    by_cases hword : p.word = "default".toList
    · -- in front of a word, a boundary asks that none goes on here
      have hfirst : isWord p.first = true := by
        by_contra hnot
        exact isSpelling_default.ne_nil (hword.symm.trans (List.takeWhile_cons_of_neg hnot))
      have hbefore : (p.before.any isWord != true) = p.before.all (!isWord ·) := by
        cases p.before with
        | none => rfl
        | some c => exact Bool.bne_true _
      rw [fallback, Option.any_some, hfirst, hbefore]
    · rw [fallback_eq_none hword, oneOf_eq_none fun hmem ↦ hword (List.mem_singleton.1 hmem),
        ite_self]
  rw [hrule]
  exact (takes_oneOf hwords).place fun before next ↦ before.any isWord != next.any isWord

/-! ### Names -/

/-- The pairs of brackets at the front of a text, and what stands behind them. -/
theorem exists_brackets (text : List Char) : ∃ count rest,
    text = (List.replicate count ['[', ']']).flatten ++ rest ∧ brackets text = 2 * count := by
  fun_induction brackets text with
  | case1 rest ih =>
    obtain ⟨count, rest, rfl, hbrackets⟩ := ih
    exact ⟨count + 1, rest, rfl, by omega⟩
  | case2 text => exact ⟨0, text, rfl, rfl⟩

/-- Pairs of brackets that stand at the front are counted. -/
theorem le_brackets (count : Nat) (rest : List Char) :
    2 * count ≤ brackets ((List.replicate count ['[', ']']).flatten ++ rest) := by
  induction count with
  | zero => exact Nat.zero_le _
  | succ count ih =>
    show 2 * (count + 1) ≤ brackets ((List.replicate count ['[', ']']).flatten ++ rest) + 2
    omega

/-- A pair of brackets is two characters. -/
theorem length_brackets (count : Nat) :
    (List.replicate count ['[', ']']).flatten.length = 2 * count := by
  simp [Nat.mul_comm]

/-- A name, and behind it any number of pairs of brackets. -/
theorem matches_name {before : Option Char} {value behind : List Char} :
    Pattern.Matches [.one startsName, .run continuesName, .repeated ['[', ']']] before value
        behind ↔
      ∃ first inner count, value = first :: (inner ++ (List.replicate count ['[', ']']).flatten) ∧
        startsName first = true ∧ ∀ c ∈ inner, continuesName c = true := by
  rw [Pattern.matches_one]
  constructor
  · rintro ⟨first, _, rfl, hfirst, inner, _, rfl, hinner, _, _, rfl, ⟨count, rfl⟩, rfl⟩
    exact ⟨first, inner, count, by rw [List.append_nil], hfirst, hinner⟩
  · rintro ⟨first, inner, count, rfl, hfirst, hinner⟩
    exact ⟨first, _, rfl, hfirst, inner, _, rfl, hinner, _, [], (List.append_nil _).symm,
      ⟨count, rfl⟩, rfl⟩

/-- Names: the longest name, and only then brackets. A shorter name would end in front of a
character that goes on with it, where no bracket stands. -/
theorem takes_name :
    Takes name [.one startsName, .run continuesName, .repeated ['[', ']']] where
  sound := by
    intro p count hrule
    obtain ⟨hfirst, hcount⟩ := Option.ite_none_right_eq_some.1 hrule
    have hrest := List.prefix_iff_eq_append.1 (List.takeWhile_prefix continuesName (l := p.rest))
    obtain ⟨pairs, behind, hbehind, hbrackets⟩ :=
      exists_brackets (p.rest.drop (p.rest.takeWhile continuesName).length)
    refine ⟨_, behind, ?_, ?_, matches_name.2 ⟨p.first, p.rest.takeWhile continuesName, pairs, rfl,
      hfirst, fun c ↦ List.mem_takeWhile_imp⟩⟩
    · rw [List.cons_append, List.append_assoc, ← hbehind, hrest, Position.text]
    · rw [← Option.some.inj hcount, hbrackets, List.length_cons, List.length_append,
        length_brackets]
  longest := by
    intro p value behind htext hmatches
    obtain ⟨first, inner, count, rfl, hfirst, hinner⟩ := matches_name.1 hmatches
    obtain ⟨rfl, hrest⟩ := List.cons.inj htext
    refine ⟨_, if_pos hfirst, Nat.succ_le_succ ?_⟩
    rw [List.append_eq, List.append_assoc] at hrest
    rw [List.length_append, length_brackets, hrest]
    cases count with
    | zero =>
      -- without brackets the match may be a part of the name only
      exact Nat.le_add_right_of_le (length_le_takeWhile hinner _)
    | succ count =>
      -- a bracket does not continue a name, so the pairs are left for `brackets`
      rw [takeWhile_run hinner (by rintro _ ⟨⟩; decide), List.drop_left]
      exact Nat.add_le_add_left (le_brackets (count + 1) behind) _

/-- Whatever no other rule is about: one character other than a line feed. -/
theorem takes_anything : Takes anything [.one (· ≠ '\n')] := by
  have hrule : anything = fun p ↦ if decide (p.first ≠ '\n') then some 0 else none := by
    funext p
    simp only [anything, decide_eq_true_eq]
  rw [hrule]
  exact takes_one fun c ↦ decide (c ≠ '\n')

/-- Every rule takes what its pattern matches. -/
theorem forall₂_takes :
    List.Forall₂ (fun entry entry' ↦ entry.1 = entry'.1 ∧ Takes entry.2 entry'.2) rules
      (patterns Char) := by
  have hspell (texts : List (List Char)) : texts.map Alphabet.spell = texts := by
    rw [funext Alphabet.spell_chars]
    exact List.map_id texts
  refine .cons ⟨rfl, takes_comment⟩ (.cons ⟨rfl, ?_⟩ (.cons ⟨rfl, ?_⟩ (.cons ⟨rfl, ?_⟩
    (.cons ⟨rfl, ?_⟩ (.cons ⟨rfl, takes_margin⟩ (.cons ⟨rfl, takes_index⟩ (.cons ⟨rfl, ?_⟩
    (.cons ⟨rfl, ?_⟩ (.cons ⟨rfl, takes_fallback⟩ (.cons ⟨rfl, takes_number⟩
    (.cons ⟨rfl, takes_name⟩ (.cons ⟨rfl, ?_⟩ (.cons ⟨rfl, ?_⟩ (.cons ⟨rfl, takes_anything⟩
    .nil))))))))))))))
  · rw [hspell]
    exact takes_heading
  · exact takes_wholeLine rfl matches_banner
  · exact takes_wholeLine rfl matches_ruler
  · exact takes_wholeLine rfl matches_remark
  · rw [hspell]
    exact takes_oneOf fun word ↦ isSpelling_of_mem_wideMnemonics
  · rw [hspell]
    exact takes_oneOf fun word ↦ isSpelling_of_mem_mnemonics
  · exact takes_one marks.contains
  · exact takes_some isBlank

end Lexer

end ClassInspect
