import ClassInspect.Proofs.Highlight.Pattern

/-!
# Patterns in texts with lone surrogates

The rules of the lexer look at characters. Where a text has a lone surrogate, they are shown a
character that stands for none (`Alphabet.look`). A pattern cannot tell the difference: it matches
in a text of code points if and only if it matches in what is seen of the text
(`Lexer.Pattern.matches_map_look`).

This is a property of the patterns. A part of one mirrors its counterpart if it depends on what is
seen alone (`Lexer.Element.Mirrors`). Classes do so because the stand-in belongs to none of them,
and texts because it occurs in none of them. `Lexer.mirrors_patterns` goes through the table.

The classes that accept everything but some characters, such as all but a line feed, accept the
stand-in as they accept every lone surrogate. For them it is enough that the stand-in is not one of
the excepted characters (`Alphabet.ne_feed_look`).
-/

namespace ClassInspect

open CharClass (isBlank isDecimal isWord)

/-! ### What is seen of a text -/

namespace Alphabet

theorem look_ofChar (c : Char) : look (ofChar c : CodePoint) = c :=
  rfl

/-- What is seen of a code point is the code point, unless it is the stand-in. -/
theorem look_eq_iff {symbol : CodePoint} {c : Char} (h : c ≠ standIn) :
    look symbol = c ↔ symbol = ofChar c := by
  cases symbol with
  | char value => exact ⟨congrArg CodePoint.char, CodePoint.char.inj⟩
  | lone surrogate => exact iff_of_false h.symm nofun

theorem map_look_eq_iff {symbols : List CodePoint} {chars : List Char} (h : standIn ∉ chars) :
    symbols.map look = chars ↔ symbols = spell chars := by
  induction chars generalizing symbols with
  | nil => exact List.map_eq_nil_iff
  | cons c chars ih =>
    obtain ⟨hc, hchars⟩ := not_or.1 (List.mem_cons.not.1 h)
    rw [List.map_eq_cons_iff]
    constructor
    · rintro ⟨symbol, rest, rfl, hsymbol, hrest⟩
      rw [(look_eq_iff (Ne.symm hc)).1 hsymbol, (ih hchars).1 hrest]
      rfl
    · rintro rfl
      exact ⟨ofChar c, spell chars, rfl, look_ofChar c, (ih hchars).2 rfl⟩

/-- A class without the stand-in is one of what is seen. -/
theorem is_look {accepts : Char → Bool} (h : accepts standIn = false) (symbol : CodePoint) :
    is accepts symbol = is accepts (look symbol) := by
  cases symbol with
  | char value => rfl
  | lone surrogate => exact h.symm

theorem ne_feed_look (symbol : CodePoint) :
    decide (symbol ≠ ofChar '\n') = decide (look symbol ≠ ofChar '\n') :=
  decide_eq_decide.2 (look_eq_iff (by decide)).symm.not

theorem eq_feed_look (symbol : CodePoint) :
    decide (symbol = ofChar '\n') = decide (look symbol = ofChar '\n') :=
  decide_eq_decide.2 (look_eq_iff (by decide)).symm

theorem any_is_look {accepts : Char → Bool} (h : accepts standIn = false)
    (symbol? : Option CodePoint) :
    symbol?.any (is accepts) = (symbol?.map look).any (is accepts) := by
  cases symbol? with
  | none => rfl
  | some symbol => exact is_look h symbol

theorem all_eq_feed_look (symbol? : Option CodePoint) :
    symbol?.all (· = ofChar '\n') = (symbol?.map look).all (· = ofChar '\n') := by
  cases symbol? with
  | none => rfl
  | some symbol => exact eq_feed_look symbol

end Alphabet

namespace Lexer

open Alphabet (is look look_eq_iff map_look_eq_iff ofChar spell standIn)

/-! ### Parts of patterns -/

/-- The part is about what is seen of a text, and that is the second part. -/
inductive Element.Mirrors : Element CodePoint → Element Char → Prop
  | one {accepts : CodePoint → Bool} {accepts' : Char → Bool}
    (h : ∀ c, accepts c = accepts' (look c)) : Mirrors (.one accepts) (.one accepts')
  | run {accepts : CodePoint → Bool} {accepts' : Char → Bool}
    (h : ∀ c, accepts c = accepts' (look c)) : Mirrors (.run accepts) (.run accepts')
  | anyOf {texts : List (List Char)} (h : ∀ text ∈ texts, standIn ∉ text) :
    Mirrors (.anyOf (texts.map spell)) (.anyOf texts)
  | repeated {text : List Char} (h : standIn ∉ text) :
    Mirrors (.repeated (spell text)) (.repeated text)
  | place {holds : Option CodePoint → Option CodePoint → Bool}
    {holds' : Option Char → Option Char → Bool}
    (h : ∀ before next, holds before next = holds' (before.map look) (next.map look)) :
    Mirrors (.place holds) (.place holds')

variable {before : Option CodePoint} {value behind : Text}

theorem spell_flatten_replicate (count : Nat) (text : List Char) :
    (List.replicate count (spell text : Text)).flatten =
      spell (List.replicate count text).flatten := by
  show (List.replicate count (text.map ofChar)).flatten = (List.replicate count text).flatten.map _
  rw [List.map_flatten, List.map_replicate]

theorem Element.Mirrors.matches_iff {element : Element CodePoint} {element' : Element Char}
    (h : element.Mirrors element') :
    element.Matches before value behind ↔
      element'.Matches (before.map look) (value.map look) (behind.map look) := by
  cases h with
  | @one accepts accepts' h =>
    constructor
    · rintro ⟨c, hc, rfl⟩
      exact ⟨look c, (h c).symm.trans hc, rfl⟩
    · rintro ⟨c, hc, hvalue⟩
      obtain ⟨symbol, rfl, rfl⟩ := List.map_eq_singleton_iff.1 hvalue
      exact ⟨symbol, (h symbol).trans hc, rfl⟩
  | @run accepts accepts' h =>
    show (∀ c ∈ value, accepts c = true) ↔ ∀ c ∈ value.map look, accepts' c = true
    rw [List.forall_mem_map]
    exact forall₂_congr fun c _ ↦ by rw [h c]
  | @anyOf texts h =>
    show value ∈ texts.map spell ↔ value.map look ∈ texts
    rw [List.mem_map]
    constructor
    · rintro ⟨text, htext, rfl⟩
      rw [(map_look_eq_iff (h text htext)).2 rfl]
      exact htext
    · intro hmem
      exact ⟨value.map look, hmem, ((map_look_eq_iff (h _ hmem)).1 rfl).symm⟩
  | @repeated text h =>
    -- a text that is repeated has no other characters
    have hcount (count : Nat) : standIn ∉ (List.replicate count text).flatten := by
      intro hmem
      obtain ⟨piece, hpiece, hc⟩ := List.mem_flatten.1 hmem
      exact h (List.eq_of_mem_replicate hpiece ▸ hc)
    show (∃ count, value = _) ↔ ∃ count, value.map look = _
    simp only [spell_flatten_replicate, map_look_eq_iff (hcount _)]
  | @place holds holds' h =>
    show value = [] ∧ _ ↔ value.map look = [] ∧ holds' (before.map look) (behind.map look).head? = _
    rw [List.map_eq_nil_iff, List.head?_map, h]

/-! ### Patterns -/

/-- A pattern matches what its counterpart matches of what is seen. -/
theorem Pattern.matches_map_look {pattern : Pattern CodePoint} {pattern' : Pattern Char}
    (h : List.Forall₂ Element.Mirrors pattern pattern') :
    pattern.Matches before value behind ↔
      pattern'.Matches (before.map look) (value.map look) (behind.map look) := by
  induction h generalizing before value with
  | nil => exact List.map_eq_nil_iff.symm
  | @cons element element' elements elements' helement _ ih =>
    -- the symbol in front of the rest is that in front of what is seen of the rest
    have hlast (front : Text) : (front.getLast?.or before).map look =
        (front.map look).getLast?.or (before.map look) := by
      rw [Option.map_or, List.getLast?_map]
    constructor
    · rintro ⟨front, rest, rfl, hfront, hrest⟩
      refine ⟨front.map look, rest.map look, List.map_append, ?_, ?_⟩
      · rw [← List.map_append]
        exact helement.matches_iff.1 hfront
      · rw [← hlast]
        exact ih.1 hrest
    · rintro ⟨_, _, hvalue, hfront, hrest⟩
      obtain ⟨front, rest, rfl, rfl, rfl⟩ := List.map_eq_append_iff.1 hvalue
      refine ⟨front, rest, rfl, helement.matches_iff.2 ?_, ih.2 ?_⟩
      · rw [List.map_append]
        exact hfront
      · rw [hlast]
        exact hrest

namespace Element.Mirrors

theorem text {chars : List Char} (h : standIn ∉ chars) :
    Mirrors (.text (spell chars)) (.text (spell chars)) := by
  have htexts : ∀ text ∈ [chars], standIn ∉ text := List.forall_mem_singleton.2 h
  rw [Alphabet.spell_chars]
  exact .anyOf htexts

theorem texts {texts : List (List Char)} (h : ∀ text ∈ texts, standIn ∉ text) :
    Mirrors (.anyOf (texts.map spell)) (.anyOf (texts.map spell)) := by
  rw [funext Alphabet.spell_chars, List.map_id']
  exact .anyOf h

theorem lineStart : Mirrors .lineStart .lineStart :=
  .place fun before _ ↦ Alphabet.all_eq_feed_look before

theorem lineEnd : Mirrors .lineEnd .lineEnd :=
  .place fun _ next ↦ Alphabet.all_eq_feed_look next

theorem boundary (hword : isWord standIn = false) : Mirrors .boundary .boundary := by
  refine .place fun before next ↦ ?_
  rw [Alphabet.any_is_look hword before, Alphabet.any_is_look hword next]

end Element.Mirrors

/-- A symbol of a class that has to occur, any number of times. -/
theorem mirrors_some {accepts : Char → Bool} (h : accepts standIn = false)
    {elements : Pattern CodePoint} {elements' : Pattern Char}
    (helements : List.Forall₂ Element.Mirrors elements elements') :
    List.Forall₂ Element.Mirrors (.one (is accepts) :: .run (is accepts) :: elements)
      (.one (is accepts) :: .run (is accepts) :: elements') :=
  .cons (.one (Alphabet.is_look h)) (.cons (.run (Alphabet.is_look h)) helements)

/-- Every pattern of the table is about what is seen. -/
theorem mirrors_patterns :
    List.Forall₂ (fun entry entry' ↦ entry.1 = entry'.1 ∧
      List.Forall₂ Element.Mirrors entry.2 entry'.2) (patterns CodePoint) (patterns Char) := by
  have hword : isWord standIn = false := by decide +kernel
  have hdecimal : isDecimal standIn = false := by decide +kernel
  have hblank : isBlank standIn = false := by decide +kernel
  have hstarts : startsName standIn = false := by decide +kernel
  have hcontinues : continuesName standIn = false := by decide +kernel
  -- words are many, and known not to have the stand-in by how they are spelled
  have hspelling {word : List Char} (h : IsSpelling word) : standIn ∉ word := fun hmem ↦
    Bool.false_ne_true (hword.symm.trans (h.all _ hmem))
  have hboundary := Element.Mirrors.boundary hword
  refine .cons ⟨rfl, ?_⟩ (.cons ⟨rfl, ?_⟩ (.cons ⟨rfl, ?_⟩ (.cons ⟨rfl, ?_⟩ (.cons ⟨rfl, ?_⟩
    (.cons ⟨rfl, ?_⟩ (.cons ⟨rfl, ?_⟩ (.cons ⟨rfl, ?_⟩ (.cons ⟨rfl, ?_⟩ (.cons ⟨rfl, ?_⟩
    (.cons ⟨rfl, ?_⟩ (.cons ⟨rfl, ?_⟩ (.cons ⟨rfl, ?_⟩ (.cons ⟨rfl, ?_⟩ (.cons ⟨rfl, ?_⟩
    .nil))))))))))))))
  · exact .cons (.text (by decide)) (.cons (.run Alphabet.ne_feed_look) (.cons .lineEnd .nil))
  · exact .cons .lineStart (.cons (.texts (by decide))
      (.cons (.run Alphabet.ne_feed_look) (.cons .lineEnd .nil)))
  · exact .cons .lineStart (.cons (.text (by decide))
      (mirrors_some hword (.cons (.text (by decide)) (.cons .lineEnd .nil))))
  · exact .cons .lineStart (mirrors_some (by decide) (.cons .lineEnd .nil))
  · exact .cons .lineStart (.cons (.text (by decide)) (.cons (.run Alphabet.ne_feed_look)
      (.cons (.text (by decide)) (.cons .lineEnd .nil))))
  · exact .cons .lineStart (.cons (.run (Alphabet.is_look hblank)) (mirrors_some hdecimal
      (.cons (.text (by decide)) (.cons (.place fun _ ↦ Alphabet.any_is_look hblank) .nil))))
  · exact .cons (.text (by decide)) (mirrors_some hdecimal .nil)
  · exact .cons (.texts fun _ h ↦ hspelling (isSpelling_of_mem_wideMnemonics h))
      (.cons hboundary .nil)
  · exact .cons (.texts fun _ h ↦ hspelling (isSpelling_of_mem_mnemonics h)) (.cons hboundary .nil)
  · exact .cons hboundary (.cons (.text (hspelling isSpelling_default)) (.cons hboundary .nil))
  · exact .cons (.texts (by decide)) (mirrors_some hdecimal .nil)
  · exact .cons (.one (Alphabet.is_look hstarts)) (.cons (.run (Alphabet.is_look hcontinues))
      (.cons (.repeated (by decide)) .nil))
  · exact .cons (.one (Alphabet.is_look (by decide))) .nil
  · exact mirrors_some hblank .nil
  · exact .cons (.one Alphabet.ne_feed_look) .nil

end Lexer

end ClassInspect
