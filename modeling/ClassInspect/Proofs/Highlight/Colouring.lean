import ClassInspect.Highlight.Terminal
import ClassInspect.Proofs.Highlight.Look

/-!
# Colouring keeps the text

A text is cut into tokens without a gap: at every position some rule applies, and each token is the
longest text that the first matching pattern matches there (`Lexer.IsFirstMatch`). This is shown for
what is seen of a text, rule by rule and then token by token (`Lexer.isFirstMatch_of_lexOnto`). The
text itself may have lone surrogates. Its tokens are as long as those seen, and patterns match them
just as well (`Lexer.IsFirstMatch.of_seen`).

So the tokens hold the text. A formatter that only puts escape sequences for colours between pieces
of their values (`Terminal.OnlyWraps`) writes something from which the text is got back by removing
these sequences (`Terminal.uncoloured`). The formatter for the terminal is one of this kind
(`Terminal.onlyWraps_format`).
-/

namespace ClassInspect

namespace Lexer

open Alphabet (look)

variable {before : Option Char} {text : List Char}

/-! ### First matches -/

/-- A token between a symbol and a text is the longest match of its pattern, and no pattern
before that in the table matches anything there. -/
def IsFirstMatch {α : Type} (table : List (TokenKind × Pattern α)) (before : Option α)
    (token : Token α) (behind : List α) : Prop :=
  ∃ earlier pattern later, table = earlier ++ (token.kind, pattern) :: later ∧
    pattern.Matches before token.value behind ∧
    (∀ value rest, token.value ++ behind = value ++ rest → pattern.Matches before value rest →
      value.length ≤ token.value.length) ∧
    ∀ entry ∈ earlier, ∀ value rest, token.value ++ behind = value ++ rest →
      ¬ Pattern.Matches entry.2 before value rest

theorem IsFirstMatch.ne_nil {token : Token Char} {behind : List Char}
    (h : IsFirstMatch (patterns Char) before token behind) : token.value ≠ [] := by
  obtain ⟨earlier, pattern, later, hpatterns, hmatches, -⟩ := h
  have hmem : (token.kind, pattern) ∈ patterns Char := by
    rw [hpatterns]
    exact List.mem_append_right earlier List.mem_cons_self
  exact ne_nil_of_matches hmem hmatches

/-- A pattern in front of the table that matches nothing. -/
theorem IsFirstMatch.cons {α : Type} {table : List (TokenKind × Pattern α)} {before : Option α}
    {token : Token α} {behind : List α} (h : IsFirstMatch table before token behind)
    {entry : TokenKind × Pattern α}
    (hentry : ∀ value rest, token.value ++ behind = value ++ rest →
      ¬ Pattern.Matches entry.2 before value rest) :
    IsFirstMatch (entry :: table) before token behind := by
  obtain ⟨earlier, pattern, later, rfl, hmatches, hlongest, hearlier⟩ := h
  exact ⟨entry :: earlier, pattern, later, rfl, hmatches, hlongest,
    List.forall_mem_cons.2 ⟨hentry, hearlier⟩⟩

/-- The first rule that applies takes the longest match of the first pattern that matches. -/
theorem exists_match_of_findSome? {table : List (TokenKind × Rule)}
    {table' : List (TokenKind × Pattern Char)}
    (htable : List.Forall₂ (fun entry entry' ↦ entry.1 = entry'.1 ∧ Takes entry.2 entry'.2) table
      table')
    {p : Position} {kind : TokenKind} {count : Nat}
    (h : table.findSome? (fun entry ↦ (entry.2 p).map (entry.1, ·)) = some (kind, count)) :
    ∃ value behind, p.text = value ++ behind ∧ value.length = count + 1 ∧
      IsFirstMatch table' p.before ⟨kind, value⟩ behind := by
  induction htable with
  | nil => cases h
  | @cons entry entry' table table' hentry htable ih =>
    obtain ⟨hkind, htakes⟩ := hentry
    rw [List.findSome?_cons] at h
    cases hrule : entry.2 p with
    | none =>
      rw [hrule] at h
      obtain ⟨value, behind, htext, hlength, hfirst⟩ := ih h
      refine ⟨value, behind, htext, hlength, hfirst.cons fun value' rest hsplit hmatches ↦ ?_⟩
      -- where its pattern matches, the rule would have applied
      obtain ⟨_, hsome, -⟩ := htakes.longest (htext.trans hsplit) hmatches
      exact Option.some_ne_none _ (hsome.symm.trans hrule)
    | some taken =>
      rw [hrule] at h
      cases h
      obtain ⟨value, behind, htext, hlength, hmatches⟩ := htakes.sound hrule
      refine ⟨value, behind, htext, hlength, [], entry'.2, table', ?_, hmatches,
        fun value' rest hsplit hmatches' ↦ ?_, List.forall_mem_nil _⟩
      · rw [hkind]
        rfl
      · obtain ⟨_, hsome, hle⟩ := htakes.longest (htext.trans hsplit) hmatches'
        cases hsome.symm.trans hrule
        exact hlength ▸ hle

/-- Some rule applies at every position. -/
theorem exists_findSome? (p : Position) :
    ∃ kind count, rules.findSome? (fun entry ↦ (entry.2 p).map (entry.1, ·)) =
      some (kind, count) := by
  have happlies : ∃ entry ∈ rules, ((entry.2 p).map (entry.1, ·)).isSome = true := by
    by_cases hfeed : p.first = '\n'
    · refine ⟨(.text, blanks), by simp [rules], ?_⟩
      have hblank : CharClass.isBlank p.first = true := hfeed ▸ by decide
      show ((blanks p).map _).isSome = true
      rw [blanks, if_pos hblank]
      rfl
    · refine ⟨(.text, anything), by simp [rules], ?_⟩
      show ((anything p).map _).isSome = true
      rw [anything, if_pos hfeed]
      rfl
  obtain ⟨⟨kind, count⟩, hfind⟩ := Option.isSome_iff_exists.1 (List.findSome?_isSome_iff.2 happlies)
  exact ⟨kind, count, hfind⟩

/-! ### Tokens of a text -/

/-- The first token of a text, and where its other tokens start. -/
theorem exists_first (before : Option Char) (hne : text ≠ []) :
    ∃ token behind, text = token.value ++ behind ∧
      IsFirstMatch (patterns Char) before token behind ∧
      lexOnto [] before text = token :: lexOnto [] token.value.getLast? behind := by
  obtain ⟨first, rest, rfl⟩ := List.exists_cons_of_ne_nil hne
  obtain ⟨kind, count, hfind⟩ := exists_findSome? ⟨before, first, rest⟩
  obtain ⟨value, behind, htext, hlength, hfirst⟩ := exists_match_of_findSome? forall₂_takes hfind
  have hsplit : first :: rest = value ++ behind := htext
  have hvalue : first :: rest.take count = value := by
    rw [← List.take_succ_cons, hsplit, List.take_left' hlength]
  have hbehind : rest.drop count = behind := by
    rw [← List.drop_succ_cons (a := first), hsplit, List.drop_left' hlength]
  refine ⟨⟨kind, value⟩, behind, hsplit, hfirst, ?_⟩
  rw [lexOnto, choose_of_findSome? hfind]
  dsimp only
  rw [hvalue, hbehind, ← List.nil_append [_], lexOnto_append]
  rfl

/-- The tokens hold the text. -/
theorem text_lexOnto (before : Option Char) (text : List Char) :
    Token.text (lexOnto [] before text) = text := by
  induction hlength : text.length using Nat.strong_induction_on generalizing before text with
  | _ length ih =>
    by_cases hne : text = []
    · rw [hne, lexOnto]
      rfl
    · obtain ⟨token, behind, rfl, hfirst, hlex⟩ := exists_first before hne
      have hlt : behind.length < length := by
        have := List.length_pos_iff.2 hfirst.ne_nil
        rw [List.length_append] at hlength
        omega
      rw [hlex, Token.text_cons, ih behind.length hlt _ behind rfl]

theorem ne_nil_of_lexOnto {token : Token Char} {tokens : List (Token Char)}
    (h : lexOnto [] before text = token :: tokens) : text ≠ [] := by
  rintro rfl
  rw [lexOnto] at h
  cases h

/-- Each token is a first match behind the tokens before it. -/
theorem isFirstMatch_of_lexOnto {front back : List (Token Char)} {token : Token Char}
    (h : lexOnto [] before text = front ++ token :: back) :
    IsFirstMatch (patterns Char) ((Token.text front).getLast?.or before) token
      (Token.text back) := by
  induction front generalizing before text with
  | nil =>
    obtain ⟨first, behind, rfl, hfirst, hlex⟩ := exists_first before (ne_nil_of_lexOnto h)
    obtain ⟨rfl, rfl⟩ := List.cons.inj (hlex.symm.trans h)
    rw [text_lexOnto]
    exact hfirst
  | cons other front ih =>
    obtain ⟨first, behind, rfl, hfirst, hlex⟩ := exists_first before (ne_nil_of_lexOnto h)
    obtain ⟨rfl, hrest⟩ := List.cons.inj (hlex.symm.trans h)
    -- no token is empty, so the last character behind the first token is not one before it
    have hlast : first.value.getLast?.or before = first.value.getLast? := by
      rw [List.getLast?_eq_some_getLast hfirst.ne_nil, Option.some_or]
    rw [Token.text_cons, List.getLast?_append, Option.or_assoc, hlast]
    exact ih hrest

/-! ### Tokens of code points -/

/-- What is seen of a token. -/
def seen (token : Token CodePoint) : Token Char :=
  ⟨token.kind, token.value.map look⟩

theorem text_map_seen (tokens : List (Token CodePoint)) :
    Token.text (tokens.map seen) = (Token.text tokens).map look := by
  rw [Token.text, Token.text, List.flatMap_map, List.map_flatMap]
  rfl

/-- Each token that is cut has the kind and the looks of the one that was found. -/
theorem map_seen_cutAs {tokens : List (Token Char)} {text : Text}
    (h : Token.text tokens = text.map look) : (cutAs tokens text).map seen = tokens := by
  induction tokens generalizing text with
  | nil => rfl
  | cons token tokens ih =>
    rw [Token.text_cons] at h
    obtain ⟨front, rest, rfl, hfront, hrest⟩ := List.map_eq_append_iff.1 h.symm
    have hlength : token.value.length = front.length := by rw [← hfront, List.length_map]
    rw [cutAs, hlength, List.take_left, List.drop_left, List.map_cons, ih hrest.symm, seen, hfront]

/-- Cutting leaves nothing out. -/
theorem text_cutAs {tokens : List (Token Char)} {text : Text}
    (h : Token.text tokens = text.map look) : Token.text (cutAs tokens text) = text := by
  induction tokens generalizing text with
  | nil => exact (List.map_eq_nil_iff.1 h.symm).symm
  | cons token tokens ih =>
    rw [Token.text_cons] at h
    obtain ⟨front, rest, rfl, hfront, hrest⟩ := List.map_eq_append_iff.1 h.symm
    have hlength : token.value.length = front.length := by rw [← hfront, List.length_map]
    rw [cutAs, hlength, List.take_left, List.drop_left, Token.text_cons, ih hrest.symm]

/-- A token is a first match if it is one in what is seen. -/
theorem IsFirstMatch.of_seen {table : List (TokenKind × Pattern CodePoint)}
    {table' : List (TokenKind × Pattern Char)}
    (htable : List.Forall₂ (fun entry entry' ↦ entry.1 = entry'.1 ∧
      List.Forall₂ Element.Mirrors entry.2 entry'.2) table table')
    {before : Option CodePoint} {token : Token CodePoint} {behind : Text}
    (h : IsFirstMatch table' (before.map look) (seen token) (behind.map look)) :
    IsFirstMatch table before token behind := by
  have hseen {value rest : Text} (hsplit : token.value ++ behind = value ++ rest) :
      (seen token).value ++ behind.map look = value.map look ++ rest.map look := by
    rw [seen, ← List.map_append, ← List.map_append, hsplit]
  induction htable with
  | nil =>
    obtain ⟨earlier, pattern, later, hnil, -⟩ := h
    cases earlier <;> cases hnil
  | @cons entry entry' table table' hentry _ ih =>
    obtain ⟨hkind, hmirrors⟩ := hentry
    obtain ⟨earlier, pattern, later, hsplit, hmatches, hlongest, hearlier⟩ := h
    cases earlier with
    | nil =>
      obtain ⟨rfl, -⟩ := List.cons.inj hsplit
      refine ⟨[], entry.2, table, ?_, (Pattern.matches_map_look hmirrors).2 hmatches,
        fun value rest hplace hother ↦ ?_, List.forall_mem_nil _⟩
      · exact congrArg (· :: table) (Prod.ext hkind rfl)
      · have hle := hlongest _ _ (hseen hplace) ((Pattern.matches_map_look hmirrors).1 hother)
        rwa [seen, List.length_map, List.length_map] at hle
    | cons other earlier =>
      obtain ⟨rfl, hrest⟩ := List.cons.inj hsplit
      obtain ⟨hfirst, hearlier⟩ := List.forall_mem_cons.1 hearlier
      have hbehind := ih ⟨earlier, pattern, later, hrest, hmatches, hlongest, hearlier⟩
      refine hbehind.cons fun value rest hplace hother ↦ ?_
      exact hfirst _ _ (hseen hplace) ((Pattern.matches_map_look hmirrors).1 hother)

theorem tokens_eq (text : Text) :
    tokens text = cutAs (lexOnto [] none ((normalize text).map look)) (normalize text) :=
  rfl

/-- The tokens hold the text that is lexed. -/
theorem text_tokens (text : Text) : Token.text (tokens text) = normalize text :=
  text_cutAs (text_lexOnto none _)

/-- Each token of a text is a first match behind the tokens before it. -/
theorem isFirstMatch_of_tokens {text : Text} {front back : List (Token CodePoint)}
    {token : Token CodePoint} (h : tokens text = front ++ token :: back) :
    IsFirstMatch (patterns CodePoint) (Token.text front).getLast? token (Token.text back) := by
  have hseen : lexOnto [] none ((normalize text).map look) =
      front.map seen ++ seen token :: back.map seen := by
    rw [← List.map_cons, ← List.map_append, ← h, tokens_eq]
    exact (map_seen_cutAs (text_lexOnto none _)).symm
  have hfirst := isFirstMatch_of_lexOnto hseen
  rw [Option.or_none, text_map_seen, text_map_seen, List.getLast?_map] at hfirst
  exact .of_seen mirrors_patterns hfirst

theorem ne_nil_of_mem_tokens {text : Text} {token : Token CodePoint} (h : token ∈ tokens text) :
    token.value ≠ [] := by
  have hmem : seen token ∈ lexOnto [] none ((normalize text).map look) := by
    rw [← map_seen_cutAs (text_lexOnto none _)]
    exact List.mem_map_of_mem h
  obtain ⟨front, back, hsplit⟩ := List.append_of_mem hmem
  intro hnil
  exact (isFirstMatch_of_lexOnto hsplit).ne_nil (List.map_eq_nil_iff.2 hnil)

/-! ### Lexed text -/

theorem mem_of_mem_trimFeeds {text : Text} {c : CodePoint} (h : c ∈ trimFeeds text) :
    c ∈ text := by
  have hreverse := (List.dropWhile_sublist _).subset (List.mem_reverse.1 h)
  exact (List.dropWhile_sublist _).subset (List.mem_reverse.1 hreverse)

/-- Apart from line feeds, only code points of a text are lexed for it. -/
theorem mem_normalize {text : Text} {c : CodePoint} (h : c ∈ normalize text) :
    c = .char '\n' ∨ c ∈ text := by
  unfold normalize at h
  rcases List.mem_append.1 h with hmem | hfeed
  · rcases Newline.mem_normalize (mem_of_mem_trimFeeds hmem) with hfeed | hmem
    · exact .inl hfeed
    · split at hmem
      · exact .inr (List.mem_of_mem_tail hmem)
      · exact .inr hmem
  · exact .inl (List.mem_singleton.1 hfeed)

end Lexer

namespace Terminal

open Alphabet (is ofChar spell)

/-! ### Removing colours -/

/-- The characters between the bracket and the end of an escape sequence for colours. -/
def isColourCode (c : Char) : Bool :=
  c.isDigit || c = ';'

/-- An escape sequence for colours: an escape character, a bracket, numbers with semicolons between
them and an `m`. -/
def IsColour (sequence : Text) : Prop :=
  ∃ codes : List Char, codes.all isColourCode = true ∧
    sequence = spell ('\x1b' :: '[' :: codes ++ ['m'])

/-- The text behind an escape sequence for colours. -/
def behindColour? : Text → Option Text
  | .char '\x1b' :: .char '[' :: rest =>
    match rest.dropWhile (is isColourCode) with
    | .char 'm' :: behind => some behind
    | _ => none
  | _ => none

theorem length_of_behindColour? {text behind : Text} (h : behindColour? text = some behind) :
    behind.length < text.length := by
  unfold behindColour? at h
  split at h
  case h_2 => cases h
  case h_1 rest =>
    split at h
    case h_2 => cases h
    case h_1 hrest =>
      cases h
      have hle := List.length_dropWhile_le (is isColourCode) rest
      rw [hrest] at hle
      simp only [List.length_cons] at hle ⊢
      omega

theorem behindColour?_eq_none {c : CodePoint} (h : c ≠ .char '\x1b') (rest : Text) :
    behindColour? (c :: rest) = none := by
  unfold behindColour?
  split
  case h_1 heq => exact absurd (List.cons.inj heq).1 h
  case h_2 => rfl

theorem IsColour.behindColour? {sequence : Text} (h : IsColour sequence) (rest : Text) :
    behindColour? (sequence ++ rest) = some rest := by
  obtain ⟨codes, hcodes, rfl⟩ := h
  have hcodes' : ∀ c ∈ (spell codes : Text), is isColourCode c = true := by
    intro c hc
    obtain ⟨code, hcode, rfl⟩ := List.mem_map.1 hc
    exact List.all_eq_true.1 hcodes code hcode
  have hdrop : ((spell codes : Text) ++ .char 'm' :: rest).dropWhile (is isColourCode) =
      .char 'm' :: rest := by
    rw [List.dropWhile_append_of_pos hcodes']
    exact List.dropWhile_cons_of_neg (by decide)
  have htext : spell ('\x1b' :: '[' :: codes ++ ['m']) ++ rest =
      .char '\x1b' :: .char '[' :: (spell codes ++ .char 'm' :: rest) := by
    simp [spell, ofChar]
  rw [htext, Terminal.behindColour?, hdrop]
  rfl

/-- The text without its escape sequences for colours. -/
def uncoloured (text : Text) : Text :=
  match h : behindColour? text with
  | some behind =>
    have := length_of_behindColour? h
    uncoloured behind
  | none =>
    match text with
    | [] => []
    | c :: rest => c :: uncoloured rest
termination_by text.length

theorem uncoloured_of_behindColour? {text behind : Text}
    (h : behindColour? text = some behind) : uncoloured text = uncoloured behind := by
  rw [uncoloured]
  split
  case h_1 behind' h' =>
    cases h.symm.trans h'
    rfl
  case h_2 h' => cases h.symm.trans h'

theorem uncoloured_nil : uncoloured [] = [] := by
  rw [uncoloured]
  rfl

theorem uncoloured_cons {c : CodePoint} (h : c ≠ .char '\x1b') (rest : Text) :
    uncoloured (c :: rest) = c :: uncoloured rest := by
  rw [uncoloured]
  split
  case h_1 h' => cases (behindColour?_eq_none h rest).symm.trans h'
  case h_2 => rfl

theorem uncoloured_append {front : Text} (h : .char '\x1b' ∉ front) (rest : Text) :
    uncoloured (front ++ rest) = front ++ uncoloured rest := by
  induction front with
  | nil => rfl
  | cons c front ih =>
    obtain ⟨hc, hfront⟩ := not_or.1 (List.mem_cons.not.1 h)
    rw [List.cons_append, uncoloured_cons (Ne.symm hc), ih hfront, List.cons_append]

/-! ### Formatters -/

/-- The second text is the first one, with escape sequences for colours between pieces of it. -/
inductive Wraps : Text → Text → Prop
  | nil : Wraps [] []
  | piece (piece : Text) {plain written : Text} (h : Wraps plain written) :
    Wraps (piece ++ plain) (piece ++ written)
  | colour {sequence plain written : Text} (hsequence : IsColour sequence)
    (h : Wraps plain written) : Wraps plain (sequence ++ written)

/-- The formatter writes the values of the tokens, and nothing between pieces of them but escape
sequences for colours. -/
def OnlyWraps (format : List (Token CodePoint) → Text) : Prop :=
  ∀ tokens, Wraps (Token.text tokens) (format tokens)

namespace Wraps

variable {plain plain' written written' : Text}

theorem append (h : Wraps plain written) (h' : Wraps plain' written') :
    Wraps (plain ++ plain') (written ++ written') := by
  induction h with
  | nil => exact h'
  | piece piece _ ih =>
    rw [List.append_assoc, List.append_assoc]
    exact .piece piece ih
  | colour hsequence _ ih =>
    rw [List.append_assoc]
    exact .colour hsequence ih

/-- Pieces that are written one by one. -/
theorem flatMap {α : Type} {pieces : List α} {plain written : α → Text}
    (h : ∀ piece ∈ pieces, Wraps (plain piece) (written piece)) :
    Wraps (pieces.flatMap plain) (pieces.flatMap written) := by
  induction pieces with
  | nil => exact .nil
  | cons piece pieces ih =>
    obtain ⟨hpiece, hpieces⟩ := List.forall_mem_cons.1 h
    exact hpiece.append (ih hpieces)

/-- Without the escape sequences, the text is what it was before, if there was no escape character
in it. -/
theorem uncoloured_eq (h : Wraps plain written) (hplain : .char '\x1b' ∉ plain) :
    uncoloured written = plain := by
  induction h with
  | nil => exact uncoloured_nil
  | piece piece _ ih =>
    obtain ⟨hpiece, hrest⟩ := not_or.1 (List.mem_append.not.1 hplain)
    rw [uncoloured_append hpiece, ih hrest]
  | colour hsequence _ ih => rw [uncoloured_of_behindColour? (hsequence.behindColour? _), ih hplain]

end Wraps

/-! ### Colours of tokens -/

theorem isColour_reset : IsColour (spell reset.toList) :=
  ⟨"39;49;00".toList, rfl, rfl⟩

/-- The colour of a token is one escape sequence or two. -/
theorem Wraps.colour_of_kind {kind : TokenKind} {colour : String} (h : kind.colour? = some colour)
    {plain written : Text} (hwraps : Wraps plain written) :
    Wraps plain (spell colour.toList ++ written) := by
  have hsequence (codes : List Char) (hcodes : codes.all isColourCode = true)
      {written : Text} (hwraps : Wraps plain written) :
      Wraps plain (spell ('\x1b' :: '[' :: codes ++ ['m']) ++ written) :=
    .colour ⟨codes, hcodes, rfl⟩ hwraps
  cases kind <;> cases h
  case subheading =>
    exact hsequence ['0', '1'] rfl (hsequence ['3', '5'] rfl hwraps)
  case comment => exact hsequence ['3', '7'] rfl hwraps
  case keyword => exact hsequence ['3', '4'] rfl hwraps
  case number => exact hsequence ['3', '4'] rfl hwraps
  case constant => exact hsequence ['3', '1'] rfl hwraps
  case heading => exact hsequence ['0', '1'] rfl hwraps

/-- A line consists of what is coloured and a line feed that is not, or of the first alone. -/
theorem exists_paintLine (line : Text) : ∃ body feed, line = body ++ feed ∧
    paintLine none line = body ++ feed ∧ ∀ colour : String,
      paintLine (some colour) line = spell colour.toList ++ body ++ spell reset.toList ++ feed := by
  by_cases hfed : line.getLast? = some (ofChar '\n')
  · refine ⟨line.dropLast, [ofChar '\n'], (List.dropLast_append_getLast? _ hfed).symm, ?_,
      fun colour ↦ ?_⟩
    · simp only [paintLine, hfed, if_true]
    · simp only [paintLine, hfed, if_true]
  · refine ⟨line, [], (List.append_nil _).symm, ?_, fun colour ↦ ?_⟩
    · simp only [paintLine, hfed, if_false, List.append_nil]
    · simp only [paintLine, hfed, if_false, List.append_nil]

theorem wraps_paintLine (kind : TokenKind) (line : Text) :
    Wraps line (paintLine kind.colour? line) := by
  have hplain (text : Text) : Wraps text text := by
    simpa using Wraps.nil.piece text
  obtain ⟨body, feed, rfl, hnone, hsome⟩ := exists_paintLine line
  cases hcolour : kind.colour? with
  | none =>
    rw [hnone]
    exact hplain _
  | some colour =>
    simp only [hsome, List.append_assoc]
    exact .colour_of_kind hcolour (.piece body (.colour isColour_reset (hplain feed)))

theorem flatten_cutLines (current text : Text) :
    (cutLines current text).flatten = current.reverse ++ text := by
  induction text generalizing current with
  | nil =>
    rw [cutLines]
    split
    case isTrue hnil => rw [List.isEmpty_iff.1 hnil]; rfl
    case isFalse => rw [List.flatten_cons, List.flatten_nil]
  | cons c rest ih =>
    rw [cutLines]
    split
    · rw [List.flatten_cons, ih, List.reverse_cons, List.append_assoc]
      rfl
    · rw [ih, List.reverse_cons, List.append_assoc]
      rfl

theorem wraps_paint (token : Token CodePoint) : Wraps token.value (paint token) := by
  have hlines : Wraps ((cutLines [] token.value).flatMap id) (paint token) :=
    Wraps.flatMap fun line _ ↦ wraps_paintLine token.kind line
  rwa [List.flatMap_id, flatten_cutLines] at hlines

/-- The formatter for the terminal only wraps pieces of tokens. -/
theorem onlyWraps_format : OnlyWraps format :=
  fun _ ↦ Wraps.flatMap fun token _ ↦ wraps_paint token

theorem not_mem_text_tokens {text : Text} (h : .char '\x1b' ∉ text) :
    .char '\x1b' ∉ Token.text (Lexer.tokens text) := by
  rw [Lexer.text_tokens]
  intro hmem
  rcases Lexer.mem_normalize hmem with hfeed | hmem
  · cases hfeed
  · exact h hmem

/-- Without its colours, what a formatter writes is the text that was lexed. -/
theorem OnlyWraps.uncoloured_eq {format : List (Token CodePoint) → Text}
    (hformat : OnlyWraps format) {text : Text} (h : .char '\x1b' ∉ text) :
    uncoloured (format (Lexer.tokens text)) = Lexer.normalize text := by
  rw [← Lexer.text_tokens]
  exact (hformat _).uncoloured_eq (not_mem_text_tokens h)

theorem uncoloured_highlight {text : Text} (h : .char '\x1b' ∉ text) :
    uncoloured (highlight text) = Lexer.normalize text :=
  onlyWraps_format.uncoloured_eq h

/-- **Colouring keeps the text.** Every token is the longest match of the first pattern that matches
anything in its place, and has something in it. The tokens together are the lexed text. Whatever
formatter they are given to, if it only puts escape sequences for colours between pieces of their
values, then without these sequences what it writes is the lexed text again, unless there were
escape characters in the text before. The formatter for the terminal is such a formatter. -/
theorem highlight_keeps_text (text : Text) :
    (∀ token ∈ Lexer.tokens text, token.value ≠ []) ∧
      (∀ front token back, Lexer.tokens text = front ++ token :: back →
        Lexer.IsFirstMatch (Lexer.patterns CodePoint) (Token.text front).getLast? token
          (Token.text back)) ∧
      Token.text (Lexer.tokens text) = Lexer.normalize text ∧
      (∀ format : List (Token CodePoint) → Text, OnlyWraps format → .char '\x1b' ∉ text →
        uncoloured (format (Lexer.tokens text)) = Lexer.normalize text) ∧
      (.char '\x1b' ∉ text → uncoloured (highlight text) = Lexer.normalize text) := by
  refine ⟨fun token ↦ Lexer.ne_nil_of_mem_tokens, fun _ _ _ ↦ Lexer.isFirstMatch_of_tokens,
    Lexer.text_tokens text, fun format hformat hplain ↦ ?_, uncoloured_highlight⟩
  exact hformat.uncoloured_eq hplain

/-- A report with a byte order mark, a banner, a lone surrogate and two styles of line ends. -/
def sampleReport : Text :=
  Text.lit "\ufeff--- Code ---\r\n0: nop\r1: ldc #2 // " ++ [.lone 5] ++ Text.lit "\r"

/-- In colours, this report is what is lexed for it, with colours. -/
theorem highlight_keeps_text_sample :
    OnlyWraps format ∧ .char '\x1b' ∉ sampleReport ∧ uncoloured (highlight sampleReport) =
      Text.lit "--- Code ---\n0: nop\n1: ldc #2 // " ++ [.lone 5] ++ Text.lit "\n" := by
  have hplain : .char '\x1b' ∉ sampleReport := by decide
  have hnormal : Lexer.normalize sampleReport =
      Text.lit "--- Code ---\n0: nop\n1: ldc #2 // " ++ [.lone 5] ++ Text.lit "\n" := by
    decide +kernel
  exact ⟨onlyWraps_format, hplain,
    ((highlight_keeps_text sampleReport).2.2.2.1 format onlyWraps_format hplain).trans hnormal⟩

end Terminal

end ClassInspect
