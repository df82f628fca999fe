import ClassInspect.CharClass.Blank
import ClassInspect.CharClass.Decimal
import ClassInspect.CharClass.Word
import ClassInspect.Highlight.Token
import ClassInspect.Opcode
import ClassInspect.Text.Newline

/-!
# Lexing reports

A report is cut into tokens from left to right. At each position the rules of a table are tried
in order and the first that applies decides the token. A rule sees the character before the
position, the character at it and what follows, and answers how many of the following
characters belong to the token; so every token has at least one character, and since the last
two rules together accept any character, lexing never fails.

A text need not consist of characters (`Alphabet`). The rules then see a character in place of each
of its symbols, one that belongs to no class if the symbol is no character, and the tokens are cut
from the text itself.

Before lexing a text is normalised: a leading byte order mark is dropped, all line ends become
line feeds, those at either end are dropped, and one is added at the end.
-/

namespace ClassInspect

namespace Lexer

open Alphabet (look ofChar)

/-- Where a rule is tried: behind `before`, at `first`, in front of `rest`. -/
structure Position where
  before : Option Char
  first : Char
  rest : List Char

namespace Position

/-- The characters from the position on. -/
def text (p : Position) : List Char :=
  p.first :: p.rest

/-- Whether the position starts a line. -/
def startsLine (p : Position) : Bool :=
  p.before.all (· = '\n')

/-- The characters from the position to the end of the line. -/
def line (p : Position) : List Char :=
  p.text.takeWhile (· ≠ '\n')

/-- The word characters from the position on. -/
def word (p : Position) : List Char :=
  p.text.takeWhile CharClass.isWord

end Position

/-- A rule answers how many characters behind the first one belong to the token. -/
abbrev Rule := Position → Option Nat

/-- A whole line, if it starts here and satisfies a condition. -/
def wholeLine (accepts : List Char → Bool) : Rule := fun p ↦
  if p.startsLine && accepts p.line then some (p.line.length - 1) else none

/-- From two slashes to the end of the line. -/
def comment : Rule := fun p ↦
  if p.line.take 2 = ['/', '/'] then some (p.line.length - 1) else none

/-- The beginnings of the lines that are headings. -/
def headings : List String :=
  ["Bytecode for method:", "Class:", "Superclass:", "Version:", "Interfaces:", "Max stack:",
    "Exception table:"]

/-- A line that starts with the name of a section. -/
def heading : Rule :=
  wholeLine fun line ↦ headings.any fun start ↦ start.toList.isPrefixOf line

/-- A word between three dashes on either side. -/
def isBanner (line : List Char) : Bool :=
  let inner := (line.drop 4).takeWhile CharClass.isWord
  line.take 4 = ['-', '-', '-', ' '] && !inner.isEmpty &&
    (line.drop (4 + inner.length)) = [' ', '-', '-', '-']

/-- A line that is a word between dashes. -/
def banner : Rule := wholeLine isBanner

/-- A line of dashes. -/
def ruler : Rule := wholeLine fun line ↦ !line.isEmpty && line.all (· = '-')

/-- A line in parentheses. -/
def remark : Rule :=
  wholeLine fun line ↦ line.head? = some '(' && line.tail.getLast? = some ')'

/-- A position at the left margin: white space, digits and a colon, in front of more white
space. The white space may hold line feeds. -/
def margin : Rule := fun p ↦
  let blanks := p.text.takeWhile CharClass.isBlank
  let behind := p.text.drop blanks.length
  let digits := behind.takeWhile CharClass.isDecimal
  match behind.drop digits.length with
  | ':' :: next :: _ =>
    if p.startsLine && !digits.isEmpty && CharClass.isBlank next then
      some (blanks.length + digits.length)
    else none
  | _ => none

/-- A constant pool index. -/
def index : Rule := fun p ↦
  let digits := p.rest.takeWhile CharClass.isDecimal
  if p.first = '#' && !digits.isEmpty then some digits.length else none

/-- One of the given words, up to its end. -/
def oneOf (words : List (List Char)) : Rule := fun p ↦
  if words.contains p.word then some (p.word.length - 1) else none

/-- The mnemonics. -/
def mnemonics : List (List Char) :=
  Opcode.all.map (·.mnemonic.toList)

/-- The mnemonics with the mark of wide forms. -/
def wideMnemonics : List (List Char) :=
  mnemonics.map (· ++ ['_', 'w'])

/-- The word for the last case of a switch, which must not start within a word. -/
def fallback : Rule := fun p ↦
  if p.before.all (!CharClass.isWord ·) then oneOf ["default".toList] p else none

/-- A whole number with an optional sign. -/
def number : Rule := fun p ↦
  let digits := p.rest.takeWhile CharClass.isDecimal
  if CharClass.isDecimal p.first then some digits.length
  else if (p.first = '-' || p.first = '+') && !digits.isEmpty then some digits.length
  else none

/-- The number of characters in empty brackets at the front. -/
def brackets : List Char → Nat
  | '[' :: ']' :: rest => brackets rest + 2
  | _ => 0

/-- Whether a name can start with a character. -/
def startsName (c : Char) : Bool :=
  c.isAlpha || c = '_' || c = '$'

/-- Whether a name can go on with a character. -/
def continuesName (c : Char) : Bool :=
  CharClass.isWord c || c = '$' || c = '.'

/-- A name, which may have dots in it and empty brackets behind it. -/
def name : Rule := fun p ↦
  if startsName p.first then
    let inner := p.rest.takeWhile continuesName
    some (inner.length + brackets (p.rest.drop inner.length))
  else none

/-- The marks between other tokens. -/
def marks : List Char :=
  [',', ':', '(', ')', '\x7b', '\x7d', '[', ']', '<', '>', '"']

/-- A mark. -/
def mark : Rule := fun p ↦
  if marks.contains p.first then some 0 else none

/-- White space. -/
def blanks : Rule := fun p ↦
  if CharClass.isBlank p.first then some (p.rest.takeWhile CharClass.isBlank).length else none

/-- Any character within a line. -/
def anything : Rule := fun p ↦
  if p.first ≠ '\n' then some 0 else none

/-- The rules in the order in which they are tried. -/
def rules : List (TokenKind × Rule) :=
  [(.comment, comment),
    (.heading, heading),
    (.subheading, banner),
    (.subheading, ruler),
    (.emphasis, remark),
    (.label, margin),
    (.constant, index),
    (.keyword, oneOf wideMnemonics),
    (.keyword, oneOf mnemonics),
    (.keyword, fallback),
    (.number, number),
    (.name, name),
    (.punctuation, mark),
    (.text, blanks),
    (.text, anything)]

/-- The kind of the token at a position, and how many characters behind the first belong to it,
by the first rule that applies. -/
def choose (p : Position) : TokenKind × Nat :=
  (rules.findSome? fun (kind, rule) ↦ (rule p).map (kind, ·)).getD (.text, 0)

/-- Cuts text behind the character `before` into tokens. `done` holds the tokens so far, last
one first. -/
def lexOnto (done : List (Token Char)) (before : Option Char) (text : List Char) :
    List (Token Char) :=
  match text with
  | [] => done.reverse
  | first :: rest =>
    let (kind, count) := choose ⟨before, first, rest⟩
    let value := first :: rest.take count
    lexOnto (⟨kind, value⟩ :: done) value.getLast? (rest.drop count)
termination_by text.length
decreasing_by
  simp only [List.length_drop, List.length_cons]
  omega

section Alphabet

variable {α : Type} [DecidableEq α] [Alphabet α]

/-- Line feeds are dropped at both ends. -/
def trimFeeds (text : List α) : List α :=
  ((text.dropWhile (· = ofChar '\n')).reverse.dropWhile (· = ofChar '\n')).reverse

/-- The text that is lexed for a text. -/
def normalize (text : List α) : List α :=
  let unmarked := if text.head? = some (ofChar '\ufeff') then text.tail else text
  trimFeeds (Newline.normalize unmarked) ++ [ofChar '\n']

/-- Cuts a text into pieces of the kinds and lengths of tokens. -/
def cutAs : List (Token Char) → List α → List (Token α)
  | [], _ => []
  | token :: tokens, text =>
    ⟨token.kind, text.take token.value.length⟩ :: cutAs tokens (text.drop token.value.length)

/-- The tokens of a text. -/
def tokens (text : List α) : List (Token α) :=
  let lexed := normalize text
  cutAs (lexOnto [] none (lexed.map look)) lexed

end Alphabet

end Lexer

end ClassInspect
