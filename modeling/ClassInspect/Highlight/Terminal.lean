import ClassInspect.Highlight.Lexer

/-!
# Colouring for a terminal

A token with a colour is written between escape sequences, line by line, so that no colour
reaches over a line feed. Lines within a token end at any line break, of which only line feeds
stay outside the colour. Nothing but these sequences is added, and nothing is left out.
-/

namespace ClassInspect

/-- The escape sequences that start the colour of a kind of token. -/
def TokenKind.colour? : TokenKind → Option String
  | comment => some "\x1b[37m"
  | keyword | number => some "\x1b[34m"
  | constant => some "\x1b[31m"
  | heading => some "\x1b[01m"
  | subheading => some "\x1b[01m\x1b[35m"
  | emphasis | label | name | punctuation | text => none

namespace Terminal

open Alphabet (is ofChar spell)

/-- The escape sequence that ends a colour. -/
def reset : String := "\x1b[39;49;00m"

/-- Whether a line ends with a character. -/
def isBreak (c : Char) : Bool :=
  ['\n', '\x0b', '\x0c', '\x1c', '\x1d', '\x1e', '\u0085', '\u2028', '\u2029'].contains c

variable {α : Type} [Alphabet α]

/-- Cuts a text behind its line breaks. `current` holds the symbols of the current line, last one
first. -/
def cutLines (current : List α) : List α → List (List α)
  | [] => if current.isEmpty then [] else [current.reverse]
  | c :: rest =>
    if is isBreak c then (c :: current).reverse :: cutLines [] rest
    else cutLines (c :: current) rest

variable [DecidableEq α]

/-- A line in a colour. A line feed at its end stays outside. -/
def paintLine (colour? : Option String) (line : List α) : List α :=
  let fed := line.getLast? = some (ofChar '\n')
  let body := if fed then line.dropLast else line
  let painted :=
    match colour? with
    | some colour => spell colour.toList ++ body ++ spell reset.toList
    | none => body
  if fed then painted ++ [ofChar '\n'] else painted

/-- A token in its colour. -/
def paint (token : Token α) : List α :=
  (cutLines [] token.value).flatMap (paintLine token.kind.colour?)

/-- Tokens in their colours. -/
def format (tokens : List (Token α)) : List α :=
  tokens.flatMap paint

/-- A text in colours. -/
def highlight (text : List α) : List α :=
  format (Lexer.tokens text)

end Terminal

end ClassInspect
