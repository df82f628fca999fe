import ClassInspect.Text.Alphabet

/-!
# Line ends

A line ends with a line feed, a carriage return, or a carriage return and a line feed.
`Newline.normalize` writes all three as a line feed, and `Newline.split` cuts a text at its
line feeds.
-/

namespace ClassInspect.Newline

open Alphabet (ofChar)

section Alphabet

variable {α : Type} [DecidableEq α] [Alphabet α]

/-- Writes every line end as a line feed. `done` holds the symbols so far, last one first. -/
def normalizeOnto (done : List α) : List α → List α
  | [] => done.reverse
  | [c] => ((if c = ofChar '\r' then ofChar '\n' else c) :: done).reverse
  | c :: next :: rest =>
    if c = ofChar '\r' ∧ next = ofChar '\n' then normalizeOnto (next :: done) rest
    else normalizeOnto ((if c = ofChar '\r' then ofChar '\n' else c) :: done) (next :: rest)

/-- Writes every line end as a line feed. -/
def normalize (text : List α) : List α :=
  normalizeOnto [] text

end Alphabet

/-- Cuts at line feeds. `lines` and `current` hold what was found so far, last one first. -/
def splitOnto (lines : List (List Char)) (current : List Char) :
    List Char → List (List Char) × List Char
  | [] => (lines.reverse, current.reverse)
  | c :: rest =>
    if c = '\n' then splitOnto (current.reverse :: lines) [] rest
    else splitOnto lines (c :: current) rest

/-- The lines that end with a line feed, and what stands behind the last one. -/
def split (chars : List Char) : List (List Char) × List Char :=
  splitOnto [] [] chars

end ClassInspect.Newline
