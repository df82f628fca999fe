/-!
# Tokens of reports

The pieces that a report is cut into for colouring.
-/

namespace ClassInspect

/-- What a token is. -/
inductive TokenKind where
  | comment
  | heading
  | subheading
  | emphasis
  | label
  | constant
  | keyword
  | number
  | name
  | punctuation
  | text
  deriving DecidableEq, Repr

/-- A piece of text of one kind. -/
structure Token (α : Type) where
  kind : TokenKind
  value : List α
  deriving DecidableEq, Repr

end ClassInspect
