import ClassInspect.CharClass.Range

/-!
# Blank characters

White space is the bidirectional types B, S and WS together with the category Zs: the ASCII
controls from tab to carriage return and from the file to the unit separator, the space, and
the line, paragraph and typographic spaces beyond ASCII.
-/

namespace ClassInspect.CharClass

/-- The ranges of white space. -/
def blanks : List (Nat × Nat) :=
  [(0x9, 0xD), (0x1C, 0x20), (0x85, 0x85), (0xA0, 0xA0), (0x1680, 0x1680), (0x2000, 0x200A),
   (0x2028, 0x2029), (0x202F, 0x202F), (0x205F, 0x205F), (0x3000, 0x3000)]

/-- White space. -/
def isBlank (c : Char) : Bool :=
  inRanges blanks c.toNat

/-- Characters without the white space at their front. -/
def trimLeft (chars : List Char) : List Char :=
  chars.dropWhile isBlank

/-- Characters without the white space at their end. -/
def trimRight (chars : List Char) : List Char :=
  (trimLeft chars.reverse).reverse

/-- Characters without the white space at either end. -/
def trim (chars : List Char) : List Char :=
  trimRight (trimLeft chars)

end ClassInspect.CharClass
