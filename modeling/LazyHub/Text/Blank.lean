import LazyHub.Text.Ranges

/-!
# Blanks

The characters with the Unicode property `White_Space`, and the removal of those at the ends of
a text.
-/

namespace LazyHub.Text.Blank

/-- The characters that count as blank. -/
def table : Ranges :=
  [
    (0x9, 0xd), (0x20, 0x20), (0x85, 0x85), (0xa0, 0xa0), (0x1680, 0x1680), (0x2000, 0x200a),
    (0x2028, 0x2029), (0x202f, 0x202f), (0x205f, 0x205f), (0x3000, 0x3000)
  ]

/-- Whether a character counts as blank. -/
def isBlank (c : Char) : Bool := table.covers c

/-- A text without the blanks at its start. -/
def trimStart (s : List Char) : List Char := s.dropWhile isBlank

/-- A text without the blanks at its end. -/
def trimEnd (s : List Char) : List Char := (trimStart s.reverse).reverse

/-- A text without the blanks at its ends. -/
def trim (s : List Char) : List Char := trimEnd (trimStart s)

end LazyHub.Text.Blank
