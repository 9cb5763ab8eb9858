/-!
# Ranges of characters

A property of characters written as a table: the ranges, in ascending order of code, of the
characters that have it.
-/

namespace LazyHub.Text

/-- Ranges of character codes, each from its first code to its last. -/
abbrev Ranges := List (Nat × Nat)

/-- Whether the code of a character lies in one of the ranges. -/
def Ranges.covers (table : Ranges) (c : Char) : Bool :=
  table.any fun (first, last) => first ≤ c.toNat && c.toNat ≤ last

end LazyHub.Text
