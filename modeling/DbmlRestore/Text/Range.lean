import DbmlRestore.Text

/-!
# Ranges of characters

A property of characters is given by the ranges of the numbers of its characters,
in ascending order.
-/

namespace DbmlRestore

namespace Text

/-- Ranges of character numbers, both ends included. -/
abbrev Ranges := List (Nat × Nat)

/-- Whether a character is in one of the ranges. -/
def Ranges.holds (rs : Ranges) (c : Char) : Bool :=
  rs.any fun (first, last) => first ≤ c.toNat && c.toNat ≤ last

end Text

end DbmlRestore
