import DbmlRestore.Text

/-!
# Positions

A place in a text as it is told to the user: the line, and the character on it,
both counted from one. A reader that works on the rest of a text gives the place
by what it has read so far (`Position.after`).
-/

namespace DbmlRestore

/-- A place in a text: the line, and the character on it, both from one. -/
structure Position where
  /-- The line. -/
  line : Nat
  /-- The character on the line. -/
  column : Nat
deriving Repr, DecidableEq

namespace Position

/-- The position after a text. -/
def after (t : Text) : Position :=
  ⟨t.count '\n' + 1, (t.reverse.takeWhile (· != '\n')).length + 1⟩

/-- The position in `whole` at which `rest`, an end of it, starts. -/
def ofRest (whole rest : Text) : Position :=
  after (whole.take (whole.length - rest.length))

end Position

end DbmlRestore
