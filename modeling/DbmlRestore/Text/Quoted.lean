import DbmlRestore.Text.Printable

/-!
# Quoted texts

A text as a message shows it: between quotes, with a backslash before a quote or
a backslash, and with the characters that are not printable escaped by number.
The quotes are single, unless the text has a single quote and no double one.
-/

namespace DbmlRestore

namespace Text

/-- A number in base sixteen with at least `width` digits. -/
def hex (width n : Nat) : Text :=
  let digits := Nat.toDigits 16 n
  List.replicate (width - digits.length) '0' ++ digits

/-- A number in base ten with at least `width` digits. -/
def padded (width n : Nat) : Text :=
  let digits := ofNat n
  List.replicate (width - digits.length) '0' ++ digits

/-- The escape for the number of a character. -/
def escapeNumber (n : Nat) : Text :=
  if n < 0x100 then '\\' :: 'x' :: hex 2 n
  else if n < 0x10000 then '\\' :: 'u' :: hex 4 n
  else '\\' :: 'U' :: hex 8 n

/-- A character between the quotes `mark`. -/
def quotedChar (mark c : Char) : Text :=
  if c = mark ∨ c = '\\' then ['\\', c]
  else if c = '\n' then ['\\', 'n']
  else if c = '\r' then ['\\', 'r']
  else if c = '\t' then ['\\', 't']
  else if isPrintable c then [c]
  else escapeNumber c.toNat

/-- The quotes for a text. -/
def quoteMark (t : Text) : Char :=
  if t.contains '\x27' && !t.contains '"' then '"' else '\x27'

/-- A text between quotes. -/
def quoted (t : Text) : Text :=
  let mark := quoteMark t
  mark :: t.flatMap (quotedChar mark) ++ [mark]

/-! ## Groups -/

/-- Several texts between quotes as a group in parentheses; a group of one has a
    comma after it. -/
def quotedGroup : List Text → Text
  | [t] => '(' :: quoted t ++ [',', ')']
  | ts => '(' :: joined [',', ' '] (ts.map quoted) ++ [')']

end Text

end DbmlRestore
