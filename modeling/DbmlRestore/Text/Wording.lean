import DbmlRestore.Text.Quoted

/-!
# Wordings

A string of JSON may escape half of a surrogate pair alone, which is no character. What
such a string holds is a *wording*: a text, or the numbers of its characters and halves
(`Wording.broken`). A broken wording can be compared and shown, but not every codec can
encode it.

Schemas are texts to all that reads and changes them, and to these a half is a character
like a letter of a foreign script. So a broken wording is *carried* by a text
(`Wording.carried`): two characters of private use stand for a half, a mark and a stand-in,
and two marks for the mark itself. No two wordings are carried by the same text, and none
is cut inside of such a pair, as both characters of it are no blanks, quotes, braces or
other signs that a schema is read by. Where no wording is broken, there are no marks, and
each text carries itself.
-/

namespace DbmlRestore

/-- What a string holds. -/
inductive Wording where
  /-- A text. -/
  | text (t : Text)
  /-- The numbers of characters, and of one half of a surrogate pair at least. -/
  | broken (codes : List Nat)
deriving Repr, DecidableEq

namespace Wording

/-- Whether a number is that of half of a surrogate pair. -/
def isHalf (n : Nat) : Bool := 0xD800 ≤ n && n < 0xE000

/-- The wording of the given numbers. -/
def ofCodes (codes : List Nat) : Wording :=
  if codes.any isHalf then .broken codes else .text (codes.map Char.ofNat)

/-- The numbers of the characters and halves. -/
def codes : Wording → List Nat
  | .text t => t.map Char.toNat
  | .broken codes => codes

/-- Whether it is no text. -/
def isBroken : Wording → Bool
  | .text _ => false
  | .broken _ => true

@[simp] theorem isBroken_text (t : Text) : (text t).isBroken = false := rfl

/-- Whether there is nothing in it. -/
def isEmpty : Wording → Bool
  | .text t => t.isEmpty
  | .broken codes => codes.isEmpty

/-! ## As a text -/

/-- The text to be printed, with the replacement character for each half. -/
def visible : Wording → Text
  | .text t => t
  | .broken codes => codes.map fun n => if isHalf n then '\uFFFD' else Char.ofNat n

/-- A number between the quotes `mark`; a half is escaped. -/
def quotedCode (mark : Char) (n : Nat) : Text :=
  if isHalf n then '\\' :: 'u' :: Text.hex 4 n else Text.quotedChar mark (Char.ofNat n)

/-- A wording between quotes. -/
def quoted : Wording → Text
  | .text t => Text.quoted t
  | .broken codes =>
    let mark := Text.quoteMark (broken codes).visible
    mark :: codes.flatMap (quotedCode mark) ++ [mark]

/-! ## Carried by a text -/

/-- The number of the mark. -/
def markCode : Nat := 0x10FFFF

/-- The distance from a half to its stand-in. -/
def standInOffset : Nat := 0x100000

/-- The numbers of the characters that a number is carried by. -/
def carriers (n : Nat) : List Nat :=
  if isHalf n then [markCode, standInOffset + n]
  else if n = markCode then [markCode, markCode]
  else [n]

/-- The numbers that are carried by characters of the given numbers. -/
def uncarried : List Nat → List Nat
  | [] => []
  | [m] => [m]
  | m :: n :: ns =>
    if m = markCode then (if n = markCode then markCode else n - standInOffset) :: uncarried ns
    else m :: uncarried (n :: ns)

/-- The text that carries a wording, with marks, or the text that it is. -/
def carried (marked : Bool) (w : Wording) : Text :=
  if marked then (w.codes.flatMap carriers).map Char.ofNat else w.visible

/-- The wording that a text carries, with marks, or the text itself. -/
def ofCarried (marked : Bool) (t : Text) : Wording :=
  if marked then ofCodes (uncarried (t.map Char.toNat)) else .text t

end Wording

end DbmlRestore
