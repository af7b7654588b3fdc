import DbmlRestore.Text.Width.Classes

/-!
# Width

The columns that a text takes on a terminal. Most characters have a width of their own
(`Text.charWidth`), but two of them say how others are shown: a *joiner* joins the next
character to the one before it, so that it takes no column, and an *emoji selector* asks
that the character before it be shown as a picture, which may be wider.

A *cluster* is what is shown at one place: a character that takes columns, with all that
is joined to it. A text is cut only between clusters (`Text.clusters`).
-/

namespace DbmlRestore

namespace Text

/-- The character that joins the next one to the one before it. -/
def joiner : Char := '\u200d'

/-- The character that asks for the one before it as a picture. -/
def emojiSelector : Char := '\ufe0f'

/-- The columns of a character. -/
def charWidth (c : Char) : Nat :=
  if 0x20 ≤ c.toNat && c.toNat < 0x7F then 1
  else if wide.holds c then 2
  else if zeroWidth.holds c then 0
  else 1

/-- The columns that an emoji selector adds after the given character. -/
def selectorWidth (last : Option Char) : Nat :=
  if last.any widened.holds then 1 else 0

/-- The columns of what is left of a text; `last` is the character before it that takes
    columns and has not been selected. -/
def widthFrom (last : Option Char) : Text → Nat
  | [] => 0
  | c :: t =>
    if c = joiner then
      match t with
      | [] => 0
      | _ :: t => widthFrom last t
    else if c = emojiSelector then selectorWidth last + widthFrom none t
    else
      let w := charWidth c
      w + widthFrom (if w = 0 then last else some c) t

/-- The columns of a text. -/
def width (t : Text) : Nat := widthFrom none t

/-! ## Clusters -/

/-- What is shown at one place. -/
structure Cluster where
  /-- Its characters. -/
  text : Text
  /-- Its columns. -/
  width : Nat
deriving Repr, DecidableEq

/-- A cluster with more characters, which add the given number of columns. -/
def Cluster.append (k : Cluster) (t : Text) (w : Nat) : Cluster :=
  { text := k.text ++ t, width := k.width + w }

/-- The clusters of what is left of a text; `current` is the cluster before it, and
    `last` its character that takes columns, unless it has been selected. At the start of
    a text there is nothing to be joined to: what takes no column there is a cluster of
    its own. -/
def clustersFrom (last : Option Char) (current : Option Cluster) : Text → List Cluster
  | [] => current.toList
  | c :: t =>
    let joined (w : Nat) := current.elim ⟨[c], 0⟩ (·.append [c] w)
    if c = joiner then
      match current, t with
      | some k, d :: t => clustersFrom last (some (k.append [c, d] 0)) t
      | _, t => clustersFrom last (some (joined 0)) t
    else if c = emojiSelector then
      let w := selectorWidth last
      clustersFrom (if w = 0 then last else none) (some (joined w)) t
    else
      let w := charWidth c
      if w = 0 then clustersFrom last (some (joined 0)) t
      else current.toList ++ clustersFrom (some c) (some ⟨[c], w⟩) t

/-- The clusters of a text. -/
def clusters (t : Text) : List Cluster := clustersFrom none none t

end Text

end DbmlRestore
