import DbmlRestore.Cli.Style.Color
import DbmlRestore.Text.LowerCase

/-!
# Styles

A style is written as words between blanks:

* the name of an attribute, which it sets, and `not` with the name of an attribute, which
  it takes away; some attributes also have a short name (`Attribute.short?`);
* a colour, and `on` with the colour of the background;
* `link` with an address.

Where two words are for the same thing, the later one counts; case does not, except after
`not` and `link`. The style without any words is written `none`.

Styles with the same effect have the same text (`Style.toText`), so what opens and closes a
style can be compared by it (`Style.normal`).
-/

namespace DbmlRestore

namespace Cli

/-! ## Attributes -/

/-- What a style may do to letters. -/
inductive Attribute where
  /-- Bold letters. -/
  | bold
  /-- Pale letters. -/
  | dim
  /-- Slanted letters. -/
  | italic
  /-- A line below. -/
  | underline
  /-- Slow blinking. -/
  | blink
  /-- Fast blinking. -/
  | blink2
  /-- The colours of letters and background changed for each other. -/
  | reverse
  /-- Letters that are not seen. -/
  | conceal
  /-- A line through the letters. -/
  | strike
  /-- Two lines below. -/
  | underline2
  /-- A frame. -/
  | frame
  /-- A circle. -/
  | encircle
  /-- A line above. -/
  | overline
deriving Repr, DecidableEq

namespace Attribute

/-- The attributes, in the order in which a style names them. -/
def all : List Attribute :=
  [bold, dim, italic, underline, blink, blink2, reverse, conceal, strike, underline2, frame,
    encircle, overline]

/-- The name of an attribute. -/
def name : Attribute → Text
  | bold => "bold".toList
  | dim => "dim".toList
  | italic => "italic".toList
  | underline => "underline".toList
  | blink => "blink".toList
  | blink2 => "blink2".toList
  | reverse => "reverse".toList
  | conceal => "conceal".toList
  | strike => "strike".toList
  | underline2 => "underline2".toList
  | frame => "frame".toList
  | encircle => "encircle".toList
  | overline => "overline".toList

/-- The short name of an attribute. -/
def short? : Attribute → Option Text
  | bold => some ['b']
  | dim => some ['d']
  | italic => some ['i']
  | underline => some ['u']
  | reverse => some ['r']
  | conceal => some ['c']
  | strike => some ['s']
  | underline2 => some ['u', 'u']
  | overline => some ['o']
  | _ => none

/-- The attribute with a name or short name. -/
def ofName? (t : Text) : Option Attribute :=
  all.find? fun a => a.name = t ∨ a.short? = some t

end Attribute

/-! ## Styles -/

/-- A style. -/
structure Style where
  /-- The attributes that it sets or takes away, the latest word for one first. -/
  attributes : List (Attribute × Bool) := []
  /-- The colour, in lower case. -/
  color : Option Text := none
  /-- The colour of the background, in lower case. -/
  background : Option Text := none
  /-- The address of a link. -/
  link : Option Text := none
deriving Repr, DecidableEq

namespace Style

/-- The words of a text, between blanks. -/
def words (t : Text) : List Text :=
  (t.splitBy fun a b => Text.isBlank a = Text.isBlank b).filter fun w => !w.all Text.isBlank

/-- A style with more words; nothing if they are not words of a style. -/
def withWords (s : Style) : List Text → Except Color.Fault (Option Style)
  | [] => .ok (some s)
  | [word] => do
    let word := Text.lower word
    match Attribute.ofName? word with
    | some a => return some { s with attributes := (a, true) :: s.attributes }
    | none => return if ← Color.isColor word then some { s with color := some word } else none
  | word :: next :: words => do
    let word := Text.lower word
    if word = "on".toList then
      let color := Text.lower next
      if ← Color.isColor color then withWords { s with background := some color } words
      else return none
    else if word = "not".toList then
      match Attribute.ofName? next with
      | some a => withWords { s with attributes := (a, false) :: s.attributes } words
      | none => return none
    else if word = "link".toList then withWords { s with link := some next } words
    else
      match Attribute.ofName? word with
      | some a => withWords { s with attributes := (a, true) :: s.attributes } (next :: words)
      | none =>
        if ← Color.isColor word then withWords { s with color := some word } (next :: words)
        else return none

/-- The style that a text writes. -/
def ofText (t : Text) : Except Color.Fault (Option Style) :=
  if Text.trim t = "none".toList then .ok (some {})
  else withWords {} (words t)

/-- What a style says of an attribute. -/
def attributeWords (s : Style) (a : Attribute) : List Text :=
  match s.attributes.find? (·.1 = a) with
  | some (_, true) => [a.name]
  | some (_, false) => ["not".toList, a.name]
  | none => []

/-- The text of a style. -/
def toText (s : Style) : Text :=
  let background := match s.background with
    | some c => ["on".toList, c]
    | none => []
  let link := match s.link with
    | some address => ["link".toList, address]
    | none => []
  match Attribute.all.flatMap s.attributeWords ++ s.color.toList ++ background ++ link with
  | [] => "none".toList
  | ws => Text.joined [' '] ws

/-- The text of the style that a text writes; a text that writes none is only put in lower
    case. -/
def normal (t : Text) : Except Color.Fault Text := do
  match ← ofText t with
  | some s => return s.toText
  | none => return Text.lower (Text.trim t)

end Style

end Cli

end DbmlRestore
