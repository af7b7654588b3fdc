import DbmlRestore.Cli.Literal
import DbmlRestore.Cli.Style

/-!
# Markup

Names and titles in a table may have *tags* in square brackets, which set a style
and are not shown. A tag starts with a small letter, `#`, `/` or `@`; anything else
in brackets is text. A tag that starts with a slash closes the innermost open tag
of its name, or the innermost one if it has no name; closing what is not open is a
fault (`Markup.Fault`). Names are compared as styles (`Style.normal`).

A tag may have parameters after an equals sign. Where its name starts with `@`, they are the
name of something to be done, with values in brackets; that these are literals is checked
when the tag is closed (`Markup.OpenTag.close`). Otherwise they belong to the style, which is
looked up only when the text is shown (`Markup.lookUp`).

Backslashes before a tag are written twice, and one more of them makes the tag a
text (`Markup.escape` writes a text so that its tags are shown). As there are no colours,
all that is left of a text with markup is what it shows (`Markup.visible`).
-/

namespace DbmlRestore

namespace Cli

namespace Markup

/-! ## Tags -/

/-- A part of a text with markup. -/
inductive Piece where
  /-- Text to be shown. -/
  | text (t : Text)
  /-- A tag, and its place in the text. -/
  | tag (position : Nat) (body : Text)
deriving Repr, DecidableEq

/-- The characters that start a tag. -/
def startsTag (c : Char) : Bool :=
  c.isLower || c == '#' || c == '/' || c == '@'

/-- What stands in a tag, the text starting after its bracket. -/
def tagBody? : Text → Option Text
  | [] => none
  | c :: t =>
    if startsTag c then
      let body := t.takeWhile fun d => d != '[' && d != ']'
      match t.dropWhile fun d => d != '[' && d != ']' with
      | ']' :: _ => some (c :: body)
      | _ => none
    else none

/-- What has been read of a text with markup. -/
structure Reading where
  /-- The number of characters read. -/
  position : Nat := 0
  /-- The characters of a tag that are still to be passed over. -/
  skip : Nat := 0
  /-- The text since the last tag, read backwards. -/
  plain : Text := []
  /-- The number of backslashes right before the next character. -/
  slashes : Nat := 0

namespace Reading

/-- Some backslashes. -/
def slashText (count : Nat) : Text := List.replicate count '\\'

/-- The text since the last tag, as a piece, unless there is none. -/
def flush (plain : Text) : List Piece :=
  if plain.isEmpty then [] else [.text plain.reverse]

/-- The pieces for a tag with the backslashes before it: half of these, and the tag,
    or its text if one backslash is left over. -/
def tagPieces (position slashes : Nat) (body : Text) : List Piece :=
  let half := slashes / 2
  (if half = 0 then [] else [.text (slashText half)]) ++
    [if slashes % 2 = 1 then .text ('[' :: body ++ [']']) else .tag (position + 2 * half) body]

/-- The pieces of what is left of a text. -/
def pieces (r : Reading) : Text → List Piece
  | [] => flush (slashText r.slashes ++ r.plain)
  | c :: t =>
    let r := { r with position := r.position + 1 }
    match r.skip with
    | k + 1 => pieces { r with skip := k } t
    | 0 =>
      if c = '\\' then pieces { r with slashes := r.slashes + 1 } t
      else
        match if c = '[' then tagBody? t else none with
        | some body =>
          flush r.plain ++ tagPieces (r.position - 1 - r.slashes) r.slashes body ++
            pieces { position := r.position, skip := body.length + 1 } t
        | none =>
          pieces { r with plain := c :: slashText r.slashes ++ r.plain, slashes := 0 } t

end Reading

/-- The pieces of a text with markup. -/
def pieces (t : Text) : List Piece := ({} : Reading).pieces t

/-! ## Faults -/

/-- What is wrong with a text with markup. -/
inductive Fault where
  /-- No tag is open that could be closed. -/
  | nothingToClose (position : Nat)
  /-- No tag of the name is open. -/
  | noMatch (position : Nat) (body : Text)
  /-- The style of a tag has a colour whose numbers cannot be read. -/
  | color (fault : Color.Fault)
  /-- The parameters of a tag are given as `given`, and the part of them that has to be a
      literal is not. -/
  | parameters (literal given : Text) (fault : Literal.Fault)
deriving Repr, DecidableEq

namespace Fault

/-- The type of error that a fault is. -/
def typeName : Fault → Text
  | color _ => "ValueError".toList
  | _ => "MarkupError".toList

/-- The message for a fault. -/
def message : Fault → Text
  | nothingToClose position =>
    "closing tag '[/]' at position ".toList ++ Text.ofNat position ++
      " has nothing to close".toList
  | noMatch position body =>
    "closing tag '[".toList ++ body ++ "]' at position ".toList ++ Text.ofNat position ++
      " doesn't match any open tag".toList
  | color fault => fault.message
  | parameters literal given (.grammar fault) =>
    "error parsing ".toList ++ Text.quoted literal ++ " in ".toList ++ Text.quoted given ++
      "; ".toList ++ fault
  | parameters _ given (.value fault) =>
    "error parsing ".toList ++ Text.quoted given ++ "; ".toList ++ fault

end Fault

/-! ## Open tags -/

/-- A tag that is open. -/
structure OpenTag where
  /-- The name, as the text of a style if it is one. -/
  name : Text
  /-- What stands after the equals sign. -/
  parameters : Option Text
deriving Repr, DecidableEq

namespace OpenTag

/-- The tag that opens with the given words. -/
def ofBody (body : Text) : Except Fault OpenTag := do
  let name ← (Style.normal (body.takeWhile (· != '='))).mapError .color
  return ⟨name, if body.contains '=' then some (Text.cutAt '=' body).2 else none⟩

/-- Whether a tag names something to be done instead of a style. -/
def isHandler (tag : OpenTag) : Bool := tag.name.head? = some '@'

/-- The style that a tag asks for, as it is looked up when the text is shown. -/
def style (tag : OpenTag) : Text :=
  match tag.parameters with
  | some given => tag.name ++ ' ' :: given
  | none => tag.name

/-- The part of the parameters of a tag that has to be a literal: what stands in brackets
    after a name, empty brackets if there is only a name, and all of it otherwise. -/
def literal (given : Text) : Text :=
  let given := Text.trim given
  match given.dropWhile fun c => Text.isWordChar c || c == '.' with
  | [] => ['(', ')']
  | c :: t =>
    if c = '(' ∧ t.getLast? = some ')' ∧ !t.contains '\n' then c :: t else given

/-- Checks the parameters of a tag as it is closed. -/
def close (tag : OpenTag) : Except Fault Unit :=
  match tag.parameters with
  | some given =>
    if tag.isHandler && !given.isEmpty then
      (Literal.check (literal given)).mapError (.parameters (literal given) given)
    else .ok ()
  | none => .ok ()

end OpenTag

/-- The innermost open tag of a name, and the other open tags. -/
def close? (name : Text) : List OpenTag → Option (OpenTag × List OpenTag)
  | [] => none
  | tag :: stack =>
    if tag.name = name then some (tag, stack)
    else (close? name stack).map fun (found, rest) => (found, tag :: rest)

/-- The tag that a closing tag closes, and the tags that stay open; `name` is what
    stands after the slash. -/
def closed (stack : List OpenTag) (position : Nat) (name body : Text) :
    Except Fault (OpenTag × List OpenTag) := do
  if (Text.trim name).isEmpty then
    match stack with
    | [] => .error (.nothingToClose position)
    | tag :: outer => return (tag, outer)
  else
    let name ← (Style.normal (Text.trim name)).mapError .color
    match close? name stack with
    | none => .error (.noMatch position body)
    | some found => return found

/-! ## What is shown -/

/-- What a text with markup shows. -/
structure Shown where
  /-- The characters that are seen. -/
  text : Text
  /-- The styles that are looked up for them. -/
  styles : List Text
deriving Repr, DecidableEq

/-- What pieces show, given the open tags. A backslash before a bracket is not
    shown. -/
def shown : List OpenTag → List Piece → Except Fault Shown
  | stack, [] => .ok ⟨[], stack.map (·.style)⟩
  | stack, .text t :: ps =>
    (shown stack ps).map fun s => { s with text := Text.replace ['\\', '['] ['['] t ++ s.text }
  | stack, .tag position body :: ps =>
    match body.takeWhile (· != '=') with
    | '/' :: name => do
      let (tag, rest) ← closed stack position name body
      tag.close
      let s ← shown rest ps
      return { s with styles := (if tag.isHandler then [] else [tag.style]) ++ s.styles }
    | _ => do
      let tag ← OpenTag.ofBody body
      shown (tag :: stack) ps

/-- The control characters that are never shown. -/
def isHidden (c : Char) : Bool :=
  c.toNat ∈ [7, 8, 11, 12, 13]

/-- What a text with markup shows, with the styles still to be looked up. -/
def visible (t : Text) : Except Fault Shown :=
  if t.contains '[' then
    (shown [] (pieces t)).map fun s => { s with text := s.text.filter (!isHidden ·) }
  else .ok ⟨t.filter (!isHidden ·), []⟩

/-- Looks up the styles. A style that is not known has no effect. -/
def lookUp (styles : List Text) : Except Fault Unit :=
  styles.forM fun t => do
    let _ ← (Style.ofText t).mapError .color

/-! ## Escaping -/

/-- What is left of a text, written so that it is shown as it is; `skip` counts the
    characters of a tag still to be passed over, and `slashes` the backslashes right
    before the next character. -/
def escapeFrom : (skip slashes : Nat) → Text → Text
  | _, slashes, [] => Reading.slashText slashes
  | skip + 1, _, c :: t => c :: escapeFrom skip 0 t
  | 0, slashes, c :: t =>
    if c = '\\' then escapeFrom 0 (slashes + 1) t
    else
      match if c = '[' then tagBody? t else none with
      | some body =>
        Reading.slashText (2 * slashes + 1) ++ c :: escapeFrom (body.length + 1) 0 t
      | none => Reading.slashText slashes ++ c :: escapeFrom 0 0 t

/-- A text, written so that its tags are shown; a single backslash at its end is
    written twice. -/
def escape (t : Text) : Text :=
  let escaped := escapeFrom 0 0 t
  match escaped.reverse with
  | '\\' :: '\\' :: _ => escaped
  | '\\' :: _ => escaped ++ ['\\']
  | _ => escaped

end Markup

end Cli

end DbmlRestore
