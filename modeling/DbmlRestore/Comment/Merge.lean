import DbmlRestore.Comment
import DbmlRestore.TableScan

/-!
# Merging comments

Comments go back to their anchors in one pass over the lines of a text. No line
of the text is lost, and all that happens to one is that a comment is put at its
end:

* the comments of the schema's header open the text, followed by an empty line;
* the comments of a table precede each of its headers;
* the comments inside a table open its body, once for each header;
* a field's comment ends its line, unless the line has a comment mark already;
* the comments of the footer close the text after an empty line.

What belongs to a table or a field is found by name alone (`Comment.textsOn`,
`Comment.inlineText?`), so comments for tables that are not in the text have no
effect.
-/

namespace DbmlRestore

namespace Comment

/-- The texts of the comments of a kind, in order. -/
def textsOf (cs : List Comment) (kind : CommentKind) : List Text :=
  (cs.filter (·.kind = kind)).map (·.text)

/-- The texts of the comments of a kind that are anchored at `table`, in order. -/
def textsOn (cs : List Comment) (kind : CommentKind) (table : Text) : List Text :=
  (cs.filter fun c => c.kind = kind ∧ c.anchor.table = some table).map (·.text)

/-- The text for a field: that of the last comment with its key. -/
def inlineText? (cs : List Comment) (table field : Text) : Option Text :=
  ((cs.filter fun c =>
      c.kind = .inline ∧ c.anchor.inlineKey? = some (Anchor.key table field)).getLast?).map (·.text)

end Comment

/-- The line with a comment at its end. A carriage return that ends the line stays
    at the end, and is not doubled if the comment has its own. -/
def Line.withComment (line : Line) (comment : Text) : Line :=
  if line.getLast? = some '\r' then
    let ending := if comment.getLast? = some '\r' then [] else ['\r']
    line.dropLast ++ ' ' :: comment ++ ending
  else line ++ ' ' :: comment

/-- The state of a merging. -/
structure Merging where
  /-- The place relative to the tables. -/
  scan : TableScan
  /-- Whether the comments inside the current table have been put back. -/
  filled : Bool
deriving Repr, DecidableEq

namespace Merging

/-- Before the first line. -/
def start : Merging := ⟨.start, false⟩

/-- The comments before a line that is a table header, and the state from then
    on. -/
def beforeHeader (m : Merging) (cs : List Comment) (line : Line) : List Text × Merging :=
  match Line.tableHeader? (Text.trim line) with
  | some header => (Comment.textsOn cs .table header.table, ⟨m.scan.enter header.table, false⟩)
  | none => ([], m)

/-- The comments that open a table body, before the first line inside it. -/
def openingBody (m : Merging) (cs : List Comment) : List Text × Merging :=
  match m.scan.bodyTable? with
  | some table =>
    if m.filled then ([], m) else (Comment.textsOn cs .field table, { m with filled := true })
  | none => ([], m)

/-- The line, with the comment of its field if it has one to take. -/
def lineOf (m : Merging) (cs : List Comment) (line : Line) : Line :=
  match m.scan.table?, Line.fieldName? (Text.trim line) with
  | some table, some field =>
    if Text.holds Line.commentMark line then line
    else match Comment.inlineText? cs table field with
      | some comment => Line.withComment line comment
      | none => line
  | _, _ => line

/-- What a line becomes, and the state after it. -/
def step (m : Merging) (cs : List Comment) (line : Line) : List Text × Merging :=
  -- The braces of the line itself count only after it: a header is in no body yet.
  let (before, m) := m.beforeHeader cs line
  let (opening, m) := m.openingBody cs
  (before ++ opening ++ [m.lineOf cs line], { m with scan := m.scan.finish line })

/-- What the lines that follow become. -/
def run (m : Merging) (cs : List Comment) : List Line → List Text
  | [] => []
  | l :: ls => (m.step cs l).1 ++ (m.step cs l).2.run cs ls

end Merging

/-- The pieces of a text with the comments put back, one or more lines each. -/
def Comment.mergePieces (cs : List Comment) (text : Text) : List Text :=
  let headers := textsOf cs .header
  let footers := textsOf cs .footer
  (if headers.isEmpty then [] else headers ++ [[]]) ++
    Merging.start.run cs (Text.lines text) ++
    (if footers.isEmpty then [] else [] :: footers)

/-- The text with the comments put back. -/
def Comment.merge (cs : List Comment) (text : Text) : Text :=
  if cs.isEmpty then text else Text.unlines (mergePieces cs text)

end DbmlRestore
