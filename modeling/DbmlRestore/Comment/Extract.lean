import DbmlRestore.Comment
import DbmlRestore.TableScan

/-!
# Extracting comments

The comments of a schema are found by one pass over its lines. A block comment
is read as one *unit*, from the line that opens it to the line that closes it, so
that nothing inside it is looked at; every other line is a unit of its own
(`CommentUnit.ofLines`). Of a unit only the first line counts for the braces.

A full-line comment inside a table body is recorded at once. Every other one
waits until it is known what follows it:

* before the first table header, or before an enum header that is in no table, it
  belongs to the schema's header;
* before a later table header it belongs to that table;
* at the end it belongs to the footer, or to the header if nothing was defined.

The comment after a quoted field belongs to that field.

* `Extraction.step`: what one unit adds, and the state after it;
* `Comment.extract`: the comments of a text, in the order of the text.
-/

namespace DbmlRestore

/-- A line, and the lines after it that belong to the block comment it opens. -/
structure CommentUnit where
  /-- The first line. -/
  first : Line
  /-- The other lines of a block comment. -/
  more : List Line
deriving Repr, DecidableEq

namespace CommentUnit

/-- The lines of a unit. -/
def lines (u : CommentUnit) : List Line := u.first :: u.more

/-- The text of a unit. -/
def text (u : CommentUnit) : Text := Text.unlines u.lines

/-- The unit with one more line. -/
def push (u : CommentUnit) (line : Line) : CommentUnit :=
  { u with more := u.more ++ [line] }

/-- Whether a line opens a block comment that goes on after it. -/
def isOpenEnded (line : Line) : Bool :=
  Line.opensComment (Text.trim line) && !Line.closesComment line

/-- The units of the lines, after a block comment `u` that is still open. A block
    comment that is never closed ends with the text. -/
def ofLinesFrom : (u : Option CommentUnit) → List Line → List CommentUnit
  | none, [] => []
  | some u, [] => [u]
  | none, l :: ls =>
    if isOpenEnded l then ofLinesFrom (some ⟨l, []⟩) ls
    else ⟨l, []⟩ :: ofLinesFrom none ls
  | some u, l :: ls =>
    if Line.closesComment l then u.push l :: ofLinesFrom none ls
    else ofLinesFrom (some (u.push l)) ls

/-- The units of the lines of a text. -/
def ofLines (ls : List Line) : List CommentUnit :=
  ofLinesFrom none ls

end CommentUnit

/-- The state of an extraction. -/
structure Extraction where
  /-- The place relative to the tables. -/
  scan : TableScan
  /-- Whether a table or enum header has been seen. -/
  defined : Bool
  /-- The comments that wait for what follows them. -/
  pending : List Text
deriving Repr, DecidableEq

namespace Extraction

/-- Before the first line. -/
def start : Extraction := ⟨.start, false, []⟩

/-- The record made of the waiting comments, if there are any. -/
def flush (e : Extraction) (record : Text → Comment) : List Comment :=
  if e.pending.isEmpty then [] else [record (Text.unlines e.pending)]

/-- At the header of `table`, the waiting comments become its own, or the header
    of the schema if it is the first definition. -/
def enterTable (e : Extraction) (table : Text) : List Comment × Extraction :=
  (e.flush fun t => if e.defined then .onTable t table else .header t,
    ⟨e.scan.enter table, true, []⟩)

/-- At an enum header outside of the tables, the waiting comments become the
    header of the schema. -/
def enterEnum (e : Extraction) : List Comment × Extraction :=
  match e.scan.table? with
  | none => (e.flush .header, { e with defined := true, pending := [] })
  | some _ => ([], { e with defined := true })

/-- A full-line or block comment is recorded if it stands in a table body, and
    waits otherwise. -/
def addComment (e : Extraction) (text : Text) : List Comment × Extraction :=
  match e.scan.bodyTable? with
  | some table => ([.inBody text table], e)
  | none => ([], { e with pending := e.pending ++ [text] })

/-- The comment at the end of a line, if the line is that of a quoted field
    inside a table. -/
def inlineOf (e : Extraction) (line : Line) : List Comment :=
  match e.scan.table?, Line.inlineComment? line with
  | some table, some (code, comment) =>
    match Line.fieldName? (Text.trim code) with
    | some field => [.inline comment table field]
    | none => []
  | _, _ => []

/-- What the unit `u` is, seen by its first line: a table header, an enum header,
    a comment, or other text, which may end in a comment. -/
def classify (e : Extraction) (u : CommentUnit) : List Comment × Extraction :=
  let trimmed := Text.trim u.first
  match Line.tableHeader? trimmed with
  | some header => e.enterTable header.table
  | none =>
    if Line.isEnumHeader trimmed then e.enterEnum
    else if Line.isComment trimmed || Line.opensComment trimmed then e.addComment u.text
    else (e.inlineOf u.first, e)

/-- What the unit `u` adds, and the state after it. -/
def step (e : Extraction) (u : CommentUnit) : List Comment × Extraction :=
  let (records, e) := e.classify u
  (records, { e with scan := e.scan.finish u.first })

/-- At the end of the text, the waiting comments become the footer, or the header
    if there was no definition. -/
def finish (e : Extraction) : List Comment :=
  e.flush fun t => if e.defined then .footer t else .header t

/-- The comments of the units that follow. -/
def run (e : Extraction) : List CommentUnit → List Comment
  | [] => e.finish
  | u :: us => (e.step u).1 ++ (e.step u).2.run us

end Extraction

/-- The comments of a text, in the order of the text. -/
def Comment.extract (source : Text) : List Comment :=
  Extraction.start.run (CommentUnit.ofLines (Text.lines source))

end DbmlRestore
