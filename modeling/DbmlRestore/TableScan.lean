import DbmlRestore.Line

/-!
# Table tracking

Comments are anchored at tables, so both the extraction and the merging of
comments keep track of the table they are in. A `TableScan` is the brace depth
and the place relative to a table: outside of any, at the header of one, or in
its body.

A line is classified first and its braces are counted afterwards
(`TableScan.finishLine`), so a question asked about a line sees the depth as it
was before that line. A table is left by the line that closes a brace and brings
the depth to zero.
-/

namespace DbmlRestore

/-- A place relative to the table blocks of a schema. -/
inductive Place where
  /-- In no table. -/
  | idle
  /-- After the header of the table, with no brace open yet. -/
  | header (table : Text)
  /-- After a line of the table that left a brace open. -/
  | body (table : Text)
deriving Repr, DecidableEq

/-- The table at a place. -/
def Place.table? : Place → Option Text
  | .idle => none
  | .header t => some t
  | .body t => some t

/-- The state of a scan over the lines of a schema. -/
structure TableScan where
  /-- The place relative to a table. -/
  place : Place
  /-- Opening less closing braces so far. -/
  depth : Int
deriving Repr, DecidableEq

namespace TableScan

/-- Before the first line: in no table, at depth zero. -/
def start : TableScan := ⟨.idle, 0⟩

/-- The table the scan is in. -/
def table? (s : TableScan) : Option Text := s.place.table?

/-- The table the scan is in, if a brace is open. -/
def bodyTable? (s : TableScan) : Option Text :=
  if 0 < s.depth then s.table? else none

/-- A header of `table` was found. -/
def enter (s : TableScan) (table : Text) : TableScan :=
  { s with place := .header table }

/-- The place after a line that closed `closes` braces and left the depth `depth`. -/
def placeAfter (depth : Int) (closes : Nat) : Place → Place
  | .idle => .idle
  | .header t =>
    if depth = 0 ∧ 0 < closes then .idle else if 0 < depth then .body t else .header t
  | .body t => if depth = 0 ∧ 0 < closes then .idle else .body t

/-- The braces of a line that has been classified are counted. -/
def finishLine (s : TableScan) (opens closes : Nat) : TableScan :=
  let depth := s.depth + opens - closes
  ⟨placeAfter depth closes s.place, depth⟩

/-- The braces of `line` are counted. -/
def finish (s : TableScan) (line : Line) : TableScan :=
  s.finishLine (Line.opens line) (Line.closes line)

/-- One call of a scan. -/
inductive Step where
  /-- A header of the table was found. -/
  | enter (table : Text)
  /-- The braces of a line were counted. -/
  | finishLine (opens closes : Nat)
deriving Repr, DecidableEq

/-- The state after one step. -/
def apply (s : TableScan) : Step → TableScan
  | .enter t => s.enter t
  | .finishLine o c => s.finishLine o c

/-- The state after a sequence of steps. -/
def run (s : TableScan) (steps : List Step) : TableScan :=
  steps.foldl apply s

end TableScan

end DbmlRestore
