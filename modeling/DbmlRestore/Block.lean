import DbmlRestore.TableOrder

/-!
# Blocks

A schema is cut into its top-level blocks: enums, tables, references, and the
lines outside of them, one block each. A header opens a block where the brace
depth is zero, and the block takes every line up to the one that closes a brace
and brings the depth back to zero, or up to the next header at depth zero, or up
to the end. Nothing is required of the text: a depth that goes below zero only
keeps headers from being seen.

Blank lines outside of the blocks are kept, emptied, once there is a block before
them (`Block.partition`).
-/

namespace DbmlRestore

/-- What a block is. -/
inductive BlockKind where
  /-- An enumeration. -/
  | enum
  /-- A table. -/
  | table
  /-- A reference. -/
  | ref
  /-- A line outside of the blocks. -/
  | other
deriving Repr, DecidableEq

/-- The name of a kind of block, as it is shown. -/
def BlockKind.name : BlockKind → Text
  | .enum => "enum".toList
  | .table => "table".toList
  | .ref => "ref".toList
  | .other => "other".toList

/-- A top-level unit of a schema. -/
structure Block where
  /-- What the block is. -/
  kind : BlockKind
  /-- Its lines, as they were written. -/
  lines : List Line
  /-- The table, if it is one. -/
  table : Option Text := none
  /-- The schema of the table. -/
  schema : Option Text := none
deriving Repr, DecidableEq

namespace Block

/-- The text of a block. -/
def text (b : Block) : Text := Text.unlines b.lines

/-- The name of the table with its schema; empty for a block without a table. -/
def qualified (b : Block) : Text := qualifiedName b.schema (b.table.getD [])

/-- A block of one line outside of the others. -/
def other (line : Line) : Block := { kind := .other, lines := [line] }

/-- The block with one more line. -/
def push (b : Block) (line : Line) : Block := { b with lines := b.lines ++ [line] }

/-- The block, without lines yet, that a trimmed line opens. -/
def opened? (trimmed : Line) : Option Block :=
  match Line.tableHeader? trimmed with
  | some h => some { kind := .table, lines := [], table := some h.table, schema := h.schema }
  | none =>
    if Line.isEnumHeader trimmed then some { kind := .enum, lines := [] }
    else if Line.isRefHeader trimmed then some { kind := .ref, lines := [] }
    else none

end Block

/-- The state of a partition. -/
structure Partition where
  /-- The block that is open. -/
  current : Option Block
  /-- The brace depth. -/
  depth : Int
  /-- Whether there is a block already. -/
  started : Bool
deriving Repr, DecidableEq

namespace Partition

/-- Before the first line. -/
def start : Partition := ⟨none, 0, false⟩

/-- The block that is open, as the last one of a list. -/
def flush (p : Partition) : List Block := p.current.toList

/-- A header at depth zero ends the block that is open and opens one. -/
def openBlock (p : Partition) (line : Line) : List Block × Partition :=
  match if p.depth = 0 then Block.opened? (Text.trim line) else none with
  | some b => (p.flush, { p with current := some b, started := p.started || p.current.isSome })
  | none => ([], p)

/-- The line joins the block that is open, or is a block of its own: emptied if
    it is blank, and left out if it is blank and comes before all blocks. -/
def place (p : Partition) (line : Line) : List Block × Partition :=
  match p.current with
  | some b => ([], { p with current := some (b.push line) })
  | none =>
    if !(Text.trim line).isEmpty then ([.other line], { p with started := true })
    else if p.started then ([.other []], p)
    else ([], p)

/-- The braces of the line are counted, and end the block that is open if they
    close one and bring the depth to zero. -/
def count (p : Partition) (line : Line) : List Block × Partition :=
  let depth := p.depth + Line.depthChange line
  if depth = 0 ∧ 0 < Line.closes line then
    (p.flush, ⟨none, depth, p.started || p.current.isSome⟩)
  else ([], { p with depth := depth })

/-- The blocks that a line completes, and the state after it. -/
def step (p : Partition) (line : Line) : List Block × Partition :=
  -- The depth is that before the line until its braces are counted at the end.
  let (ended, p) := p.openBlock line
  let (alone, p) := p.place line
  let (closed, p) := p.count line
  (ended ++ alone ++ closed, p)

/-- The blocks completed by the lines that follow, the last one by their end. -/
def run (p : Partition) : List Line → List Block
  | [] => p.flush
  | l :: ls => (p.step l).1 ++ (p.step l).2.run ls

end Partition

/-- The top-level blocks of a text, in order. -/
def Block.partition (source : Text) : List Block :=
  Partition.start.run (Text.lines source)

end DbmlRestore
