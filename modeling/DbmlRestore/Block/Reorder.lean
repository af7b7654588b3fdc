import DbmlRestore.Block

/-!
# Reordering tables

A schema is laid out again as its enums, its tables and its references. The
tables are sorted into a given order; those it does not know stay behind the
others, in the order they had. What stands outside of the blocks is left out.

The layout is then tidied line by line. Of the lines between the first and the
last, two or more blank ones in a row become an empty one (`Layout.collapse`);
lines of spaces, tabs and carriage returns go from the end (`Layout.trimEnd`), and
the text ends with one line feed.
-/

namespace DbmlRestore

/-! ## Layout -/

namespace Layout

/-- Two or more blank lines in a row become one empty line. -/
def squeeze : List Line → List Line
  | [] => []
  | l :: ls =>
    match squeeze ls with
    | [] => [l]
    | m :: ms =>
      if Line.isBlankLine l && Line.isBlankLine m then [] :: ms else l :: m :: ms

/-- Two or more blank lines in a row become one empty line, the first and the last
    line of all being kept. -/
def collapse : List Line → List Line
  | [] => []
  | first :: rest => first :: squeeze rest.dropLast ++ rest.getLast?.toList

/-- Whether a line is made of spaces, tabs and carriage returns only. -/
def isPadding (line : Line) : Bool :=
  line.all fun c => c == ' ' || c == '\t' || c == '\r'

/-- Removes the lines of padding at the end, all but the first line. -/
def trimEnd : List Line → List Line
  | [] => []
  | first :: rest => first :: Text.dropEndWhile isPadding rest

/-- The text with its blank lines collapsed, ending with one line feed. -/
def tidy (t : Text) : Text :=
  Text.unlines (trimEnd (collapse (Text.lines t))) ++ ['\n']

end Layout

/-! ## Reordering -/

namespace Block

/-- The position of a block in an order; none if the order does not know it. -/
def rank? (index : OrderIndex) (b : Block) : Option Nat :=
  OrderIndex.rank? index b.qualified (b.table.getD [])

/-- Whether a rank is not after another one; no rank is after all. -/
def rankLe : Option Nat → Option Nat → Bool
  | _, none => true
  | none, some _ => false
  | some i, some j => i ≤ j

/-- The blocks sorted by rank; blocks of the same rank keep their order. -/
def sortByRank (index : OrderIndex) (bs : List Block) : List Block :=
  bs.mergeSort fun a b => rankLe (a.rank? index) (b.rank? index)

/-- The blocks of a kind, in order. -/
def ofKind (bs : List Block) (kind : BlockKind) : List Block :=
  bs.filter (·.kind = kind)

/-- The texts of the enums, of the sorted tables and of the references, an empty
    text between each two of these parts and before the references. -/
def layout (index : OrderIndex) (bs : List Block) : List Text :=
  let enums := ofKind bs .enum
  let tables := sortByRank index (ofKind bs .table)
  let refs := ofKind bs .ref
  enums.map text ++ (if enums.isEmpty || tables.isEmpty then [] else [[]]) ++
    tables.map text ++ (if refs.isEmpty then [] else [] :: refs.map text)

/-- The text with its blocks laid out in the given order. -/
def reorder (order : List TableEntry) (text : Text) : Text :=
  Layout.tidy (Text.unlines (layout (OrderIndex.ofOrder order) (partition text)))

/-- The number of tables of a text that an order does not know. -/
def unmatched (order : List TableEntry) (text : Text) : Nat :=
  (ofKind (partition text) .table).countP fun b =>
    (b.rank? (OrderIndex.ofOrder order)).isNone

end Block

end DbmlRestore
