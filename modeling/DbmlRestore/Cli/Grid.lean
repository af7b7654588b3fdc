import DbmlRestore.Cli.Markup
import DbmlRestore.Text.Width

/-!
# Tables on a terminal

A table with a title, a header and rows, drawn with box characters. A column is as
wide as its widest cell, and a cell has a space at both sides. The title is centred
over the table, and broken between words if it is wider than the table. So is a cell
that becomes wider than its column when tabs are written as spaces.

Cells and title are texts with markup. A fault in them is found before anything is
drawn, column by column and then in the title; styles are looked up after that
(`Grid.draw`).
-/

namespace DbmlRestore

namespace Cli

namespace Grid

/-- The side to which the cells of a column are moved. -/
inductive Side where
  /-- The left side. -/
  | left
  /-- The right side. -/
  | right
deriving Repr, DecidableEq

/-- A column: its header, its side, and its cells. -/
structure Column where
  /-- The header. -/
  header : Text
  /-- The side of the header and the cells. -/
  side : Side := .left
  /-- The cells, from the first row on. -/
  cells : List Text
deriving Repr, DecidableEq

/-! ## Widths -/

/-- Some spaces. -/
def spaces (count : Nat) : Text := List.replicate count ' '

/-- The pieces of a text between its tabs, joined by spaces up to the next multiple of
    eight columns; `column` is the one the first piece starts at. -/
def joinTabs : (column : Nat) → List Text → Text
  | _, [] => []
  | _, [piece] => piece
  | column, piece :: ps =>
    let piece := piece ++ [' ']
    let column := column + Text.width piece
    let gap := (8 - column % 8) % 8
    piece ++ spaces gap ++ joinTabs (column + gap) ps

/-- A text with spaces in place of tabs. -/
def expandTabs (t : Text) : Text :=
  joinTabs 0 (Text.splitAt '\t' t)

/-- The separators of control and of Unicode after which the columns of a text are
    counted anew. -/
def isSeparator (c : Char) : Bool :=
  c.toNat ∈ [0x1C, 0x1D, 0x1E, 0x85, 0x2028, 0x2029]

/-- The pieces of a text between its separators. -/
def separated : Text → List Text
  | [] => [[]]
  | c :: t =>
    if isSeparator c then [] :: separated t
    else match separated t with
      | [] => [[c]]
      | p :: ps => (c :: p) :: ps

/-- The most columns between two separators. A tab counts for nothing. -/
def extent (t : Text) : Nat :=
  ((separated t).map Text.width).foldl max 0

/-- The first clusters, as many as fit in the given number of columns. Half of a wide
    cluster becomes a space. -/
def clipClusters : (width : Nat) → List Text.Cluster → Text
  | _, [] => []
  | 0, _ => []
  | width, k :: ks =>
    if k.width ≤ width then k.text ++ clipClusters (width - k.width) ks else [' ']

/-- A line with spaces at its right, up to the given number of columns. -/
def fill (width : Nat) (line : Text) : Text :=
  line ++ spaces (width - Text.width line)

/-- A text cut or filled up to the given number of columns. -/
def clip (width : Nat) (t : Text) : Text :=
  if width < Text.width t then clipClusters width (Text.clusters t) else fill width t

/-! ## Lines -/

/-- Clusters put into pieces of at most `width` columns; `used` columns of the first
    piece are taken. -/
def chop (width : Nat) : (used : Nat) → List Text.Cluster → List Text
  | _, [] => [[]]
  | used, k :: ks =>
    if width < used + k.width then
      match chop width k.width ks with
      | [] => [[], k.text]
      | p :: ps => [] :: (k.text ++ p) :: ps
    else
      match chop width (used + k.width) ks with
      | [] => [k.text]
      | p :: ps => (k.text ++ p) :: ps

/-- The words of a text, each with the blanks after it, and the first one with the
    blanks before it. -/
def words : (fuel : Nat) → Text → List Text
  | 0, _ => []
  | fuel + 1, t =>
    let before := t.takeWhile Text.isBlank
    let t := t.dropWhile Text.isBlank
    let word := t.takeWhile (!Text.isBlank ·)
    let t := t.dropWhile (!Text.isBlank ·)
    if word.isEmpty then []
    else (before ++ word ++ t.takeWhile Text.isBlank) :: words fuel (t.dropWhile Text.isBlank)

/-- The lines of at most `width` columns that words are broken into: `line` is the
    line so far, which takes `used` columns. A word that is wider than a line is cut
    if `fold`, and has a line of its own otherwise. -/
def breakWords (fold : Bool) (width : Nat) :
    (line : Text) → (used : Nat) → List Text → List Text
  | line, _, [] => [line]
  | line, used, word :: ws =>
    let wordWidth := Text.width (Text.dropEndWhile Text.isBlank word)
    let finished := if line.isEmpty then [] else [line]
    -- The blanks after a word may stand beyond the width.
    if used + wordWidth ≤ width then
      breakWords fold width (line ++ word) (used + Text.width word) ws
    else if fold && width < wordWidth then
      let cut := chop width 0 (Text.clusters word)
      let last := cut.getLast?.getD []
      finished ++ cut.dropLast ++ breakWords fold width last (Text.width last) ws
    else finished ++ breakWords fold width word (Text.width word) ws

/-- The lines that a text without line feeds is broken into. A text of blanks is one
    line. -/
def brokenLines (fold : Bool) (width : Nat) (t : Text) : List Text :=
  let t := expandTabs t
  match words (t.length + 1) t with
  | [] => [t]
  | ws => breakWords fold width [] 0 ws

/-! ## Cells -/

/-- A line without the blanks at its end that stand after its first `width`
    characters. -/
def cropEnd (width : Nat) (line : Text) : Text :=
  let blanks := (line.reverse.takeWhile Text.isBlank).length
  line.take (line.length - min blanks (line.length - width))

/-- A line, cut to a width if it is wider; three dots in one character show the cut. -/
def cropped (width : Nat) (line : Text) : Text :=
  if width < Text.width line then clip (width - 1) line ++ ['…'] else line

/-- A line moved to a side of a cell of the given width. A joiner at the end of a line
    hides the space that follows it, so that the line is filled up once more. -/
def pad (side : Side) (width : Nat) (line : Text) : Text :=
  fill width <| match side with
  | .left => fill width (cropped width (cropEnd width line))
  | .right =>
    let line := cropped width (Text.dropEndWhile Text.isBlank line)
    spaces (width - Text.width line) ++ line

/-- The lines of a cell of the given width. -/
def cellLines (side : Side) (width : Nat) (t : Text) : List Text :=
  (brokenLines false width t).map (pad side width)

/-! ## Titles -/

/-- A line centred in the given width, the larger half of the gap at its right. -/
def centre (width : Nat) (line : Text) : Text :=
  let line := Text.dropEndWhile Text.isBlank line
  let gap := width - Text.width line
  spaces (gap / 2) ++ line ++ spaces (gap - gap / 2)

/-- The lines of a title over a table of the given width. -/
def titleLines (width : Nat) (title : Text) : List Text :=
  ((Text.lines title).flatMap (brokenLines true width)).map (centre width)

/-! ## Boxes -/

/-- A line across a table: its left end, what stands under or over the cells, the
    crossings, and its right end. -/
def rule (left fill cross right : Char) (widths : List Nat) : Text :=
  left :: Text.joined [cross] (widths.map fun w => List.replicate (w + 2) fill) ++ [right]

/-- The lines of a row of cells, each with its side and width. A cell with fewer lines
    than others is filled up with spaces. -/
def row (outer inner : Char) (cells : List (Side × Nat × Text)) : List Text :=
  let blocks := cells.map fun (side, width, t) => (width, cellLines side width t)
  let height := (blocks.map (·.2.length)).foldl max 1
  (List.range height).map fun i =>
    outer :: Text.joined [inner]
      (blocks.map fun (width, ls) => ' ' :: ls[i]?.getD (spaces width) ++ [' ']) ++ [outer]

/-- The width of a column of visible texts. -/
def columnWidth (c : Column) : Nat :=
  (c.cells.map extent).foldl max (Text.width c.header)

/-- The rows of a table, from the cells of its columns. -/
def rows (columns : List Column) : List (List (Side × Nat × Text)) :=
  let height := (columns.map (·.cells.length)).foldl max 0
  (List.range height).map fun i =>
    columns.map fun c => (c.side, columnWidth c, c.cells[i]?.getD [])

/-- A table of visible texts, with a line feed after each line. -/
def drawVisible (title : Text) (columns : List Column) : Text :=
  let widths := columns.map columnWidth
  let total := widths.foldl (fun total w => total + (w + 3)) 1
  let header := columns.map fun c => (c.side, columnWidth c, c.header)
  let lines := titleLines total title ++ [rule '┏' '━' '┳' '┓' widths] ++
    row '┃' '┃' header ++ [rule '┡' '━' '╇' '┩' widths] ++
    (rows columns).flatMap (row '│' '│') ++ [rule '└' '─' '┴' '┘' widths]
  lines.flatMap (· ++ ['\n'])

/-! ## Tables -/

/-- What a column shows, and the styles of each of its cells. -/
def visibleColumn (c : Column) : Except Markup.Fault (Column × List (List Text)) := do
  let cells ← c.cells.mapM Markup.visible
  return ({ c with cells := cells.map (·.text) }, cells.map (·.styles))

/-- A table whose cells and title are texts with markup. The styles are looked up when all
    is known to be well written, first those of the title, then those of the cells, row by
    row. -/
def draw (title : Text) (columns : List Column) : Except Markup.Fault Text := do
  let columns ← columns.mapM visibleColumn
  let title ← Markup.visible title
  Markup.lookUp title.styles
  let height := (columns.map (·.2.length)).foldl max 0
  (List.range height).forM fun i =>
    columns.forM fun c => Markup.lookUp (c.2[i]?.getD [])
  return drawVisible title.text (columns.map (·.1))

end Grid

end Cli

end DbmlRestore
