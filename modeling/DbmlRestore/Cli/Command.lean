import DbmlRestore.Cli.Grid
import DbmlRestore.Cli.Invocation
import DbmlRestore.Cli.Preview
import DbmlRestore.Cli.Session
import DbmlRestore.Snapshot.Worded

/-!
# Commands

What each command does with the files of a workspace:

* `extract` captures a snapshot, and writes it as JSON or shows it as tables;
* `blocks` shows the blocks of a schema;
* `reorder` and `merge` put back the order of the tables, or the comments, of a
  snapshot;
* `restore` puts back both from the hand-written schema, or only checks whether
  anything would change.

A command first does all but write (`Command.prepare`). It then is done, or has come to a
wording for its output (`Outcome`), with which it ends. It gives its exit status, or fails.
The log has a line for each part of the work.
-/

namespace DbmlRestore

namespace Cli

/-! ## Tables -/

/-- The positions from one to `count`, as texts. -/
def positions (count : Nat) : List Text :=
  (List.range count).map fun i => Text.ofNat (i + 1)

/-- The tables of a snapshot, in order. -/
def orderColumns (order : List TableEntry) : List Grid.Column :=
  [⟨"#".toList, .right, positions order.length⟩,
    ⟨"Schema".toList, .left, order.map fun e => e.schema.getD []⟩,
    ⟨"Table".toList, .left, order.map (·.table)⟩]

/-- The comments of a snapshot, in order. -/
def commentColumns (comments : List Comment) : List Grid.Column :=
  [⟨"Kind".toList, .left, comments.map (·.kind.name)⟩,
    ⟨"Table".toList, .left, comments.map fun c => c.anchor.table.getD []⟩,
    ⟨"Field".toList, .left, comments.map fun c => c.anchor.field.getD []⟩,
    ⟨"Text".toList, .left, comments.map fun c => Markup.escape (preview c.text)⟩]

/-- The blocks of a schema with their positions. -/
def blockColumns (blocks : List (Nat × Block)) : List Grid.Column :=
  [⟨"#".toList, .right, blocks.map fun (i, _) => Text.ofNat i⟩,
    ⟨"Kind".toList, .left, blocks.map (·.2.kind.name)⟩,
    ⟨"Name".toList, .left, blocks.map (·.2.qualified)⟩,
    ⟨"Lines".toList, .right, blocks.map fun (_, b) => Text.ofNat b.lines.length⟩]

/-- The blocks of a schema with their positions, without those of no kind unless
    `includeOther`. -/
def shownBlocks (includeOther : Bool) (blocks : List Block) : List (Nat × Block) :=
  (blocks.mapIdx fun i b => (i + 1, b)).filter fun (_, b) => includeOther || b.kind != .other

section

variable {m : Type → Type} [Monad m] [Host m]

/-- Prints a table. -/
def printGrid (title : Text) (columns : List Grid.Column) : Action m Unit :=
  match Grid.draw title columns with
  | .ok t => Host.print t
  | .error f => throw (.host f.typeName f.message)

/-! ## Parts of the work -/

namespace Session

/-- Captures the snapshot of a schema. -/
def capture (s : Session) (source : Wording) : Action m (Snapshot Wording) := do
  let snapshot := Snapshot.captureWording source
  s.log "dbmlkeep.order" ("Extracted table order with ".toList ++
    Text.ofNat snapshot.order.length ++ " entries".toList)
  s.log "dbmlkeep.comments" ("Extracted ".toList ++ Text.ofNat snapshot.comments.length ++
    " comment records".toList)
  return snapshot

/-- Cuts a text into blocks. -/
def partition (s : Session) (source : Text) : Action m (List Block) := do
  let blocks := Block.partition source
  s.log "dbmlkeep.blocks" ("Partitioned source into ".toList ++ Text.ofNat blocks.length ++
    " blocks".toList)
  return blocks

/-- Puts back the order of the tables. -/
def reorder (s : Session) (snapshot : Snapshot Wording) (regenerated : Wording) :
    Action m Wording := do
  let marked := snapshot.needsMarks regenerated
  let text := regenerated.carried marked
  let _ ← s.partition text
  let unmatched := Block.unmatched (snapshot.map (Wording.carried marked)).order text
  if unmatched ≠ 0 then
    s.log "dbmlkeep.reorder" ("Appending ".toList ++ Text.ofNat unmatched ++
      " tables without an original position".toList)
  return snapshot.through Snapshot.reorder regenerated

/-- Puts back the comments. -/
def merge (s : Session) (snapshot : Snapshot Wording) (regenerated : Wording) :
    Action m Wording := do
  let count (kind : CommentKind) : Text :=
    Text.ofNat (snapshot.comments.countP (·.kind = kind))
  if !snapshot.comments.isEmpty then
    s.log "dbmlkeep.comments" ("Merged ".toList ++ Text.ofNat snapshot.comments.length ++
      " comment records (".toList ++ count .header ++ " header, ".toList ++ count .footer ++
      " footer)".toList)
  return snapshot.through Snapshot.merge regenerated

/-- Puts back the order of the tables and the comments. -/
def restore (s : Session) (snapshot : Snapshot Wording) (regenerated : Wording) :
    Action m Wording := do
  s.merge snapshot (← s.reorder snapshot regenerated)

end Session

/-! ## Commands -/

/-- What a command has come to before it writes. -/
inductive Outcome where
  /-- It is done, with an exit status. -/
  | done (status : Nat)
  /-- There is a wording for an output. -/
  | output (w : Wording) (file : Option Text)
deriving Repr, DecidableEq

namespace Session

/-- Captures the snapshot of a schema file, and shows it or comes to its text. -/
def prepareExtract (s : Session) (source : Text) (output : Option Text) (asTables : Bool) :
    Action m Outcome := do
  let snapshot ← s.capture (← s.readSchema source true)
  if asTables then
    let shown := snapshot.map Wording.visible
    printGrid "Table order".toList (orderColumns shown.order)
    printGrid "Comments".toList (commentColumns shown.comments)
    return .done 0
  else
    let text := snapshot.toText (.spaces 2) ++ ['\n']
    if output = some "auto".toList then
      match s.snapshotOutput source with
      | .ok file => return .output (.text text) (some file)
      | .error f => throw f
    else return .output (.text text) output

/-- Shows the blocks of a schema file. -/
def prepareBlocks (s : Session) (file : Text) (includeOther : Bool) : Action m Outcome := do
  let schema ← s.readSchema file false
  let blocks ← s.partition schema.visible
  let shown := shownBlocks includeOther blocks
  printGrid ("Blocks in ".toList ++ file) (blockColumns shown)
  Host.print (Text.ofNat shown.length ++ " of ".toList ++ Text.ofNat blocks.length ++
    " blocks shown\n".toList)
  return .done 0

/-- The failure for a file that is given as nothing. -/
def noFile : Failure :=
  .host "TypeError".toList "expected str, bytes or os.PathLike object, not list".toList

/-- Reads the snapshot file, if it is given. -/
def readGivenSnapshot (s : Session) : Option Text → Action m (Snapshot Wording)
  | some file => s.readSnapshot file
  | none => throw noFile

/-- Puts something back from a snapshot file: `back` does so. -/
def preparePutBack (s : Session) (back : Snapshot Wording → Wording → Action m Wording)
    (regenerated : Text) (snapshot output : Option Text) : Action m Outcome := do
  let snapshot ← s.readGivenSnapshot snapshot
  let schema ← s.readSchema regenerated true
  return .output (← back snapshot schema) output

/-- Tells whether a schema file would change. -/
def tellChange (source regenerated : Text) (changed : Bool) : Action m Nat := do
  if changed then
    Host.print ("Would restore ".toList ++ regenerated ++ ['\n'])
    return 1
  else
    Host.print (regenerated ++ " already matches ".toList ++ source ++ ['\n'])
    return 0

/-- Puts back the order of the tables and the comments from the hand-written schema
    file. -/
def prepareRestore (s : Session) (source : Text) (regenerated output : Option Text)
    (check : Bool) : Action m Outcome := do
  if check && (Text.present? output).isSome then
    throw (.cli
      { kind := .validation
        message := "--check cannot be combined with --output".toList
        hint := some "Run without --check to write the restored schema".toList })
  let snapshot ← s.capture (← s.readSchema source true)
  match regenerated with
  | none => throw noFile
  | some file =>
    let schema ← s.readSchema file true
    let restored ← s.restore snapshot schema
    if check then return .done (← tellChange source file (restored != schema))
    else
      s.log "dbmlkeep.cli.commands.apply" ("Restored ".toList ++
        Text.ofNat snapshot.comments.length ++ " comments across ".toList ++
        Text.ofNat snapshot.order.length ++ " tables".toList)
      return .output restored output

end Session

/-- Does what a command does before it writes. -/
def Command.prepare (s : Session) : Command → Action m Outcome
  | .extract source output asTables => s.prepareExtract source output asTables
  | .blocks file includeOther => s.prepareBlocks file includeOther
  | .reorder regenerated snapshot output => s.preparePutBack s.reorder regenerated snapshot output
  | .merge regenerated snapshot output => s.preparePutBack s.merge regenerated snapshot output
  | .restore source regenerated output check => s.prepareRestore source regenerated output check

/-- Writes what a command has come to, if anything, and gives the exit status. -/
def Session.conclude (s : Session) : Outcome → Action m Nat
  | .done status => return status
  | .output w file => do
    s.writeOutput w file
    return 0

/-- Runs a command in a session. -/
def Command.runIn (s : Session) (c : Command) : Action m Nat := do
  s.conclude (← c.prepare s)

end

end Cli

end DbmlRestore
