import DbmlRestore.Toml.Scalar

/-!
# Reading TOML

A TOML text is a sequence of statements, each on a line: a key with its value, or
the declaration of the table that the following keys belong to. The tables are
built as the statements are read (`Toml.Document`), and each part of the document
may be written once only:

* a value written in one piece, a list or a table in braces, is *frozen*: nothing
  below its key can be added later;
* a table is *declared* at most once, and a table that was made by a key with dots
  counts as declared from the next declaration on;
* a new item of a list of tables starts afresh, without the marks of the item
  before it.

A fault is told by the place right after the key or the value that causes it.
-/

namespace DbmlRestore

namespace Toml

/-! ## Keys -/

/-- The characters of a key without quotes. -/
def isBare (c : Char) : Bool := c.isAlphanum || c == '-' || c == '_'

/-- A part of a key. -/
def keyPart : Reader Text
  | '\x27' :: t => literalLine t
  | '"' :: t => basic t
  | t =>
    match t.takeWhile isBare with
    | [] => .error (.fault .keyPart t)
    | name => .ok (name, t.dropWhile isBare)

/-- A key, with the blanks after it. -/
def key : (fuel : Nat) → Reader Key
  | 0, t => .error (.fault .keyPart t)
  | fuel + 1, t => do
    let (part, t) ← keyPart t
    match skipSpace t with
    | '.' :: t =>
      let (parts, t) ← key fuel (skipSpace t)
      return (part :: parts, t)
    | t => return ([part], t)

/-! ## Tables -/

/-- Changes the table under a key by `f`. Tables on the way are made if they are not
    there; where a list of tables stands on the way, its last one is taken, if
    `throughLists` says so. -/
def atNest (throughLists : Bool) (f : Value.Members → Except Fault Value.Members) :
    Key → Value.Members → Except Fault Value.Members
  | [], ms => f ms
  | k :: ks, ms => do
    let inner ←
      match ms.find? k with
      | none => Value.table <$> atNest throughLists f ks []
      | some (.table inner) => Value.table <$> atNest throughLists f ks inner
      | some (.array vs) =>
        match vs.getLast? with
        | some (.table inner) =>
          if throughLists then
            (fun inner => Value.array (vs.dropLast ++ [.table inner])) <$>
              atNest throughLists f ks inner
          else .error .overwrite
        | _ => .error .overwrite
      | some _ => .error .overwrite
    return ms.insert (.text k) inner

/-- Sets the value of a key that is not there yet, or fails with `fault`. -/
def setNew (fault : Fault) (k : Text) (v : Value) (ms : Value.Members) :
    Except Fault Value.Members :=
  if (ms.find? k).isSome then .error fault else .ok (ms.insert (.text k) v)

/-- Adds an empty table to the list of tables under a key. -/
def appendTable (k : Text) (ms : Value.Members) : Except Fault Value.Members :=
  match ms.find? k with
  | none => .ok (ms.insert (.text k) (.array [.table []]))
  | some (.array vs) => .ok (ms.insert (.text k) (.array (vs ++ [.table []])))
  | some _ => .error .overwrite

/-- Whether a value is written in one piece: a list, or a table in braces. -/
def isPiece : Value → Bool
  | .array _ => true
  | .table _ => true
  | _ => false

/-- The last part of a key, which is not empty. -/
def stem (k : Key) : Text := k.getLast?.getD []

/-- Whether a key lies at or below one of the given keys. -/
def isBelow (frozen : List Key) (k : Key) : Bool :=
  frozen.any (·.isPrefixOf k)

/-! ## Values -/

/-- A key and its value, the value read by `item`. -/
def pair (item : Reader Value) : Reader (Key × Value) := fun t => do
  let (k, t) ← key (t.length + 1) t
  match t with
  | '=' :: t =>
    let (v, t) ← item (skipSpace t)
    return ((k, v), t)
  | t => .error (.fault .equals t)

/-- The items of a list after its bracket, each read by `item`. -/
def items (item : Reader Value) : (fuel : Nat) → Reader (List Value)
  | 0, t => .error (.fault .unclosedArray t)
  | fuel + 1, t => do
    match ← skipFiller (t.length + 1) t with
    | ']' :: t => return ([], t)
    | t =>
      let (v, t) ← item t
      match ← skipFiller (t.length + 1) t with
      | ']' :: t => return ([v], t)
      | ',' :: t =>
        let (vs, t) ← items item fuel t
        return (v :: vs, t)
      | t => .error (.fault .unclosedArray t)

/-- Adds a member to a table in braces; `frozen` are the keys of its members that
    are written in one piece. -/
def addMember (frozen : List Key) (k : Key) (v : Value) (ms : Value.Members) :
    Except Fault Value.Members :=
  if isBelow frozen k then .error (.frozen k)
  else atNest false (setNew (.duplicateKey (stem k)) (stem k) v) k.dropLast ms

/-- The members of a table in braces, after the brace or a comma, each value read
    by `item`. -/
def members (item : Reader Value) : (fuel : Nat) → List Key → Value.Members → Reader Value.Members
  | 0, _, _, t => .error (.fault .unclosedTable t)
  | fuel + 1, frozen, ms, t => do
    let ((k, v), t) ← pair item t
    let ms ← (addMember frozen k v ms).mapError (.fault · t)
    match skipSpace t with
    | '\x7d' :: t => return (ms, t)
    | ',' :: t =>
      -- No later member may add to a value that is written in one piece.
      members item fuel (if isPiece v then k :: frozen else frozen) ms (skipSpace t)
    | t => .error (.fault .unclosedTable t)

/-- The value at the front of a text, nested at most as deep as `fuel` says. -/
def value : (fuel : Nat) → Reader Value
  | 0, t => .error (.fault .value t)
  | fuel + 1, t =>
    match t with
    | '"' :: '"' :: '"' :: rest => do
      let (s, rest) ← basicLines rest
      return (.string (.text s), rest)
    | '"' :: rest => do
      let (s, rest) ← basic rest
      return (.string (.text s), rest)
    | '\x27' :: '\x27' :: '\x27' :: rest => do
      let (s, rest) ← literalLines rest
      return (.string (.text s), rest)
    | '\x27' :: rest => do
      let (s, rest) ← literalLine rest
      return (.string (.text s), rest)
    | 't' :: 'r' :: 'u' :: 'e' :: rest => .ok (.bool true, rest)
    | 'f' :: 'a' :: 'l' :: 's' :: 'e' :: rest => .ok (.bool false, rest)
    | '[' :: rest => do
      let (vs, rest) ← items (value fuel) (rest.length + 1) rest
      return (.array vs, rest)
    | '\x7b' :: rest =>
      match skipSpace rest with
      | '\x7d' :: rest => .ok (.table [], rest)
      | rest => do
        let (ms, rest) ← members (value fuel) (rest.length + 1) [] [] rest
        return (.table ms, rest)
    | _ => scalar t

/-! ## Documents -/

/-- What has been read of a document. -/
structure Document where
  /-- The tables and values. -/
  data : Value.Members := []
  /-- The keys of the values that are written in one piece. -/
  frozen : List Key := []
  /-- The keys of the tables that were declared. -/
  declared : List Key := []
  /-- The keys of the tables that count as declared from the next declaration on. -/
  pending : List Key := []
  /-- The key of the table that the next keys belong to. -/
  header : Key := []

namespace Document

/-- The document before a declaration: the tables made by keys with dots count as
    declared. -/
def settle (d : Document) : Document :=
  { d with declared := d.pending ++ d.declared, pending := [] }

/-- The marks of the keys at and below `k` are forgotten. -/
def forget (k : Key) (d : Document) : Document :=
  { d with
    frozen := d.frozen.filter (!k.isPrefixOf ·)
    declared := d.declared.filter (!k.isPrefixOf ·) }

/-- Declares the table under a key. -/
def declareTable (k : Key) (d : Document) : Except Fault Document := do
  if d.declared.contains k || isBelow d.frozen k then .error (.declaredTwice k)
  let data ← atNest true .ok k d.data
  return { d with data := data, declared := k :: d.declared, header := k }

/-- Declares a new item of the list of tables under a key. -/
def declareItem (k : Key) (d : Document) : Except Fault Document := do
  if isBelow d.frozen k then .error (.frozen k)
  -- The tables below an item may be declared again below the next one.
  let d := d.forget k
  let data ← atNest true (appendTable (stem k)) k.dropLast d.data
  return { d with data := data, declared := k :: d.declared, header := k }

/-- Sets the value of a key in the current table. -/
def set (k : Key) (v : Value) (d : Document) : Except Fault Document := do
  -- The tables that the dots of the key make between the current table and the value.
  let between := (List.range k.length).tail.map fun n => d.header ++ k.take n
  match between.find? d.declared.contains with
  | some known => .error (.redefined known)
  | none =>
    let parent := d.header ++ k.dropLast
    if isBelow d.frozen parent then .error (.frozen parent)
    let data ← atNest true (setNew .overwrite (stem k) v) parent d.data
    return { d with
      data := data
      pending := between ++ d.pending
      frozen := if isPiece v then (d.header ++ k) :: d.frozen else d.frozen }

end Document

/-- The declaration of a table, after its bracket. -/
def tableHeader (d : Document) (t : Text) : Except Stop (Document × Text) := do
  let (k, t) ← key (t.length + 1) (skipSpace t)
  let d ← (d.settle.declareTable k).mapError (.fault · t)
  match t with
  | ']' :: t => return (d, t)
  | t => .error (.fault .tableEnd t)

/-- The declaration of an item of a list of tables, after its brackets. -/
def itemHeader (d : Document) (t : Text) : Except Stop (Document × Text) := do
  let (k, t) ← key (t.length + 1) (skipSpace t)
  let d ← (d.settle.declareItem k).mapError (.fault · t)
  match t with
  | ']' :: ']' :: t => return (d, t)
  | t => .error (.fault .arrayTableEnd t)

/-- A key with its value. -/
def assignment (d : Document) (t : Text) : Except Stop (Document × Text) := do
  let ((k, v), t) ← pair (value (t.length + 1)) t
  let d ← (d.set k v).mapError (.fault · t)
  return (d, t)

/-- The statement at the front of a text that does not start with a blank; a comment
    is an empty one. -/
def statement (d : Document) : Text → Except Stop (Document × Text)
  | '[' :: '[' :: t => itemHeader d t
  | '[' :: t => tableHeader d t
  | '#' :: t => .ok (d, '#' :: t)
  | c :: t =>
    if isBare c || c == '"' || c == '\x27' then assignment d (c :: t)
    else .error (.fault .statement (c :: t))
  | [] => .ok (d, [])

/-- The statements of a document. -/
def statements : (fuel : Nat) → Document → Text → Except Stop Document
  | 0, d, _ => .ok d
  | fuel + 1, d, t => do
    match skipSpace t with
    | [] => return d
    | '\n' :: t => statements fuel d t
    | t =>
      -- Each statement has a line of its own, which may end with a comment.
      let (d, t) ← statement d t
      match ← skipComment (skipSpace t) with
      | [] => return d
      | '\n' :: t => statements fuel d t
      | t => .error (.fault .lineEnd t)

/-- Why a text cannot be read. -/
inductive ReadError where
  /-- The text is not TOML; the place is none at the end of the text. -/
  | notToml (fault : Fault) (place : Option Position)
  /-- An integer has too many digits. -/
  | digits (count : Nat)
deriving Repr, DecidableEq

/-- The tables and values that a text writes; a carriage return before a line feed
    is dropped first. -/
def parse (t : Text) : Except ReadError Value.Members :=
  let t := Text.replace ['\r', '\n'] ['\n'] t
  match statements (t.length + 1) {} t with
  | .ok d => .ok d.data
  | .error (.fault f []) => .error (.notToml f none)
  | .error (.fault f rest) => .error (.notToml f (some (.ofRest t rest)))
  | .error (.digits n) => .error (.digits n)

end Toml

end DbmlRestore
