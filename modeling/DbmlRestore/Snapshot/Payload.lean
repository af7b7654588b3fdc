import DbmlRestore.Json.Basic
import DbmlRestore.Snapshot
import DbmlRestore.Text.Digit

/-!
# The wire form of a snapshot

A snapshot is stored as a JSON object with a version, the tables in order and the
comments:

* an entry of the order has a `tableName` and a `schemaName` that may be null;
* a comment has a `type`, a `text` and a `context` that names the table and the
  field, and that is left out if it names neither.

Reading checks the form and says what is wrong first (`Issue`), and where
(`Issue.path`). The fields of an object are looked at in the order above, and then
its other keys, which are refused. Names of two words may also be written with an
underscore; if both spellings are there, the second one counts as another key.
A comment's anchor is checked once everything else about the comment is right.
-/

namespace DbmlRestore

/-! ## Writing -/

namespace Snapshot

/-- The version that is written and read. -/
def version : Int := 1

/-- A name that may be missing. -/
def optionalName : Option Wording → Json
  | none => .null
  | some w => .string w

/-- A member of an object. -/
def member (key : String) (v : Json) : Wording × Json := (.text key.toList, v)

/-- An entry of the order. -/
def entryJson (e : TableEntry Wording) : Json :=
  .object [member "tableName" (.string e.table), member "schemaName" (optionalName e.schema)]

/-- The names that an anchor has. -/
def anchorMembers (a : Anchor Wording) : Json.Members :=
  (a.table.map fun t => member "tableName" (.string t)).toList ++
    (a.field.map fun f => member "fieldName" (.string f)).toList

/-- A comment. -/
def commentJson (c : Comment Wording) : Json :=
  let anchor := anchorMembers c.anchor
  .object ([member "type" (.ofText c.kind.name), member "text" (.string c.text)] ++
    (if anchor.isEmpty then [] else [member "context" (.object anchor)]))

/-- The wire form of a snapshot. -/
def toJson (s : Snapshot Wording) : Json :=
  .object [member "version" (.int version),
    member "tableOrder" (.array (s.order.map entryJson)),
    member "comments" (.array (s.comments.map commentJson))]

end Snapshot

/-! ## Issues -/

/-- What is wrong with a payload. -/
inductive Complaint where
  /-- A value is not the object it has to be. -/
  | notObject (form : Text)
  /-- A value is not a list. -/
  | notList
  /-- A field is missing. -/
  | missing
  /-- A key is not known. -/
  | extra
  /-- A value is not a string. -/
  | notString
  /-- A key, or a string that is no name and no comment, holds half of a surrogate pair. -/
  | notText
  /-- A comment is of no known kind. -/
  | notKind
  /-- A comment's anchor does not go with its kind. -/
  | anchor (kind : CommentKind)
  /-- A version is below one. -/
  | tooSmall
  /-- A version is above one. -/
  | tooLarge
  /-- A version is not a finite number. -/
  | notFinite
  /-- A version has a fraction. -/
  | fractional
  /-- A version has too many digits. -/
  | tooLong
  /-- A version is a string that writes no integer. -/
  | notNumeral
  /-- A version is neither a number nor a string. -/
  | notInteger
deriving Repr, DecidableEq

/-- What the anchor of a kind of comment has to be. -/
def CommentKind.anchorDemand : CommentKind → Text
  | .inline => "inline comments need both tableName and fieldName".toList
  | .table => "table comments need tableName only".toList
  | .field => "field comments need tableName only".toList
  | .header => "header comments take no context".toList
  | .footer => "footer comments take no context".toList

/-- The message for a complaint. -/
def Complaint.message : Complaint → Text
  | .notObject form => "Input should be a valid dictionary or instance of ".toList ++ form
  | .notList => "Input should be a valid list".toList
  | .missing => "Field required".toList
  | .extra => "Extra inputs are not permitted".toList
  | .notString => "Input should be a valid string".toList
  | .notText =>
    "Input should be a valid string, unable to parse raw data as a unicode string".toList
  | .notKind => "Input should be 'header', 'table', 'field', 'footer' or 'inline'".toList
  | .anchor kind => "Value error, ".toList ++ kind.anchorDemand
  | .tooSmall => "Input should be greater than or equal to 1".toList
  | .tooLarge => "Input should be less than or equal to 1".toList
  | .notFinite => "Input should be a finite number".toList
  | .fractional => "Input should be a valid integer, got a number with a fractional part".toList
  | .tooLong => "Unable to parse input string as an integer, exceeded maximum size".toList
  | .notNumeral =>
    "Input should be a valid integer, unable to parse string as an integer".toList
  | .notInteger => "Input should be a valid integer".toList

/-- What is wrong with a payload, and the keys and indices that lead there. -/
structure Issue where
  /-- What is wrong. -/
  complaint : Complaint
  /-- The keys and indices from the whole payload on. -/
  path : List Text
deriving Repr, DecidableEq

namespace Issue

/-- An issue of the value at hand. -/
def here (c : Complaint) : Issue := ⟨c, []⟩

/-- An issue under a key. -/
def under (key : Text) (i : Issue) : Issue := { i with path := key :: i.path }

/-- The issue as it is shown. -/
def message (i : Issue) : Text :=
  let place := Text.joined ['.'] i.path
  i.complaint.message ++
    (if place.isEmpty then [] else " at '".toList ++ place ++ ['\''])

end Issue

/-! ## Reading -/

namespace Payload

/-- Reads a value of type `α`, or says what is wrong with it. -/
abbrev Check (α : Type) := Json → Except Issue α

/-- A field of an object: its name, and a second spelling. -/
structure FieldName where
  /-- The name that is looked up first, and that a missing field is reported by. -/
  main : Text
  /-- The other spelling. -/
  alternative : Option Text := none
deriving Repr, DecidableEq

/-- The key under which a field is found, with its value. -/
def FieldName.find? (f : FieldName) (ms : Json.Members) : Option (Text × Json) :=
  match Json.Members.find? ms f.main with
  | some v => some (f.main, v)
  | none =>
    match f.alternative with
    | none => none
    | some a => (Json.Members.find? ms a).map (a, ·)

/-- A field that has to be there. -/
def required {α : Type} (f : FieldName) (check : Check α) (ms : Json.Members) : Except Issue α :=
  match f.find? ms with
  | some (key, v) => (check v).mapError (Issue.under key)
  | none => .error ⟨.missing, [f.main]⟩

/-- A field that may be left out. -/
def optional {α : Type} (f : FieldName) (absent : α) (check : Check α) (ms : Json.Members) :
    Except Issue α :=
  match f.find? ms with
  | some (key, v) => (check v).mapError (Issue.under key)
  | none => .ok absent

/-- Refuses the first key that is not the one under which a field was found. -/
def noOthers (fs : List FieldName) (ms : Json.Members) : Except Issue Unit :=
  let used := fs.filterMap fun f => (f.find? ms).map (·.1)
  match List.find? (fun m => !used.any fun key => m.1 = .text key) ms with
  | some (key, _) => .error ⟨.extra, [key.visible]⟩
  | none => .ok ()

/-- The members of an object, all of whose keys have to be texts. -/
def object (form : String) : Check Json.Members
  | .object ms =>
    if ms.any (·.1.isBroken) then .error (.here .notText) else .ok ms
  | _ => .error (.here (.notObject form.toList))

/-- The items of a list, the first of them at `index`. -/
def itemsFrom {α : Type} (check : Check α) (index : Nat) : List Json → Except Issue (List α)
  | [] => .ok []
  | v :: vs => do
    let x ← (check v).mapError (Issue.under (Text.ofNat index))
    let xs ← itemsFrom check (index + 1) vs
    return x :: xs

/-- A list. -/
def list {α : Type} (check : Check α) : Check (List α)
  | .array vs => itemsFrom check 0 vs
  | _ => .error (.here .notList)

/-- A string, which may be a broken one. -/
def text : Check Wording
  | .string w => .ok w
  | _ => .error (.here .notString)

/-- A value that may be null. -/
def nullable {α : Type} (check : Check α) : Check (Option α)
  | .null => .ok none
  | v => (check v).map some

/-- A kind of comment. -/
def kind : Check CommentKind
  | .string (.text t) =>
    match CommentKind.ofName? t with
    | some k => .ok k
    | none => .error (.here .notKind)
  | .string (.broken _) => .error (.here .notText)
  | _ => .error (.here .notKind)

/-! ### Versions -/

/-- The blanks that may stand around a number in a string. -/
def isMargin (c : Char) : Bool :=
  Text.isBlank c && !(28 ≤ c.toNat && c.toNat ≤ 31)

/-- The integer that a text writes as JSON does: a minus sign or none, and digits that
    start with no zero, unless there is only one. Too many digits are a fault before
    what follows them is. -/
def plainNumeral (t : Text) : Except Complaint Int :=
  let (negative, t) := match t with
    | '-' :: t => (true, t)
    | t => (false, t)
  match t.takeWhile Char.isDigit, t.dropWhile Char.isDigit with
  | [], _ => .error .notNumeral
  | ['0'], [] => .ok 0
  | '0' :: _, _ => .error .notNumeral
  | digits, rest =>
    if digitLimit < digits.length then .error .tooLong
    else if !rest.isEmpty then .error .notNumeral
    else
      let n := digits.foldl (fun n c => n * 10 + (c.toNat - '0'.toNat)) 0
      .ok (if negative then -(n : Int) else n)

/-- The digits before a point that is followed by zeros only. -/
def withoutFraction (t : Text) : Text :=
  let (whole, zeros) := Text.cutAt '.' t
  if !zeros.isEmpty && zeros.all (· == '0') then whole else t

/-- What a text has from its first digit that counts on: leading zeros, and the
    underscores after them, are passed over, and a minus sign may stand after them. -/
def withoutZeros? : Text → Option Text
  | '0' :: t =>
    match t.dropWhile fun c => c == '0' || c == '_' with
    | [] => some (('0' :: t).getLast?.toList)
    | c :: rest => if c.isDigit || c == '-' then some (c :: rest) else none
  | c :: t => if c.isDigit || c == '-' then some (c :: t) else none
  | [] => none

/-- A text without its underscores, which must be single and inside of it. -/
def withoutUnderscores? (t : Text) : Option Text :=
  if t.head? = some '_' ∨ t.getLast? = some '_' ∨ Text.holds ['_', '_'] t then none
  else some (t.filter (· != '_'))

/-- A text as JSON would write the integer in it: blanks around it, a plus sign, a point
    with zeros after it, leading zeros and underscores are left out. -/
def tidyNumeral? (t : Text) : Option Text := do
  let t := Text.dropEndWhile isMargin (t.dropWhile isMargin)
  let t ← match t with
    | '+' :: '-' :: _ => none
    | '+' :: t => some t
    | t => some t
  match withoutFraction t with
  | '-' :: t => withoutUnderscores? ('-' :: (← withoutZeros? t))
  | t => withoutUnderscores? (← withoutZeros? t)

/-- The integer that a string writes, as JSON does or in a looser form. -/
def numeral (t : Text) : Except Complaint Int :=
  match plainNumeral t with
  | .error .notNumeral =>
    match tidyNumeral? t with
    | none => .error .notNumeral
    | some t => (plainNumeral t).mapError fun _ => .notNumeral
  | r => r

/-- The bound of the whole numbers that are read, `2 ^ 63`. -/
def wholeBound : Int := 0x8000000000000000

/-- The integer that a number is: it must be a whole number of less than 64 bits. -/
def whole (x : Binary64) : Except Complaint Int :=
  match x with
  | .nan => .error .notFinite
  | .infinity _ => .error .notFinite
  | x =>
    match x.toInt? with
    | none => .error .fractional
    | some i => if -wholeBound < i ∧ i < wholeBound then .ok i else .error .tooLong

/-- An integer, from any value that can be read as one. -/
def integer : Check Int
  | .bool b => .ok (if b then 1 else 0)
  | .int i => .ok i
  | .float x => (whole x).mapError .here
  | .string (.text t) => (numeral t).mapError .here
  | .string (.broken _) => .error (.here .notText)
  | _ => .error (.here .notInteger)

/-- The version, which has to be the one that is written. -/
def version : Check Int := fun v => do
  let i ← integer v
  if i < Snapshot.version then .error (.here .tooSmall)
  else if Snapshot.version < i then .error (.here .tooLarge)
  else return i

/-! ### Objects -/

/-- A name of one word. -/
def FieldName.plain (main : String) : FieldName := ⟨main.toList, none⟩

/-- A name of two words, with its other spelling. -/
def FieldName.double (main alternative : String) : FieldName :=
  ⟨main.toList, some alternative.toList⟩

/-- The name of a table. -/
def tableName : FieldName := .double "tableName" "table_name"

/-- The name of a schema. -/
def schemaName : FieldName := .double "schemaName" "schema_name"

/-- The name of a field. -/
def fieldName : FieldName := .double "fieldName" "field_name"

/-- The order of the tables. -/
def tableOrder : FieldName := .double "tableOrder" "table_order"

/-- An entry of the order. -/
def entry : Check (TableEntry Wording) := fun v => do
  let ms ← object "TableOrderPayload" v
  let table ← required tableName text ms
  let schema ← optional schemaName none (nullable text) ms
  noOthers [tableName, schemaName] ms
  return ⟨table, schema⟩

/-- The table and the field of a comment. -/
def context : Check (Anchor Wording) := fun v => do
  let ms ← object "CommentContextPayload" v
  let table ← optional tableName none (nullable text) ms
  let field ← optional fieldName none (nullable text) ms
  noOthers [tableName, fieldName] ms
  return ⟨table, field⟩

/-- A comment. -/
def comment : Check (Comment Wording) := fun v => do
  let ms ← object "CommentPayload" v
  let k ← required (.plain "type") kind ms
  let t ← required (.plain "text") text ms
  let a ← optional (.plain "context") none (nullable context) ms
  noOthers [.plain "type", .plain "text", .plain "context"] ms
  let anchor := a.getD .none
  if Comment.AnchorRule k anchor then return ⟨k, t, anchor⟩ else .error (.here (.anchor k))

/-- A snapshot. -/
def snapshot : Check (Snapshot Wording) := fun v => do
  let ms ← object "SnapshotPayload" v
  let _ ← optional (.plain "version") Snapshot.version version ms
  let order ← optional tableOrder [] (list entry) ms
  let comments ← optional (.plain "comments") [] (list comment) ms
  noOthers [.plain "version", tableOrder, .plain "comments"] ms
  return ⟨order, comments⟩

end Payload

end DbmlRestore
