import DbmlRestore.Json.Basic
import DbmlRestore.Text.Digit
import DbmlRestore.Text.Position
import DbmlRestore.Text.Quoted

/-!
# Reading JSON

The reader works on what is left of the text, so a fault is known by the rest of
the text where it was found, and its line and column are counted at the end
(`Json.parse`). Beside the values of the standard it knows `NaN`, `Infinity` and
`-Infinity`.

* Between tokens stand spaces, tabs, line feeds and carriage returns only.
* A number is read as far as it goes: `01` is `0` followed by other text.
* An escape of four digits must be followed by some character, as its string is
  not closed yet.
* An integer of more than 4300 digits is refused as it is read
  (`digitLimit`).

What is read is a text. A broken wording is read by texts that carry it
(`Json.parseWording`).
-/

namespace DbmlRestore

namespace Json

/-! ## Faults -/

/-- What is wrong with a text that is not JSON. -/
inductive Fault where
  /-- The text starts with a byte order mark. -/
  | byteOrderMark
  /-- A value is missing. -/
  | value
  /-- A key is missing. -/
  | key
  /-- A colon is missing after a key. -/
  | colon
  /-- A comma is missing between members or items. -/
  | comma
  /-- A string is not closed. -/
  | unterminated
  /-- A control character stands in a string. -/
  | control
  /-- A backslash is followed by a character that cannot be escaped. -/
  | escape
  /-- An escape by number has too few digits. -/
  | unicodeEscape
  /-- Some text follows the value. -/
  | extra
deriving Repr, DecidableEq

/-- The message for a fault. -/
def Fault.message : Fault → Text
  | .byteOrderMark => "Unexpected UTF-8 BOM (decode using utf-8-sig)".toList
  | .value => "Expecting value".toList
  | .key => "Expecting property name enclosed in double quotes".toList
  | .colon => "Expecting ':' delimiter".toList
  | .comma => "Expecting ',' delimiter".toList
  | .unterminated => "Unterminated string starting at".toList
  | .control => "Invalid control character at".toList
  | .escape => "Invalid \\escape".toList
  | .unicodeEscape => "Invalid \\uXXXX escape".toList
  | .extra => "Extra data".toList

/-- Why reading stopped: a fault, with the rest of the text where it was found, or
    an integer with too many digits. -/
inductive Stop where
  /-- The text is not JSON. -/
  | fault (fault : Fault) (rest : Text)
  /-- An integer has too many digits. -/
  | digits (count : Nat)
deriving Repr, DecidableEq

/-- Reads a part of a value from the front of a text. -/
abbrev Reader (α : Type) := Text → Except Stop (α × Text)

/-! ## Blanks -/

/-- The characters that may stand between tokens. -/
def isSpace (c : Char) : Bool :=
  c == ' ' || c == '\t' || c == '\n' || c == '\r'

/-- The text after the characters that may stand between tokens. -/
def skipSpace (t : Text) : Text := t.dropWhile isSpace

/-! ## Strings -/

/-- The value of a hexadecimal digit, of either case. -/
def hexDigit? (c : Char) : Option Nat :=
  if '0' ≤ c ∧ c ≤ '9' then some (c.toNat - '0'.toNat)
  else if 'a' ≤ c ∧ c ≤ 'f' then some (c.toNat - 'a'.toNat + 10)
  else if 'A' ≤ c ∧ c ≤ 'F' then some (c.toNat - 'A'.toNat + 10)
  else none

/-- The number written by four hexadecimal digits. -/
def hex4? (a b c d : Char) : Option Nat := do
  return (((← hexDigit? a) * 16 + (← hexDigit? b)) * 16 + (← hexDigit? c)) * 16 + (← hexDigit? d)

/-- The character that a letter stands for after a backslash. -/
def unescape? : Char → Option Char
  | '"' => some '"'
  | '\\' => some '\\'
  | '/' => some '/'
  | 'b' => some '\x08'
  | 'f' => some '\x0c'
  | 'n' => some '\n'
  | 'r' => some '\r'
  | 't' => some '\t'
  | _ => none

/-- The rest of a string after its opening quote, as codes; `start` is the text from
    that quote on. -/
def stringRest (start : Text) : Text → Except Stop (List Nat × Text)
  | [] => .error (.fault .unterminated start)
  | '"' :: t => .ok ([], t)
  | ['\\'] => .error (.fault .unterminated start)
  | '\\' :: 'u' :: a :: b :: c :: d :: e :: t =>
    match hex4? a b c d with
    | none => .error (.fault .unicodeEscape ('u' :: a :: b :: c :: d :: e :: t))
    | some n => (stringRest start (e :: t)).map fun (ns, rest) => (n :: ns, rest)
  | '\\' :: 'u' :: t => .error (.fault .unicodeEscape ('u' :: t))
  | '\\' :: c :: t =>
    match unescape? c with
    | none => .error (.fault .escape ('\\' :: c :: t))
    | some x => (stringRest start t).map fun (ns, rest) => (x.toNat :: ns, rest)
  | c :: t =>
    if c.toNat < 32 then .error (.fault .control (c :: t))
    else (stringRest start t).map fun (ns, rest) => (c.toNat :: ns, rest)

/-- Whether a number is the first half of a surrogate pair. -/
def isHigh (n : Nat) : Bool := 0xD800 ≤ n && n < 0xDC00

/-- Whether a number is the second half of a surrogate pair. -/
def isLow (n : Nat) : Bool := 0xDC00 ≤ n && n < 0xE000

/-- The codes, with the two halves of each surrogate pair as one. -/
def paired : List Nat → List Nat
  | m :: n :: ns =>
    if isHigh m && isLow n then
      (0x10000 + (m - 0xD800) * 0x400 + (n - 0xDC00)) :: paired ns
    else m :: paired (n :: ns)
  | ns => ns

/-- What codes write. -/
def wordingOf (ns : List Nat) : Wording := .ofCodes (paired ns)

/-! ## Numbers -/

/-- The parts of a number. -/
structure Numeral where
  /-- Whether there is a minus sign. -/
  negative : Bool
  /-- The digits before the point. -/
  whole : Text
  /-- The digits after the point, if there is one. -/
  fraction : Option Text
  /-- The exponent, if there is one. -/
  exponent : Option Int
deriving Repr, DecidableEq

/-- The number that digits write in base ten. -/
def ofDigits (t : Text) : Nat :=
  t.foldl (fun n c => n * 10 + (c.toNat - '0'.toNat)) 0

/-- A digit of base ten. -/
def isDigit (c : Char) : Bool := '0' ≤ c && c ≤ '9'

/-- The digits before the point: a zero, or digits that do not start with one. -/
def whole? : Text → Option (Text × Text)
  | '0' :: t => some (['0'], t)
  | t =>
    match t.takeWhile isDigit with
    | [] => none
    | digits => some (digits, t.dropWhile isDigit)

/-- The digits after a point, if a point and a digit follow. -/
def fraction : Text → Option Text × Text
  | '.' :: t =>
    match t.takeWhile isDigit with
    | [] => (none, '.' :: t)
    | digits => (some digits, t.dropWhile isDigit)
  | t => (none, t)

/-- The digits of an exponent with their sign, if there are any. -/
def signed? : Text → Option (Int × Text)
  | '-' :: t => unsigned t |>.map fun (n, rest) => (-(n : Int), rest)
  | '+' :: t => unsigned t |>.map fun (n, rest) => ((n : Int), rest)
  | t => unsigned t |>.map fun (n, rest) => ((n : Int), rest)
where
  /-- The digits at the front of a text. -/
  unsigned (t : Text) : Option (Nat × Text) :=
    match t.takeWhile isDigit with
    | [] => none
    | digits => some (ofDigits digits, t.dropWhile isDigit)

/-- The exponent, if one follows. -/
def exponent : Text → Option Int × Text
  | 'e' :: t => (signed? t).elim (none, 'e' :: t) fun (e, rest) => (some e, rest)
  | 'E' :: t => (signed? t).elim (none, 'E' :: t) fun (e, rest) => (some e, rest)
  | t => (none, t)

/-- The number at the front of a text, without its sign. -/
def magnitude? (negative : Bool) (t : Text) : Option (Numeral × Text) := do
  let (digits, t) ← whole? t
  let (f, t) := fraction t
  let (e, t) := exponent t
  return (⟨negative, digits, f, e⟩, t)

/-- The number at the front of a text. -/
def numeral? : Text → Option (Numeral × Text)
  | '-' :: t => magnitude? true t
  | t => magnitude? false t

/-- The value of a number. -/
def Numeral.value (n : Numeral) : Except Stop Json :=
  match n.fraction, n.exponent with
  | none, none =>
    if digitLimit < n.whole.length then .error (.digits n.whole.length)
    else .ok (.int (if n.negative then -(ofDigits n.whole : Int) else ofDigits n.whole))
  | f, e =>
    let f := f.getD []
    .ok (.float (.ofDecimal n.negative (ofDigits (n.whole ++ f)) (e.getD 0 - f.length)))

/-! ## Values -/

/-- The words that are values. -/
def words : List (Text × Json) :=
  [("null".toList, .null), ("true".toList, .bool true), ("false".toList, .bool false),
    ("NaN".toList, .float .nan), ("Infinity".toList, .float (.infinity false)),
    ("-Infinity".toList, .float (.infinity true))]

/-- The value at the front of a text that is a word. -/
def word? (t : Text) : Option (Json × Text) :=
  words.findSome? fun (w, v) => (Text.after? w t).map (v, ·)

/-- A word or a number. -/
def scalar : Reader Json := fun t =>
  match word? t with
  | some r => .ok r
  | none =>
    match numeral? t with
    | some (n, rest) => n.value.map (·, rest)
    | none => .error (.fault .value t)

/-- The items of an array up to its bracket, each read by `item`. -/
def items (item : Reader Json) : (fuel : Nat) → Reader (List Json)
  | 0, t => .error (.fault .value t)
  | fuel + 1, t => do
    let (v, t) ← item t
    match skipSpace t with
    | ']' :: t => return ([v], t)
    | ',' :: t =>
      let (vs, t) ← items item fuel (skipSpace t)
      return (v :: vs, t)
    | t => .error (.fault .comma t)

/-- The key of a member and the colon after it. -/
def memberKey : Reader Wording
  | '"' :: t => do
    let (ns, t) ← stringRest ('"' :: t) t
    match skipSpace t with
    | ':' :: t => return (wordingOf ns, skipSpace t)
    | t => .error (.fault .colon t)
  | t => .error (.fault .key t)

/-- The members of an object up to its brace, each value read by `item`. -/
def members (item : Reader Json) : (fuel : Nat) → Reader (List (Wording × Json))
  | 0, t => .error (.fault .key t)
  | fuel + 1, t => do
    let (k, t) ← memberKey t
    let (v, t) ← item t
    match skipSpace t with
    | '\x7d' :: t => return ([(k, v)], t)
    | ',' :: t =>
      let (ms, t) ← members item fuel (skipSpace t)
      return ((k, v) :: ms, t)
    | t => .error (.fault .comma t)

/-- The value at the front of a text, nested at most as deep as `fuel` says. -/
def value : (fuel : Nat) → Reader Json
  | 0, t => .error (.fault .value t)
  | fuel + 1, t =>
    match t with
    | '"' :: rest => do
      let (ns, rest) ← stringRest t rest
      return (.string (wordingOf ns), rest)
    | '[' :: rest =>
      match skipSpace rest with
      | ']' :: rest => .ok (.array [], rest)
      | rest => do
        let (vs, rest) ← items (value fuel) rest.length rest
        return (.array vs, rest)
    | '\x7b' :: rest =>
      match skipSpace rest with
      | '\x7d' :: rest => .ok (.object [], rest)
      | rest => do
        let (ms, rest) ← members (value fuel) rest.length rest
        return (.object (ms.foldl (fun acc (k, v) => Members.insert k v acc) []), rest)
    | _ => scalar t

/-- The value that is the whole of a text. -/
def document (t : Text) : Except Stop Json :=
  match t with
  | '\uFEFF' :: _ => .error (.fault .byteOrderMark t)
  | _ => do
    let (v, rest) ← value (t.length + 1) (skipSpace t)
    match skipSpace rest with
    | [] => return v
    | rest => .error (.fault .extra rest)

/-! ## Texts -/

/-- Why a text cannot be read. -/
inductive ReadError where
  /-- The text is not JSON. -/
  | notJson (fault : Fault) (position : Position)
  /-- An integer has too many digits. -/
  | digits (count : Nat)
deriving Repr, DecidableEq

/-- The JSON value that a text is. -/
def parse (t : Text) : Except ReadError Json :=
  match document t with
  | .ok v => .ok v
  | .error (.fault f rest) => .error (.notJson f (.ofRest t rest))
  | .error (.digits n) => .error (.digits n)

/-! ## Broken wordings -/

/-- The mark of carried wordings as an escape. -/
def markEscape : Text := "\\udbff\\udfff".toList

/-- Whether the numbers are those of a text that starts with an escaped mark, in digits of
    either case. -/
def startsWithMarkEscape (codes : List Nat) : Bool :=
  (codes.take markEscape.length).map (fun n => (Char.ofNat n).toLower) == markEscape

/-- The numbers of a text whose strings carry those of the given one: a mark is doubled
    there also if it is escaped. -/
def carriersOf : List Nat → List Nat
  | [] => []
  | [n] => Wording.carriers n
  | m :: n :: ns =>
    -- What follows a backslash belongs to it, and is no backslash of its own.
    if m = '\\'.toNat then
      (if startsWithMarkEscape (m :: n :: ns) then markEscape.map Char.toNat else []) ++
        m :: Wording.carriers n ++ carriersOf ns
    else Wording.carriers m ++ carriersOf (n :: ns)

/-- The JSON value that a wording is. In a broken wording, halves can stand in strings like
    characters that are not escaped. -/
def parseWording : Wording → Except ReadError Json
  | .text t => parse t
  | .broken codes =>
    -- A fault is found where it is in a text with one other character for each half.
    match parse (Wording.broken codes).visible with
    | .error e => .error e
    | .ok _ =>
      (parse ((carriersOf codes).map Char.ofNat)).map
        (mapStrings fun w => .ofCodes (Wording.uncarried w.codes))

end Json

end DbmlRestore
