import DbmlRestore.Text

/-!
# Lines of a schema

The grammar of the schema language is not modelled: a scanner looks at one line
at a time, and asks the questions of this module about the line or about its
trimmed form. All scanners ask the same questions, and so recognise the same
constructs.

* `Line.tableHeader?`: a `Table` header and the names it carries;
* `Line.isEnumHeader`, `Line.isRefHeader`: the other headers that open a block;
* `Line.isComment`, `Line.opensComment`, `Line.closesComment`: full-line comments
  and the two ends of a block comment;
* `Line.inlineComment?`: the comment after some code;
* `Line.fieldName?`: the quoted name a field declaration starts with;
* `Line.opens`, `Line.closes`: the braces, wherever on the line they stand.
-/

namespace DbmlRestore

/-- The names on a `Table` header: `Table users`, `Table "users"`,
    `Table public.users`, `Table "public"."users"`. -/
structure TableHeader where
  /-- The schema, if the name is qualified. -/
  schema : Option Text
  /-- The table. -/
  table : Text
deriving Repr, DecidableEq

namespace Line

/-! ## Names -/

/-- The characters of a bare name: letters and digits of ASCII, and underscore. -/
def isNameChar (c : Char) : Bool :=
  c.isAlphanum || c == '_'

/-- A quoted name without its quotes, and what follows: one or more characters
    other than the quote, between quotes. -/
def quotedName? : Text → Option (Text × Text)
  | '"' :: t =>
    match t.takeWhile (· != '"'), t.dropWhile (· != '"') with
    | [], _ => none
    | _, [] => none
    | name, _ :: rest => some (name, rest)
  | _ => none

/-- A bare name, as long as possible, and what follows. -/
def bareName? (t : Text) : Option (Text × Text) :=
  match t.takeWhile isNameChar with
  | [] => none
  | name => some (name, t.dropWhile isNameChar)

/-- A name, quoted or bare, and what follows. -/
def name? (t : Text) : Option (Text × Text) :=
  quotedName? t <|> bareName? t

/-- The name after a dot, if the text starts with a dot and a name. -/
def dottedName? : Text → Option Text
  | '.' :: t => (name? t).map (·.1)
  | _ => none

/-! ## Headers -/

/-- What follows a keyword, given in lower case; the case of the letters of ASCII
    does not matter. -/
def afterWord? : (word : List Char) → Text → Option Text
  | [], t => some t
  | _ :: _, [] => none
  | w :: word, c :: t => if c.toLower = w then afterWord? word t else none

/-- The names after the keyword of a `Table` header: a name that is followed by a
    dot and a second name is the schema of that one, and else the table. -/
def headerNames? (t : Text) : Option TableHeader :=
  match name? t with
  | none => none
  | some (first, rest) =>
    match dottedName? rest with
    | some second => some ⟨some first, second⟩
    | none => some ⟨none, first⟩

/-- The names on a trimmed line that is a `Table` header. The keyword and the
    names are apart by blanks of ASCII. -/
def tableHeader? (trimmed : Line) : Option TableHeader :=
  match afterWord? ['t', 'a', 'b', 'l', 'e'] trimmed with
  | some (c :: t) =>
    if Text.isAsciiBlank c then headerNames? (t.dropWhile Text.isAsciiBlank) else none
  | _ => none

/-- Whether a trimmed line is an `Enum` header: the keyword and a blank. -/
def isEnumHeader (trimmed : Line) : Bool :=
  match afterWord? ['e', 'n', 'u', 'm'] trimmed with
  | some (c :: _) => Text.isBlank c
  | _ => false

/-- Whether a trimmed line opens a `Ref`: the keyword, then a colon or a brace,
    blanks between them or not. A named reference is no header. -/
def isRefHeader (trimmed : Line) : Bool :=
  match afterWord? ['r', 'e', 'f'] trimmed with
  | some t =>
    match t.dropWhile Text.isBlank with
    | c :: _ => c == ':' || c == '\x7b'
    | [] => false
  | none => false

/-! ## Comments -/

/-- The mark that starts a comment to the end of the line. -/
def commentMark : Text := ['/', '/']

/-- The mark that opens a block comment. -/
def openMark : Text := ['/', '*']

/-- The mark that closes a block comment. -/
def closeMark : Text := ['*', '/']

/-- Whether a trimmed line is a comment to its end. -/
def isComment (trimmed : Line) : Bool :=
  commentMark.isPrefixOf trimmed

/-- Whether a trimmed line opens a block comment. -/
def opensComment (trimmed : Line) : Bool :=
  openMark.isPrefixOf trimmed

/-- Whether a line holds the end of a block comment. -/
def closesComment (line : Line) : Bool :=
  Text.holds closeMark line

/-- A line cut at its first comment mark that follows other content. A line feed
    at the end of the given text is left out, and one before it leaves no
    comment. -/
def inlineComment? (line : Line) : Option (Text × Text) :=
  let body := if line.getLast? = some '\n' then line.dropLast else line
  match body with
  | [] => none
  | c :: t =>
    if (c :: t).contains '\n' then none
    else (Text.cutBefore? commentMark t).map fun (code, comment) => (c :: code, comment)

/-! ## Fields and braces -/

/-- The quoted name that a trimmed field declaration starts with. -/
def fieldName? (trimmed : Line) : Option Text :=
  (quotedName? trimmed).map (·.1)

/-- The number of opening braces on a line, those in quotes included. -/
def opens (line : Line) : Nat :=
  line.count '\x7b'

/-- The number of closing braces on a line, those in quotes included. -/
def closes (line : Line) : Nat :=
  line.count '\x7d'

/-- How a line changes the brace depth. -/
def depthChange (line : Line) : Int :=
  (opens line : Int) - (closes line : Int)

/-- Whether a line has no character but blanks. -/
def isBlankLine (line : Line) : Bool :=
  line.all Text.isBlank

end Line

end DbmlRestore
